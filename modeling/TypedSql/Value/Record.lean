import TypedSql.Value.Basic

/-!
# Fields and elements

Nodes, columns and defaults are records of named fields. A walk over a container meets its elements;
a walk over a record meets its fields, each with its name, though a record has no length.
-/

namespace TypedSql.Value

/-- A dimension of a column: its loose value, else its whole number, else null. -/
def dimensionOf (settings : ColumnSettings) (loose : List (Dimension × Value))
    (dimension : Dimension) : Value :=
  (loose.lookup dimension).getD (ofOption int (settings.dimension? dimension))

/-- The values of an enumeration as a value. -/
def ofEnumeration (values : List String) : Value := tuple (values.map text)

/-- The fields of a column, in declaration order. -/
def columnFields (settings : ColumnSettings) (default : Option (Default Value))
    (loose : List (Dimension × Value)) : List (String × Value) :=
  [("type", kind settings.kind),
    ("nullable", bool settings.nullable),
    ("primary_key", bool settings.primaryKey),
    ("unique", bool settings.unique),
    ("auto_increment", bool settings.autoIncrement),
    ("default", ofOption columnDefault default),
    ("comment", ofOption text settings.comment),
    ("element_type", ofOption kind settings.elementKind),
    ("precision", dimensionOf settings loose .precision),
    ("scale", dimensionOf settings loose .scale),
    ("length", dimensionOf settings loose .length),
    ("enum_values", ofOption ofEnumeration settings.enumValues)]

/-- The fields of a default. -/
def defaultFields (default : Default Value) : List (String × Value) :=
  [("kind", text default.flavour),
    match default with
    | .literal value => ("value", value)
    | .generator source => ("factory", generator source)]

/-- The fields of a record. -/
def fields? : Value → Option (List (String × Value))
  | conjunction conditions => some [("conditions", tuple conditions)]
  | disjunction conditions => some [("conditions", tuple conditions)]
  | negation condition => some [("condition", condition)]
  | literal value => some [("value", value)]
  | operators entries =>
    some [("operators", tuple (entries.map fun (known, value) => tuple [operator known, value]))]
  | raw sql values => some [("sql", text sql), ("values", tuple values)]
  | column settings default loose => some (columnFields settings default loose)
  | columnDefault default => some (defaultFields default)
  | _ => none

/-- The elements of a container: items, keys, characters or byte values. -/
def contents? : Value → Option (List Value)
  | list items => some items
  | tuple items => some items
  | map entries => some (entries.map Prod.fst)
  | bytes octets => some (octets.map fun octet => int octet.toNat)
  | value => value.asText?.map fun chars => chars.toList.map fun c => text (String.singleton c)

/-- What a walk over a value meets: the elements of a container, the fields of a record. -/
def elements? (value : Value) : Option (List Value) :=
  value.contents?.or
    (value.fields?.map fun fields => fields.map fun (name, value) => tuple [text name, value])

/-- How many elements a container has. -/
def length? (value : Value) : Option Nat := value.contents?.map List.length

end TypedSql.Value
