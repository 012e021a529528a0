import TypedSql.Fault
import TypedSql.Text.Literal

/-!
# Type text of columns

The text of a column's type in statements, such as `Nullable(Decimal(10, 2))`, and the text of the
placeholder that binds a value for the column.
-/

namespace TypedSql.Column

open TypedSql.Text

/-- A type around its parameters. -/
def applyType (name : String) (parameters : List String) : String :=
  Value.applied name parameters

/-- A type that admits null. -/
def nullableText (type : String) : String := applyType (Kind.name .nullable) [type]

/-- The member of an enumeration type at a position, counted from zero. -/
def enumMember (value : String) (position : Nat) : String :=
  quoteLiteral value ++ " = " ++ toString (position + 1)

/-- The members of an enumeration type; ordinals follow the order of the values. -/
def enumMembers (values : List String) : List String :=
  values.zipIdx.map fun (value, position) => enumMember value position

/-- The places of date-times that give none. -/
def defaultPlaces : Int := 3

/-- The scale of a column; one that does not count as true is zero. -/
def scaleOrZero (column : Column) : Value :=
  let scale := column.dimension .scale
  if scale.isTruthy then scale else .int 0

/-- The type of a column around some dimensions. -/
def dimensioned (column : Column) (dimensions : List Value) : Except Fault String := do
  return applyType column.kind.name (← dimensions.mapM Value.displayed)

/-- The type of a column, disregarding null. -/
def bareType (column : Column) : Except Fault String :=
  let incomplete : Except Fault String := .error (.incompleteType column)
  let length := column.dimension .length
  let precision := column.dimension .precision
  match column.kind with
  | .fixedString => if length.isTruthy then dimensioned column [length] else incomplete
  | .decimal =>
    if precision.isTruthy then dimensioned column [precision, scaleOrZero column]
    else incomplete
  | .dateTime64 =>
    dimensioned column [if precision.isNull then .int defaultPlaces else precision]
  | .array | .lowCardinality | .nullable =>
    match column.elementKind with
    | some element => .ok (applyType column.kind.name [element.name])
    | none => incomplete
  | .enum8 | .enum16 =>
    match column.enumValues with
    | none | some [] => incomplete
    | some values => .ok (applyType column.kind.name (enumMembers values))
  | kind => .ok kind.name

/-- The type of a column. -/
def typeText (column : Column) : Except Fault String :=
  column.bareType.map fun type => if column.nullable then nullableText type else type

/-- The type of a placeholder that binds a value for a column; enumerations bind text. -/
def placeholderType (column : Column) : Except Fault String :=
  if column.kind.isEnum then
    .ok (if column.nullable then nullableText (Kind.name .string) else Kind.name .string)
  else column.typeText

end TypedSql.Column
