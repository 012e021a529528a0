import TypedSql.Text.Quoted
import TypedSql.Value.Record

/-!
# Displayed values

Two text forms of values: `display` shows texts and dates bare, `inspect` shows every value with its
quotes and its type where the form alone does not tell it. Values inside containers are inspected. A
value has a form only if every whole number that the form shows has a numeral.
-/

namespace TypedSql.Value

open TypedSql.Number TypedSql.Calendar TypedSql.Text

/-- The inspected form of a value: one text, or a record of named fields. -/
inductive Shown where
  | plain (text : String)
  | record (name : String) (fields : List (String × String))

/-- Texts between commas. -/
def commaSeparated (parts : List String) : String := ", ".intercalate parts

/-- A name and parts in parentheses after it. -/
def applied (name : String) (parts : List String) : String :=
  name ++ "(" ++ commaSeparated parts ++ ")"

/-- A field and its inspected value. -/
def fieldText (field : String × String) : String := field.1 ++ "=" ++ field.2

namespace Shown

/-- The inspected text. -/
def inspected : Shown → String
  | plain chars => chars
  | record name fields => applied name (fields.map fieldText)

/-- The displayed text: a record shows its fields without its name. -/
def displayed : Shown → String
  | plain chars => chars
  | record _ fields => " ".intercalate (fields.map fieldText)

end Shown

/-- The text of a flag. -/
def boolText (flag : Bool) : String := if flag then "True" else "False"

/-- The text of an absent value. -/
def nullText : String := "None"

/-- A tuple of inspected items; a single item keeps its comma. -/
def tupleText : List String → String
  | [item] => "(" ++ item ++ ",)"
  | items => "(" ++ commaSeparated items ++ ")"

/-- An inspected member of an enumeration. -/
def memberText (enumeration name value : String) : String :=
  "<" ++ enumeration ++ "." ++ name ++ ": " ++ value ++ ">"

/-- An inspected kind. -/
def kindText (kind : Kind) : String := memberText "DataType" kind.name (Quoted.ofText kind.name)

/-- An inspected operator. -/
def operatorText (operator : Operator) : String :=
  memberText "Operator" operator.name (Quoted.ofText operator.key)

/-- The inspected fields of a date. -/
def dateFields (date : Date) : List String :=
  [toString date.year, toString date.month, toString date.day]

/-- A quantity that is left out when it is zero. -/
def quantity (name : String) (amount : Int) : List String :=
  if amount = 0 then [] else [name ++ "=" ++ toString amount]

/-- An inspected offset, as whole days, seconds and microseconds. -/
def offsetText (offset : Offset) : String :=
  if offset.micros = 0 then "datetime.timezone.utc"
  else
    let rest := offset.micros % microsPerDay
    applied "datetime.timezone" [applied "datetime.timedelta"
      (quantity "days" (offset.micros / microsPerDay) ++
        quantity "seconds" (rest / microsPerSecond) ++
        quantity "microseconds" (rest % microsPerSecond))]

/-- An inspected moment; zero seconds and microseconds at the end are left out. -/
def momentText (moment : Moment) : String :=
  let time := moment.time
  applied "datetime.datetime"
    (dateFields moment.date ++ [toString time.hour, toString time.minute] ++
      (if time.micro ≠ 0 then [toString time.second, toString time.micro]
        else if time.second ≠ 0 then [toString time.second] else []) ++
      match moment.offset with
      | none => []
      | some offset => ["tzinfo=" ++ offsetText offset])

/-- An inspected optional value. -/
def optionText {α : Type} (show? : α → String) : Option α → String
  | none => nullText
  | some inner => show? inner

/-- An inspected dimension: a loose one, or the whole number. -/
def dimensionText (settings : ColumnSettings) (loose : List (Dimension × String))
    (dimension : Dimension) : String :=
  (loose.lookup dimension).getD (optionText toString (settings.dimension? dimension))

/-- The inspected fields of a column around its inspected default and loose dimensions. -/
def columnTexts (settings : ColumnSettings) (default : String)
    (loose : List (Dimension × String)) : List (String × String) :=
  [("type", kindText settings.kind),
    ("nullable", boolText settings.nullable),
    ("primary_key", boolText settings.primaryKey),
    ("unique", boolText settings.unique),
    ("auto_increment", boolText settings.autoIncrement),
    ("default", default),
    ("comment", optionText Quoted.ofText settings.comment),
    ("element_type", optionText kindText settings.elementKind),
    ("precision", dimensionText settings loose .precision),
    ("scale", dimensionText settings loose .scale),
    ("length", dimensionText settings loose .length),
    ("enum_values", optionText (fun values => tupleText (values.map Quoted.ofText))
      settings.enumValues)]

/-- The inspected form of a generator. -/
def generatorText : String := "<function>"

/-- An inspected generator default. -/
def generatorDefaultText : Shown :=
  .record "GeneratorDefault" [("kind", Quoted.ofText "generator"), ("factory", generatorText)]

/-- A literal default around its inspected value. -/
def literalDefaultText (value : String) : Shown :=
  .record "LiteralDefault" [("kind", Quoted.ofText "literal"), ("value", value)]

/-- An inspected exception: its name and its arguments. -/
def exceptionText (name : String) (arguments : List String) : String := applied name arguments

mutual

/-- The inspected form of a value. -/
def shown : Value → Shown
  | null => .plain nullText
  | bool flag => .plain (boolText flag)
  | int number => .plain (toString number)
  | float number => .plain number.render
  | decimal number => .plain (applied "Decimal" [Quoted.ofText number.render])
  | text chars => .plain (Quoted.ofText chars)
  | kind known => .plain (kindText known)
  | operator known => .plain (operatorText known)
  | moment known => .plain (momentText known)
  | date known => .plain (applied "datetime.date" (dateFields known))
  | uuid known => .plain (applied "UUID" [Quoted.ofText known.render])
  | ipv4 address => .plain (applied "IPv4Address" [Quoted.ofText address.render])
  | ipv6 address => .plain (applied "IPv6Address" [Quoted.ofText address.render])
  | bytes octets => .plain (Quoted.ofBytes octets)
  | list items => .plain ("[" ++ commaSeparated (shownItems items) ++ "]")
  | tuple items => .plain (tupleText (shownItems items))
  | map entries => .plain ("\x7b" ++ commaSeparated (shownEntries entries) ++ "\x7d")
  | member name value => .plain (memberText "Member" name (shown value).inspected)
  | foreign label => .plain ("<opaque " ++ label ++ ">")
  | conjunction conditions => .record "And" [("conditions", tupleText (shownItems conditions))]
  | disjunction conditions => .record "Or" [("conditions", tupleText (shownItems conditions))]
  | negation condition => .record "Not" [("condition", (shown condition).inspected)]
  | literal value => .record "LiteralValue" [("value", (shown value).inspected)]
  | operators entries => .record "OperatorSet" [("operators", tupleText (shownOperators entries))]
  | raw sql values =>
    .record "RawExpression" [("sql", Quoted.ofText sql), ("values", tupleText (shownItems values))]
  | column settings default loose =>
    .record "ColumnDefinition" (columnTexts settings (shownDefault default) (shownLoose loose))
  | columnDefault (.literal value) => literalDefaultText (shown value).inspected
  | columnDefault (.generator _) => generatorDefaultText
  | generator _ => .plain generatorText
  | report family message _ =>
    .plain (exceptionText (familyName family) [(shown message).inspected])
  | exception name arguments => .plain (exceptionText name (shownItems arguments))

/-- An inspected optional default. -/
def shownDefault : Option (Default Value) → String
  | none => nullText
  | some (.literal value) => (literalDefaultText (shown value).inspected).inspected
  | some (.generator _) => generatorDefaultText.inspected

/-- The inspected loose dimensions of a column. -/
def shownLoose : List (Dimension × Value) → List (Dimension × String)
  | [] => []
  | (dimension, value) :: rest => (dimension, (shown value).inspected) :: shownLoose rest

/-- The inspected items of a container. -/
def shownItems : List Value → List String
  | [] => []
  | item :: rest => (shown item).inspected :: shownItems rest

/-- The inspected entries of a map. -/
def shownEntries : List (Value × Value) → List String
  | [] => []
  | (key, value) :: rest =>
    ((shown key).inspected ++ ": " ++ (shown value).inspected) :: shownEntries rest

/-- The inspected operators of a set. -/
def shownOperators : List (Operator × Value) → List String
  | [] => []
  | (known, value) :: rest =>
    tupleText [operatorText known, (shown value).inspected] :: shownOperators rest

end

/-- Whether every dimension of a column that is no loose one has a numeral. -/
def hasDimensionNumerals (settings : ColumnSettings) (loose : List (Dimension × Value)) : Bool :=
  Dimension.all.all fun dimension =>
    (loose.lookup dimension).isSome || (settings.dimension? dimension).all hasNumeral

mutual

/-- Whether a value has an inspected form: every whole number in it has a numeral. -/
def isInspectable : Value → Bool
  | int number => hasNumeral number
  | list items => areInspectable items
  | tuple items => areInspectable items
  | map entries => hasInspectableEntries entries
  | member _ value => isInspectable value
  | conjunction conditions => areInspectable conditions
  | disjunction conditions => areInspectable conditions
  | negation condition => isInspectable condition
  | literal value => isInspectable value
  | operators entries => hasInspectableOperators entries
  | raw _ values => areInspectable values
  | column settings default loose =>
    hasDimensionNumerals settings loose && hasInspectableDefault default &&
      hasInspectableLoose loose
  | columnDefault (.literal value) => isInspectable value
  | report _ message _ => isInspectable message
  | exception _ arguments => areInspectable arguments
  | _ => true

/-- Whether an optional default has an inspected form. -/
def hasInspectableDefault : Option (Default Value) → Bool
  | some (.literal value) => isInspectable value
  | _ => true

/-- Whether the loose dimensions of a column have inspected forms. -/
def hasInspectableLoose : List (Dimension × Value) → Bool
  | [] => true
  | (_, value) :: rest => isInspectable value && hasInspectableLoose rest

/-- Whether all items of a container have inspected forms. -/
def areInspectable : List Value → Bool
  | [] => true
  | item :: rest => isInspectable item && areInspectable rest

/-- Whether the entries of a map have inspected forms. -/
def hasInspectableEntries : List (Value × Value) → Bool
  | [] => true
  | (key, value) :: rest =>
    isInspectable key && isInspectable value && hasInspectableEntries rest

/-- Whether the values of operators have inspected forms. -/
def hasInspectableOperators : List (Operator × Value) → Bool
  | [] => true
  | (_, value) :: rest => isInspectable value && hasInspectableOperators rest

end

/-- The text form of a value that tells its type. -/
def inspect (value : Value) : String := value.shown.inspected

/-- The text form of a value. -/
def display : Value → String
  | text chars => chars
  | kind known => known.name
  | operator known => "Operator." ++ known.name
  | decimal number => number.render
  | moment known => known.renderWith ' '
  | date known => known.render
  | uuid known => known.render
  | ipv4 address => address.render
  | ipv6 address => address.render
  | member name _ => "Member." ++ name
  | report _ message _ => display message
  | exception _ [] => ""
  | exception name [argument] => if name = "KeyError" then argument.inspect else display argument
  | exception _ arguments => tupleText (shownItems arguments)
  | value => value.shown.displayed

/-- Whether a value has a text form; whole numbers with too many digits have none. -/
def isDisplayable : Value → Bool
  | member _ _ => true
  | report _ message _ => isDisplayable message
  | exception name [argument] =>
    if name = "KeyError" then argument.isInspectable else isDisplayable argument
  | value => value.isInspectable

/-- The text form of a value that tells its type, if there is one. -/
def inspected? (value : Value) : Option String :=
  if value.isInspectable then some value.inspect else none

/-- The text form of a value, if there is one. -/
def displayed? (value : Value) : Option String :=
  if value.isDisplayable then some value.display else none

end TypedSql.Value
