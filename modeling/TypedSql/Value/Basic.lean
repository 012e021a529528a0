import TypedSql.Calendar.Moment
import TypedSql.Column.Settings
import TypedSql.Network.Address
import TypedSql.Number.Shortest
import TypedSql.Operator
import TypedSql.Uuid

/-!
# Values

The dynamic values that records, conditions, definitions and reports are made of: scalars,
containers and the nodes of condition trees. A kind and an operator count as the text of their name;
`asText?` gives the text of all three. The other functions here classify values without looking
inside. A dimension of a column that is no whole number stands among its loose ones.
-/

namespace TypedSql

open TypedSql.Number TypedSql.Calendar TypedSql.Network

/-- The family of a reported failure. -/
inductive Family where
  | general | validation | typeMapping | schema | query | model
deriving DecidableEq, Repr

/-- A dynamic value. -/
inductive Value where
  | null
  | bool (flag : Bool)
  | int (number : Int)
  | float (number : Binary64)
  | decimal (number : Decimal)
  | text (chars : String)
  | kind (kind : Kind)
  | operator (operator : Operator)
  | moment (moment : Moment)
  | date (date : Date)
  | uuid (uuid : Uuid)
  | ipv4 (address : Ipv4)
  | ipv6 (address : Ipv6)
  | bytes (bytes : List UInt8)
  | list (items : List Value)
  | tuple (items : List Value)
  | map (entries : List (Value × Value))
  | member (name : String) (value : Value)
  | foreign (label : String)
  | conjunction (conditions : List Value)
  | disjunction (conditions : List Value)
  | negation (condition : Value)
  | literal (value : Value)
  | operators (entries : List (Operator × Value))
  | raw (sql : String) (values : List Value)
  | column (settings : ColumnSettings) (default : Option (Default Value))
      (loose : List (Dimension × Value))
  | columnDefault (default : Default Value)
  | generator (source : Generator Value)
  | report (family : Family) (message context : Value)
  | exception (name : String) (arguments : List Value)
deriving Inhabited

/-- The entries of a map value, in order. -/
abbrev Entries := List (Value × Value)

namespace Value

/-- The text of a text, a kind or an operator. -/
def asText? : Value → Option String
  | text chars => some chars
  | kind known => some known.name
  | operator known => some known.key
  | _ => none

/-- Whether a value is the null value. -/
def isNull : Value → Bool
  | null => true
  | _ => false

/-- Whether a value counts as text. -/
def isText (value : Value) : Bool := value.asText?.isSome

/-- The entries of a map. -/
def asMap? : Value → Option Entries
  | map entries => some entries
  | _ => none

/-- The items of a list or a tuple. -/
def asItems? : Value → Option (List Value)
  | list items => some items
  | tuple items => some items
  | _ => none

/-- The whole number that a number or a flag is. -/
def asInt? : Value → Option Int
  | int number => some number
  | bool flag => some flag.toInt
  | _ => none

/-- The decimal equal to a number or a flag. -/
def asNumber? : Value → Option Decimal
  | bool flag => some (.ofInt flag.toInt)
  | int number => some (.ofInt number)
  | float number => some number.toDecimal
  | decimal number => some number
  | _ => none

/-- The names of the families of reports. -/
def familyName : Family → String
  | .general => "OrmhouseError"
  | .validation => "ValidationError"
  | .typeMapping => "TypeMappingError"
  | .schema => "SchemaError"
  | .query => "QueryError"
  | .model => "ModelError"

/-- The name of the type of a value, as messages give it. -/
def typeName : Value → String
  | null => "NoneType"
  | bool _ => "bool"
  | int _ => "int"
  | float _ => "float"
  | decimal _ => "Decimal"
  | text _ => "str"
  | kind _ => "DataType"
  | operator _ => "Operator"
  | moment _ => "datetime"
  | date _ => "date"
  | uuid _ => "UUID"
  | ipv4 _ => "IPv4Address"
  | ipv6 _ => "IPv6Address"
  | bytes _ => "bytes"
  | list _ => "list"
  | tuple _ => "tuple"
  | map _ => "dict"
  | member .. => "Member"
  | foreign _ => "Opaque"
  | conjunction _ => "And"
  | disjunction _ => "Or"
  | negation _ => "Not"
  | literal _ => "LiteralValue"
  | operators _ => "OperatorSet"
  | raw .. => "RawExpression"
  | column .. => "ColumnDefinition"
  | columnDefault (.literal _) => "LiteralDefault"
  | columnDefault (.generator _) => "GeneratorDefault"
  | generator _ => "function"
  | report family .. => familyName family
  | exception name _ => name

/-- Whether a value counts as true: null, zeros and empty texts and containers do not. -/
def isTruthy : Value → Bool
  | null => false
  | bool flag => flag
  | int number => number ≠ 0
  | float (.finite _ significand _) => significand ≠ 0
  | decimal (.finite _ coefficient _) => coefficient ≠ 0
  | text chars => !chars.isEmpty
  | bytes octets => !octets.isEmpty
  | list items => !items.isEmpty
  | tuple items => !items.isEmpty
  | map entries => !entries.isEmpty
  | _ => true

/-- The flag, the number or the text that an optional one is; absence is null. -/
def ofOption {α : Type} (wrap : α → Value) : Option α → Value
  | none => null
  | some inner => wrap inner

end Value

/-- The family of reports with a name. -/
def Family.ofName? (name : String) : Option Family :=
  [general, validation, typeMapping, schema, query, model].find? fun family =>
    Value.familyName family = name

end TypedSql
