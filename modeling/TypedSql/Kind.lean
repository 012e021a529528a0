import TypedSql.Number.Power

/-!
# Column kinds

The kinds of database columns, their names, the families they belong to and the ranges of the
integer kinds. Two kinds are compatible when they are equal or share a family.
-/

namespace TypedSql

open TypedSql.Number

/-- The kind of a database column. -/
inductive Kind where
  | uint8 | uint16 | uint32 | uint64
  | int8 | int16 | int32 | int64
  | float32 | float64 | decimal
  | string | fixedString
  | date | date32 | dateTime | dateTime64
  | boolean | uuid
  | enum8 | enum16
  | array | tuple | map | nested | json
  | nullable | lowCardinality
  | ipv4 | ipv6
deriving DecidableEq, Repr

namespace Kind

/-- Every kind, in declaration order. -/
def all : List Kind :=
  [uint8, uint16, uint32, uint64, int8, int16, int32, int64, float32, float64, decimal, string,
    fixedString, date, date32, dateTime, dateTime64, boolean, uuid, enum8, enum16, array, tuple,
    map, nested, json, nullable, lowCardinality, ipv4, ipv6]

/-- The name of a kind in type text. -/
def name : Kind → String
  | uint8 => "UInt8"
  | uint16 => "UInt16"
  | uint32 => "UInt32"
  | uint64 => "UInt64"
  | int8 => "Int8"
  | int16 => "Int16"
  | int32 => "Int32"
  | int64 => "Int64"
  | float32 => "Float32"
  | float64 => "Float64"
  | decimal => "Decimal"
  | string => "String"
  | fixedString => "FixedString"
  | date => "Date"
  | date32 => "Date32"
  | dateTime => "DateTime"
  | dateTime64 => "DateTime64"
  | boolean => "Boolean"
  | uuid => "UUID"
  | enum8 => "Enum8"
  | enum16 => "Enum16"
  | array => "Array"
  | tuple => "Tuple"
  | map => "Map"
  | nested => "Nested"
  | json => "JSON"
  | nullable => "Nullable"
  | lowCardinality => "LowCardinality"
  | ipv4 => "IPv4"
  | ipv6 => "IPv6"

/-- The kind with a name. -/
def ofName? (name : String) : Option Kind := all.find? fun kind => kind.name = name

/-- The inclusive range of an integer kind. -/
def integerRange? : Kind → Option (Int × Int)
  | uint8 => some (unsignedRange 8)
  | uint16 => some (unsignedRange 16)
  | uint32 => some (unsignedRange 32)
  | uint64 => some (unsignedRange 64)
  | int8 => some (signedRange 8)
  | int16 => some (signedRange 16)
  | int32 => some (signedRange 32)
  | int64 => some (signedRange 64)
  | _ => none

/-- Whether a number lies in the range of an integer kind. -/
def holds (kind : Kind) (number : Int) : Bool :=
  kind.integerRange?.any fun range => inRange range number

/-- The integer kinds of a fixed width. -/
def isInteger (kind : Kind) : Bool := kind.integerRange?.isSome

/-- The binary floating-point kinds. -/
def isFloat : Kind → Bool
  | float32 | float64 => true
  | _ => false

/-- The kinds of numbers. -/
def isNumeric (kind : Kind) : Bool := kind.isInteger || kind.isFloat || kind = decimal

/-- The kinds of strings. -/
def isString : Kind → Bool
  | string | fixedString | uuid => true
  | _ => false

/-- The kinds that are sent as text. -/
def isText (kind : Kind) : Bool := kind.isString || kind = ipv4 || kind = ipv6

/-- The kinds of dates and times. -/
def isDate : Kind → Bool
  | date | date32 | dateTime | dateTime64 => true
  | _ => false

/-- The kinds of enumerations. -/
def isEnum : Kind → Bool
  | enum8 | enum16 => true
  | _ => false

/-- The kinds written around another kind. -/
def isWrapper : Kind → Bool
  | array | lowCardinality | nullable => true
  | _ => false

/-- How many values an enumeration kind may have. -/
def enumLimit? : Kind → Option Nat
  | enum8 => some 256
  | enum16 => some 65536
  | _ => none

/-- Whether both kinds belong to the family of numbers, of strings or of dates. -/
def sharesFamily (first second : Kind) : Bool :=
  (first.isNumeric && second.isNumeric) || (first.isString && second.isString) ||
    (first.isDate && second.isDate)

/-- Whether a kind can stand for another. -/
def isCompatible (first second : Kind) : Bool := first = second || first.sharesFamily second

/-- The kinds compatible with a kind. -/
def compatibleKinds (kind : Kind) : List Kind := all.filter kind.isCompatible

theorem ofName?_name (kind : Kind) : ofName? kind.name = some kind := by
  cases kind <;> decide

end Kind

end TypedSql
