import TypedSql.Value.Basic

/-!
# Kinds of bare values

The kind inferred for a value without a column, the type of a placeholder that binds such a value,
and the zero value of a kind.
-/

namespace TypedSql.Wire

open TypedSql.Number TypedSql.Calendar

/-- The type of a placeholder that binds a value. -/
def placeholderType : Value → String
  | .null => "Nullable(String)"
  | .bool _ => "UInt8"
  | .int number =>
    if Kind.holds .int32 number then "Int32"
    else if !Kind.holds .int64 number && Kind.holds .uint64 number then "UInt64"
    else "Int64"
  | .float _ | .decimal _ => "Float64"
  | .moment _ => "DateTime"
  | .date _ => "Date"
  | .list _ | .tuple _ => "Array(String)"
  | _ => "String"

/-- The kind of column that a value would go into. -/
def inferKind : Value → Kind
  | .null => .nullable
  | .bool _ => .boolean
  | .int number => if Kind.holds .int32 number then .int32 else .int64
  | .float _ => .float64
  | .decimal _ => .decimal
  | .moment _ => .dateTime
  | .date _ => .date
  | .uuid _ => .uuid
  | .ipv4 _ => .ipv4
  | .ipv6 _ => .ipv6
  | .list _ | .tuple _ => .array
  | .map _ => .json
  | _ => .string

/-- The zero value of a kind; kinds without one have null. -/
def zeroOf : Kind → Value
  | .uint8 | .uint16 | .uint32 | .uint64 | .int8 | .int16 | .int32 | .int64 => .int 0
  | .float32 | .float64 => .float (Binary64.zero false)
  | .decimal => .decimal Decimal.zero
  | .boolean => .bool false
  | .string | .fixedString | .uuid | .ipv4 | .ipv6 => .text ""
  | .date | .date32 => .date Date.epoch
  | .dateTime | .dateTime64 => .moment Moment.epoch
  | .array => .list []
  | .json | .map => .map []
  | .enum8 | .enum16 | .tuple | .nested | .nullable | .lowCardinality => .null

end TypedSql.Wire
