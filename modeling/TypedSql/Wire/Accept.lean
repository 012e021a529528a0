import TypedSql.Value.Order
import TypedSql.Wire.Infer
import TypedSql.Wire.Scalar

/-!
# Values that a column accepts

`accepts` tells whether a column takes a present value; `check` adds the rule for null. Unlike a
conversion, acceptance asks for a value of the right type and never reads numbers from text.
-/

namespace TypedSql.Wire

/-- Whether a value is a number other than a binary NaN; flags are none. -/
def isNumber : Value → Bool
  | .int _ | .decimal _ => true
  | .float .nan => false
  | .float _ => true
  | _ => false

/-- Whether a value is a date, a moment or the text of a moment. -/
def isDateLike (value : Value) : Bool :=
  match value with
  | .moment _ | .date _ => true
  | _ => (value.asText?.bind readMoment?).isSome

/-- Whether a value names one of the values of an enumeration column. -/
def isEnumValue (column : Column) (value : Value) : Bool :=
  let isEnumerated := match value with
    | .member .. => true
    | _ => value.isText
  isEnumerated &&
    match column.enumValues with
    | none | some [] => true
    | some names => ((toText value).toOption.bind Value.asText?).any names.contains

/-- Whether a text fits a column of fixed length; a length that counts as false is no limit. -/
def fitsLength (column : Column) (chars : String) : Except Fault Bool :=
  let length := column.dimension .length
  if length.isTruthy then Value.isAtMost (.int chars.length) length else .ok true

/-- Whether a column of a kind without a length takes a value that is not null. -/
def acceptsKind (column : Column) (value : Value) : Bool :=
  match column.kind with
  | .uint8 | .uint16 | .uint32 | .uint64 | .int8 | .int16 | .int32 | .int64 =>
    match value with
    | .int number => column.kind.holds number
    | _ => false
  | .float32 | .float64 | .decimal => isNumber value
  | .boolean =>
    match value with
    | .bool _ => true
    | _ => false
  | .uuid =>
    match value with
    | .uuid _ => true
    | _ => value.isText
  | .ipv4 =>
    match value with
    | .ipv4 _ => true
    | _ => value.isText
  | .ipv6 =>
    match value with
    | .ipv6 _ => true
    | _ => value.isText
  | .string | .fixedString => value.isText
  | .date | .date32 | .dateTime | .dateTime64 => isDateLike value
  | .array | .tuple => value.asItems?.isSome
  | .map => value.asMap?.isSome
  | .json =>
    match value with
    | .map _ | .list _ => true
    | _ => false
  | .enum8 | .enum16 => isEnumValue column value
  | .nested | .nullable | .lowCardinality => true

/-- Whether a column takes a value that is not null. -/
def accepts (column : Column) (value : Value) : Except Fault Bool :=
  match column.kind, value.asText? with
  | .fixedString, some chars => fitsLength column chars
  | _, _ => .ok (acceptsKind column value)

/-- Whether a column takes a value; null in a column that is not nullable is a fault. -/
def check (column : Column) (value : Value) : Except Fault Bool :=
  if value.isNull then
    if column.nullable then .ok true else .error (.nullNotAllowed column.kind)
  else accepts column value

end TypedSql.Wire
