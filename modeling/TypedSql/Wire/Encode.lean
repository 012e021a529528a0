import TypedSql.Wire.Scalar

/-!
# Values for the database

`encode` turns a value into the form that is sent for a column kind. Null stays null whatever the
kind. An element kind converts the items of arrays and the value inside of a wrapper; items of items
are sent as they are.
-/

namespace TypedSql.Wire

/-- The wire text of a moment for a kind of dates. -/
def momentText (moment : Calendar.Moment) (kind : Kind) : String :=
  match kind with
  | .date | .date32 => moment.date.render
  | .dateTime64 => moment.wireTextMicros
  | _ => moment.wireText

/-- The wire form of a present value for a kind without an element kind. -/
def encodePresent (value : Value) (kind : Kind) : Except Fault Value :=
  match kind with
  | .uint8 | .uint16 | .uint32 | .uint64 | .int8 | .int16 | .int32 | .int64 =>
    (toInteger value kind).map .int
  | .float32 | .float64 => (toFloat value kind).map .float
  | .decimal => (toDecimal value kind).map .decimal
  | .boolean => .ok (.bool (toFlag value))
  | .string | .fixedString | .uuid | .ipv4 | .ipv6 | .enum8 | .enum16 => toText value
  | .date | .date32 | .dateTime | .dateTime64 => do
    let moment ← toMoment value kind
    return .text (momentText (← toUniversal moment) kind)
  | .array => (orFail .array value kind value.asItems?).map .list
  | .tuple => (orFail .tuple value kind value.asItems?).map .list
  | .map =>
    match value with
    | .map _ => value.jsonText.map .text
    | _ => fail .object value kind
  | .json =>
    match value with
    | .map _ => value.jsonText.map .text
    | .list _ => value.jsonText.map .text
    | _ => fail .object value kind
  | .nested | .nullable | .lowCardinality => .ok value

/-- The wire form of a value for a kind without an element kind. -/
def encodeElement (kind : Kind) (value : Value) : Except Fault Value :=
  if value.isNull then .ok .null else encodePresent value kind

/-- The wire form of a value for a column kind and the kind of its elements. -/
def encode (value : Value) (kind : Kind) (elementKind : Option Kind) : Except Fault Value :=
  if value.isNull then .ok .null
  else
    match kind, elementKind with
    | .array, some element => do
      let items ← orFail .array value kind value.asItems?
      return .list (← items.mapM (encodeElement element))
    | .lowCardinality, some element => encodeElement element value
    | .nullable, some element => encodeElement element value
    | _, _ => encodePresent value kind

end TypedSql.Wire
