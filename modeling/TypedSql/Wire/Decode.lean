import TypedSql.Json.Reader
import TypedSql.Wire.Scalar

/-!
# Values from the database

`decode` turns a received value into the form that a program works with. Null stays null, and an
element kind applies to the items of arrays and inside of wrappers; dates keep the offset they come
with.
-/

namespace TypedSql.Wire

/-- The breach of a text that is no JSON. -/
def jsonBreach : Json.ReadFault → Fault
  | .malformed => .breach .malformedJson
  | .numeralTooLong => .breach .badValue
  | .tooDeep => .breach .tooDeep

variable [Json.Depth]

/-- The value of a JSON text. -/
def readJson (chars : String) : Except Fault Value := (Json.read chars).mapError jsonBreach

/-- The value of JSON bytes, in whatever encoding they are. -/
def readJsonBytes (octets : List UInt8) : Except Fault Value :=
  match Text.Encoding.decode? octets with
  | some chars => readJson (String.ofList chars)
  | none => .error (.breach .malformedUtf8)

/-- The items of a received array; a text holds them in JSON. -/
def receivedItems (value : Value) (kind : Kind) : Except Fault (List Value) := do
  let value ← match value.asText? with
    | some chars => readJson chars
    | none => .ok value
  orFail .storedArray value kind value.asItems?

/-- The program form of a present value for a kind without an element kind. -/
def decodePresent (value : Value) (kind : Kind) : Except Fault Value :=
  match kind with
  | .uint8 | .uint16 | .uint32 | .uint64 | .int8 | .int16 | .int32 | .int64 =>
    (toInteger value kind).map .int
  | .float32 | .float64 => (toFloat value kind).map .float
  | .decimal => (toDecimal value kind).map .decimal
  | .boolean => .ok (.bool (toFlag value))
  | .string | .fixedString | .uuid | .ipv4 | .ipv6 | .enum8 | .enum16 => value.displayed.map .text
  | .date | .date32 =>
    match value with
    | .date _ => .ok value
    | _ => (toMoment value kind).map fun moment => .date moment.date
  | .dateTime | .dateTime64 => (toMoment value kind).map .moment
  | .array => (receivedItems value kind).map .list
  | .json | .map =>
    match value, value.asText? with
    | .bytes octets, _ => readJsonBytes octets
    | _, some chars => readJson chars
    | _, none => .ok value
  | .tuple | .nested | .nullable | .lowCardinality => .ok value

/-- The program form of a value for a kind without an element kind. -/
def decodeElement (kind : Kind) (value : Value) : Except Fault Value :=
  if value.isNull then .ok .null else decodePresent value kind

/-- The program form of a value for a column kind and the kind of its elements. -/
def decode (value : Value) (kind : Kind) (elementKind : Option Kind) : Except Fault Value :=
  if value.isNull then .ok .null
  else
    match kind, elementKind with
    | .array, some element => do
      let items ← receivedItems value kind
      return .list (← items.mapM (decodeElement element))
    | .lowCardinality, some element => decodeElement element value
    | .nullable, some element => decodeElement element value
    | _, _ => decodePresent value kind

end TypedSql.Wire
