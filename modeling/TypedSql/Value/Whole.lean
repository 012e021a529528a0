import TypedSql.Wire.Scalar

/-!
# Whole numbers of values

The whole number that a value amounts to when one is required: numbers lose their fraction, texts
are read, identifiers and addresses give their bits.
-/

namespace TypedSql.Value

open TypedSql.Number

/-- What a text reads as, or the breach of one that is no numeral. -/
def orBadValue (number : Option Int) : Except Fault Int :=
  match number with
  | some known => .ok known
  | none => .error (.breach .badValue)

/-- The whole number that a value amounts to. -/
def toWhole (value : Value) : Except Fault Int :=
  match value with
  | bool flag => .ok flag.toInt
  | int number => .ok number
  | float .nan => .error (.breach .badValue)
  | float (.infinity _) => .error (.breach .outOfRange)
  | float (.finite negative significand exponent) =>
    .ok (signed negative (Binary64.wholePart significand exponent))
  | decimal (.nan ..) => .error (.breach .badValue)
  | decimal (.infinity _) => .error (.breach .outOfRange)
  | decimal (.finite negative coefficient exponent) =>
    .ok (Decimal.truncate negative coefficient exponent)
  | uuid known => .ok known.bits.toNat
  | ipv4 address => .ok address.bits.toNat
  | ipv6 address => .ok address.bits.toNat
  | bytes octets => orBadValue ((Wire.asciiChars? octets).bind readInt?)
  | _ =>
    match value.asText? with
    | some chars => orBadValue (readInt? chars.toList)
    | none => .error (.breach .badType)

end TypedSql.Value
