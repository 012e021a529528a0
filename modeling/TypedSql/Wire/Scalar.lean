import TypedSql.Calendar.Iso
import TypedSql.Fault
import TypedSql.Text.Split

/-!
# Scalar conversions

Conversions of a value to a whole number, a binary or decimal number, a flag, a text or a moment.
They serve both directions of the wire: a failed conversion names the expectation, the value and the
kind.
-/

namespace TypedSql.Wire

open TypedSql.Number TypedSql.Calendar TypedSql.Text

/-- The failure of a conversion. -/
def fail {α : Type} (expectation : Expectation) (value : Value) (kind : Kind) : Except Fault α :=
  .error (.unconvertible expectation value kind)

/-- The result of reading, or the failure of the conversion. -/
def orFail {α : Type} (expectation : Expectation) (value : Value) (kind : Kind) :
    Option α → Except Fault α
  | some result => .ok result
  | none => fail expectation value kind

/-- The whole number equal to a value, or the one that its text denotes. -/
def toInteger (value : Value) (kind : Kind) : Except Fault Int :=
  match value with
  | .bool flag => .ok flag.toInt
  | .int number => .ok number
  | .float (.finite negative significand exponent) =>
    if Binary64.isWhole significand exponent then
      .ok (signed negative (Binary64.wholePart significand exponent))
    else fail .integer value kind
  | .float _ => fail .integer value kind
  | .decimal (.finite negative coefficient exponent) =>
    if Decimal.isWhole coefficient exponent then
      .ok (Decimal.truncate negative coefficient exponent)
    else fail .integer value kind
  | .decimal (.infinity _) => .error (.breach .outOfRange)
  | .decimal (.nan _ signaling _) =>
    if signaling then .error (.breach .invalidDecimal) else fail .integer value kind
  | _ => orFail .integer value kind (readInt? (trim value.display.toList))

/-- The characters of ASCII bytes. -/
def asciiChars? (octets : List UInt8) : Option (List Char) :=
  octets.mapM fun octet => if octet.toNat < 0x80 then some (Char.ofNat octet.toNat) else none

/-- The binary number nearest to a whole number, unless it is too large. -/
def floatOfInt (number : Int) : Except Fault Binary64 :=
  match Binary64.ofInt number with
  | .infinity _ => .error (.breach .outOfRange)
  | nearest => .ok nearest

/-- The binary number nearest to a number, or the one that a text denotes. -/
def toFloat (value : Value) (kind : Kind) : Except Fault Binary64 :=
  match value with
  | .bool flag => floatOfInt flag.toInt
  | .int number => floatOfInt number
  | .float number => .ok number
  | .decimal number => orFail .number value kind (Binary64.ofDecimal? number)
  | .bytes octets =>
    orFail .number value kind ((asciiChars? octets).bind fun chars => Binary64.read? chars)
  | _ =>
    orFail .number value kind (value.asText?.bind fun chars => Binary64.read? chars.toList)

/-- The decimal that a value is or that its text denotes. -/
def toDecimal (value : Value) (kind : Kind) : Except Fault Decimal :=
  match value with
  | .decimal number => .ok number
  | _ => do orFail .decimal value kind (Decimal.read? (← value.displayed).toList)

/-- The texts that count as true, in any letter case. -/
def trueTexts : List String := ["1", "true", "t", "yes", "y"]

/-- The flag that a text names, or whether another value counts as true. -/
def toFlag (value : Value) : Bool :=
  match value.asText? with
  | some chars => trueTexts.contains (String.ofList ((trim chars.toList).map Char.toLower))
  | none => value.isTruthy

/-- The text of a value; a member of an enumeration gives its value if that is text, else its name.
-/
def toText (value : Value) : Except Fault Value :=
  match value with
  | .kind known => .ok (.text known.name)
  | .operator known => .ok (.text known.key)
  | .member name inner => .ok (if inner.isText then inner else .text name)
  | _ => value.displayed.map .text

/-- The moment that a text denotes; a `Z` anywhere stands for universal time. -/
def readMoment? (chars : String) : Option Moment :=
  Iso.moment? (replaceChar 'Z' "+00:00".toList (trim chars.toList))

/-- The breach of a timestamp without a moment. -/
def timestampBreach : Moment.TimestampFault → Fault
  | .invalid => .breach .badValue
  | .unconverted => .breach .refusedBySystem
  | .overflow => .breach .outOfRange

/-- The moment that a value is, counts or denotes. -/
def toMoment (value : Value) (kind : Kind) : Except Fault Moment :=
  match value with
  | .moment known => .ok known
  | .date known => .ok (Moment.ofDate known)
  | .int seconds => (Moment.ofSeconds seconds).mapError timestampBreach
  | .float seconds => (Moment.ofTimestamp seconds).mapError timestampBreach
  | _ => orFail .moment value kind (value.asText?.bind readMoment?)

/-- The moment in universal time, without its offset. -/
def toUniversal (moment : Moment) : Except Fault Moment :=
  match moment.universal? with
  | some universal => .ok universal
  | none => .error (.breach .outOfRange)

end TypedSql.Wire
