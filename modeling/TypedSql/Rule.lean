import TypedSql.Coercion
import TypedSql.Text.Pattern.Reader
import TypedSql.Value.Order
import TypedSql.Value.Template

/-!
# Rules for single values

Checks with messages of their own, applied in order, and the bounds that a value, a length or a text
has to keep. What a check asks of values of the wrong sort is a breach.
-/

namespace TypedSql

open TypedSql.Number

namespace Value

/-- The length of a value that has one. -/
def requireLength (value : Value) : Except Fault Int :=
  match value.length? with
  | some length => .ok length
  | none => .error (.breach .badType)

/-- Whether a binary number is a multiple of another one; an infinity has no other multiple than
zero. -/
def isBinaryMultiple (value divisor : Binary64) : Except Fault Bool :=
  match divisor, value with
  | .finite _ 0 _, _ => .error (.breach .divisionByZero)
  | .finite _ step stepExponent, .finite _ number exponent =>
    .ok (Binary64.divides step stepExponent number exponent)
  | .infinity _, .finite _ number _ => .ok (number = 0)
  | _, _ => .ok false

/-- The most digits of a quotient of decimals. -/
def quotientDigits : Nat := 28

/-- Whether a positive finite decimal is a multiple of another one, whose quotient must not have too
many digits. The orders of magnitude settle the matter where they are far apart. -/
def isFiniteMultiple (number : Nat) (exponent : Int) (step : Nat) (stepExponent : Int) :
    Except Fault Bool :=
  let gap := Decimal.adjusted number exponent - Decimal.adjusted step stepExponent
  if gap < 0 then .ok false
  else if quotientDigits < gap then .error (.breach .invalidDecimal)
  else
    let base := min exponent stepExponent
    let number := number * tenTo (exponent - base).toNat
    let step := step * tenTo (stepExponent - base).toNat
    if tenTo quotientDigits ≤ number / step then .error (.breach .invalidDecimal)
    else .ok (number % step = 0)

/-- Whether a decimal is a multiple of another one. -/
def isDecimalMultiple (value divisor : Decimal) : Except Fault Bool :=
  match value, divisor with
  | .finite _ number exponent, .finite _ step stepExponent =>
    if step = 0 then .error (.breach .invalidDecimal)
    else if number = 0 then .ok true
    else isFiniteMultiple number exponent step stepExponent
  | .finite _ number _, .infinity _ => .ok (number = 0)
  | .nan _ false _, .nan _ false _ => .ok false
  | .nan _ false _, .finite .. => .ok false
  | .nan _ false _, .infinity _ => .ok false
  | .finite .., .nan _ false _ => .ok false
  | .infinity _, .nan _ false _ => .ok false
  | _, _ => .error (.breach .invalidDecimal)

/-- Whether one number is a multiple of another, with the rules of division of their types. -/
def isNumberMultiple (value divisor : Value) : Except Fault Bool :=
  match value.asInt?, divisor.asInt? with
  | some number, some step =>
    if step = 0 then .error (.breach .divisionByZero) else .ok (number.emod step = 0)
  | whole, wholeDivisor =>
    match value, divisor, whole, wholeDivisor with
    | .float number, .float step, _, _ => isBinaryMultiple number step
    | .float number, _, _, some step => do isBinaryMultiple number (← Wire.floatOfInt step)
    | _, .float step, some number, _ => do isBinaryMultiple (← Wire.floatOfInt number) step
    | .decimal number, .decimal step, _, _ => isDecimalMultiple number step
    | .decimal number, _, _, some step => isDecimalMultiple number (.ofInt step)
    | _, .decimal step, some number, _ => isDecimalMultiple (.ofInt number) step
    | _, _, _, _ => .error (.breach .badType)

/-- Whether the remainder of one value by another is zero. The remainder of a text or of bytes is
the filled template, and never zero. -/
def isMultiple (value divisor : Value) : Except Fault Bool :=
  match value, value.asText? with
  | .bytes octets, _ => do
    checkTemplate .bytes (octets.map fun octet => Char.ofNat octet.toNat) divisor
    return false
  | _, some chars => do
    checkTemplate .text chars.toList divisor
    return false
  | _, none => isNumberMultiple value divisor

end Value

/-- A test of a value. -/
inductive Check where
  | greater (bound : Value)
  | less (bound : Value)
  | equal (other : Value)
  | multiple (divisor : Value)
  | truthy
  | text
  | maxLength (bound : Value)

/-- The test with a short name and a bound. -/
def Check.ofName? (name : String) (bound : Value) : Option Check :=
  match name with
  | "gt" => some (greater bound)
  | "lt" => some (less bound)
  | "eq" => some (equal bound)
  | "mod" => some (multiple bound)
  | "truthy" => some truthy
  | "is_str" => some text
  | "max_len" => some (maxLength bound)
  | _ => none

/-- Whether a value passes a test. -/
def Check.passes (check : Check) (value : Value) : Except Fault Bool :=
  match check with
  | greater bound => value.isGreater bound
  | less bound => value.isLess bound
  | equal other => value.isEqual other
  | multiple divisor => value.isMultiple divisor
  | truthy => .ok value.isTruthy
  | text => .ok value.isText
  | maxLength bound => do Value.isAtMost (.int (← value.requireLength)) bound

/-- A test and what is said when a value fails it. -/
structure Rule where
  check : Check
  message : String

namespace Rule

/-- The rule with the short name of its test, the bound and the message. -/
def ofName [Coercion] (name : String) (bound message : Value) : Except Fault Rule := do
  match Check.ofName? name bound, Coercion.text message with
  | none, _ => throw (.breach .missingKey)
  | some _, .error _ => throw (.breach .rejectedArgument)
  | some check, .ok message => return { check, message }

/-- Applies rules in order up to the first that a value fails; counts the tests that were made. -/
def applyAll (value field : Value) : List Rule → Nat × Except Fault Unit
  | [] => (0, .ok ())
  | rule :: rest =>
    match rule.check.passes value with
    | .error fault => (1, .error fault)
    | .ok false => (1, .error (.ruleBroken rule.message field value))
    | .ok true =>
      let (count, outcome) := applyAll value field rest
      (count + 1, outcome)

/-- Checks that a value lies between two others. -/
def checkRange (value low high field : Value) : Except Fault Unit := do
  if ← value.isLess low then throw (.outsideRange low high field value)
  if ← value.isGreater high then throw (.outsideRange low high field value)

/-- Checks that the length of a value lies between two others. -/
def checkLength (value low high field : Value) : Except Fault Unit := do
  let length := Value.int (← value.requireLength)
  if ← length.isLess low then throw (.outsideLength low high field value)
  if ← length.isGreater high then throw (.outsideLength low high field value)

/-- Checks that a text matches a pattern somewhere. -/
def checkPattern (value pattern field : Value) : Except Fault Unit :=
  match pattern.asText? with
  | none => .error (.breach .missingAttribute)
  | some description =>
    match Text.Pattern.read? description.toList with
    | none => .error (.breach .malformedPattern)
    | some known =>
      if known.repeatsTooOften then .error (.breach .outOfRange)
      else
        match value.asText? with
        | none => .error (.breach .badType)
        | some text =>
          if known.isFoundIn text.toList then .ok ()
          else .error (.patternUnmatched pattern.display field value)

end Rule

end TypedSql
