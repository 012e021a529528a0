import TypedSql.Number.Decimal

/-!
# Binary floating-point numbers

Binary64 numbers as exact dyadic rationals: a sign, a significand below `2 ^ 53` and a power of two.
`ofRatio` rounds a quotient of natural numbers to the nearest number, a tie to the even significand;
every other constructor of finite numbers goes through it, so each number has one representation.
-/

namespace TypedSql.Number

/-- A binary64 number; all NaNs are one. -/
inductive Binary64 where
  | nan
  | infinity (negative : Bool)
  | finite (negative : Bool) (significand : Nat) (exponent : Int)
deriving DecidableEq, Repr

namespace Binary64

/-- The exponent of the last bit of subnormal numbers. -/
def minExponent : Int := -1074

/-- The largest exponent of a last bit. -/
def maxExponent : Int := 971

/-- The quotient of two natural numbers, rounded to nearest with ties to even. -/
def roundQuotient (num den : Nat) : Nat :=
  let quotient := num / den
  let twice := 2 * (num % den)
  if den < twice ∨ (twice = den ∧ quotient % 2 = 1) then quotient + 1 else quotient

/-- The zero of a sign. -/
def zero (negative : Bool) : Binary64 := .finite negative 0 minExponent

/-- Scales a fraction by `2 ^ (-exponent)`, as numerator and denominator. -/
def scaled (num den : Nat) (exponent : Int) : Nat × Nat :=
  if 0 ≤ exponent then (num, den * twoTo exponent.toNat) else (num * twoTo (-exponent).toNat, den)

/-- The number nearest to a quotient; beyond the largest finite number it is an infinity. -/
def ofRatio (negative : Bool) (num den : Nat) : Binary64 :=
  if num = 0 then zero negative
  else
    let estimate : Int := (Nat.log2 num : Int) - Nat.log2 den - 53
    let low := max estimate minExponent
    let (lowNum, lowDen) := scaled num den low
    let exponent := if lowNum / lowDen < twoTo 53 then low else low + 1
    let (finalNum, finalDen) := scaled num den exponent
    let significand := roundQuotient finalNum finalDen
    let (significand, exponent) :=
      if significand = twoTo 53 then (twoTo 52, exponent + 1) else (significand, exponent)
    if maxExponent < exponent then .infinity negative else .finite negative significand exponent

/-- The number nearest to an integer. -/
def ofInt (n : Int) : Binary64 := ofRatio (n < 0) n.natAbs 1

/-- The number nearest to a decimal fraction; the exponent decides alone when it is far out of
range. -/
def ofDecimalDigits (negative : Bool) (coefficient : Nat) (exponent : Int) : Binary64 :=
  if coefficient = 0 then zero negative
  else
    let top := Decimal.adjusted coefficient exponent
    if 310 < top then .infinity negative
    else if top < -330 then zero negative
    else if 0 ≤ exponent then ofRatio negative (coefficient * tenTo exponent.toNat) 1
    else ofRatio negative coefficient (tenTo (-exponent).toNat)

/-- The number nearest to a decimal; a signaling NaN has none. -/
def ofDecimal? : Decimal → Option Binary64
  | .finite negative coefficient exponent => some (ofDecimalDigits negative coefficient exponent)
  | .infinity negative => some (.infinity negative)
  | .nan _ signaling _ => if signaling then none else some .nan

/-- The decimal equal to a number. -/
def toDecimal : Binary64 → Decimal
  | .nan => .nan false false 0
  | .infinity negative => .infinity negative
  | .finite negative significand exponent =>
    if 0 ≤ exponent then .finite negative (significand * twoTo exponent.toNat) 0
    else .finite negative (significand * fiveTo (-exponent).toNat) exponent

/-- Whether a finite number is whole. -/
def isWhole (significand : Nat) (exponent : Int) : Bool :=
  0 ≤ exponent || significand % twoTo (-exponent).toNat = 0

/-- The magnitude of a finite number without its fraction. -/
def wholePart (significand : Nat) (exponent : Int) : Nat :=
  if 0 ≤ exponent then significand * twoTo exponent.toNat
  else significand / twoTo (-exponent).toNat

/-- A finite number rounded to an integer, ties to even. -/
def roundWhole (negative : Bool) (significand : Nat) (exponent : Int) : Int :=
  signed negative <|
    if 0 ≤ exponent then significand * twoTo exponent.toNat
    else roundQuotient significand (twoTo (-exponent).toNat)

/-- The fraction of a finite number times a natural number, rounded once. -/
def scaleFraction (negative : Bool) (significand : Nat) (exponent : Int) (factor : Nat) :
    Binary64 :=
  if 0 ≤ exponent then zero negative
  else
    let unit := twoTo (-exponent).toNat
    ofRatio negative (significand % unit * factor) unit

/-- A number and a natural number added up. -/
def plus (number : Binary64) (count : Nat) : Binary64 :=
  match number with
  | .finite negative significand exponent =>
    let unit := twoTo (-exponent).toNat
    let sum := signed negative (significand * twoTo exponent.toNat) + (count * unit : Nat)
    ofRatio (sum < 0) sum.natAbs unit
  | special => special

/-- Whether one finite number is a whole multiple of another, nonzero one. -/
def divides (divisor : Nat) (divisorExponent : Int) (multiple : Nat) (multipleExponent : Int) :
    Bool :=
  let base := min divisorExponent multipleExponent
  let step := divisor * twoTo (divisorExponent - base).toNat
  multiple * twoTo (multipleExponent - base).toNat % step = 0

end Binary64

end TypedSql.Number
