import TypedSql.Number.Numeral
import TypedSql.Number.Power

/-!
# Decimal numbers

Decimal floating-point numbers keep their trailing zeros: a coefficient and a power of ten, next to
the infinities and the quiet and signaling NaNs with an optional payload. `read?` and `render` are
the text forms; `compare` orders the numbers exactly, however far apart their exponents are.
-/

namespace TypedSql.Number

open TypedSql.Text

/-- A decimal floating-point number. -/
inductive Decimal where
  | finite (negative : Bool) (coefficient : Nat) (exponent : Int)
  | infinity (negative : Bool)
  | nan (negative signaling : Bool) (payload : Nat)
deriving DecidableEq, Repr

namespace Decimal

/-- The decimal equal to an integer. -/
def ofInt (n : Int) : Decimal := .finite (n < 0) n.natAbs 0

/-- The zero with no places. -/
def zero : Decimal := .finite false 0 0

/-- The exponent of the leading digit. -/
def adjusted (coefficient : Nat) (exponent : Int) : Int := exponent + digitCount coefficient - 1

/-- The largest exponent of a leading digit. -/
def maxAdjusted : Int := 999999999999999999

/-- The smallest exponent of a last digit. -/
def minExponent : Int := -1999999999999999997

/-- A number whose exponents are within the limits. -/
def bounded? (negative : Bool) (coefficient : Nat) (exponent : Int) : Option Decimal :=
  let top := if coefficient = 0 then exponent else adjusted coefficient exponent
  if minExponent ≤ exponent ∧ top ≤ maxAdjusted then some (.finite negative coefficient exponent)
  else none

/-- The ASCII digit of each decimal digit; underscores are dropped and all else is kept. -/
def plain (text : List Char) : List Char :=
  (text.filter (· ≠ '_')).map fun c =>
    match decimalDigit? c with
    | some digit => Char.ofNat ('0'.toNat + digit)
    | none => c

/-- The number that ASCII digits denote; no digits denote zero. -/
def ofAscii (digits : List Char) : Nat := ofDigits (digits.map fun c => c.toNat - '0'.toNat)

/-- The exponent part of a numeral: nothing, or `e`, an optional sign and digits. -/
def readExponent? : List Char → Option Int
  | [] => some 0
  | mark :: rest =>
    if mark = 'e' ∨ mark = 'E' then
      let (negative, digits) := splitSign rest
      if !digits.isEmpty && digits.all isAsciiDigit then some (signed negative (ofAscii digits))
      else none
    else none

/-- An unsigned numeral in ASCII: its coefficient and exponent. -/
def readNumeral? (text : List Char) : Option (Nat × Int) :=
  let whole := text.takeWhile isAsciiDigit
  let rest := text.dropWhile isAsciiDigit
  let (places, rest) := match rest with
    | '.' :: more => (more.takeWhile isAsciiDigit, more.dropWhile isAsciiDigit)
    | _ => ([], rest)
  if whole.isEmpty && places.isEmpty then none
  else (readExponent? rest).map fun exponent =>
    (ofAscii (whole ++ places), exponent - places.length)

/-- Whether a text is a word in any mixture of ASCII letter cases. -/
def isWord (text : List Char) (word : String) : Bool := text.map Char.toLower == word.toList

/-- A NaN without its sign: `nan` or `snan` and digits. -/
def readNan? (negative : Bool) (text : List Char) : Option Decimal :=
  let payload? (digits : List Char) : Option Nat :=
    if digits.all isAsciiDigit then some (ofAscii digits) else none
  if isWord (text.take 3) "nan" then (payload? (text.drop 3)).map (.nan negative false)
  else if isWord (text.take 4) "snan" then (payload? (text.drop 4)).map (.nan negative true)
  else none

/-- The decimal that a text denotes: blanks around it and underscores anywhere are ignored, and its
exponents are within the limits. -/
def read? (text : List Char) : Option Decimal :=
  let (negative, body) := splitSign (plain (trim text))
  if isWord body "inf" || isWord body "infinity" then some (.infinity negative)
  else match readNan? negative body with
    | some special => some special
    | none => do
      let (coefficient, exponent) ← readNumeral? body
      bounded? negative coefficient exponent

/-- A minus for negative numbers. -/
def signText (negative : Bool) : String := if negative then "-" else ""

/-- An exponent with its sign. -/
def exponentText (exponent : Int) : String :=
  if exponent < 0 then toString exponent else "+" ++ toString exponent

/-- A number is written in places while its exponent is at most zero and its leading digit stands no
lower than the sixth place; all others have one digit before the point and an exponent after `E`. -/
def renderFinite (coefficient : Nat) (exponent : Int) : String :=
  let digits := Nat.toDigits 10 coefficient
  let left := exponent + digits.length
  let point := if exponent ≤ 0 ∧ -6 < left then left else 1
  let mantissa :=
    if point ≤ 0 then '0' :: '.' :: List.replicate (-point).toNat '0' ++ digits
    else if digits.length ≤ point then digits ++ List.replicate (point - digits.length).toNat '0'
    else digits.take point.toNat ++ '.' :: digits.drop point.toNat
  String.ofList mantissa ++ if left = point then "" else "E" ++ exponentText (left - point)

/-- The text form of a decimal. -/
def render : Decimal → String
  | .finite negative coefficient exponent => signText negative ++ renderFinite coefficient exponent
  | .infinity negative => signText negative ++ "Infinity"
  | .nan negative signaling payload =>
    signText negative ++ (if signaling then "sNaN" else "NaN") ++
      if payload = 0 then "" else toString payload

/-- Whether a finite number is whole. A nonzero coefficient of fewer digits than places is not. -/
def isWhole (coefficient : Nat) (exponent : Int) : Bool :=
  coefficient = 0 || 0 ≤ exponent ||
    ((-exponent).toNat < digitCount coefficient && coefficient % tenTo (-exponent).toNat = 0)

/-- A finite number without its places. -/
def truncate (negative : Bool) (coefficient : Nat) (exponent : Int) : Int :=
  signed negative <|
    if coefficient = 0 then 0
    else if 0 ≤ exponent then coefficient * tenTo exponent.toNat
    else if digitCount coefficient ≤ (-exponent).toNat then 0
    else coefficient / tenTo (-exponent).toNat

/-- The order of two magnitudes: by leading exponent, then by the aligned coefficients. -/
def compareMagnitude (left : Nat) (leftExponent : Int) (right : Nat) (rightExponent : Int) :
    Ordering :=
  if left = 0 ∨ right = 0 then compare left right
  else
    let first := adjusted left leftExponent
    let second := adjusted right rightExponent
    if first ≠ second then compare first second
    else
      let base := min leftExponent rightExponent
      compare (left * tenTo (leftExponent - base).toNat)
        (right * tenTo (rightExponent - base).toNat)

/-- The order of two decimals by value; none where a NaN takes part. -/
def compare? : Decimal → Decimal → Option Ordering
  | .nan .., _ => none
  | _, .nan .. => none
  | .infinity left, .infinity right => some (compare right.toNat left.toNat)
  | .infinity negative, _ => some (if negative then .lt else .gt)
  | _, .infinity negative => some (if negative then .gt else .lt)
  | .finite leftNegative left leftExponent, .finite rightNegative right rightExponent =>
    let leftNegative := leftNegative && left ≠ 0
    let rightNegative := rightNegative && right ≠ 0
    some <| match leftNegative, rightNegative with
      | false, true => .gt
      | true, false => .lt
      | false, false => compareMagnitude left leftExponent right rightExponent
      | true, true => compareMagnitude right rightExponent left leftExponent

/-- The most digits of a sum. -/
def sumDigits : Nat := 28

/-- A coefficient without some of its last digits, rounded to nearest with ties to even. -/
def roundDigits (coefficient dropped : Nat) : Nat :=
  let unit := tenTo dropped
  let twice := 2 * (coefficient % unit)
  let quotient := coefficient / unit
  if unit < twice ∨ (twice = unit ∧ quotient % 2 = 1) then quotient + 1 else quotient

/-- A finite number of no more digits than a sum has. -/
def roundSum (negative : Bool) (coefficient : Nat) (exponent : Int) : Decimal :=
  let dropped := digitCount coefficient - sumDigits
  let rounded := roundDigits coefficient dropped
  if digitCount rounded ≤ sumDigits then .finite negative rounded (exponent + dropped)
  else .finite negative (rounded / 10) (exponent + dropped + 1)

/-- The rounded sum of a finite number and a natural number. -/
def sumWith (negative : Bool) (coefficient : Nat) (exponent : Int) (count : Nat) : Decimal :=
  let sum := signed negative (coefficient * tenTo exponent.toNat) +
    (count * tenTo (-exponent).toNat : Nat)
  roundSum (sum < 0) sum.natAbs (min exponent 0)

/-- A distance of orders of magnitude at which the smaller summand only tells that it is there. -/
def farApart : Nat := 100

/-- A finite number with its exponent moved. -/
def shifted (number : Decimal) (distance : Int) : Decimal :=
  match number with
  | .finite negative coefficient exponent => .finite negative coefficient (exponent + distance)
  | special => special

/-- A decimal and a natural number added up. Exponents far off count as ones that are less so. -/
def plus (number : Decimal) (count : Nat) : Decimal :=
  match number with
  | .finite negative coefficient exponent =>
    let places := (-exponent).toNat
    if coefficient = 0 then
      sumWith negative 0 (if exponent < 0 then -(min places farApart : Nat) else 0) count
    else if (farApart : Int) < exponent then
      (sumWith negative coefficient farApart count).shifted (exponent - farApart)
    else if digitCount coefficient + farApart < places then
      if count = 0 then roundSum negative coefficient exponent
      else sumWith negative 1 (-farApart) count
    else sumWith negative coefficient exponent count
  | special => special

end Decimal

end TypedSql.Number
