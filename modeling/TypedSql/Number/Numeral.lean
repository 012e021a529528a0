import TypedSql.Number.Power
import TypedSql.Text.Classes

/-!
# Integer numerals

Reading whole numbers: an optional sign and decimal digits of any script, single underscores between
digits, white space around the whole. A numeral of more than `maxDigits` digits is refused.
-/

namespace TypedSql.Number

open TypedSql.Text

/-- The longest integer numeral that is read. -/
def maxDigits : Nat := 4300

/-- The number that decimal digits denote, most significant first. -/
def ofDigits (digits : List Nat) : Nat := digits.foldl (10 * · + ·) 0

/-- The worths of a run of digits in which single underscores may stand between two digits. -/
def digitRun? : List Char → Option (List Nat)
  | [] => none
  | [c] => (decimalDigit? c).map ([·])
  | c :: '_' :: rest => do
    let digit ← decimalDigit? c
    return digit :: (← digitRun? rest)
  | c :: rest => do
    let digit ← decimalDigit? c
    return digit :: (← digitRun? rest)

/-- An unsigned numeral within the digit limit. -/
def readNat? (text : List Char) : Option Nat := do
  let digits ← digitRun? text
  if digits.length ≤ maxDigits then some (ofDigits digits) else none

/-- Splits an optional sign off; `true` for a minus. -/
def splitSign : List Char → Bool × List Char
  | '-' :: rest => (true, rest)
  | '+' :: rest => (false, rest)
  | text => (false, text)

/-- The integer with a sign and a magnitude. -/
def signed (negative : Bool) (magnitude : Nat) : Int :=
  if negative then -(magnitude : Int) else magnitude

/-- The integer that a text denotes. -/
def readInt? (text : List Char) : Option Int :=
  let (negative, digits) := splitSign (trimSpace text)
  (readNat? digits).map (signed negative)

/-- Whether an integer has a numeral within the digit limit. -/
def hasNumeral (number : Int) : Bool := number.natAbs < tenTo maxDigits

/-- How many decimal digits a number has; zero has one. -/
def digitCount (n : Nat) : Nat := (Nat.toDigits 10 n).length

/-- The decimal digits of a number, with zeros in front up to a width. -/
def padded (width n : Nat) : List Char :=
  let digits := Nat.toDigits 10 n
  List.replicate (width - digits.length) '0' ++ digits

end TypedSql.Number
