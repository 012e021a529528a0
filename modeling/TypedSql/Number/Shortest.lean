import TypedSql.Number.Binary64

/-!
# Shortest decimal text of binary numbers

A binary64 number is written with the fewest digits that read back as it. The digits come from the
coarsest grid of powers of ten with a point in the interval of reals that round to the number; of
two such points the nearer one is taken, or the even one. `render` lays the digits out.
-/

namespace TypedSql.Number.Binary64

/-- The reals that round to a positive number, over a common denominator: the number itself, the two
ends, and whether the ends belong. -/
structure RoundingInterval where
  value : Nat
  low : Nat
  high : Nat
  den : Nat
  closed : Bool

/-- The interval of a positive number. The gap below a power of two is half as wide. -/
def roundingInterval (significand : Nat) (exponent : Int) : RoundingInterval :=
  let narrow := significand = twoTo 52 && minExponent < exponent
  let quarter := exponent - 2
  let factor := if 0 ≤ quarter then twoTo quarter.toNat else 1
  { value := 4 * significand * factor
    low := (4 * significand - if narrow then 1 else 2) * factor
    high := (4 * significand + 2) * factor
    den := if 0 ≤ quarter then 1 else twoTo (-quarter).toNat
    closed := significand % 2 = 0 }

namespace RoundingInterval

/-- Whether `point / den` reads back as the number. -/
def contains (interval : RoundingInterval) (point : Nat) : Bool :=
  if interval.closed then interval.low ≤ point && point ≤ interval.high
  else interval.low < point && point < interval.high

/-- The point `digits · 10 ^ grid` nearest to the number that reads back as it. -/
def nearestOn? (interval : RoundingInterval) (grid : Int) : Option Nat :=
  let up := if 0 ≤ grid then 1 else tenTo (-grid).toNat
  let step := interval.den * if 0 ≤ grid then tenTo grid.toNat else 1
  let scaled : RoundingInterval :=
    { interval with
      value := interval.value * up, low := interval.low * up, high := interval.high * up }
  let below := scaled.value / step
  let lower := below * step
  let upper := lower + step
  match scaled.contains lower && below ≠ 0, scaled.contains upper with
  | true, true => some (Binary64.roundQuotient scaled.value step)
  | true, false => some below
  | false, true => some (below + 1)
  | false, false => none

end RoundingInterval

/-- The shortest digits of a positive number and the exponent of the last one. -/
def shortest (significand : Nat) (exponent : Int) : Nat × Int :=
  let interval := roundingInterval significand exponent
  let top := Int.fdiv ((exponent + Nat.log2 significand + 1) * 30103) 100000 + 1
  let grids := (List.range 24).map fun step : Nat => top - (step : Int)
  (grids.findSome? fun grid => (interval.nearestOn? grid).map fun digits => (digits, grid)).getD
    (significand, exponent)

/-- An exponent with its sign and at least two digits. -/
def exponentText (exponent : Int) : String :=
  let digits := toString exponent.natAbs
  (if exponent < 0 then "-" else "+") ++ (if exponent.natAbs < 10 then "0" else "") ++ digits

/-- Digits whose last one stands at a power of ten. Numbers from `10 ^ (-4)` to below `10 ^ 16` are
positional and show at least one place; all others have an exponent after `e`. -/
def layout (digits : Nat) (last : Int) : String :=
  let text := Nat.toDigits 10 digits
  let lead := last + text.length - 1
  if -4 ≤ lead ∧ lead < 16 then
    if lead < 0 then
      "0." ++ String.ofList (List.replicate (-lead - 1).toNat '0' ++ text)
    else if 0 ≤ last then
      String.ofList (text ++ List.replicate last.toNat '0') ++ ".0"
    else
      let whole := (lead + 1).toNat
      String.ofList (text.take whole ++ '.' :: text.drop whole)
  else
    let mantissa := match text with
      | [] => []
      | [digit] => [digit]
      | digit :: rest => digit :: '.' :: rest
    String.ofList mantissa ++ "e" ++ exponentText lead

/-- The text form of a binary number. -/
def render : Binary64 → String
  | .nan => "nan"
  | .infinity negative => Decimal.signText negative ++ "inf"
  | .finite negative significand exponent =>
    Decimal.signText negative ++
      if significand = 0 then "0.0"
      else
        let (digits, last) := shortest significand exponent
        layout digits last

/-- An underscore may stand only between two digits. -/
def dropUnderscores? : List Char → Option (List Char)
  | [] => some []
  | [c] => if c = '_' then none else some [c]
  | c :: '_' :: next :: rest =>
    if Text.isAsciiDigit c && Text.isAsciiDigit next then
      (dropUnderscores? (next :: rest)).map (c :: ·)
    else none
  | c :: rest => if c = '_' then none else (dropUnderscores? rest).map (c :: ·)

/-- The ASCII digit of each decimal digit of any script. -/
def asciiDigits (text : List Char) : List Char :=
  text.map fun c =>
    match Text.decimalDigit? c with
    | some digit => Char.ofNat ('0'.toNat + digit)
    | none => c

/-- The number that a text denotes: a decimal numeral, an infinity or a NaN, white space around it.
-/
def read? (text : List Char) : Option Binary64 := do
  let plain ← dropUnderscores? (asciiDigits (Text.trimSpace text))
  let (negative, body) := splitSign plain
  if Decimal.isWord body "inf" || Decimal.isWord body "infinity" then return .infinity negative
  else if Decimal.isWord body "nan" then return .nan
  else
    let (coefficient, exponent) ← Decimal.readNumeral? body
    return ofDecimalDigits negative coefficient exponent

end TypedSql.Number.Binary64
