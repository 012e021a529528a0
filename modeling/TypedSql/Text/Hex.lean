/-!
# Hexadecimal text

Digits of base sixteen and the fixed-width and shortest texts made of them. Both letter cases are
read; only lower case is written.
-/

namespace TypedSql.Text

/-- The worth of a hexadecimal digit in either letter case. -/
def hexDigit? (c : Char) : Option Nat :=
  if '0' ≤ c ∧ c ≤ '9' then some (c.toNat - '0'.toNat)
  else if 'a' ≤ c ∧ c ≤ 'f' then some (c.toNat - 'a'.toNat + 10)
  else if 'A' ≤ c ∧ c ≤ 'F' then some (c.toNat - 'A'.toNat + 10)
  else none

/-- Whether a character is a hexadecimal digit. -/
def isHexDigit (c : Char) : Bool := (hexDigit? c).isSome

/-- The number that a nonempty run of hexadecimal digits denotes. -/
def readHex? (digits : List Char) : Option Nat :=
  if digits.isEmpty then none
  else digits.foldlM (fun total c => (hexDigit? c).map (16 * total + ·)) 0

/-- The lower-case hexadecimal digit of a number below sixteen. -/
def hexDigit (n : Nat) : Char :=
  if n < 10 then Char.ofNat ('0'.toNat + n) else Char.ofNat ('a'.toNat + (n - 10))

/-- The last `width` hexadecimal digits of a number. -/
def hexFixed (n : Nat) : Nat → List Char
  | 0 => []
  | width + 1 => hexFixed (n / 16) width ++ [hexDigit (n % 16)]

/-- The hexadecimal digits of a number without leading zeros; zero keeps one digit. -/
def hexShortest (n : Nat) : List Char := Nat.toDigits 16 n

/-- The bytes of pairs of hexadecimal digits. -/
def readOctets : List Char → List UInt8
  | high :: low :: rest => ((readHex? [high, low]).getD 0).toUInt8 :: readOctets rest
  | _ => []

/-- Two hexadecimal digits for each byte. -/
def octetsText (octets : List UInt8) : String :=
  String.ofList (octets.flatMap fun octet => hexFixed octet.toNat 2)

end TypedSql.Text
