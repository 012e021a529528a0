import TypedSql.Text.Hex

/-!
# Universally unique identifiers

Identifiers of 128 bits, written in five groups of lower-case hexadecimal digits.
-/

namespace TypedSql

open TypedSql.Text

/-- A universally unique identifier. -/
structure Uuid where
  bits : BitVec 128
deriving DecidableEq, Repr

namespace Uuid

/-- The identifier that 32 hexadecimal digits denote; hyphens are ignored. -/
def read? (text : List Char) : Option Uuid := do
  let digits := text.filter (· ≠ '-')
  if digits.length ≠ 32 then none
  return ⟨BitVec.ofNat 128 (← readHex? digits)⟩

/-- The text of an identifier. -/
def render (uuid : Uuid) : String :=
  let digits := hexFixed uuid.bits.toNat 32
  let group (start length : Nat) : String := String.ofList ((digits.drop start).take length)
  "-".intercalate [group 0 8, group 8 4, group 12 4, group 16 4, group 20 12]

end Uuid

end TypedSql
