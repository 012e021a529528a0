import TypedSql.Number.Numeral
import TypedSql.Number.Power
import TypedSql.Text.Hex
import TypedSql.Text.Split

/-!
# Network addresses

Addresses of 32 and 128 bits with their text forms. The longer ones are written in groups of sixteen
bits, the first longest run of zero groups shortened to `::`, and may carry a scope after `%`.
-/

namespace TypedSql.Network

open TypedSql.Text TypedSql.Number

/-- An address of 32 bits. -/
structure Ipv4 where
  bits : BitVec 32
deriving DecidableEq, Repr

/-- An address of 128 bits with an optional scope. -/
structure Ipv6 where
  bits : BitVec 128
  scope : Option String
deriving DecidableEq, Repr

namespace Ipv4

/-- One part of a dotted address: up to three digits below 256 without a leading zero. -/
def part? (digits : List Char) : Option Nat :=
  let value := ofDigits (digits.map fun c => c.toNat - '0'.toNat)
  if digits.isEmpty || !digits.all isAsciiDigit || 3 < digits.length then none
  else if 1 < digits.length && digits.head? = some '0' then none
  else if value < 256 then some value else none

/-- The address that a dotted text denotes. -/
def read? (text : List Char) : Option Ipv4 := do
  let parts := splitOn '.' text
  if parts.length ≠ 4 then none
  let values ← parts.mapM part?
  return ⟨BitVec.ofNat 32 (values.foldl (256 * · + ·) 0)⟩

/-- The dotted text of an address. -/
def render (address : Ipv4) : String :=
  let part (shift : Nat) : String := toString (address.bits.toNat / twoTo shift % 256)
  ".".intercalate [part 24, part 16, part 8, part 0]

end Ipv4

namespace Ipv6

/-- The group of sixteen bits that one to four hexadecimal digits denote. -/
def group? (digits : List Char) : Option Nat :=
  if digits.length ≤ 4 then readHex? digits else none

/-- The two groups of a dotted tail. -/
def groupsOfTail (tail : Ipv4) : List (List Char) :=
  [hexShortest (tail.bits.toNat / twoTo 16), hexShortest (tail.bits.toNat % twoTo 16)]

/-- The pieces between colons, a dotted tail replaced by its two groups. -/
def pieces? (text : List Char) : Option (List (List Char)) :=
  let pieces := splitOn ':' text
  if pieces.length < 3 then none
  else match pieces.getLast? with
    | some last =>
      if last.contains '.' then
        (Ipv4.read? last).map fun tail => pieces.dropLast ++ groupsOfTail tail
      else some pieces
    | none => none

/-- The pieces before and after the only empty inner piece, if there is one. -/
def halves? (pieces : List (List Char)) : Option (List (List Char) × Option (List (List Char))) :=
  let inner := (List.range pieces.length).filter fun index =>
    0 < index && index + 1 < pieces.length && (pieces.getD index []).isEmpty
  match inner with
  | [] => some (pieces, none)
  | [index] => some (pieces.take index, some (pieces.drop (index + 1)))
  | _ => none

/-- A half next to the gap of zeros: it is empty or free of empty pieces. -/
def half? (pieces : List (List Char)) : Option (List Nat) :=
  if pieces = [[]] then some [] else pieces.mapM group?

/-- The groups of an address without a scope. -/
def groups? (text : List Char) : Option (List Nat) := do
  let pieces ← pieces? text
  let (high, low) ← halves? pieces
  match low with
  | none => if pieces.length = 8 then high.mapM group? else none
  | some low =>
    let high ← half? high
    let low ← half? low
    if high.length + low.length < 8 then
      return high ++ List.replicate (8 - high.length - low.length) 0 ++ low
    else none

/-- The address that a text denotes. -/
def read? (text : List Char) : Option Ipv6 := do
  if text.contains '/' then none
  let address := text.takeWhile (· ≠ '%')
  let scope ← match text.dropWhile (· ≠ '%') with
    | [] => some none
    | _ :: scope => if scope.isEmpty || scope.contains '%' then none else some (some scope)
  let groups ← groups? address
  return ⟨BitVec.ofNat 128 (groups.foldl (65536 * · + ·) 0), scope.map String.ofList⟩

/-- The eight groups of an address. -/
def groups (address : Ipv6) : List Nat :=
  (List.range 8).map fun index => address.bits.toNat / twoTo (16 * (7 - index)) % twoTo 16

/-- The length of the run of zeros at the start of a list. -/
def zeroRun (groups : List Nat) : Nat := (groups.takeWhile (· = 0)).length

/-- Where the first longest run of at least two zero groups starts, and its length. -/
def longestRun (groups : List Nat) : Nat × Nat :=
  (List.range groups.length).foldl
    (fun best start =>
      let run := zeroRun (groups.drop start)
      if best.2 < run ∧ 2 ≤ run then (start, run) else best)
    (0, 0)

/-- Groups between colons. -/
def join (groups : List Nat) : String :=
  ":".intercalate (groups.map fun group => String.ofList (hexShortest group))

/-- The text of an address without its scope. -/
def renderBits (address : Ipv6) : String :=
  let groups := address.groups
  let (start, length) := longestRun groups
  if length = 0 then join groups
  else join (groups.take start) ++ "::" ++ join (groups.drop (start + length))

/-- The text of an address. -/
def render (address : Ipv6) : String :=
  address.renderBits ++ match address.scope with
    | none => ""
    | some scope => "%" ++ scope

end Ipv6

end TypedSql.Network
