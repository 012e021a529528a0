import TypedSql.Text.Hex
import TypedSql.Text.Split

/-!
# Sets of code points

A set of characters is written as a text of hexadecimal ranges, `30-39 41-5a 5f`. The tables of
character classes are such texts.
-/

namespace TypedSql.Text

/-- A set of code points, as inclusive ranges. -/
abbrev CodeRanges := List (Nat × Nat)

namespace CodeRanges

/-- One range `first-last`, or a single code point. -/
def readRange? (word : List Char) : Option (Nat × Nat) :=
  match splitOn '-' word with
  | [single] => (readHex? single).map fun code => (code, code)
  | [first, last] => do return (← readHex? first, ← readHex? last)
  | _ => none

/-- The words of a text between blanks and line breaks. -/
def words (text : List Char) : List (List Char) :=
  splitOn ' ' (text.map fun c => if c = '\n' then ' ' else c)

/-- The ranges of the words that describe one. -/
def ofChars (text : List Char) : CodeRanges := (words text).filterMap readRange?

/-- The set that a blank-separated text of ranges describes. -/
def ofText (text : String) : CodeRanges := ofChars text.toList

/-- Whether a code point lies in one of the ranges. -/
def contains (ranges : CodeRanges) (code : Nat) : Bool :=
  ranges.any fun range => range.1 ≤ code && code ≤ range.2

/-- The range of the set that a code point lies in. -/
def rangeOf? (ranges : CodeRanges) (code : Nat) : Option (Nat × Nat) :=
  List.find? (fun range : Nat × Nat => range.1 ≤ code && code ≤ range.2) ranges

end CodeRanges

end TypedSql.Text
