import TypedSql.Number.Numeral
import TypedSql.Text.Pattern
import TypedSql.Text.Split

/-!
# Formats of addresses and identifiers

Which texts look like a mail address, a universally unique identifier or a network address. The
formats are patterns; an end of text may be followed by one line break. Each format only judges the
form of a text, so more texts pass than denote something.
-/

namespace TypedSql.Format

open TypedSql.Text TypedSql.Number Pattern

/-- Patterns one after the other. -/
def sequence (patterns : List Pattern) : Pattern := patterns.foldr both nothing

/-- The first pattern or one of the others. -/
def oneOf (first : Pattern) (others : List Pattern) : Pattern := others.foldl either first

/-- A pattern, repeated a number of times between two bounds. -/
def between (least most : Nat) (pattern : Pattern) : Pattern := repeated pattern least (some most)

/-- A pattern, repeated an exact number of times. -/
def times (count : Nat) (pattern : Pattern) : Pattern := between count count pattern

/-- A pattern or nothing. -/
def optional (pattern : Pattern) : Pattern := between 0 1 pattern

/-- A pattern, repeated at least once. -/
def atLeastOnce (pattern : Pattern) : Pattern := repeated pattern 1 none

/-- The whole text. -/
def whole (pattern : Pattern) : Pattern := sequence [start, pattern, stop]

/-- One ASCII digit in a range. -/
def digitIn (first last : Char) : Pattern := char false [.range first last]

/-- Any ASCII digit. -/
def digit : Pattern := digitIn '0' '9'

/-- A hexadecimal digit in either letter case. -/
def hexDigit : Pattern := char false [.range '0' '9', .range 'a' 'f', .range 'A' 'F']

/-- A character other than a blank and `@`. -/
def mailChar : Pattern := char true [.blank false, .range '@' '@']

/-- A mail address: some characters, `@`, some characters, a dot and some characters. -/
def mail : Pattern :=
  let part := atLeastOnce mailChar
  whole (sequence [part, single '@', part, single '.', part])

/-- A universally unique identifier of versions 1 to 5 and the standard variant. -/
def uuid : Pattern :=
  let variant := char false [.range '8' '9', .range 'a' 'b', .range 'A' 'B']
  whole (sequence
    [times 8 hexDigit, single '-', times 4 hexDigit, single '-', digitIn '1' '5', times 3 hexDigit,
      single '-', variant, times 3 hexDigit, single '-', times 12 hexDigit])

/-- Four groups of one to three decimal digits of any script between dots. -/
def dotted : Pattern :=
  let group := between 1 3 (char false [.digit false])
  whole (sequence [times 3 (sequence [group, single '.']), group])

/-- A group of one to four hexadecimal digits. -/
def hexGroup : Pattern := between 1 4 hexDigit

/-- A group and a colon. -/
def groupColon : Pattern := both hexGroup (single ':')

/-- A colon and a group. -/
def colonGroup : Pattern := both (single ':') hexGroup

/-- A number below 256 without leading zeros, or with one in front of a single digit. -/
def byte : Pattern :=
  oneOf (sequence [literal "25", digitIn '0' '5'])
    [sequence
      [optional (oneOf (sequence [single '2', digitIn '0' '4'])
        [sequence [optional (single '1'), digit]]), digit]]

/-- The dotted tail of an address of 128 bits. -/
def dottedTail : Pattern := sequence [times 3 (sequence [byte, single '.']), byte]

/-- Groups on both sides of a gap, up to seven in all; `after` bounds those behind it. -/
def aroundGap (after : Nat) : Pattern :=
  sequence [between 1 (7 - after) groupColon, between 1 after colonGroup]

/-- A link-local address with a zone. -/
def zoned : Pattern :=
  sequence [literal "fe80:", between 0 4 (both (single ':') (between 0 4 hexDigit)), single '%',
    atLeastOnce (char false [.range '0' '9', .range 'a' 'z', .range 'A' 'Z'])]

/-- A dotted address behind a gap and an optional group `ffff`. -/
def mapped : Pattern :=
  let zeros := optional (sequence [single ':', between 1 4 (single '0')])
  sequence [literal "::", optional (sequence [literal "ffff", zeros, single ':']), dottedTail]

/-- The forms of an address of 128 bits. -/
def colonForms : List Pattern :=
  [sequence [between 1 7 groupColon, single ':'],
    aroundGap 1, aroundGap 2, aroundGap 3, aroundGap 4, aroundGap 5, aroundGap 6,
    both (single ':') (oneOf (between 1 7 colonGroup) [single ':']),
    zoned, mapped, sequence [between 1 4 groupColon, single ':', dottedTail]]

/-- An address of 128 bits. -/
def colons : Pattern := whole (oneOf (sequence [times 7 groupColon, hexGroup]) colonForms)

/-- Whether a text looks like a mail address. -/
def isMail (text : String) : Bool := mail.startsIn text.toList

/-- Whether a text looks like a universally unique identifier. -/
def isUuid (text : String) : Bool := uuid.startsIn text.toList

/-- Whether a text is four numbers up to 255 between dots. -/
def isIpv4 (text : String) : Bool :=
  dotted.startsIn text.toList &&
    (splitOn '.' text.toList).all fun part => (readInt? part).any fun number => number ≤ 255

/-- Whether a text looks like an address of 128 bits. -/
def isIpv6 (text : String) : Bool := colons.startsIn text.toList

end TypedSql.Format
