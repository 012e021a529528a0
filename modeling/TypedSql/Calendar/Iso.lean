import TypedSql.Calendar.Moment

/-!
# Reading ISO 8601 moments

The text form of moments that is read: a calendar or week date, then any one separator character and
a time of day with an optional fraction and offset. Fields stand with or without their marks, a
fraction is cut to six places, and one character between a complete field and the sign of an offset
is skipped.
-/

namespace TypedSql.Calendar.Iso

open TypedSql.Number TypedSql.Text

/-- The character at the front of a text; its end reads as NUL. -/
def front (text : List Char) : Char := text.headD '\x00'

/-- A number of exactly `count` ASCII digits at the front of a text. -/
def digits? (count : Nat) (text : List Char) : Option (Nat × List Char) :=
  let digits := text.take count
  if digits.length = count ∧ digits.all isAsciiDigit then
    some (Decimal.ofAscii digits, text.drop count)
  else none

/-- Where the date ends, told by the fifth and sixth character. A week date with marks may end
before or after its day; a digit after the next mark decides for the former. One without marks has a
day if an odd number of digits follows the `W`. -/
def dateLength (text : List Char) : Nat :=
  let char (index : Nat) : Char := text.getD index '\x00'
  if text.length = 7 then 7
  else if char 4 = '-' then
    if char 5 = 'W' then
      if char 8 = '-' then if isAsciiDigit (char 10) then 8 else 10 else 8
    else 10
  else if char 4 = 'W' then
    let stop := 7 + ((text.drop 7).takeWhile isAsciiDigit).length
    if stop < 9 then stop else if stop % 2 = 0 then 7 else 8
  else 8

/-- Whether a year has a fifty-third week. -/
def isLongYear (year : Nat) : Bool :=
  let first := Date.weekdayOf (daysBeforeYear year + 1)
  first = 3 || (first = 2 && isLeapYear year)

/-- The ordinal of the Monday of the first week of a year. -/
def firstMonday (year : Nat) : Int :=
  let first := daysBeforeYear year + 1
  let weekday := Date.weekdayOf first
  (first : Int) - weekday + if 3 < weekday then 7 else 0

/-- The date with a year, a week and a day of the week. -/
def ofWeek? (year week day : Nat) : Option Date :=
  let lastWeek := if isLongYear year then 53 else 52
  if 1 ≤ year ∧ 1 ≤ week ∧ week ≤ lastWeek ∧ 1 ≤ day ∧ day ≤ 7 then
    Date.ofOrdinal? (firstMonday year + ((week - 1) * 7 + (day - 1) : Nat))
  else none

/-- The date that the first `length` characters of a text denote. -/
def date? (text : List Char) (length : Nat) : Option Date := do
  let (year, rest) ← digits? 4 text
  let marked := front rest = '-'
  let rest := if marked then rest.drop 1 else rest
  if front rest = 'W' then
    let (week, rest) ← digits? 2 (rest.drop 1)
    if text.length - rest.length < length then
      if marked ∧ front rest ≠ '-' then none
      let (day, _) ← digits? 1 (if marked then rest.drop 1 else rest)
      ofWeek? year week day
    else ofWeek? year week 1
  else
    let (month, rest) ← digits? 2 rest
    if marked ∧ front rest ≠ '-' then none
    let (day, rest) ← digits? 2 (if marked then rest.drop 1 else rest)
    if text.length - rest.length = length then Date.ofFields? year month day else none

/-- The fields of a time or an offset, and whether text is left behind them. -/
structure Clock where
  fields : List Nat
  micro : Nat
  leftover : Bool

namespace Clock

/-- The value of a field; fields that are left out are zero. -/
def field (clock : Clock) (index : Nat) : Nat := clock.fields.getD index 0

/-- A clock with one more field in front. -/
def push (value : Nat) (clock : Clock) : Clock := { clock with fields := value :: clock.fields }

/-- A fraction within the next `limit` characters: the first six digits count. -/
def fraction? (text : List Char) (limit : Nat) : Option Clock := do
  let places := min limit 6
  let (value, rest) ← digits? places text
  return {
    fields := []
    micro := value * tenTo (6 - places)
    leftover := front (rest.dropWhile isAsciiDigit) ≠ '\x00' }

/-- Up to `count` two-digit fields and a fraction within the next `limit` characters. The character
after the first field decides whether colons stand between fields. -/
def read? : Nat → Option Bool → List Char → Nat → Option Clock
  | 0, _, text, limit => fraction? text limit
  | count + 1, colons, text, limit => do
    let (value, rest) ← digits? 2 text
    let mark := front rest
    let colons := colons.getD (mark = ':')
    if mark.toNat ≥ 0x80 then none
    else if limit ≤ 3 then some { fields := [value], micro := 0, leftover := mark ≠ '\x00' }
    else if colons ∧ mark = ':' then
      (read? count (some colons) (rest.drop 1) (limit - 3)).map (push value)
    else if mark = '.' ∨ mark = ',' then (fraction? (rest.drop 1) (limit - 3)).map (push value)
    else if colons then none
    else (read? count (some colons) rest (limit - 2)).map (push value)

/-- The time of day that a clock shows. -/
def time? (clock : Clock) : Option TimeOfDay :=
  TimeOfDay.ofFields? (clock.field 0) (clock.field 1) (clock.field 2) clock.micro

/-- The seconds that a clock counts. -/
def seconds (clock : Clock) : Nat := clock.field 0 * 3600 + clock.field 1 * 60 + clock.field 2

end Clock

/-- Whether a character starts an offset. -/
def isOffsetMark (c : Char) : Bool := c = '+' || c = '-' || c = 'Z'

/-- The offset after a sign. Less than a second of offset is none at all. -/
def offset? (negative : Bool) (text : List Char) : Option Offset := do
  let clock ← Clock.read? 3 none text text.length
  if clock.leftover then none
  else if clock.seconds = 0 then Offset.ofMicros? 0
  else Offset.ofMicros? (signed negative (clock.seconds * microsPerSecond + clock.micro))

/-- A time of day and its offset. -/
def time? (text : List Char) : Option (TimeOfDay × Option Offset) := do
  let limit := (text.takeWhile fun c => !isOffsetMark c).length
  let clock ← Clock.read? 3 none text limit
  let time ← clock.time?
  match text.drop limit with
  | [] => if clock.leftover then none else some (time, none)
  | 'Z' :: rest => if front rest ≠ '\x00' then none else return (time, ← Offset.ofMicros? 0)
  | sign :: rest => return (time, ← offset? (sign = '-') rest)

/-- The moment that a text denotes. -/
def moment? (text : List Char) : Option Moment := do
  if text.length < 7 then none
  let length := dateLength text
  let date ← date? text length
  match text.drop length with
  | [] => return ⟨date, .midnight, none⟩
  | _ :: rest =>
    let (time, offset) ← time? rest
    return ⟨date, time, offset⟩

/-- The date that a text `YYYY-MM-DD` denotes. -/
def calendarDate? (text : List Char) : Option Date := do
  let moment ← moment? text
  if text.length = 10 then some moment.date else none

end TypedSql.Calendar.Iso
