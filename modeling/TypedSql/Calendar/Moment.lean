import TypedSql.Calendar.Date
import TypedSql.Number.Binary64

/-!
# Moments

A moment is a date, a time of day in microseconds and an optional offset from universal time. A
moment without an offset is local to nowhere. `universal?` moves a moment to universal time and
drops its offset; `ofTimestamp?` counts seconds from 1970.
-/

namespace TypedSql.Calendar

open TypedSql.Number

/-- The microseconds of a second. -/
def microsPerSecond : Nat := 1000000

/-- The microseconds of a day. -/
def microsPerDay : Nat := 86400000000

/-- A time of day, as microseconds since midnight. -/
structure TimeOfDay where
  micros : Nat
  inDay : micros < microsPerDay
deriving DecidableEq, Repr

namespace TimeOfDay

/-- The start of a day. -/
def midnight : TimeOfDay := ⟨0, by decide⟩

/-- The time with an hour, a minute, a second and a microsecond. -/
def ofFields? (hour minute second micro : Nat) : Option TimeOfDay :=
  if h : hour < 24 ∧ minute < 60 ∧ second < 60 ∧ micro < microsPerSecond then
    some ⟨((hour * 60 + minute) * 60 + second) * microsPerSecond + micro, by
      simp only [microsPerSecond, microsPerDay] at *
      omega⟩
  else none

/-- The hour of a time. -/
def hour (time : TimeOfDay) : Nat := time.micros / microsPerSecond / 3600

/-- The minute of a time. -/
def minute (time : TimeOfDay) : Nat := time.micros / microsPerSecond / 60 % 60

/-- The second of a time. -/
def second (time : TimeOfDay) : Nat := time.micros / microsPerSecond % 60

/-- The microsecond of a time. -/
def micro (time : TimeOfDay) : Nat := time.micros % microsPerSecond

/-- The text `HH:MM:SS`. -/
def clock (time : TimeOfDay) : List Char :=
  padded 2 time.hour ++ ':' :: padded 2 time.minute ++ ':' :: padded 2 time.second

/-- The fraction of a second in six places, left out when it is zero. -/
def fraction (time : TimeOfDay) : List Char :=
  if time.micro = 0 then [] else '.' :: padded 6 time.micro

end TimeOfDay

/-- An offset from universal time, in microseconds, shorter than a day. -/
structure Offset where
  micros : Int
  inDay : micros.natAbs < microsPerDay
deriving DecidableEq, Repr

namespace Offset

/-- The offset of a number of microseconds. -/
def ofMicros? (micros : Int) : Option Offset :=
  if h : micros.natAbs < microsPerDay then some ⟨micros, h⟩ else none

/-- The text `+HH:MM`, with seconds and a fraction only where they are not zero. -/
def render (offset : Offset) : List Char :=
  let time : TimeOfDay := ⟨offset.micros.natAbs, offset.inDay⟩
  (if offset.micros < 0 then '-' else '+') :: padded 2 time.hour ++ ':' :: padded 2 time.minute ++
    (if time.second = 0 ∧ time.micro = 0 then [] else ':' :: padded 2 time.second) ++ time.fraction

end Offset

/-- A date and a time of day, with an offset from universal time or none. -/
structure Moment where
  date : Date
  time : TimeOfDay
  offset : Option Offset
deriving DecidableEq, Repr

namespace Moment

/-- The start of a date, without an offset. -/
def ofDate (date : Date) : Moment := ⟨date, .midnight, none⟩

/-- The start of 1970, without an offset. -/
def epoch : Moment := ofDate .epoch

/-- The microseconds up to a moment on its own clock. -/
def localMicros (moment : Moment) : Int :=
  (moment.date.ordinal : Int) * microsPerDay + moment.time.micros

/-- The microseconds up to a moment on the universal clock. -/
def universalMicros (moment : Moment) : Int :=
  moment.localMicros - (moment.offset.map Offset.micros).getD 0

/-- The moment at a count of microseconds, without an offset. -/
def ofMicros? (micros : Int) : Option Moment :=
  (Date.ofOrdinal? (micros / microsPerDay)).map fun date =>
    { date
      time := ⟨(micros % microsPerDay).toNat, by simp only [microsPerDay]; omega⟩
      offset := none }

/-- The moment in universal time without its offset, if the calendar holds it. A moment without an
offset stays as it is. -/
def universal? (moment : Moment) : Option Moment :=
  match moment.offset with
  | none => some moment
  | some _ => ofMicros? moment.universalMicros

/-- The text `YYYY-MM-DD`, a separator and the time, fraction and offset where they are present. -/
def renderWith (separator : Char) (moment : Moment) : String :=
  moment.date.render ++ String.ofList
    (separator :: moment.time.clock ++ moment.time.fraction ++
      (moment.offset.map Offset.render).getD [])

/-- The text form of a moment. -/
def render (moment : Moment) : String := moment.renderWith 'T'

/-- The date and time in the form of wire values: the year without padding, no offset. -/
def wireText (moment : Moment) : String :=
  String.ofList
    (Nat.toDigits 10 moment.date.year ++ '-' :: padded 2 moment.date.month ++
      '-' :: padded 2 moment.date.day ++ ' ' :: moment.time.clock)

/-- The date and time in the form of wire values, with the fraction in six places. -/
def wireTextMicros (moment : Moment) : String :=
  moment.wireText ++ String.ofList ('.' :: padded 6 moment.time.micro)

/-- Why a timestamp names no moment: it lies outside of the calendar, or even of what the clock of
the system converts, or it is no count of seconds at all. -/
inductive TimestampFault where
  | invalid
  | unconverted
  | overflow
deriving DecidableEq, Repr

/-- The moment a number of microseconds after the start of 1970. -/
def sinceEpoch (micros : Int) : Except TimestampFault Moment :=
  match ofMicros? (epoch.localMicros + micros) with
  | some moment => .ok moment
  | none => .error .invalid

/-- The seconds that a timestamp can count, in 64 bits. -/
def inTimestampRange (seconds : Int) : Bool := inRange (signedRange 64) seconds

/-- The seconds whose years, counted from 1900, the clock of the system holds in 32 bits. -/
def clockRange : Int × Int := (-67768040609740800, 67768036191676799)

/-- The moment a number of seconds and microseconds after the start of 1970. -/
def ofClock (seconds micros : Int) : Except TimestampFault Moment :=
  if !inTimestampRange seconds then .error .overflow
  else if !inRange clockRange seconds then .error .unconverted
  else sinceEpoch (seconds * microsPerSecond + micros)

/-- The moment a whole number of seconds after the start of 1970. -/
def ofSeconds (seconds : Int) : Except TimestampFault Moment := ofClock seconds 0

/-- The moment a number of seconds after the start of 1970, to the nearest microsecond. -/
def ofTimestamp : Binary64 → Except TimestampFault Moment
  | .nan => .error .invalid
  | .infinity _ => .error .overflow
  | .finite negative significand exponent =>
    let whole := signed negative (Binary64.wholePart significand exponent)
    let micros :=
      match Binary64.scaleFraction negative significand exponent microsPerSecond with
      | .finite sign digits place => Binary64.roundWhole sign digits place
      | _ => 0
    ofClock whole micros

/-- The order of two moments; none where only one of them has an offset. -/
def order? (left right : Moment) : Option Ordering :=
  if left.offset.isSome = right.offset.isSome then
    some (compare left.universalMicros right.universalMicros)
  else none

end Moment

end TypedSql.Calendar
