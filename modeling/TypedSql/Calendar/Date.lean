import TypedSql.Number.Numeral

/-!
# Calendar dates

Dates of the proleptic Gregorian calendar in the years 1 to 9999. A date is counted by its ordinal,
the number of days up to and including it; `ofOrdinal?` reads the count back.
-/

namespace TypedSql.Calendar

open TypedSql.Number

/-- The last year of the calendar. -/
def maxYear : Nat := 9999

/-- Whether a year has a 29th of February. -/
def isLeapYear (year : Nat) : Bool := year % 4 = 0 && (year % 100 ≠ 0 || year % 400 = 0)

/-- The length of a month. -/
def daysInMonth (year month : Nat) : Nat :=
  match month with
  | 2 => if isLeapYear year then 29 else 28
  | 4 | 6 | 9 | 11 => 30
  | _ => 31

/-- The days of all years before a year. -/
def daysBeforeYear (year : Nat) : Nat :=
  let full := year - 1
  full * 365 + full / 4 - full / 100 + full / 400

/-- The days of a year before a month. -/
def daysBeforeMonth (year month : Nat) : Nat :=
  (List.range (month - 1)).foldl (fun days index => days + daysInMonth year (index + 1)) 0

/-- Whether a year, a month and a day name a date. -/
def isDate (year month day : Nat) : Bool :=
  1 ≤ year && year ≤ maxYear && 1 ≤ month && month ≤ 12 && 1 ≤ day && day ≤ daysInMonth year month

/-- A calendar date. -/
structure Date where
  year : Nat
  month : Nat
  day : Nat
  valid : isDate year month day = true
deriving DecidableEq, Repr

namespace Date

/-- The date with a year, a month and a day. -/
def ofFields? (year month day : Nat) : Option Date :=
  if h : isDate year month day = true then some ⟨year, month, day, h⟩ else none

/-- The first day of 1970. -/
def epoch : Date := ⟨1970, 1, 1, rfl⟩

/-- The number of days up to and including a date; the first date has ordinal one. -/
def ordinal (date : Date) : Nat :=
  daysBeforeYear date.year + daysBeforeMonth date.year date.month + date.day

/-- The year that contains a day, counted from zero. The mean year length locates it up to one. -/
def yearOfDay (day : Nat) : Nat :=
  let estimate := day * 400 / 146097 + 1
  if day < daysBeforeYear estimate then estimate - 1
  else if daysBeforeYear (estimate + 1) ≤ day then estimate + 1
  else estimate

/-- The month that contains a day of a year, counted from zero. -/
def monthOfDay (year day : Nat) : Nat :=
  1 + ((List.range 11).filter fun index => daysBeforeMonth year (index + 2) ≤ day).length

/-- The date with an ordinal. -/
def ofOrdinal? (ordinal : Int) : Option Date :=
  if ordinal < 1 then none
  else
    let day := ordinal.toNat - 1
    let year := yearOfDay day
    let dayOfYear := day - daysBeforeYear year
    let month := monthOfDay year dayOfYear
    ofFields? year month (dayOfYear - daysBeforeMonth year month + 1)

/-- The day of the week of an ordinal; Monday is zero. -/
def weekdayOf (ordinal : Nat) : Nat := (ordinal + 6) % 7

/-- The text `YYYY-MM-DD`. -/
def render (date : Date) : String :=
  String.ofList (padded 4 date.year ++ '-' :: padded 2 date.month ++ '-' :: padded 2 date.day)

/-- The order of two dates. -/
def order (left right : Date) : Ordering := compare left.ordinal right.ordinal

end Date

end TypedSql.Calendar
