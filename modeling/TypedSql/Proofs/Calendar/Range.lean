import TypedSql.Proofs.Calendar.Moment

/-!
# The range of the calendar

The calendar holds the days from the first of year 1 up to the last of year 9999, and so the
microseconds from the start of the one to the end of the other: `exists_ofMicros?_iff`. Which
timestamps and which moments with an offset have a place in it follows.
-/

namespace TypedSql.Calendar

/-- The ordinal of the last date. -/
def lastOrdinal : Nat := 3652059

/-- The dates have the ordinals from one up to the last. -/
theorem exists_ofOrdinal?_iff {ordinal : Int} :
    (∃ date, Date.ofOrdinal? ordinal = some date) ↔ 1 ≤ ordinal ∧ ordinal ≤ lastOrdinal := by
  simp only [ofOrdinal?_eq_some_iff]
  constructor
  · rintro ⟨date, rfl⟩
    obtain ⟨hday, hmax⟩ := isDate_iff.1 date.valid
    -- a date lies before the start of the year after its own
    have hmonth : daysBeforeMonth date.year date.month + daysInMonth date.year date.month ≤
        yearLength date.year := by
      rw [← daysBeforeMonth_end]
      exact daysBeforeMonth_lt date.year hday.month_pos (by have := hday.month_le; omega)
    have hyear := daysBeforeYear_succ hday.year_pos
    have hlast : daysBeforeYear (date.year + 1) ≤ lastOrdinal := by
      simp only [daysBeforeYear, lastOrdinal, maxYear] at *
      omega
    have hfirst := hday.day_pos
    have hfits := hday.day_le
    rw [Date.ordinal]
    omega
  · rintro ⟨hfirst, hlast⟩
    obtain ⟨year, month, day, hday, hcount⟩ := exists_isDayOf (by omega : 1 ≤ ordinal.toNat)
    have hmax : year ≤ maxYear := by
      have hpos := hday.day_pos
      simp only [countDays, daysBeforeYear, lastOrdinal, maxYear] at *
      omega
    refine ⟨⟨year, month, day, isDate_iff.2 ⟨hday, hmax⟩⟩, ?_⟩
    show (countDays year month day : Int) = ordinal
    omega

namespace Moment

/-- Whether the calendar holds a moment at a count of microseconds. -/
def InCalendar (micros : Int) : Prop :=
  microsPerDay ≤ micros ∧ micros < (lastOrdinal + 1) * microsPerDay

/-- There is a moment without an offset at a count of microseconds exactly inside the calendar. -/
theorem exists_ofMicros?_iff {micros : Int} :
    (∃ moment, ofMicros? micros = some moment) ↔ InCalendar micros := by
  have hday : (∃ moment, ofMicros? micros = some moment) ↔
      ∃ date, Date.ofOrdinal? (micros / microsPerDay) = some date := by
    simp only [ofMicros?, Option.map_eq_some_iff]
    constructor
    · rintro ⟨_, date, hdate, -⟩
      exact ⟨date, hdate⟩
    · rintro ⟨date, hdate⟩
      exact ⟨_, date, hdate, rfl⟩
  rw [hday, exists_ofOrdinal?_iff, InCalendar]
  simp only [microsPerDay, lastOrdinal]
  omega

variable {moment : Moment}

/-- A moment has a form in universal time exactly if that lies inside the calendar. -/
theorem exists_universal?_iff :
    (∃ universal, moment.universal? = some universal) ↔ InCalendar moment.universalMicros := by
  rw [universal?_eq_ofMicros?, exists_ofMicros?_iff]

/-- There is a moment some microseconds after the start of 1970 exactly inside the calendar. -/
theorem exists_sinceEpoch_iff {micros : Int} :
    (∃ moment, sinceEpoch micros = .ok moment) ↔ InCalendar (epoch.localMicros + micros) := by
  rw [← exists_ofMicros?_iff, sinceEpoch]
  cases ofMicros? (epoch.localMicros + micros) <;> simp

theorem inClockRange_iff {seconds : Int} : Number.inRange clockRange seconds = true ↔
    -67768040609740800 ≤ seconds ∧ seconds ≤ 67768036191676799 := by
  rw [Number.inRange, Bool.and_eq_true, decide_eq_true_iff, decide_eq_true_iff]
  rfl

/-- The clock of the system converts no more seconds than 64 bits hold. -/
theorem inTimestampRange_of_clockRange {seconds : Int}
    (h : Number.inRange clockRange seconds = true) : inTimestampRange seconds = true := by
  have hbits : Number.signedRange 64 = (-9223372036854775808, 9223372036854775807) := by rfl
  rw [inClockRange_iff] at h
  simp only [inTimestampRange, hbits, Number.inRange, Bool.and_eq_true, decide_eq_true_eq]
  omega

/-- There is a moment some seconds and microseconds after the start of 1970 exactly if the clock of
the system converts the seconds and the calendar holds the moment. -/
theorem exists_ofClock_iff {seconds micros : Int} :
    (∃ moment, ofClock seconds micros = .ok moment) ↔ Number.inRange clockRange seconds = true ∧
      InCalendar (epoch.localMicros + (seconds * microsPerSecond + micros)) := by
  rw [← exists_sinceEpoch_iff]
  cases hclock : Number.inRange clockRange seconds with
  | true => simp [ofClock, hclock, inTimestampRange_of_clockRange hclock]
  | false => cases htimestamp : inTimestampRange seconds <;> simp [ofClock, hclock, htimestamp]

/-- Whole seconds from the start of 1970 on name a moment from the start of year 1 up to the end of
year 9999. -/
theorem exists_ofSeconds_iff {seconds : Int} :
    (∃ moment, ofSeconds seconds = .ok moment) ↔
      -62135596800 ≤ seconds ∧ seconds ≤ 253402300799 := by
  have hepoch : epoch.localMicros = 62135683200000000 := by rfl
  rw [ofSeconds, exists_ofClock_iff, inClockRange_iff, InCalendar, hepoch]
  simp only [microsPerDay, microsPerSecond, lastOrdinal]
  omega

/-- The microseconds after the start of 1970 that a binary number of seconds counts, if the
clock of the system converts its whole part. -/
def countedMicros? : Number.Binary64 → Option Int
  | .finite negative significand exponent =>
    let whole := Number.signed negative (Number.Binary64.wholePart significand exponent)
    let micros :=
      match Number.Binary64.scaleFraction negative significand exponent microsPerSecond with
      | .finite sign digits place => Number.Binary64.roundWhole sign digits place
      | _ => 0
    if Number.inRange clockRange whole then some (whole * microsPerSecond + micros) else none
  | _ => none

/-- A binary number of seconds names a moment exactly if it counts microseconds inside the
calendar. -/
theorem exists_ofTimestamp_iff {seconds : Number.Binary64} :
    (∃ moment, ofTimestamp seconds = .ok moment) ↔
      ∃ micros, countedMicros? seconds = some micros ∧ InCalendar (epoch.localMicros + micros) := by
  cases seconds with
  | nan => simp [ofTimestamp, countedMicros?]
  | infinity => simp [ofTimestamp, countedMicros?]
  | finite negative significand exponent =>
      rw [ofTimestamp, exists_ofClock_iff, countedMicros?]
      simp only [Option.ite_none_right_eq_some, Option.some.injEq]
      constructor
      · rintro ⟨hclock, h⟩
        exact ⟨_, ⟨hclock, rfl⟩, h⟩
      · rintro ⟨_, ⟨hclock, rfl⟩, h⟩
        exact ⟨hclock, h⟩

end Moment

end TypedSql.Calendar
