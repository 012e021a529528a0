import TypedSql.Calendar.Date

/-!
# Ordinals of dates

A date is found again from its ordinal (`ofOrdinal?_ordinal`), and what is found from a number has
that number as its ordinal (`ofOrdinal?_eq_some_iff`). Both rest on where a day lies: between the
start of its year and that of the next, and inside of the year between the starts of two months.
-/

namespace TypedSql.Calendar

variable {year month day : Nat}

/-- Something that starts at or before a number and is beyond it later passes it in between. -/
theorem exists_between (start : Nat → Nat) {n : Nat} (hstart : start 1 ≤ day)
    (h : day < start (n + 1)) : ∃ i, 1 ≤ i ∧ i ≤ n ∧ start i ≤ day ∧ day < start (i + 1) := by
  induction n with
  | zero => exact absurd h (Nat.not_lt.2 hstart)
  | succ n ih =>
      by_cases hlast : start (n + 1) ≤ day
      · exact ⟨n + 1, by omega, Nat.le_refl _, hlast, h⟩
      · obtain ⟨i, hfirst, hi, hbounds⟩ := ih (by omega)
        exact ⟨i, hfirst, by omega, hbounds⟩

/-- The length of a year. -/
def yearLength (year : Nat) : Nat := if isLeapYear year then 366 else 365

/-- A year starts when the year before it is over. -/
theorem daysBeforeYear_succ (h : 1 ≤ year) :
    daysBeforeYear (year + 1) = daysBeforeYear year + yearLength year := by
  obtain ⟨full, rfl⟩ := Nat.exists_eq_add_of_le' h
  have hfour : (full + 1) / 4 = full / 4 + if (full + 1) % 4 = 0 then 1 else 0 := by
    split <;> omega
  have hhundred : (full + 1) / 100 = full / 100 + if (full + 1) % 100 = 0 then 1 else 0 := by
    split <;> omega
  have hcycle : (full + 1) / 400 = full / 400 + if (full + 1) % 400 = 0 then 1 else 0 := by
    split <;> omega
  have hless : full / 100 ≤ full / 4 := by omega
  simp only [daysBeforeYear, yearLength, isLeapYear, Nat.add_sub_cancel, hfour, hhundred, hcycle]
  by_cases hdivFour : (full + 1) % 4 = 0
  · by_cases hdivHundred : (full + 1) % 100 = 0
    · by_cases hdivCycle : (full + 1) % 400 = 0
      · simp [hdivFour, hdivHundred, hdivCycle]
        omega
      · simp [hdivFour, hdivHundred, hdivCycle]
        omega
    · have hdivCycle : (full + 1) % 400 ≠ 0 := by omega
      simp [hdivFour, hdivHundred, hdivCycle]
      omega
  · have hdivHundred : (full + 1) % 100 ≠ 0 := by omega
    have hdivCycle : (full + 1) % 400 ≠ 0 := by omega
    simp [hdivFour, hdivHundred, hdivCycle]
    omega

/-- A month starts when the month before it is over. -/
theorem daysBeforeMonth_succ (year : Nat) (h : 1 ≤ month) :
    daysBeforeMonth year (month + 1) = daysBeforeMonth year month + daysInMonth year month := by
  obtain ⟨index, rfl⟩ := Nat.exists_eq_add_of_le' h
  simp [daysBeforeMonth, List.range_succ]

/-- The months fill the year. -/
theorem daysBeforeMonth_end (year : Nat) : daysBeforeMonth year 13 = yearLength year := by
  unfold yearLength
  cases hleap : isLeapYear year <;> simp [daysBeforeMonth, daysInMonth, List.range_succ, hleap]

/-- A later month starts when the month is over, or after that. -/
theorem daysBeforeMonth_lt (year : Nat) {other : Nat} (hmonth : 1 ≤ month) (h : month < other) :
    daysBeforeMonth year month + daysInMonth year month ≤ daysBeforeMonth year other := by
  induction other with
  | zero => omega
  | succ other ih =>
      by_cases hlast : month = other
      · subst hlast
        exact Nat.le_of_eq (daysBeforeMonth_succ year hmonth).symm
      · have hbefore := ih (by omega)
        rw [daysBeforeMonth_succ year (by omega)]
        omega

/-- The year is found in which a day lies. -/
theorem yearOfDay_eq (hyear : 1 ≤ year) (hstart : daysBeforeYear year ≤ day)
    (hstop : day < daysBeforeYear (year + 1)) : Date.yearOfDay day = year := by
  have hlow : year ≤ day * 400 / 146097 + 2 := by
    simp only [daysBeforeYear] at hstart
    omega
  have hhigh : day * 400 / 146097 ≤ year := by
    simp only [daysBeforeYear] at hstop
    omega
  simp only [Date.yearOfDay]
  generalize day * 400 / 146097 = estimate at hlow hhigh
  obtain rfl | rfl | rfl : year = estimate ∨ year = estimate + 1 ∨ year = estimate + 2 := by omega
  · rw [if_pos hstop, Nat.add_sub_cancel]
  · rw [if_neg (by omega), if_neg (by omega)]
  · have hbefore : daysBeforeYear (estimate + 2) = _ :=
      daysBeforeYear_succ (by omega : 1 ≤ estimate + 1)
    rw [if_neg (by omega), if_pos hstart]

/-- The month is found in which a day of a year lies. -/
theorem monthOfDay_eq (hmonth : 1 ≤ month) (hlast : month ≤ 12)
    (hstart : daysBeforeMonth year month ≤ day) (hstop : day < daysBeforeMonth year (month + 1)) :
    Date.monthOfDay year day = month := by
  have hpassed : ∀ index, daysBeforeMonth year (index + 2) ≤ day ↔ index + 2 ≤ month := by
    intro index
    constructor
    · intro hpassed
      refine Nat.le_of_not_lt fun hlater => ?_
      have hbeyond : daysBeforeMonth year (month + 1) ≤ daysBeforeMonth year (index + 2) := by
        rw [daysBeforeMonth_succ year hmonth]
        exact daysBeforeMonth_lt year hmonth (by omega)
      omega
    · intro hmonths
      by_cases hsame : index + 2 = month
      · rw [hsame]
        exact hstart
      · have hbefore := daysBeforeMonth_lt year (by omega : 1 ≤ index + 2)
          (by omega : index + 2 < month)
        omega
  have hcount : ∀ last ≤ 12, 1 ≤ last →
      1 + ((List.range 11).filter fun index => index + 2 ≤ last).length = last := by decide
  rw [Date.monthOfDay]
  simp only [hpassed]
  exact hcount month hlast hmonth

/-- What a date is made of, whatever its year: a month, and a day inside of it. -/
structure IsDayOf (year month day : Nat) : Prop where
  year_pos : 1 ≤ year
  month_pos : 1 ≤ month
  month_le : month ≤ 12
  day_pos : 1 ≤ day
  day_le : day ≤ daysInMonth year month

/-- The days up to and including a day of a month. -/
def countDays (year month day : Nat) : Nat :=
  daysBeforeYear year + daysBeforeMonth year month + day

/-- A date is a day of a year that the calendar holds. -/
theorem isDate_iff : isDate year month day = true ↔ IsDayOf year month day ∧ year ≤ maxYear := by
  simp only [isDate, Bool.and_eq_true, decide_eq_true_eq]
  constructor
  · rintro ⟨⟨⟨⟨⟨hyear, hmax⟩, hmonth⟩, hlast⟩, hfirst⟩, hday⟩
    exact ⟨⟨hyear, hmonth, hlast, hfirst, hday⟩, hmax⟩
  · rintro ⟨⟨hyear, hmonth, hlast, hfirst, hday⟩, hmax⟩
    exact ⟨⟨⟨⟨⟨hyear, hmax⟩, hmonth⟩, hlast⟩, hfirst⟩, hday⟩

/-- A day of a month is found again from the days before it. -/
theorem ofOrdinal?_countDays (h : IsDayOf year month day) :
    Date.ofOrdinal? (countDays year month day : Nat) = Date.ofFields? year month day := by
  obtain ⟨hyear, hmonth, hlast, hfirst, hday⟩ := h
  have hmonthEnd := daysBeforeMonth_succ year hmonth
  have hyearEnd : daysBeforeMonth year month + daysInMonth year month ≤ yearLength year := by
    rw [← daysBeforeMonth_end]
    exact daysBeforeMonth_lt year hmonth (by omega)
  have hnext := daysBeforeYear_succ hyear
  have hcount : countDays year month day - 1 =
      daysBeforeYear year + (daysBeforeMonth year month + (day - 1)) := by
    rw [countDays]
    omega
  have hfoundYear : Date.yearOfDay (countDays year month day - 1) = year :=
    yearOfDay_eq hyear (by omega) (by omega)
  have hfoundMonth : Date.monthOfDay year (daysBeforeMonth year month + (day - 1)) = month :=
    monthOfDay_eq hmonth hlast (by omega) (by omega)
  rw [Date.ofOrdinal?, if_neg (by rw [countDays]; omega)]
  simp only [Int.toNat_natCast, hfoundYear]
  rw [hcount, Nat.add_sub_cancel_left, hfoundMonth, Nat.add_sub_cancel_left,
    Nat.sub_add_cancel hfirst]

/-- A date is found again from its ordinal. -/
theorem ofOrdinal?_ordinal (date : Date) : Date.ofOrdinal? date.ordinal = some date := by
  have hdate := isDate_iff.1 date.valid
  have hfound := ofOrdinal?_countDays hdate.1
  rw [Date.ofFields?, dif_pos date.valid] at hfound
  exact hfound

/-- Every day from the first one on lies in a month of a year. -/
theorem exists_isDayOf {count : Nat} (h : 1 ≤ count) :
    ∃ year month day, IsDayOf year month day ∧ countDays year month day = count := by
  have hbeyond : count - 1 < daysBeforeYear (count + 1) := by
    simp only [daysBeforeYear]
    omega
  obtain ⟨year, hyear, -, hstart, hstop⟩ :=
    exists_between daysBeforeYear (Nat.zero_le _) hbeyond
  rw [daysBeforeYear_succ hyear, ← daysBeforeMonth_end] at hstop
  have hinside : count - 1 - daysBeforeYear year < daysBeforeMonth year (12 + 1) :=
    Nat.sub_lt_left_of_lt_add hstart hstop
  obtain ⟨month, hmonth, hlast, hmonthStart, hmonthStop⟩ :=
    exists_between (daysBeforeMonth year) (Nat.zero_le _) hinside
  rw [daysBeforeMonth_succ year hmonth] at hmonthStop
  refine ⟨year, month, count - daysBeforeYear year - daysBeforeMonth year month,
    ⟨hyear, hmonth, hlast, by omega, by omega⟩, ?_⟩
  rw [countDays]
  omega

/-- The date with an ordinal is the one that has this ordinal. -/
theorem ofOrdinal?_eq_some_iff {ordinal : Int} {date : Date} :
    Date.ofOrdinal? ordinal = some date ↔ (date.ordinal : Int) = ordinal := by
  constructor
  · intro h
    by_cases hpos : ordinal < 1
    · rw [Date.ofOrdinal?, if_pos hpos] at h
      cases h
    · obtain ⟨year, month, day, hday, hcount⟩ :=
        exists_isDayOf (by omega : 1 ≤ ordinal.toNat)
      have hordinal : ((countDays year month day : Nat) : Int) = ordinal := by omega
      rw [← hordinal, ofOrdinal?_countDays hday, Date.ofFields?] at h
      split at h
      · cases h
        exact hordinal
      · cases h
  · intro h
    rw [← h]
    exact ofOrdinal?_ordinal date

end TypedSql.Calendar
