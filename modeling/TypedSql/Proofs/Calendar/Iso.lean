import Mathlib.Data.List.TakeWhile
import TypedSql.Calendar.Iso
import TypedSql.Proofs.Calendar.Moment
import TypedSql.Proofs.Number.Numeral

/-!
# Reading rendered dates and times

Fields of fixed width are read as the numbers they were filled with. So a rendered date is read as
that date (`date?_dateChars`) and a clock as that time of day, with or without its fraction. A year
of fewer than four digits is not read at all: `moment?_of_short_year`.
-/

namespace TypedSql.Calendar.Iso

open TypedSql.Number TypedSql.Text

variable {rest : List Char} {count n : Nat}

/-- A number within a power of ten fits into as many digits. -/
theorem digitCount_le_two (h : n < 100) : digitCount n ≤ 2 := (digitCount_le_iff (by omega)).2 h

theorem digitCount_le_six (h : n < microsPerSecond) : digitCount n ≤ 6 :=
  (digitCount_le_iff (by omega)).2 h

/-- A field of fixed width is read as its number. -/
theorem digits?_padded (h : digitCount n ≤ count) (rest : List Char) :
    digits? count (padded count n ++ rest) = some (n, rest) := by
  have hlength := length_padded h
  have hall : (padded count n).all isAsciiDigit = true :=
    List.all_eq_true.2 fun c hc => isAsciiDigit_of_mem_padded hc
  simp [digits?, List.take_left' hlength, List.drop_left' hlength, hlength, hall, ofAscii_padded]

/-- A field starts with a digit. -/
theorem isAsciiDigit_front_padded (count n : Nat) (rest : List Char) :
    isAsciiDigit (front (padded count n ++ rest)) = true := by
  have hne : padded count n ≠ [] := by
    simp [padded, Nat.toDigits_ne_nil]
  obtain ⟨first, others, hcons⟩ := List.exists_cons_of_ne_nil hne
  have hmem : first ∈ padded count n := by
    rw [hcons]
    exact List.mem_cons_self
  rw [hcons]
  exact isAsciiDigit_of_mem_padded hmem

/-- A character that is no digit does not start a field. -/
theorem front_padded_ne {c : Char} (h : isAsciiDigit c = false) (count n : Nat) (rest : List Char) :
    front (padded count n ++ rest) ≠ c := by
  intro hsame
  have hdigit := isAsciiDigit_front_padded count n rest
  rw [hsame, h] at hdigit
  cases hdigit

section Date

variable {date : Date}

/-- The characters of a date with its marks. -/
def dateChars (date : Date) : List Char :=
  padded 4 date.year ++ '-' :: padded 2 date.month ++ '-' :: padded 2 date.day

/-- The fields of a date fit into their widths. -/
theorem digitCount_date (date : Date) :
    digitCount date.year ≤ 4 ∧ digitCount date.month ≤ 2 ∧ digitCount date.day ≤ 2 := by
  obtain ⟨⟨-, -, hmonth, -, hday⟩, hyear⟩ := isDate_iff.1 date.valid
  have hlength : daysInMonth date.year date.month ≤ 31 := by
    unfold daysInMonth
    split
    · split <;> omega
    all_goals omega
  refine ⟨(digitCount_le_iff (by omega)).2 (Nat.lt_succ_of_le hyear), digitCount_le_two (by omega),
    digitCount_le_two (by omega)⟩

theorem length_dateChars (date : Date) : (dateChars date).length = 10 := by
  obtain ⟨hyear, hmonth, hday⟩ := digitCount_date date
  simp [dateChars, length_padded hyear, length_padded hmonth, length_padded hday]

/-- A date with its marks is read as that date. -/
theorem date?_dateChars (date : Date) (rest : List Char) :
    date? (dateChars date ++ rest) 10 = some date := by
  obtain ⟨hyear, hmonth, hday⟩ := digitCount_date date
  have hweek : front (padded 2 date.month ++ '-' :: (padded 2 date.day ++ rest)) ≠ 'W' :=
    front_padded_ne rfl 2 date.month _
  have hlength : (dateChars date ++ rest).length - rest.length = 10 := by
    rw [List.length_append, length_dateChars]
    omega
  have hfields : dateChars date ++ rest =
      padded 4 date.year ++ '-' :: (padded 2 date.month ++ '-' :: (padded 2 date.day ++ rest)) := by
    simp [dateChars]
  have hread : digits? 4 (dateChars date ++ rest) =
      some (date.year, '-' :: (padded 2 date.month ++ '-' :: (padded 2 date.day ++ rest))) := by
    rw [hfields, digits?_padded hyear]
  have hmark : ∀ others, front ('-' :: others) = '-' := fun others => rfl
  simp only [date?, hread, Option.bind_eq_bind, Option.bind_some, hmark, if_true, List.drop_one,
    List.tail_cons, hweek, if_false, digits?_padded hmonth, ne_eq, not_true, and_false,
    digits?_padded hday, hlength]
  exact dif_pos date.valid

/-- The date ends behind ten characters. -/
theorem dateLength_dateChars (date : Date) (rest : List Char) :
    dateLength (dateChars date ++ rest) = 10 := by
  obtain ⟨hyear, hmonth, -⟩ := digitCount_date date
  have hlong : (dateChars date ++ rest).length ≠ 7 := by
    rw [List.length_append, length_dateChars]
    omega
  obtain ⟨a, b, c, d, hyearChars⟩ := List.length_eq_four.1 (length_padded hyear)
  obtain ⟨m, other, hmonthChars⟩ := List.length_eq_two.1 (length_padded hmonth)
  have hweek : m ≠ 'W' := by
    have hfront := front_padded_ne (c := 'W') rfl 2 date.month []
    rwa [hmonthChars] at hfront
  have hmarks : (dateChars date ++ rest).getD 4 '\x00' = '-' ∧
      (dateChars date ++ rest).getD 5 '\x00' = m := by
    rw [dateChars, hyearChars, hmonthChars]
    exact ⟨rfl, rfl⟩
  simp only [dateLength, hlong, if_false, hmarks.1, hmarks.2, if_true, hweek]

end Date

section Clock

variable {colons : Option Bool} {limit : Nat}

/-- A field with a colon behind it is read in front of the other fields. -/
theorem read?_colon (hn : n < 100) (hcolons : colons = none ∨ colons = some true)
    (hlimit : 3 < limit) (count : Nat) (rest : List Char) :
    Clock.read? (count + 1) colons (padded 2 n ++ ':' :: rest) limit =
      (Clock.read? count (some true) rest (limit - 3)).map (Clock.push n) := by
  have hmark : front (':' :: rest) = ':' := rfl
  have hlong : ¬limit ≤ 3 := Nat.not_le.2 hlimit
  rcases hcolons with rfl | rfl
  · simp [Clock.read?, digits?_padded (digitCount_le_two hn), hmark, hlong]
  · simp [Clock.read?, digits?_padded (digitCount_le_two hn), hmark, hlong]

/-- A field at the end of the text is the last one. -/
theorem read?_end (hn : n < 100) (count : Nat) :
    Clock.read? (count + 1) (some true) (padded 2 n) 2 =
      some { fields := [n], micro := 0, leftover := false } := by
  have hread := digits?_padded (digitCount_le_two hn) []
  rw [List.append_nil] at hread
  simp [Clock.read?, hread, front]

/-- A fraction in six places is read as its microseconds. -/
theorem fraction?_padded (hn : n < microsPerSecond) :
    Clock.fraction? (padded 6 n) 6 = some { fields := [], micro := n, leftover := false } := by
  have hread := digits?_padded (digitCount_le_six hn) []
  rw [List.append_nil] at hread
  simp [Clock.fraction?, hread, front, tenTo]

/-- A field with a fraction behind it is the last one. -/
theorem read?_point (hn : n < 100) {micro : Nat} (hmicro : micro < microsPerSecond) (count : Nat) :
    Clock.read? (count + 1) (some true) (padded 2 n ++ '.' :: padded 6 micro) 9 =
      some { fields := [n], micro, leftover := false } := by
  have hmark : front ('.' :: padded 6 micro) = '.' := rfl
  simp [Clock.read?, digits?_padded (digitCount_le_two hn), hmark, fraction?_padded hmicro,
    Clock.push]

variable {time : TimeOfDay}

/-- The characters of a clock. -/
theorem clock_eq (time : TimeOfDay) :
    time.clock =
      padded 2 time.hour ++ ':' :: (padded 2 time.minute ++ ':' :: padded 2 time.second) := by
  simp [TimeOfDay.clock]

/-- The characters of a time of day: digits, colons and a point. -/
def isClockChar (c : Char) : Bool := isAsciiDigit c || c = ':' || c = '.'

/-- What a clock is written with starts no offset. -/
theorem isOffsetMark_of_isClockChar {c : Char} (h : isClockChar c = true) :
    isOffsetMark c = false := by
  have hne : ∀ other, isClockChar other = false → c ≠ other := by
    intro other hother hsame
    rw [← hsame, h] at hother
    cases hother
  simp [isOffsetMark, hne '+' rfl, hne '-' rfl, hne 'Z' rfl]

theorem isClockChar_of_mem_padded {width : Nat} {c : Char} (h : c ∈ padded width n) :
    isClockChar c = true := by
  simp [isClockChar, isAsciiDigit_of_mem_padded h]

theorem isClockChar_of_mem_clock {c : Char} (h : c ∈ time.clock) : isClockChar c = true := by
  rw [clock_eq] at h
  simp only [List.mem_append, List.mem_cons] at h
  rcases h with h | rfl | h | rfl | h
  · exact isClockChar_of_mem_padded h
  · rfl
  · exact isClockChar_of_mem_padded h
  · rfl
  · exact isClockChar_of_mem_padded h

/-- A time without an offset is what its clock shows. -/
theorem time?_of_clock {chars : List Char} {clock : Clock} (h : ∀ c ∈ chars, isClockChar c = true)
    (hread : Clock.read? 3 none chars chars.length = some clock) (hleft : clock.leftover = false) :
    time? chars = clock.time?.map fun time => (time, none) := by
  have hall : chars.takeWhile (fun c => !isOffsetMark c) = chars := by
    rw [List.takeWhile_eq_self_iff]
    intro c hc
    rw [isOffsetMark_of_isClockChar (h c hc)]
    rfl
  simp only [time?, hall, hread, Option.bind_eq_bind, Option.bind_some, List.drop_length, hleft]
  cases clock.time? <;> rfl

/-- Hours and minutes are read in front of what the seconds are read as. -/
theorem read?_clock (time : TimeOfDay) {tail : List Char} {clock : Clock} (hlimit : 0 < limit)
    (h : Clock.read? 1 (some true) (padded 2 time.second ++ tail) limit = some clock) :
    Clock.read? 3 none (time.clock ++ tail) (limit + 6) =
      some ((clock.push time.minute).push time.hour) := by
  obtain ⟨hhour, hminute, -, -⟩ := time.fields_lt
  simp only [clock_eq, List.append_assoc, List.cons_append]
  rw [read?_colon (Nat.lt_trans hhour (by omega)) (.inl rfl) (by omega),
    read?_colon (Nat.lt_trans hminute (by omega)) (.inr rfl) (by omega),
    show limit + 6 - 3 - 3 = limit by omega, h]
  rfl

theorem length_clock (time : TimeOfDay) : time.clock.length = 8 := by
  obtain ⟨hhour, hminute, hsecond, -⟩ := time.fields_lt
  have hwidth : ∀ {field : Nat}, field < 60 → (padded 2 field).length = 2 :=
    fun hfield => length_padded (digitCount_le_two (Nat.lt_trans hfield (by omega)))
  simp [clock_eq, hwidth hminute, hwidth hsecond, hwidth (Nat.lt_trans hhour (by omega))]

/-- A clock is read as its time without the fraction. -/
theorem time?_clock (time : TimeOfDay) : time? time.clock = some (time.wholeSeconds, none) := by
  obtain ⟨-, -, hsecond, -⟩ := time.fields_lt
  have hseconds := read?_end (Nat.lt_trans hsecond (by omega)) 0
  rw [← List.append_nil (padded 2 time.second)] at hseconds
  have hread := read?_clock time (by omega) hseconds
  rw [List.append_nil] at hread
  rw [time?_of_clock (fun c => isClockChar_of_mem_clock) (by rw [length_clock]; exact hread) rfl]
  exact congrArg (Option.map fun time => (time, none)) time.ofFields?_zero

/-- A clock with its fraction is read as its time. -/
theorem time?_clock_micro (time : TimeOfDay) :
    time? (time.clock ++ '.' :: padded 6 time.micro) = some (time, none) := by
  obtain ⟨-, -, hsecond, hmicro⟩ := time.fields_lt
  have hread := read?_clock time (by omega)
    (read?_point (Nat.lt_trans hsecond (by omega)) hmicro 0)
  have hlength : (time.clock ++ '.' :: padded 6 time.micro).length = 15 := by
    rw [List.length_append, length_clock, List.length_cons,
      length_padded (digitCount_le_six hmicro)]
  have hchars : ∀ c ∈ time.clock ++ '.' :: padded 6 time.micro, isClockChar c = true := by
    intro c hc
    rcases List.mem_append.1 hc with hclock | hfraction
    · exact isClockChar_of_mem_clock hclock
    · rcases List.mem_cons.1 hfraction with rfl | hdigit
      · rfl
      · exact isClockChar_of_mem_padded hdigit
  rw [time?_of_clock hchars (by rw [hlength]; exact hread) rfl]
  exact congrArg (Option.map fun time => (time, none)) time.ofFields?_micro

end Clock

section Moment

variable {date : Date}

/-- A date alone is read as its midnight. -/
theorem moment?_dateChars (date : Date) : moment? (dateChars date) = some (Moment.ofDate date) := by
  have hlong : ¬(dateChars date).length < 7 := by
    rw [length_dateChars]
    omega
  have hlength := dateLength_dateChars date []
  have hdate := date?_dateChars date []
  rw [List.append_nil] at hlength hdate
  have hdrop : (dateChars date).drop 10 = [] :=
    List.drop_eq_nil_of_le (Nat.le_of_eq (length_dateChars date))
  simp only [moment?, hlong, if_false, hlength, hdate, Option.bind_eq_bind, Option.bind_some, hdrop]
  rfl

/-- Behind a date and a separator a time is read. -/
theorem moment?_dateChars_cons (date : Date) (separator : Char) (chars : List Char) :
    moment? (dateChars date ++ separator :: chars) =
      (time? chars).map fun time => ⟨date, time.1, time.2⟩ := by
  have hlong : ¬(dateChars date ++ separator :: chars).length < 7 := by
    rw [List.length_append, length_dateChars]
    omega
  have hdrop : (dateChars date ++ separator :: chars).drop 10 = separator :: chars :=
    List.drop_left' (length_dateChars date)
  simp only [moment?, hlong, if_false, dateLength_dateChars, date?_dateChars, Option.bind_eq_bind,
    Option.bind_some, hdrop]
  cases time? chars <;> rfl

/-- Four characters that are not all digits are no year, and nothing is read behind them. -/
theorem moment?_of_short_year (h : digitCount n < 4) (rest : List Char) :
    moment? (Nat.toDigits 10 n ++ '-' :: rest) = none := by
  have hmark : '-' ∈ (Nat.toDigits 10 n ++ '-' :: rest).take 4 := by
    have hdigits : (Nat.toDigits 10 n).length < 4 := h
    rw [List.take_append, List.mem_append]
    right
    obtain ⟨more, hmore⟩ := Nat.exists_eq_add_of_lt hdigits
    rw [show 4 - (Nat.toDigits 10 n).length = more + 1 by omega]
    exact List.mem_cons_self
  have hyear : digits? 4 (Nat.toDigits 10 n ++ '-' :: rest) = none := by
    refine if_neg ?_
    rintro ⟨-, hall⟩
    have hdigit := List.all_eq_true.1 hall '-' hmark
    cases hdigit
  have hdate : ∀ length, date? (Nat.toDigits 10 n ++ '-' :: rest) length = none := by
    intro length
    simp only [date?, hyear, Option.bind_eq_bind, Option.bind_none]
  simp only [moment?, hdate, Option.bind_eq_bind, Option.bind_none]
  split <;> rfl

end Moment

end TypedSql.Calendar.Iso
