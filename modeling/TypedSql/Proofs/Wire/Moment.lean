import TypedSql.Runtime
import TypedSql.Proofs.Calendar.Iso
import TypedSql.Proofs.Text.Classes
import TypedSql.Wire.Decode
import TypedSql.Wire.Encode

/-!
# Dates and moments on the wire

What comes back of a date or a moment that is sent to a column of dates. Moments are sent as
universal time, with the year as it is: from the year 1000 on its four digits are read again, an
earlier one is refused. Columns of plain dates pad the year and give every date back:
`moments_return`.
-/

namespace TypedSql.Wire

open TypedSql.Calendar TypedSql.Number TypedSql.Text

section Reading

variable {text : List Char}

/-- Nothing is replaced in a text without the character. -/
theorem replaceChar_of_not_mem {old : Char} (new : List Char) (h : old ∉ text) :
    replaceChar old new text = text := by
  induction text with
  | nil => rfl
  | cons c rest ih =>
      rw [List.mem_cons, not_or] at h
      rw [replaceChar, List.flatMap_cons, if_neg (Ne.symm h.1)]
      exact congrArg (c :: ·) (ih h.2)

/-- A text between digits and without a `Z` is read as it stands. -/
theorem readMoment?_between {first middle last : List Char} (hfirst : first ≠ [])
    (hlast : last ≠ [])
    (hdigits : ∀ c ∈ first ++ last, isAsciiDigit c = true)
    (hmiddle : 'Z' ∉ middle) :
    readMoment? (String.ofList (first ++ middle ++ last)) =
      Iso.moment? (first ++ middle ++ last) := by
  have htrim : trim (first ++ middle ++ last) = first ++ middle ++ last := by
    refine strip_eq_self ?_ ?_
    · intro c hc
      rw [List.append_assoc, List.head?_append_of_ne_nil _ hfirst] at hc
      exact isBlank_of_isAsciiDigit (hdigits c (List.mem_append_left _ (List.mem_of_mem_head? hc)))
    · intro c hc
      rw [List.getLast?_append_of_ne_nil _ hlast] at hc
      exact isBlank_of_isAsciiDigit (hdigits c (List.mem_append_right _ (List.mem_of_getLast? hc)))
  have hzone : 'Z' ∉ first ++ middle ++ last := by
    intro hmem
    simp only [List.mem_append] at hmem hdigits
    rcases hmem with (hmem | hmem) | hmem
    · cases hdigits _ (.inl hmem)
    · exact hmiddle hmem
    · cases hdigits _ (.inr hmem)
  rw [readMoment?, String.toList_ofList (l := first ++ middle ++ last), htrim,
    replaceChar_of_not_mem _ hzone]

end Reading

section Texts

variable {moment : Moment}

/-- What is no digit is not in a field. -/
theorem not_mem_padded {c : Char} (h : isAsciiDigit c = false) (width n : Nat) :
    c ∉ padded width n := by
  intro hmem
  rw [isAsciiDigit_of_mem_padded hmem] at h
  cases h

theorem padded_ne_nil (width n : Nat) : padded width n ≠ [] := by
  simp [padded, Nat.toDigits_ne_nil]

/-- The characters of a date are read as its midnight. -/
theorem readMoment?_render (date : Date) : readMoment? date.render = some (Moment.ofDate date) := by
  have hdigits : ∀ c ∈ padded 4 date.year ++ padded 2 date.day, isAsciiDigit c = true := by
    intro c hc
    rcases List.mem_append.1 hc with hc | hc
    · exact isAsciiDigit_of_mem_padded hc
    · exact isAsciiDigit_of_mem_padded hc
  have hmiddle : 'Z' ∉ '-' :: padded 2 date.month ++ ['-'] := by
    simp [not_mem_padded (c := 'Z') rfl]
  have hread := readMoment?_between (padded_ne_nil _ _) (padded_ne_nil _ _) hdigits hmiddle
  have hchars : padded 4 date.year ++ ('-' :: padded 2 date.month ++ ['-']) ++ padded 2 date.day =
      Iso.dateChars date := by
    simp [Iso.dateChars]
  rw [hchars, Iso.moment?_dateChars] at hread
  exact hread

/-- The year as it is, then fields and their marks, then one more field. -/
def momentChars (moment : Moment) (between last : List Char) : List Char :=
  Nat.toDigits 10 moment.date.year ++
    ('-' :: padded 2 moment.date.month ++ '-' :: padded 2 moment.date.day ++ ' ' :: between) ++ last

/-- The text of a moment is read as it stands. -/
theorem readMoment?_momentChars {between : List Char} (hbetween : 'Z' ∉ between) (width n : Nat) :
    readMoment? (String.ofList (momentChars moment between (padded width n))) =
      Iso.moment? (momentChars moment between (padded width n)) := by
  refine readMoment?_between Nat.toDigits_ne_nil (padded_ne_nil _ _) ?_ ?_
  · intro c hc
    rcases List.mem_append.1 hc with hc | hc
    · exact isAsciiDigit_of_mem_toDigits hc
    · exact isAsciiDigit_of_mem_padded hc
  · simp [not_mem_padded (c := 'Z') rfl, hbetween]

/-- From the year 1000 on a moment starts like the characters of its date. -/
theorem momentChars_eq (h : 1000 ≤ moment.date.year) (between last : List Char) :
    momentChars moment between last = Iso.dateChars moment.date ++ ' ' :: (between ++ last) := by
  have hlong : 3 < (Nat.toDigits 10 moment.date.year).length := by
    refine Nat.lt_of_not_le fun hshort => ?_
    have hsmall : moment.date.year < 10 ^ 3 := (digitCount_le_iff (by omega)).1 hshort
    omega
  have hfull : 4 - (Nat.toDigits 10 moment.date.year).length = 0 := by omega
  have hyear : padded 4 moment.date.year = Nat.toDigits 10 moment.date.year := by
    simp only [padded, hfull]
    rfl
  rw [Iso.dateChars, hyear]
  simp [momentChars]

/-- Before the year 1000 the characters of a moment are not read. -/
theorem moment?_momentChars_of_lt (h : moment.date.year < 1000) (between last : List Char) :
    Iso.moment? (momentChars moment between last) = none := by
  have hshort : digitCount moment.date.year < 4 :=
    Nat.lt_succ_of_le ((digitCount_le_iff (by omega)).2 h)
  rw [momentChars, List.append_assoc]
  exact Iso.moment?_of_short_year hshort _

/-- A wire text is read as its moment without the fraction, if its year has four digits. -/
theorem readMoment?_wireText (moment : Moment) :
    readMoment? moment.wireText =
      if 1000 ≤ moment.date.year then some ⟨moment.date, moment.time.wholeSeconds, none⟩
      else none := by
  have hzone : 'Z' ∉ padded 2 moment.time.hour ++ ':' :: padded 2 moment.time.minute ++ [':'] := by
    simp [not_mem_padded (c := 'Z') rfl]
  have hchars : moment.wireText = String.ofList (momentChars moment
      (padded 2 moment.time.hour ++ ':' :: padded 2 moment.time.minute ++ [':'])
      (padded 2 moment.time.second)) := by
    simp [Moment.wireText, momentChars, TimeOfDay.clock]
  have hclock : padded 2 moment.time.hour ++ ':' :: padded 2 moment.time.minute ++ [':'] ++
      padded 2 moment.time.second = moment.time.clock := by
    simp [TimeOfDay.clock]
  rw [hchars, readMoment?_momentChars hzone]
  by_cases hyear : 1000 ≤ moment.date.year
  · rw [if_pos hyear, momentChars_eq hyear, hclock, Iso.moment?_dateChars_cons, Iso.time?_clock]
    rfl
  · rw [if_neg hyear, moment?_momentChars_of_lt (Nat.lt_of_not_le hyear)]

/-- A wire text with its fraction is read as its moment, if its year has four digits. -/
theorem readMoment?_wireTextMicros (moment : Moment) :
    readMoment? moment.wireTextMicros =
      if 1000 ≤ moment.date.year then some ⟨moment.date, moment.time, none⟩ else none := by
  have hzone : 'Z' ∉ moment.time.clock ++ ['.'] := by
    simp [TimeOfDay.clock, not_mem_padded (c := 'Z') rfl]
  have hchars : moment.wireTextMicros = String.ofList (momentChars moment
      (moment.time.clock ++ ['.']) (padded 6 moment.time.micro)) := by
    rw [Moment.wireTextMicros, Moment.wireText, ← String.ofList_append]
    simp [momentChars]
  have hclock : moment.time.clock ++ ['.'] ++ padded 6 moment.time.micro =
      moment.time.clock ++ '.' :: padded 6 moment.time.micro := by
    simp
  rw [hchars, readMoment?_momentChars hzone]
  by_cases hyear : 1000 ≤ moment.date.year
  · rw [if_pos hyear, momentChars_eq hyear, hclock, Iso.moment?_dateChars_cons,
      Iso.time?_clock_micro]
    rfl
  · rw [if_neg hyear, moment?_momentChars_of_lt (Nat.lt_of_not_le hyear)]

end Texts

/-- What is received when a value is sent to a column and read back. -/
def roundTrip [Json.Depth] (value : Value) (kind : Kind) : Except Fault Value := do
  decode (← encode value kind none) kind none

/-- A moment that is read back from its text if the year has four digits. -/
def ifFourDigits [Json.Depth] (year : Nat) (text : String) (kind : Kind) (moment : Moment) :
    Except Fault Value :=
  if 1000 ≤ year then .ok (.moment moment) else fail .moment (.text text) kind

section RoundTrip

variable {moment universal : Moment} {value : Value} {kind : Kind}

/-- A value that gives a moment is sent as the text of the universal form of the moment. -/
theorem encode_of_toMoment (hkind : kind ∈ [.date, .date32, .dateTime, .dateTime64])
    (hvalue : toMoment value kind = .ok moment) (hpresent : value.isNull = false)
    (huniversal : universal.IsUniversalOf moment) :
    encode value kind none = .ok (.text (momentText universal kind)) := by
  have hfound : toUniversal moment = .ok universal := by
    rw [toUniversal, Moment.universal?_eq_some_iff.2 huniversal]
  simp only [List.mem_cons, List.not_mem_nil, or_false] at hkind
  rcases hkind with rfl | rfl | rfl | rfl
  all_goals
    simp only [encode, hpresent, Bool.false_eq_true, if_false, encodePresent, hvalue, bind,
      Except.bind, hfound, pure, Except.pure]

/-- What is sent is what is read back. -/
theorem roundTrip_of_encode [Json.Depth] {sent : Value} (h : encode value kind none = .ok sent) :
    roundTrip value kind = decode sent kind none := by
  rw [roundTrip, h]
  rfl

/-- A text gives the moment that it is read as. -/
theorem toMoment_text (text : String) (kind : Kind) :
    toMoment (.text text) kind = orFail .moment (.text text) kind (readMoment? text) := by
  simp only [toMoment, Value.asText?, Option.bind_some]

/-- A column of moments reads a text as a moment. -/
theorem decode_text_moment [Json.Depth] (hkind : kind = .dateTime ∨ kind = .dateTime64)
    (text : String) :
    decode (.text text) kind none =
      (orFail .moment (.text text) kind (readMoment? text)).map .moment := by
  rw [← toMoment_text]
  rcases hkind with rfl | rfl <;> rfl

/-- A column of plain dates reads a text as the date of a moment. -/
theorem decode_text_date [Json.Depth] (hkind : kind = .date ∨ kind = .date32) (text : String) :
    decode (.text text) kind none =
      (orFail .moment (.text text) kind (readMoment? text)).map
        fun moment => .date moment.date := by
  rw [← toMoment_text]
  rcases hkind with rfl | rfl <;> rfl

/-- A column of plain dates gives back the date of the universal form. -/
theorem roundTrip_date [Json.Depth] (hkind : kind = .date ∨ kind = .date32)
    (hvalue : toMoment value kind = .ok moment) (hpresent : value.isNull = false)
    (huniversal : universal.IsUniversalOf moment) :
    roundTrip value kind = .ok (.date universal.date) := by
  have hdates : kind ∈ [.date, .date32, .dateTime, .dateTime64] := by
    rcases hkind with rfl | rfl <;> decide
  have htext : momentText universal kind = universal.date.render := by
    rcases hkind with rfl | rfl <;> rfl
  rw [roundTrip_of_encode (encode_of_toMoment hdates hvalue hpresent huniversal), htext,
    decode_text_date hkind, readMoment?_render]
  rfl

/-- A column of moments in seconds gives the universal form without its fraction back. -/
theorem roundTrip_dateTime [Json.Depth] (hvalue : toMoment value .dateTime = .ok moment)
    (hpresent : value.isNull = false) (huniversal : universal.IsUniversalOf moment) :
    roundTrip value .dateTime = ifFourDigits universal.date.year universal.wireText .dateTime
      ⟨universal.date, universal.time.wholeSeconds, none⟩ := by
  have hsent := encode_of_toMoment (by decide) hvalue hpresent huniversal
  rw [roundTrip_of_encode hsent, decode_text_moment (.inl rfl), momentText, readMoment?_wireText,
    ifFourDigits]
  · split <;> rfl
  all_goals exact Kind.noConfusion

/-- A column of moments in microseconds gives the universal form back. -/
theorem roundTrip_dateTime64 [Json.Depth] (hvalue : toMoment value .dateTime64 = .ok moment)
    (hpresent : value.isNull = false) (huniversal : universal.IsUniversalOf moment) :
    roundTrip value .dateTime64 =
      ifFourDigits universal.date.year universal.wireTextMicros .dateTime64 universal := by
  have hself : (⟨universal.date, universal.time, none⟩ : Moment) = universal := by
    rw [← huniversal.offset_eq]
  have hsent := encode_of_toMoment (by decide) hvalue hpresent huniversal
  rw [roundTrip_of_encode hsent, decode_text_moment (.inr rfl), momentText,
    readMoment?_wireTextMicros, ifFourDigits, hself]
  split <;> rfl

/-- Columns of plain dates give back the date of a moment in universal time and every date. Columns
of moments give back the universal form, without its fraction if they count seconds, and the
midnight of a date, if the year has four digits: the text of an earlier year is refused. -/
theorem moments_return [Json.Depth] (huniversal : universal.IsUniversalOf moment) (date : Date) :
    roundTrip (.moment moment) .dateTime64 =
        ifFourDigits universal.date.year universal.wireTextMicros .dateTime64 universal ∧
      roundTrip (.moment moment) .dateTime =
        ifFourDigits universal.date.year universal.wireText .dateTime
          ⟨universal.date, universal.time.wholeSeconds, none⟩ ∧
      (∀ kind, kind = .date ∨ kind = .date32 →
        roundTrip (.moment moment) kind = .ok (.date universal.date) ∧
          roundTrip (.date date) kind = .ok (.date date)) ∧
      roundTrip (.date date) .dateTime64 =
        ifFourDigits date.year (Moment.ofDate date).wireTextMicros .dateTime64 (.ofDate date) ∧
      roundTrip (.date date) .dateTime =
        ifFourDigits date.year (Moment.ofDate date).wireText .dateTime (.ofDate date) := by
  have hdate : (Moment.ofDate date).IsUniversalOf (Moment.ofDate date) :=
    Moment.isUniversalOf_self rfl
  refine ⟨roundTrip_dateTime64 rfl rfl huniversal, roundTrip_dateTime rfl rfl huniversal, ?_,
    roundTrip_dateTime64 rfl rfl hdate, roundTrip_dateTime rfl rfl hdate⟩
  intro kind hkind
  exact ⟨roundTrip_date hkind rfl rfl huniversal, roundTrip_date hkind rfl rfl hdate⟩

/-- An hour after midnight on the second day of 2024, two hours ahead of universal time. -/
def aheadOfUtc : Moment :=
  { date := ⟨2024, 1, 2, rfl⟩
    time := ⟨3600000000, by decide⟩
    offset := some ⟨7200000000, by decide⟩ }

/-- An hour before the midnight in front of it, in universal time. -/
def beforeMidnight : Moment :=
  { date := ⟨2024, 1, 1, rfl⟩
    time := ⟨82800000000, by decide⟩
    offset := none }

theorem aheadOfUtc_returns :
    beforeMidnight.IsUniversalOf aheadOfUtc ∧
      roundTrip (.moment aheadOfUtc) .dateTime64 = .ok (.moment beforeMidnight) ∧
      roundTrip (.moment aheadOfUtc) .date = .ok (.date beforeMidnight.date) := by
  have huniversal : beforeMidnight.IsUniversalOf aheadOfUtc := ⟨rfl, by decide⟩
  obtain ⟨hmicros, -, hdates, -, -⟩ := moments_return huniversal beforeMidnight.date
  refine ⟨huniversal, ?_, (hdates .date (.inl rfl)).1⟩
  rw [hmicros]
  exact if_pos (by decide)

/-- The last second of the year 999. -/
def endOf999 : Moment :=
  { date := ⟨999, 12, 31, rfl⟩
    time := ⟨86399000000, by decide⟩
    offset := none }

/-- The last second of the year 999 does not return: its year is sent with three digits. -/
theorem endOf999_does_not_return :
    endOf999.IsUniversalOf endOf999 ∧
      roundTrip (.moment endOf999) .dateTime =
        .error (.unconvertible .moment (.text "999-12-31 23:59:59") .dateTime) := by
  have hself : endOf999.IsUniversalOf endOf999 := Moment.isUniversalOf_self rfl
  have htext : endOf999.wireText = "999-12-31 23:59:59" := by decide
  refine ⟨hself, ?_⟩
  rw [roundTrip_dateTime rfl rfl hself, htext]
  exact if_neg (by decide)

end RoundTrip

end TypedSql.Wire
