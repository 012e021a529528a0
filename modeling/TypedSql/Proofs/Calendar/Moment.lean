import TypedSql.Calendar.Moment
import TypedSql.Proofs.Calendar.Date

/-!
# Universal time

The universal form of a moment is the one without an offset at the same microsecond of the universal
clock. A moment has at most one, and `universal?` finds it: `universal?_eq_some_iff`.
-/

namespace TypedSql.Calendar

namespace TimeOfDay

/-- A time without its fraction of a second. -/
def wholeSeconds (time : TimeOfDay) : TimeOfDay :=
  ⟨time.micros - time.micro, Nat.lt_of_le_of_lt (Nat.sub_le _ _) time.inDay⟩

/-- The fields of a time lie in their ranges. -/
theorem fields_lt (time : TimeOfDay) :
    time.hour < 24 ∧ time.minute < 60 ∧ time.second < 60 ∧ time.micro < microsPerSecond := by
  have hday := time.inDay
  simp only [hour, minute, second, micro, microsPerSecond, microsPerDay] at *
  omega

/-- The fields of a time without its fraction make it up. -/
theorem ofFields?_zero (time : TimeOfDay) :
    ofFields? time.hour time.minute time.second 0 = some time.wholeSeconds := by
  obtain ⟨hhour, hminute, hsecond, -⟩ := time.fields_lt
  rw [ofFields?, dif_pos ⟨hhour, hminute, hsecond, by decide⟩]
  simp only [wholeSeconds, hour, minute, second, micro, microsPerSecond, Option.some.injEq,
    mk.injEq]
  omega

/-- The fields of a time make it up. -/
theorem ofFields?_micro (time : TimeOfDay) :
    ofFields? time.hour time.minute time.second time.micro = some time := by
  obtain ⟨hhour, hminute, hsecond, hmicro⟩ := time.fields_lt
  have hwhole : ((time.hour * 60 + time.minute) * 60 + time.second) * microsPerSecond + time.micro =
      time.micros := by
    simp only [hour, minute, second, micro, microsPerSecond]
    omega
  rw [ofFields?, dif_pos ⟨hhour, hminute, hsecond, hmicro⟩]
  simp only [hwhole]

end TimeOfDay

namespace Moment

variable {moment universal : Moment}

/-- Whether a moment is the form without an offset that another one has in universal time. -/
structure IsUniversalOf (universal moment : Moment) : Prop where
  offset_eq : universal.offset = none
  micros_eq : universal.localMicros = moment.universalMicros

/-- A count of microseconds is made of whole days and a rest that is shorter than a day. -/
theorem days_and_rest {days micros : Int} {rest : Nat} (hrest : rest < microsPerDay)
    (h : days * microsPerDay + rest = micros) :
    days = micros / microsPerDay ∧ (micros % microsPerDay).toNat = rest := by
  simp only [microsPerDay] at *
  omega

/-- A moment without an offset is the one at its count of microseconds. -/
theorem ofMicros?_eq_some_iff {micros : Int} :
    ofMicros? micros = some universal ↔
      universal.offset = none ∧ universal.localMicros = micros := by
  simp only [ofMicros?, Option.map_eq_some_iff, ofOrdinal?_eq_some_iff, localMicros]
  constructor
  · rintro ⟨date, hordinal, rfl⟩
    refine ⟨rfl, ?_⟩
    simp only [hordinal, microsPerDay]
    omega
  · rintro ⟨hoffset, hmicros⟩
    obtain ⟨hdays, hrest⟩ := days_and_rest universal.time.inDay hmicros
    refine ⟨universal.date, hdays, ?_⟩
    obtain ⟨date, ⟨time, hinDay⟩, offset⟩ := universal
    simp only at hoffset hrest
    simp only [hoffset, hrest]

/-- A moment is moved to the moment without an offset at its place on the universal clock. -/
theorem universal?_eq_ofMicros? (moment : Moment) :
    moment.universal? = ofMicros? moment.universalMicros := by
  unfold universal?
  split
  · next hoffset =>
      refine (ofMicros?_eq_some_iff.2 ⟨hoffset, ?_⟩).symm
      simp [universalMicros, hoffset]
  · rfl

/-- Moving to universal time finds the universal form, if the calendar holds it. -/
theorem universal?_eq_some_iff :
    moment.universal? = some universal ↔ universal.IsUniversalOf moment := by
  rw [universal?_eq_ofMicros?, ofMicros?_eq_some_iff]
  constructor
  · intro h
    exact ⟨h.1, h.2⟩
  · intro h
    exact ⟨h.offset_eq, h.micros_eq⟩

/-- A moment without an offset is its own universal form. -/
theorem isUniversalOf_self (h : moment.offset = none) : moment.IsUniversalOf moment := by
  refine ⟨h, ?_⟩
  simp [universalMicros, h]

end Moment

end TypedSql.Calendar
