import TypedSql.Proofs.Wire.Moment

/-!
# Reading a date or a moment and writing it again

A value of a column of dates can be sent at once, or be read as a program value that is sent then.
Both send the same from columns of moments. A column of plain dates reads the date on the clock of
the value and writes that on the universal clock, so there the offset of the value must keep it on
its day: `written_again_iff`.
-/

namespace TypedSql.Calendar

theorem Date.ordinal_injective : Function.Injective Date.ordinal := by
  intro first second h
  have hfirst := ofOrdinal?_ordinal first
  rw [h, ofOrdinal?_ordinal second] at hfirst
  exact (Option.some.inj hfirst).symm

namespace Moment

variable {moment universal : Moment}

/-- The time of a moment on the universal clock, counted from the midnight of its own date. -/
def shifted (moment : Moment) : Int :=
  moment.time.micros - (moment.offset.map Offset.micros).getD 0

/-- Whether the offset of a moment puts it on another day of the universal clock. -/
def LeavesDay (moment : Moment) : Prop := moment.shifted < 0 ∨ microsPerDay ≤ moment.shifted

/-- The universal form of a moment has its date exactly if the offset keeps it on its day. -/
theorem IsUniversalOf.date_eq_iff (h : universal.IsUniversalOf moment) :
    universal.date = moment.date ↔ ¬moment.LeavesDay := by
  have hmicros : (universal.date.ordinal : Int) * microsPerDay + universal.time.micros =
      moment.date.ordinal * microsPerDay + moment.shifted := by
    have hclock := h.micros_eq
    simp only [localMicros, universalMicros] at hclock
    rw [hclock, shifted]
    omega
  have hinDay := universal.time.inDay
  rw [← Date.ordinal_injective.eq_iff]
  simp only [LeavesDay, microsPerDay] at *
  omega

end Moment

end TypedSql.Calendar

namespace TypedSql.Wire

open TypedSql.Calendar TypedSql.Outcome

theorem render_injective : Function.Injective Date.render := by
  intro first second h
  have hfirst := readMoment?_render first
  rw [h, readMoment?_render] at hfirst
  exact congrArg Moment.date (Option.some.inj hfirst).symm

variable {value read sent : Value} {kind : Kind} {moment : Moment}

/-- What is sent of a present value is the text of the universal form of its moment. -/
theorem exists_of_encode (hkind : kind ∈ [.date, .date32, .dateTime, .dateTime64])
    (hpresent : value.isNull = false) (h : encode value kind none = .ok sent) :
    ∃ moment universal, toMoment value kind = .ok moment ∧ universal.IsUniversalOf moment ∧
      sent = .text (momentText universal kind) := by
  have hsteps : encode value kind none = (do
      let moment ← toMoment value kind
      return .text (momentText (← toUniversal moment) kind)) := by
    simp only [List.mem_cons, List.not_mem_nil, or_false] at hkind
    rcases hkind with rfl | rfl | rfl | rfl
    all_goals simp only [encode, hpresent, Bool.false_eq_true, if_false, encodePresent]
  rw [hsteps] at h
  obtain ⟨moment, hmoment, h⟩ := bind_eq_ok.1 h
  obtain ⟨universal, huniversal, h⟩ := bind_eq_ok.1 h
  refine ⟨moment, universal, hmoment, ?_, (pure_eq_ok.1 h).symm⟩
  unfold toUniversal at huniversal
  split at huniversal
  · next hfound =>
      cases huniversal
      exact Moment.universal?_eq_some_iff.1 hfound
  · cases huniversal

/-- A column of moments reads a present value as its moment. -/
theorem decode_moment [Json.Depth] (hkind : kind = .dateTime ∨ kind = .dateTime64)
    (hpresent : value.isNull = false) (hmoment : toMoment value kind = .ok moment) :
    decode value kind none = .ok (.moment moment) := by
  rcases hkind with rfl | rfl
  all_goals
    simp only [decode, hpresent, Bool.false_eq_true, if_false, decodePresent, hmoment]
    rfl

/-- A column of plain dates reads a present value as the date on its own clock. -/
theorem decode_date [Json.Depth] (hkind : kind = .date ∨ kind = .date32)
    (hpresent : value.isNull = false) (hmoment : toMoment value kind = .ok moment) :
    decode value kind none = .ok (.date moment.date) := by
  have hread := congrArg (Except.map fun moment => Value.date moment.date) hmoment
  cases value with
  | null => cases hpresent
  | date known =>
      cases hmoment
      rcases hkind with rfl | rfl <;> rfl
  | _ => rcases hkind with rfl | rfl <;> exact hread

/-- A value that a column of dates can send as well as read can be sent once it is read. The same is
sent then, except for a moment that its offset puts on another day, in a column of plain dates. -/
theorem written_again_iff [Json.Depth] (hkind : kind ∈ [.date, .date32, .dateTime, .dateTime64])
    (hread : decode value kind none = .ok read) (hsent : encode value kind none = .ok sent) :
    ∃ again, encode read kind none = .ok again ∧
      (again = sent ↔ ¬((kind = .date ∨ kind = .date32) ∧
        ∃ moment, toMoment value kind = .ok moment ∧ moment.LeavesDay)) := by
  cases hpresent : value.isNull with
  | true =>
      obtain rfl : value = .null := by
        cases value with
        | null => rfl
        | _ => cases hpresent
      cases hread
      cases hsent
      refine ⟨.null, rfl, iff_of_true rfl ?_⟩
      rintro ⟨-, moment, hmoment, -⟩
      cases hmoment
  | false =>
      obtain ⟨moment, universal, hmoment, huniversal, rfl⟩ := exists_of_encode hkind hpresent hsent
      have hgroups : (kind = .date ∨ kind = .date32) ∨ (kind = .dateTime ∨ kind = .dateTime64) := by
        simpa [or_assoc] using hkind
      rcases hgroups with hdates | hmoments
      · cases (decode_date hdates hpresent hmoment).symm.trans hread
        have hself : (Moment.ofDate moment.date).IsUniversalOf (Moment.ofDate moment.date) :=
          Moment.isUniversalOf_self rfl
        have htext (known : Moment) : momentText known kind = known.date.render := by
          rcases hdates with rfl | rfl <;> rfl
        refine ⟨_, encode_of_toMoment hkind rfl rfl hself, ?_⟩
        rw [htext, htext, Value.text.injEq, render_injective.eq_iff, Moment.ofDate, eq_comm,
          huniversal.date_eq_iff, not_iff_not]
        constructor
        · exact fun hleaves => ⟨hdates, moment, hmoment, hleaves⟩
        · rintro ⟨-, known, hknown, hleaves⟩
          cases hmoment.symm.trans hknown
          exact hleaves
      · cases (decode_moment hmoments hpresent hmoment).symm.trans hread
        refine ⟨_, encode_of_toMoment hkind rfl rfl huniversal, iff_of_true rfl ?_⟩
        rintro ⟨hdates, -⟩
        rcases hdates with rfl | rfl <;> simp at hmoments

/-- A moment ahead of universal time is written alike through a column of moments. -/
theorem aheadOfUtc_written_again :
    decode (.moment aheadOfUtc) .dateTime none = .ok (.moment aheadOfUtc) ∧
      encode (.moment aheadOfUtc) .dateTime none = .ok (.text "2024-01-01 23:00:00") ∧
      ∃ again, encode (.moment aheadOfUtc) .dateTime none = .ok again ∧
        again = .text "2024-01-01 23:00:00" := by
  have hread : decode (.moment aheadOfUtc) .dateTime none = .ok (.moment aheadOfUtc) := rfl
  have hsent : encode (.moment aheadOfUtc) .dateTime none = .ok (.text "2024-01-01 23:00:00") := by
    have huniversal : beforeMidnight.IsUniversalOf aheadOfUtc := ⟨rfl, by decide⟩
    have htext : beforeMidnight.wireText = "2024-01-01 23:00:00" := by decide
    rw [← htext]
    exact encode_of_toMoment (by decide) rfl rfl huniversal
  obtain ⟨again, hagain, hsame⟩ := written_again_iff (by decide) hread hsent
  refine ⟨hread, hsent, again, hagain, hsame.2 ?_⟩
  rintro ⟨hdates, -⟩
  simp at hdates

/-- The moment leaves its day, so a column of plain dates sends the day before, but reads the date
of the moment and sends that as it is. -/
theorem aheadOfUtc_changes_date :
    encode (.moment aheadOfUtc) .date none = .ok (.text "2024-01-01") ∧
      ∃ date : Date, decode (.moment aheadOfUtc) .date none = .ok (.date date) ∧
        encode (.date date) .date none = .ok (.text "2024-01-02") := by
  have huniversal : beforeMidnight.IsUniversalOf aheadOfUtc := ⟨rfl, by decide⟩
  have hdate : (Moment.ofDate aheadOfUtc.date).IsUniversalOf (.ofDate aheadOfUtc.date) :=
    Moment.isUniversalOf_self rfl
  have hsent : beforeMidnight.date.render = "2024-01-01" := by decide
  have hagain : aheadOfUtc.date.render = "2024-01-02" := by decide
  refine ⟨?_, aheadOfUtc.date, rfl, ?_⟩
  · rw [← hsent]
    exact encode_of_toMoment (by decide) rfl rfl huniversal
  · have hwritten : encode (.date aheadOfUtc.date) .date none =
        .ok (.text (momentText (.ofDate aheadOfUtc.date) .date)) :=
      encode_of_toMoment (by decide) rfl rfl hdate
    rw [hwritten, ← hagain]
    rfl

end TypedSql.Wire
