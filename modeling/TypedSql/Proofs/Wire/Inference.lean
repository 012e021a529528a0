import TypedSql.Wire.Accept

/-!
# Columns of inferred kinds

A value goes into a column of the kind that is inferred from it. The one exception is a whole number
that only the widest kind without a sign holds, for a kind with a sign is inferred from it:
`inferred_kind_accepts_iff`.
-/

namespace TypedSql

open TypedSql.Number

namespace Kind

variable {number : Int}

/-- An integer kind holds the numbers of its range. -/
theorem holds_iff {kind : Kind} {least most : Int} (h : kind.integerRange? = some (least, most)) :
    kind.holds number = true ↔ least ≤ number ∧ number ≤ most := by
  simp [holds, h, inRange]

theorem holds_int32_iff :
    holds .int32 number = true ↔ -2147483648 ≤ number ∧ number ≤ 2147483647 := holds_iff rfl

theorem holds_int64_iff :
    holds .int64 number = true ↔ -9223372036854775808 ≤ number ∧ number ≤ 9223372036854775807 :=
  holds_iff rfl

/-- No integer kind reaches beyond 64 bits, with a sign below zero and without one above. -/
theorem range_within {kind : Kind} {least most : Int}
    (h : kind.integerRange? = some (least, most)) :
    -9223372036854775808 ≤ least ∧ most ≤ 18446744073709551615 := by
  cases kind <;> cases h <;> decide

/-- A number that some integer kind holds lies in 64 bits, with a sign or without. -/
theorem within_of_holds {kind : Kind} (h : kind.holds number = true) :
    -9223372036854775808 ≤ number ∧ number ≤ 18446744073709551615 := by
  cases hrange : kind.integerRange? with
  | none => simp [holds, hrange] at h
  | some range =>
      obtain ⟨least, most⟩ := range
      have hinside := (holds_iff hrange).1 h
      have hbounds := range_within hrange
      omega

end Kind

namespace Wire

/-- Whether there is a kind of columns for a value by itself: a flag, a whole number that some
integer kind holds, a binary number other than NaN, a decimal, a text, a moment, a date, an
identifier, an address, a sequence or a map. -/
def HasKind : Value → Prop
  | .int number => ∃ kind : Kind, kind.holds number = true
  | .float number => number ≠ .nan
  | .bool _ | .decimal _ | .text _ | .kind _ | .operator _ | .moment _ | .date _ | .uuid _
  | .ipv4 _ | .ipv6 _ | .list _ | .tuple _ | .map _ => True
  | _ => False

/-- Whether a value is a whole number above those with a sign in 64 bits. -/
def IsBeyondSigned : Value → Prop
  | .int number => 9223372036854775807 < number
  | _ => False

/-- A column of the kind that is inferred from a whole number accepts the number exactly if the
widest kind with a sign holds it. -/
theorem check_inferKind_int (number : Int) :
    check { kind := inferKind (.int number) } (.int number) = .ok (Kind.holds .int64 number) := by
  have hchecked : check { kind := inferKind (.int number) } (.int number) =
      .ok ((inferKind (.int number)).holds number) := by
    rw [inferKind]
    split <;> rfl
  have hholds : (inferKind (.int number)).holds number = Kind.holds .int64 number := by
    rw [inferKind]
    split
    · next hnarrow =>
        have hwide : Kind.holds .int64 number = true := by
          rw [Kind.holds_int32_iff] at hnarrow
          rw [Kind.holds_int64_iff]
          omega
        rw [hnarrow, hwide]
    · rfl
  rw [hchecked, hholds]

/-- A column of the kind that is inferred from a value accepts the value, unless it is a whole
number beyond 64 bits with a sign: such a column refuses it. -/
theorem inferred_kind_accepts_iff {value : Value} (h : HasKind value) :
    (check { kind := inferKind value } value = .ok true ↔ ¬IsBeyondSigned value) ∧
      (check { kind := inferKind value } value = .ok false ↔ IsBeyondSigned value) := by
  have haccepted (haccepts : check { kind := inferKind value } value = .ok true)
      (hwithin : ¬IsBeyondSigned value) :
      (check { kind := inferKind value } value = .ok true ↔ ¬IsBeyondSigned value) ∧
        (check { kind := inferKind value } value = .ok false ↔ IsBeyondSigned value) := by
    rw [haccepts]
    simp [hwithin]
  cases value with
  | int number =>
      obtain ⟨kind, hkind⟩ := h
      have hinside := Kind.within_of_holds hkind
      have hsigned : Kind.holds .int64 number = true ↔ ¬9223372036854775807 < number := by
        rw [Kind.holds_int64_iff]
        omega
      rw [check_inferKind_int, IsBeyondSigned, Except.ok.injEq, Except.ok.injEq, hsigned,
        ← Bool.not_eq_true, hsigned, Decidable.not_not]
      exact ⟨Iff.rfl, Iff.rfl⟩
  | float number =>
      cases number with
      | nan => exact absurd rfl h
      | _ => exact haccepted rfl not_false
  | bool | decimal | text | kind | operator | moment | date | uuid | ipv4 | ipv6 | list | tuple
  | map => exact haccepted rfl not_false
  | _ => exact h.elim

/-- The column of the largest number with a sign in 64 bits accepts the number. -/
theorem largest_signed_accepted :
    HasKind (.int 9223372036854775807) ∧
      check { kind := inferKind (.int 9223372036854775807) } (.int 9223372036854775807) =
        .ok true := by
  have hkind : HasKind (.int 9223372036854775807) := ⟨.int64, by decide⟩
  have hwithin : ¬IsBeyondSigned (.int 9223372036854775807) := Int.lt_irrefl _
  exact ⟨hkind, (inferred_kind_accepts_iff hkind).1.2 hwithin⟩

/-- The number behind it has a kind without a sign, yet one with a sign is inferred and refuses
it. -/
theorem number_beyond_signed_refused :
    Kind.holds .uint64 9223372036854775808 = true ∧
      inferKind (.int 9223372036854775808) = .int64 ∧
      check { kind := inferKind (.int 9223372036854775808) } (.int 9223372036854775808) =
        .ok false := by
  refine ⟨by decide, by decide, ?_⟩
  rw [check_inferKind_int]
  rfl

end Wire

end TypedSql
