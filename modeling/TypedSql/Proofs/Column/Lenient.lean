import TypedSql.Column.Lenient
import TypedSql.Proofs.Outcome
import TypedSql.Proofs.Value.Amount
import TypedSql.Proofs.Value.Reflexive

/-!
# Laws of the lenient readings

The lenient readings leave a value alone that has the type of its field. What they make of a member
of an enumeration is the one thing that keeps them from reading whole dimensions only; without it
they do. A dimension is read as an equal one exactly if it is null or a whole number:
`dimension_restores_iff`.
-/

namespace TypedSql.Column.Lenient

open TypedSql.Number TypedSql.Outcome

variable {value read : Value}

/-- A kind is read as it is. -/
theorem kind_kind (known : Kind) : kind (.kind known) = .ok known := by
  simp [kind, text, textOrBytes?, Value.asText?, Except.toOption, Kind.ofName?_name]

/-- What is read of a number for a dimension is a whole number. -/
theorem int_of_number (isNumber : value.asNumber?.isSome = true) (h : dimension value = .ok read) :
    ∃ number, read = .int number := by
  unfold dimension at h
  split at h
  · cases isNumber
  · cases isNumber
  · obtain ⟨number, -, rfl⟩ := map_eq_ok.1 h
    exact ⟨number, rfl⟩

/-- What the strict reading gives for a dimension is null, of null, or a whole number. -/
theorem null_or_int_of_strict (h : strictCoercion.dimension value = .ok read) :
    value.isNull = true ∧ read = .null ∨ ∃ number, read = .int number := by
  have hread : (if value.isNull then .ok .null else (whole value).map .int) = Except.ok read := h
  split at hread
  · next hnull => exact .inl ⟨hnull, (Except.ok.inj hread).symm⟩
  · obtain ⟨number, -, rfl⟩ := map_eq_ok.1 hread
    exact .inr ⟨number, rfl⟩

instance : @LawfulCoercion coercion :=
  letI := coercion
  { kind_kind := kind_kind
    flag_bool := fun _ => rfl
    text_text := fun _ => rfl
    texts_tuple := fun _ => rfl
    dimension_null := rfl
    dimension_int := fun _ => rfl
    int_of_number := int_of_number }

instance : @LawfulCoercion strictCoercion :=
  letI := strictCoercion
  { kind_kind := kind_kind
    flag_bool := fun _ => rfl
    text_text := fun _ => rfl
    texts_tuple := fun _ => rfl
    dimension_null := rfl
    dimension_int := fun _ => rfl
    int_of_number := fun {value _} isNumber h =>
      (null_or_int_of_strict h).resolve_left fun ⟨hnull, _⟩ => by
        cases value with
        | null => cases isNumber
        | _ => cases hnull }

instance : @WholeDimensions strictCoercion :=
  letI := strictCoercion
  { eq_null_or_int := fun h => (null_or_int_of_strict h).imp And.right id }

/-- Whether a dimension is null or a number that is read as a whole one. -/
def IsWholeDimension (value : Value) : Prop :=
  value = .null ∨ value.asNumber?.isSome = true ∧ ∃ number, whole value = .ok number

/-- A member of an enumeration does not equal what it holds. -/
theorem same_member_self (sharing : Value.Sharing) (name : String) (value : Value) :
    Value.same sharing (.member name value) value = false := by
  cases value with
  | member other inner => rw [Value.same, same_member_self sharing other inner, Bool.and_false]
  | _ => simp [Value.same, Value.sameScalar, Value.asText?, Value.asNumber?]

/-- The whole number that a number is read as is its amount. -/
theorem amount?_of_whole {number : Int} (hnumber : value.asNumber?.isSome = true)
    (h : whole value = .ok number) : value.amount? = some (number : ℚ) := by
  cases value with
  | bool flag =>
      cases h
      exact Decimal.amount?_ofInt flag.toInt
  | int known =>
      cases h
      exact Value.amount?_int number
  | float known =>
      cases known with
      | nan => cases h
      | infinity negative => cases h
      | finite negative significand exponent =>
          have hread : wholeFloat negative significand exponent = .ok number := h
          unfold wholeFloat at hread
          cases hwhole : Binary64.isWhole significand exponent with
          | false => simp [hwhole] at hread
          | true =>
              simp only [hwhole, Bool.not_true, Bool.false_eq_true, if_false] at hread
              split at hread
              · cases hread
                exact Binary64.amount?_of_isWhole negative hwhole
              · cases hread
  | decimal known =>
      cases known with
      | nan negative signaling payload => cases h
      | infinity negative => cases h
      | finite negative coefficient exponent =>
          simp only [whole] at h
          split at h
          · next hwhole =>
              cases h
              exact Decimal.amount?_of_isWhole negative hwhole
          · cases h
  | _ => cases hnumber

/-- A dimension is read as something equal to it exactly if it is null or a whole number. -/
theorem dimension_restores_iff :
    (∃ read, dimension value = .ok read ∧ Value.same .shared value read = true) ↔
      IsWholeDimension value := by
  constructor
  · rintro ⟨read, hread, hsame⟩
    unfold dimension at hread
    split at hread
    · exact .inl rfl
    · cases hread
      rw [same_member_self] at hsame
      cases hsame
    · obtain ⟨number, hnumber, rfl⟩ := map_eq_ok.1 hread
      exact .inr ⟨Value.isSome_asNumber?_of_same_int hsame, number, hnumber⟩
  · rintro (rfl | ⟨hnumber, number, hwhole⟩)
    · exact ⟨.null, rfl, Value.same_self .null⟩
    · refine ⟨.int number, ?_, Value.same_int_of_amount (amount?_of_whole hnumber hwhole) .shared⟩
      have hpresent : dimension value = (whole value).map .int := by
        cases value with
        | null | member => cases hnumber
        | _ => rfl
      rw [hpresent, hwhole]
      rfl

end TypedSql.Column.Lenient
