import TypedSql.Value.Order
import TypedSql.Proofs.Outcome

/-!
# Numbers as decimals

Values are compared as decimals, which look at the number of digits first. For whole numbers this is
the usual order: `compare?_ofInt`. `order_of_isAtMost` and `eq_nan_of_unordered` say what it takes
for one value to be at most another and for two values to have no order.
-/

namespace TypedSql.Number.Decimal

/-- A number with fewer digits is smaller. -/
theorem lt_of_digitCount_lt {first second : Nat} (h : digitCount first < digitCount second) :
    first < second := by
  have hpos : 0 < digitCount first := List.length_pos_iff.2 Nat.toDigits_ne_nil
  have hfirst : first < 10 ^ digitCount first :=
    (Nat.length_toDigits_le_iff (by omega) hpos).1 (Nat.le_refl _)
  -- a number below this power of ten would have no more digits than the first
  have hsecond : ¬second < 10 ^ digitCount first := fun hless =>
    Nat.not_le.2 h ((Nat.length_toDigits_le_iff (by omega) hpos).2 hless)
  omega

/-- Magnitudes without places are ordered as they are. -/
theorem compareMagnitude_whole (left right : Nat) :
    compareMagnitude left 0 right 0 = compare left right := by
  unfold compareMagnitude
  by_cases hzero : left = 0 ∨ right = 0
  · rw [if_pos hzero]
  · rw [if_neg hzero]
    have hplaces : ∀ count : Nat, adjusted count 0 = (digitCount count : Int) - 1 := by
      intro count
      simp [adjusted]
    simp only [hplaces]
    rcases Nat.lt_trichotomy (digitCount left) (digitCount right) with hless | hsame | hmore
    · rw [if_pos (by omega), Int.compare_eq_lt.2 (by omega),
        Nat.compare_eq_lt.2 (lt_of_digitCount_lt hless)]
    · rw [if_neg (by omega)]
      simp [tenTo]
    · rw [if_pos (by omega), Int.compare_eq_gt.2 (by omega),
        Nat.compare_eq_gt.2 (lt_of_digitCount_lt hmore)]

/-- Whole numbers are ordered as decimals as they are by themselves. -/
theorem compare?_ofInt (left right : Int) :
    (ofInt left).compare? (ofInt right) = some (compare left right) := by
  -- zero has no sign, so the sign of a decimal is that of the number
  have hsign : ∀ number : Int,
      (decide (number < 0) && decide (number.natAbs ≠ 0)) = decide (number < 0) := by
    intro number
    rw [Bool.and_eq_left_iff_imp, decide_eq_true_iff, decide_eq_true_iff]
    omega
  simp only [ofInt, compare?, hsign, compareMagnitude_whole, Option.some.injEq,
    Int.compare_eq_ite_lt, Nat.compare_eq_ite_lt]
  by_cases hleft : left < 0
  · by_cases hright : right < 0
    · have hless : right.natAbs < left.natAbs ↔ left < right := by omega
      have hmore : left.natAbs < right.natAbs ↔ right < left := by omega
      simp only [hleft, hright, decide_true, hless, hmore]
    · have hless : left < right := by omega
      simp [hleft, hright, hless]
  · by_cases hright : right < 0
    · have hmore : right < left := by omega
      have hnot : ¬left < right := by omega
      simp [hleft, hright, hmore, hnot]
    · have hless : left.natAbs < right.natAbs ↔ left < right := by omega
      have hmore : right.natAbs < left.natAbs ↔ right < left := by omega
      simp only [hleft, hright, decide_false, hless, hmore]

/-- Whether a number lies above zero. -/
def IsPositive : Decimal → Prop
  | .finite negative coefficient _ => negative = false ∧ coefficient ≠ 0
  | .infinity negative => negative = false
  | .nan .. => False

/-- Whether a number lies below zero. -/
def IsNegative : Decimal → Prop
  | .finite negative coefficient _ => negative = true ∧ coefficient ≠ 0
  | .infinity negative => negative = true
  | .nan .. => False

/-- Positive numbers are those greater than zero. -/
theorem compare?_zero_eq_gt {number : Decimal} :
    number.compare? (ofInt 0) = some .gt ↔ number.IsPositive := by
  cases number with
  | finite negative coefficient exponent =>
      cases negative <;> by_cases hzero : coefficient = 0 <;>
        simp [compare?, ofInt, compareMagnitude, IsPositive, hzero, Nat.compare_eq_gt,
          Nat.pos_iff_ne_zero]
  | infinity negative => cases negative <;> simp [compare?, ofInt, IsPositive]
  | nan negative signaling payload => simp [compare?, IsPositive]

/-- Negative numbers are those that zero is greater than. -/
theorem zero_compare?_eq_gt {number : Decimal} :
    (ofInt 0).compare? number = some .gt ↔ number.IsNegative := by
  cases number with
  | finite negative coefficient exponent =>
      cases negative <;> by_cases hzero : coefficient = 0 <;>
        simp [compare?, ofInt, compareMagnitude, IsNegative, hzero, Nat.compare_eq_gt]
  | infinity negative => cases negative <;> simp [compare?, ofInt, IsNegative]
  | nan negative signaling payload => simp [compare?, ofInt, IsNegative]

end TypedSql.Number.Decimal

namespace TypedSql.Value

open TypedSql.Number TypedSql.Outcome

/-- Two values that are ordered are numbers; if they have no order, none of them is a decimal. -/
theorem of_orderNumbers {left right : Value} {order : Option Ordering}
    (h : orderNumbers left right = .ok order) :
    ∃ first second, left.asNumber? = some first ∧ right.asNumber? = some second ∧
      first.compare? second = order ∧ (order = none → left.isDecimal = false) := by
  unfold orderNumbers at h
  split at h
  · next first second hfirst hsecond =>
      refine ⟨first, second, hfirst, hsecond, ?_⟩
      split at h
      · next known hknown =>
          cases h
          exact ⟨hknown, fun hnone => nomatch hnone⟩
      · next hunordered =>
          split at h
          · cases h
          · next hdecimal =>
              cases h
              refine ⟨hunordered, fun _ => ?_⟩
              rw [Bool.or_eq_true, not_or, Bool.not_eq_true] at hdecimal
              exact hdecimal.1
  · cases h

/-- A number that has no order with zero is a NaN. -/
theorem eq_nan_of_unordered {value : Value} {number : Decimal} (hvalue : value.isDecimal = false)
    (hnumber : value.asNumber? = some number) (h : number.compare? (.ofInt 0) = none) :
    value = .float .nan := by
  cases value with
  | decimal known => cases hvalue
  | int known =>
      cases hnumber
      rw [Decimal.compare?_ofInt] at h
      cases h
  | bool known =>
      cases hnumber
      rw [Decimal.compare?_ofInt] at h
      cases h
  | float known =>
      cases hnumber
      cases known with
      | nan => rfl
      | infinity negative => cases h
      | finite negative significand exponent =>
          simp only [Binary64.toDecimal] at h
          split at h <;> cases h
  | _ => cases hnumber

/-- Numbers of which one is at most the other have an order. -/
theorem order_of_isAtMost {left right : Value} (h : left.isAtMost right = .ok true) :
    ∃ first second order, left.asNumber? = some first ∧ right.asNumber? = some second ∧
      first.compare? second = some order ∧ order ≠ .gt := by
  obtain ⟨order, horder, hresult⟩ := bind_eq_ok.1 h
  obtain ⟨first, second, hfirst, hsecond, hcompare, -⟩ := of_orderNumbers horder
  cases order with
  | none => cases hresult
  | some known =>
      have hknown : decide (known ≠ .gt) = true := pure_eq_ok.1 hresult
      exact ⟨first, second, known, hfirst, hsecond, hcompare, of_decide_eq_true hknown⟩

end TypedSql.Value
