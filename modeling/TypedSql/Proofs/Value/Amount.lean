import TypedSql.Proofs.Number.Amount
import TypedSql.Proofs.Value.Key
import TypedSql.Value.Order

/-!
# Amounts of values

Numbers and flags are compared by their amounts, whatever type they are of: `isAtMost_of_amount`
for order and `same_int_of_amount` for equality.
-/

namespace TypedSql.Value

open TypedSql.Number

variable {left right value : Value}

/-- The rational number that a finite number or a flag amounts to. -/
def amount? (value : Value) : Option ℚ := value.asNumber?.bind Decimal.amount?

theorem amount?_int (number : Int) : (int number).amount? = some (number : ℚ) :=
  Decimal.amount?_ofInt number

/-- Values with an amount are ordered by it. -/
theorem orderNumbers_of_amount {first second : ℚ} (hleft : left.amount? = some first)
    (hright : right.amount? = some second) :
    orderNumbers left right = .ok (some (compare first second)) := by
  obtain ⟨decimal, hdecimal, hfirst⟩ := Option.bind_eq_some_iff.1 hleft
  obtain ⟨other, hother, hsecond⟩ := Option.bind_eq_some_iff.1 hright
  simp only [orderNumbers, hdecimal, hother, Decimal.compare?_eq_compare hfirst hsecond]

/-- Values with an amount are at most each other as their amounts are. -/
theorem isAtMost_of_amount {first second : ℚ} (hleft : left.amount? = some first)
    (hright : right.amount? = some second) :
    left.isAtMost right = .ok (decide (first ≤ second)) := by
  have horder : decide (compare first second ≠ .gt) = decide (first ≤ second) := by
    rw [decide_eq_decide, ne_eq, compare_gt_iff_gt, not_lt]
  rw [isAtMost, orderNumbers_of_amount hleft hright, ← horder]
  rfl

/-- A whole number or a flag is at most zero as its number is. -/
theorem isAtMost_zero {number : Int} (hvalue : value.asInt? = some number) :
    value.isAtMost (.int 0) = .ok (decide (number ≤ 0)) := by
  have hamount : value.amount? = some (number : ℚ) := by
    cases value with
    | int | bool =>
        cases hvalue
        exact Decimal.amount?_ofInt _
    | _ => cases hvalue
  rw [isAtMost_of_amount hamount (amount?_int 0), decide_eq_decide.2 Int.cast_le]

/-- A value with an amount counts as true unless it is zero. -/
theorem isTruthy_of_amount {amount : ℚ} (h : value.amount? = some amount) :
    value.isTruthy = decide (amount ≠ 0) := by
  have hmagnitude : ∀ (negative : Bool) (coefficient : Nat) (exponent : Int),
      Decimal.amount? (.finite negative coefficient exponent) = some amount →
        (coefficient ≠ 0 ↔ amount ≠ 0) := by
    rintro negative coefficient exponent hamount
    rw [Decimal.amount?, Option.some.injEq] at hamount
    have hpower : (10 : ℚ) ^ exponent ≠ 0 := zpow_ne_zero exponent (by norm_num)
    have hzero : Decimal.magnitude coefficient exponent = 0 ↔ coefficient = 0 := by
      rw [Decimal.magnitude, mul_eq_zero, Nat.cast_eq_zero]
      exact or_iff_left hpower
    rw [← hamount]
    cases negative <;> simp [hzero]
  obtain ⟨decimal, hdecimal, hamount⟩ := Option.bind_eq_some_iff.1 h
  cases value with
  | bool flag =>
      cases hdecimal
      rw [Decimal.amount?_ofInt, Option.some.injEq] at hamount
      subst hamount
      cases flag <;> simp [isTruthy, Bool.toInt]
  | int number =>
      cases hdecimal
      rw [Decimal.amount?_ofInt, Option.some.injEq] at hamount
      subst hamount
      simp [isTruthy]
  | decimal known =>
      cases hdecimal
      cases decimal with
      | finite negative coefficient exponent =>
          rw [isTruthy, decide_eq_decide]
          exact hmagnitude _ _ _ hamount
      | infinity negative => cases hamount
      | nan negative signaling payload => cases hamount
  | float known =>
      cases hdecimal
      cases known with
      | nan => cases hamount
      | infinity negative => cases hamount
      | finite negative significand exponent =>
          rw [isTruthy, decide_eq_decide]
          rw [Binary64.toDecimal] at hamount
          split at hamount
          · have htwo : twoTo exponent.toNat ≠ 0 := pow_ne_zero _ (by omega)
            rw [← hmagnitude _ _ _ hamount, ne_eq, ne_eq, Nat.mul_eq_zero, or_iff_left htwo]
          · have hfive : fiveTo (-exponent).toNat ≠ 0 := pow_ne_zero _ (by omega)
            rw [← hmagnitude _ _ _ hamount, ne_eq, ne_eq, Nat.mul_eq_zero, or_iff_left hfive]
  | _ => cases hdecimal

/-- A value is compared with a whole number as values without parts are. -/
theorem same_int_eq (sharing : Sharing) (value : Value) (number : Int) :
    same sharing value (int number) = sameScalar sharing value (int number) := by
  cases value with
  | columnDefault default => cases default <;> rw [same] <;> simp
  | _ => rw [same] <;> simp

/-- What equals a whole number is told by the number that a value is. -/
theorem sameScalar_int (sharing : Sharing) (value : Value) (number : Int) :
    sameScalar sharing value (int number) =
      (value.asNumber?.any fun decimal => sameNumber sharing decimal (.ofInt number)) := by
  have htext : (int number).asText? = none := rfl
  have hnumber : (int number).asNumber? = some (.ofInt number) := rfl
  cases hvalue : value.asNumber? with
  | none =>
      cases hchars : value.asText? <;>
        simp only [sameScalar, htext, hnumber, hvalue, hchars, Option.any_none]
  | some decimal =>
      have hchars : value.asText? = none := by
        cases value with
        | bool | int | float | decimal => rfl
        | _ => cases hvalue
      simp only [sameScalar, htext, hnumber, hvalue, hchars, Option.any_some]

/-- A value that amounts to a whole number equals it. -/
theorem same_int_of_amount {number : Int} (h : value.amount? = some (number : ℚ))
    (sharing : Sharing) : same sharing value (int number) = true := by
  obtain ⟨decimal, hdecimal, hamount⟩ := Option.bind_eq_some_iff.1 h
  have hequal : decimal.compare? (.ofInt number) = some .eq := by
    rw [Decimal.compare?_eq_compare hamount (Decimal.amount?_ofInt number),
      compare_eq_iff_eq.2 rfl]
  simp [same_int_eq, sameScalar_int, hdecimal, sameNumber, hequal]

/-- A value that equals a whole number amounts to it. -/
theorem amount?_of_same_int {sharing : Sharing} {number : Int}
    (h : same sharing value (int number) = true) : value.amount? = some (number : ℚ) := by
  rw [same_int_eq, sameScalar_int, Option.any_eq_true] at h
  obtain ⟨decimal, hdecimal, hsame⟩ := h
  rw [amount?, hdecimal, Option.bind_some]
  rw [sameNumber, Bool.or_eq_true, Bool.and_eq_true] at hsame
  rcases hsame with hequal | ⟨-, hidentical⟩
  · exact Decimal.amount?_of_compare?_eq (of_decide_eq_true hequal)
  · rw [of_decide_eq_true hidentical]
    exact Decimal.amount?_ofInt number

/-- Only a number or a flag equals a whole number. -/
theorem isSome_asNumber?_of_same_int {sharing : Sharing} {number : Int}
    (h : same sharing value (int number) = true) : value.asNumber?.isSome = true := by
  rw [same_int_eq, sameScalar_int, Option.any_eq_true] at h
  obtain ⟨decimal, hdecimal, -⟩ := h
  rw [hdecimal]
  rfl

end TypedSql.Value
