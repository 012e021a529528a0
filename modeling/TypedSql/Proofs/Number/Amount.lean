import Mathlib.Algebra.Order.Field.Power
import Mathlib.Data.Nat.Cast.Field
import Mathlib.Data.Rat.Cast.Order
import Mathlib.Tactic.FieldSimp
import Mathlib.Tactic.Positivity
import TypedSql.Number.Binary64
import TypedSql.Proofs.Number.Numeral

/-!
# Amounts of numbers

A finite decimal amounts to a rational number, and decimals are ordered as their amounts are
(`compare?_eq_compare`): the leading digit decides where it can, and aligned coefficients where it
cannot. A whole number that is read off a decimal or a binary number is its amount.
-/

namespace TypedSql.Number

theorem cast_tenTo (exponent : Nat) : (tenTo exponent : ℚ) = (10 : ℚ) ^ exponent := by
  rw [show tenTo exponent = 10 ^ exponent from rfl, Nat.cast_pow, Nat.cast_ofNat]

theorem cast_twoTo (exponent : Nat) : (twoTo exponent : ℚ) = (2 : ℚ) ^ exponent := by
  rw [show twoTo exponent = 2 ^ exponent from rfl, Nat.cast_pow, Nat.cast_ofNat]

theorem cast_fiveTo (exponent : Nat) : (fiveTo exponent : ℚ) = (5 : ℚ) ^ exponent := by
  rw [show fiveTo exponent = 5 ^ exponent from rfl, Nat.cast_pow, Nat.cast_ofNat]

namespace Decimal

/-- The amount of a magnitude with an exponent. -/
def magnitude (coefficient : Nat) (exponent : Int) : ℚ := coefficient * (10 : ℚ) ^ exponent

/-- The rational number that a finite decimal amounts to. -/
def amount? : Decimal → Option ℚ
  | .finite negative coefficient exponent =>
    some (if negative then -magnitude coefficient exponent else magnitude coefficient exponent)
  | _ => none

section Magnitude

variable {left right : Nat} {leftExponent rightExponent : Int}

/-- Comparisons agree where each number is less than the other in both. -/
theorem compare_congr {first second : ℚ} {left right : Nat} (hless : left < right ↔ first < second)
    (hmore : right < left ↔ second < first) : compare left right = compare first second := by
  rcases Nat.lt_trichotomy left right with h | h | h
  · rw [Nat.compare_eq_lt.2 h, compare_lt_iff_lt.2 (hless.1 h)]
  · have hle := not_lt.1 (mt hmore.2 (h ▸ Nat.lt_irrefl _))
    have hge := not_lt.1 (mt hless.2 (h ▸ Nat.lt_irrefl _))
    rw [Nat.compare_eq_eq.2 h, compare_eq_iff_eq.2 (le_antisymm hle hge)]
  · rw [Nat.compare_eq_gt.2 h, compare_gt_iff_gt.2 (hmore.1 h)]

/-- A magnitude that is not zero lies between two powers of ten, which its leading digit tells. -/
theorem magnitude_bounds (h : left ≠ 0) (exponent : Int) :
    (10 : ℚ) ^ adjusted left exponent ≤ magnitude left exponent ∧
      magnitude left exponent < (10 : ℚ) ^ (adjusted left exponent + 1) := by
  have hpos : 0 < digitCount left := List.length_pos_iff.2 Nat.toDigits_ne_nil
  obtain ⟨count, hcount⟩ := Nat.exists_eq_add_one.2 hpos
  have hless : left < 10 ^ (count + 1) :=
    hcount ▸ (digitCount_le_iff hpos).1 (Nat.le_refl (digitCount left))
  have hmore : 10 ^ count ≤ left := by
    refine Nat.le_of_not_lt fun hsmall => ?_
    rcases Nat.eq_zero_or_pos count with rfl | hsome
    · rw [Nat.pow_zero] at hsmall
      omega
    · have hshort := (digitCount_le_iff hsome).2 hsmall
      omega
  have hadjusted : adjusted left exponent = (count : Int) + exponent := by
    rw [adjusted, hcount]
    omega
  have hten : (10 : ℚ) ≠ 0 := by norm_num
  have hpower : (0 : ℚ) < 10 ^ exponent := zpow_pos (by norm_num) exponent
  rw [hadjusted, magnitude]
  constructor
  · rw [zpow_add₀ hten, zpow_natCast]
    exact mul_le_mul_of_nonneg_right (by exact_mod_cast hmore) hpower.le
  · rw [show (count : Int) + exponent + 1 = ((count + 1 : Nat) : Int) + exponent by omega,
      zpow_add₀ hten, zpow_natCast]
    exact mul_lt_mul_of_pos_right (by exact_mod_cast hless) hpower

/-- A magnitude with a smaller leading exponent is smaller. -/
theorem magnitude_lt_of_adjusted_lt (hleft : left ≠ 0) (hright : right ≠ 0)
    (h : adjusted left leftExponent < adjusted right rightExponent) :
    magnitude left leftExponent < magnitude right rightExponent :=
  calc magnitude left leftExponent
      < (10 : ℚ) ^ (adjusted left leftExponent + 1) := (magnitude_bounds hleft leftExponent).2
    _ ≤ (10 : ℚ) ^ adjusted right rightExponent := zpow_le_zpow_right₀ (by norm_num) h
    _ ≤ magnitude right rightExponent := (magnitude_bounds hright rightExponent).1

/-- Aligning a coefficient to a lower exponent keeps the magnitude. -/
theorem magnitude_aligned {base : Int} (h : base ≤ leftExponent) :
    magnitude left leftExponent =
      ((left * tenTo (leftExponent - base).toNat : Nat) : ℚ) * (10 : ℚ) ^ base := by
  have hten : (10 : ℚ) ≠ 0 := by norm_num
  have hexponent : leftExponent = ((leftExponent - base).toNat : Int) + base := by omega
  have hpower : (10 : ℚ) ^ leftExponent =
      (10 : ℚ) ^ (leftExponent - base).toNat * (10 : ℚ) ^ base := by
    rw [← zpow_natCast, ← zpow_add₀ hten, ← hexponent]
  rw [magnitude, hpower, ← mul_assoc, Nat.cast_mul, cast_tenTo]

/-- Magnitudes are ordered by their leading exponents and aligned coefficients as they are. -/
theorem compareMagnitude_eq_compare (left right : Nat) (leftExponent rightExponent : Int) :
    compareMagnitude left leftExponent right rightExponent =
      compare (magnitude left leftExponent) (magnitude right rightExponent) := by
  have hpos : ∀ exponent : Int, (0 : ℚ) < 10 ^ exponent := fun exponent =>
    zpow_pos (by norm_num) exponent
  have hzero : ∀ exponent, magnitude 0 exponent = 0 := fun exponent => by simp [magnitude]
  have hmagnitude : ∀ {coefficient : Nat} (exponent : Int), coefficient ≠ 0 →
      0 < magnitude coefficient exponent := fun exponent hne =>
    mul_pos (by exact_mod_cast Nat.pos_of_ne_zero hne) (hpos exponent)
  unfold compareMagnitude
  by_cases hleft : left = 0
  · subst hleft
    rw [if_pos (.inl rfl), hzero]
    by_cases hright : right = 0
    · subst hright
      rw [hzero, compare_eq_iff_eq.2 rfl]
      rfl
    · rw [Nat.compare_eq_lt.2 (Nat.pos_of_ne_zero hright),
        compare_lt_iff_lt.2 (hmagnitude rightExponent hright)]
  · by_cases hright : right = 0
    · subst hright
      rw [if_pos (.inr rfl), hzero, Nat.compare_eq_gt.2 (Nat.pos_of_ne_zero hleft),
        compare_gt_iff_gt.2 (hmagnitude leftExponent hleft)]
    · rw [if_neg (not_or.2 ⟨hleft, hright⟩)]
      simp only
      rcases lt_trichotomy (adjusted left leftExponent) (adjusted right rightExponent) with
        hless | hsame | hmore
      · rw [if_pos hless.ne, Int.compare_eq_lt.2 hless,
          compare_lt_iff_lt.2 (magnitude_lt_of_adjusted_lt hleft hright hless)]
      · rw [if_neg (not_not.2 hsame)]
        have hbase := hpos (min leftExponent rightExponent)
        refine compare_congr ?_ ?_
        · rw [magnitude_aligned (min_le_left leftExponent rightExponent),
            magnitude_aligned (min_le_right leftExponent rightExponent),
            mul_lt_mul_iff_left₀ hbase, Nat.cast_lt]
        · rw [magnitude_aligned (min_le_left leftExponent rightExponent),
            magnitude_aligned (min_le_right leftExponent rightExponent),
            mul_lt_mul_iff_left₀ hbase, Nat.cast_lt]
      · rw [if_pos hmore.ne', Int.compare_eq_gt.2 hmore,
          compare_gt_iff_gt.2 (magnitude_lt_of_adjusted_lt hright hleft hmore)]

end Magnitude

/-- Negative numbers are ordered the other way round. -/
theorem compare_neg_neg (first second : ℚ) : compare (-first) (-second) = compare second first := by
  rcases lt_trichotomy first second with h | h | h
  · rw [compare_gt_iff_gt.2 (neg_lt_neg h), compare_gt_iff_gt.2 h]
  · rw [h, compare_eq_iff_eq.2 rfl, compare_eq_iff_eq.2 rfl]
  · rw [compare_lt_iff_lt.2 (neg_lt_neg h), compare_lt_iff_lt.2 h]

/-- The sign of a zero does not count. -/
theorem amount?_finite (negative : Bool) (coefficient : Nat) (exponent : Int) :
    amount? (.finite negative coefficient exponent) =
      some (if negative && decide (coefficient ≠ 0) then -magnitude coefficient exponent
        else magnitude coefficient exponent) := by
  by_cases hzero : coefficient = 0
  · subst hzero
    simp [amount?, magnitude]
  · simp [amount?, hzero]

/-- Decimals are ordered as their amounts are. -/
theorem compare?_eq_compare {left right : Decimal} {first second : ℚ}
    (hleft : left.amount? = some first) (hright : right.amount? = some second) :
    left.compare? right = some (compare first second) := by
  have hnonneg : ∀ (coefficient : Nat) (exponent : Int), 0 ≤ magnitude coefficient exponent :=
    fun coefficient exponent =>
      mul_nonneg (Nat.cast_nonneg coefficient) (zpow_nonneg (by norm_num) exponent)
  have hpos : ∀ {coefficient : Nat} (exponent : Int), coefficient ≠ 0 →
      0 < magnitude coefficient exponent := fun exponent hne =>
    mul_pos (by exact_mod_cast Nat.pos_of_ne_zero hne) (zpow_pos (by norm_num) exponent)
  cases left with
  | infinity negative => cases hleft
  | nan negative signaling payload => cases hleft
  | finite negative coefficient exponent =>
      cases right with
      | infinity negative => cases hright
      | nan negative signaling payload => cases hright
      | finite otherNegative other otherExponent =>
          rw [amount?_finite, Option.some.injEq] at hleft hright
          subst hleft hright
          simp only [compare?, Option.some.injEq]
          cases hfirst : negative && decide (coefficient ≠ 0) with
          | false =>
              cases hsecond : otherNegative && decide (other ≠ 0) with
              | false => exact compareMagnitude_eq_compare _ _ _ _
              | true =>
                  rw [Bool.and_eq_true, decide_eq_true_iff] at hsecond
                  have hbelow := neg_lt_zero.2 (hpos otherExponent hsecond.2)
                  exact (compare_gt_iff_gt.2 (lt_of_lt_of_le hbelow (hnonneg _ _))).symm
          | true =>
              rw [Bool.and_eq_true, decide_eq_true_iff] at hfirst
              have hbelow := neg_lt_zero.2 (hpos exponent hfirst.2)
              cases hsecond : otherNegative && decide (other ≠ 0) with
              | false => exact (compare_lt_iff_lt.2 (lt_of_lt_of_le hbelow (hnonneg _ _))).symm
              | true =>
                  rw [if_pos rfl, if_pos rfl, compare_neg_neg]
                  exact compareMagnitude_eq_compare _ _ _ _

/-- A whole number amounts to itself. -/
theorem amount?_ofInt (number : Int) : amount? (ofInt number) = some (number : ℚ) := by
  have hmagnitude : magnitude number.natAbs 0 = ((number.natAbs : Int) : ℚ) := by
    simp [magnitude]
  rw [ofInt, amount?, hmagnitude, Option.some.injEq]
  by_cases hsign : number < 0
  · rw [decide_eq_true hsign, if_pos rfl, ← Int.cast_neg]
    congr 1
    omega
  · rw [decide_eq_false hsign, if_neg Bool.false_ne_true]
    congr 1
    omega

/-- What equals a whole number amounts to it. -/
theorem amount?_of_compare?_eq {decimal : Decimal} {number : Int}
    (h : decimal.compare? (ofInt number) = some .eq) : decimal.amount? = some (number : ℚ) := by
  cases decimal with
  | nan negative signaling payload => cases h
  | infinity negative => cases negative <;> cases h
  | finite negative coefficient exponent =>
      rw [compare?_eq_compare rfl (amount?_ofInt number), Option.some.injEq,
        compare_eq_iff_eq] at h
      rw [amount?, h]

/-- A sign in front of a whole magnitude is the sign of the amount. -/
theorem amount_signed (negative : Bool) (number : Nat) :
    ((signed negative number : Int) : ℚ) = if negative then -(number : ℚ) else number := by
  cases negative <;> simp [signed]

/-- A whole decimal amounts to the number without its places. -/
theorem amount?_of_isWhole {coefficient : Nat} {exponent : Int} (negative : Bool)
    (h : isWhole coefficient exponent = true) :
    amount? (.finite negative coefficient exponent) =
      some (truncate negative coefficient exponent : ℚ) := by
  have hten : (10 : ℚ) ≠ 0 := by norm_num
  rw [amount?, truncate, amount_signed]
  by_cases hzero : coefficient = 0
  · subst hzero
    simp [magnitude]
  · rw [if_neg hzero]
    by_cases hplaces : 0 ≤ exponent
    · have hpower : (10 : ℚ) ^ exponent = (10 : ℚ) ^ exponent.toNat := by
        rw [← zpow_natCast, Int.toNat_of_nonneg hplaces]
      rw [if_pos hplaces, Nat.cast_mul, cast_tenTo, magnitude, hpower]
    · have hwhole : (-exponent).toNat < digitCount coefficient ∧
          coefficient % tenTo (-exponent).toNat = 0 := by
        simpa [isWhole, hzero, hplaces] using h
      have hpower : (10 : ℚ) ^ exponent = ((10 : ℚ) ^ (-exponent).toNat)⁻¹ := by
        rw [← zpow_natCast, ← zpow_neg, Int.toNat_of_nonneg (by omega), neg_neg]
      have hquotient : ((coefficient / tenTo (-exponent).toNat : Nat) : ℚ) =
          (coefficient : ℚ) / (10 : ℚ) ^ (-exponent).toNat := by
        have hnonzero : (tenTo (-exponent).toNat : ℚ) ≠ 0 := by
          rw [cast_tenTo]
          exact pow_ne_zero _ hten
        rw [Nat.cast_div (Nat.dvd_of_mod_eq_zero hwhole.2) hnonzero,
          cast_tenTo]
      rw [if_neg hplaces, if_neg (Nat.not_le.2 hwhole.1), hquotient, magnitude, hpower,
        div_eq_mul_inv]

end Decimal

namespace Binary64

/-- A whole binary number amounts to the number without its fraction. -/
theorem amount?_of_isWhole {significand : Nat} {exponent : Int} (negative : Bool)
    (h : isWhole significand exponent = true) :
    (toDecimal (.finite negative significand exponent)).amount? =
      some (signed negative (wholePart significand exponent) : ℚ) := by
  rw [toDecimal, Decimal.amount_signed, wholePart]
  by_cases hfraction : 0 ≤ exponent
  · simp [if_pos hfraction, Decimal.amount?, Decimal.magnitude]
  · have hwhole : significand % twoTo (-exponent).toNat = 0 := by
      simpa [isWhole, hfraction] using h
    have htwo : (2 : ℚ) ^ (-exponent).toNat ≠ 0 := pow_ne_zero _ (by norm_num)
    have hquotient : ((significand / twoTo (-exponent).toNat : Nat) : ℚ) =
        (significand : ℚ) / (2 : ℚ) ^ (-exponent).toNat := by
      rw [Nat.cast_div (Nat.dvd_of_mod_eq_zero hwhole) (by rw [cast_twoTo]; exact htwo), cast_twoTo]
    have hpower : (10 : ℚ) ^ exponent =
        ((2 : ℚ) ^ (-exponent).toNat * (5 : ℚ) ^ (-exponent).toNat)⁻¹ := by
      rw [← mul_pow, ← zpow_natCast, ← zpow_neg, Int.toNat_of_nonneg (by omega), neg_neg]
      norm_num
    have hmagnitude : Decimal.magnitude (significand * fiveTo (-exponent).toNat) exponent =
        (significand : ℚ) / (2 : ℚ) ^ (-exponent).toNat := by
      have hfive : (5 : ℚ) ^ (-exponent).toNat ≠ 0 := pow_ne_zero _ (by norm_num)
      rw [Decimal.magnitude, Nat.cast_mul, cast_fiveTo, hpower]
      field_simp
    rw [if_neg hfraction, if_neg hfraction, Decimal.amount?, hmagnitude, hquotient]

end Binary64

end TypedSql.Number
