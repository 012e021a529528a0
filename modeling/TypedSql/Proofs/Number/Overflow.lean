import TypedSql.Number.Binary64
import TypedSql.Proofs.Number.Power

/-!
# Numbers beyond the largest binary number

Which whole numbers are rounded to an infinity: those from `overflowBound` on, half a unit in the
last place above the largest binary number. `ofInt_isFinite_iff` says so of either sign.
-/

namespace TypedSql.Number.Binary64

/-- Whether a binary number is no infinity. -/
def isFinite : Binary64 → Bool
  | infinity _ => false
  | _ => true

/-- The least magnitude that is rounded to an infinity. -/
def overflowBound : Nat := twoTo 1024 - twoTo 970

section Rounding

variable {number unit half quotient : Nat}

/-- A quotient below a power of two is rounded up to it only if it is odd and the rest is at least
half the divisor. -/
theorem roundQuotient_eq_succ_iff (hunit : unit = 2 * half) (hodd : quotient % 2 = 1)
    (hhalf : 0 < half) (hbelow : number < (quotient + 1) * unit) :
    roundQuotient number unit = quotient + 1 ↔ quotient * unit + half ≤ number := by
  have hpos : 0 < unit := by omega
  have hdiv : number / unit * unit + number % unit = number := Nat.div_add_mod' number unit
  have hrest : number % unit < unit := Nat.mod_lt number hpos
  have hle : number / unit ≤ quotient :=
    Nat.le_of_lt_succ ((Nat.div_lt_iff_lt_mul hpos).2 hbelow)
  unfold roundQuotient
  simp only
  rcases Nat.lt_or_eq_of_le hle with hless | heq
  · have hsmall : (number / unit + 1) * unit ≤ quotient * unit := Nat.mul_le_mul_right unit hless
    rw [Nat.add_mul] at hsmall
    constructor
    · intro h
      split at h <;> omega
    · intro h
      omega
  · rw [heq] at hdiv ⊢
    constructor
    · intro h
      split at h
      · omega
      · omega
    · intro h
      rw [if_pos (by omega)]

end Rounding

section Whole

variable {number : Nat}

/-- Scaled by its leading bit, a number has at least 54 bits. -/
theorem twoTo_le_scaled (h : number ≠ 0) :
    twoTo 53 ≤ (scaled number 1 (number.log2 - 53)).1 / (scaled number 1 (number.log2 - 53)).2 := by
  have hlead : twoTo number.log2 ≤ number := Nat.log2_self_le h
  unfold scaled
  split
  · have hexponent : ((number.log2 : Int) - 53).toNat = number.log2 - 53 := by omega
    have hsplit : twoTo number.log2 = twoTo 53 * twoTo (number.log2 - 53) := by
      rw [← twoTo_add, Nat.add_sub_cancel' (by omega)]
    simp only [hexponent, Nat.one_mul]
    rw [Nat.le_div_iff_mul_le (twoTo_pos _), ← hsplit]
    exact hlead
  · have hexponent : (-((number.log2 : Int) - 53)).toNat = 53 - number.log2 := by omega
    have hsplit : twoTo 53 = twoTo number.log2 * twoTo (53 - number.log2) := by
      rw [← twoTo_add, Nat.add_sub_cancel' (by omega)]
    simp only [hexponent, Nat.div_one]
    rw [hsplit]
    exact Nat.mul_le_mul_right _ hlead

/-- A whole number is rounded at the 53rd bit, and is finite unless that leads beyond the largest
exponent. -/
theorem isFinite_ofRatio (h : number ≠ 0) (negative : Bool) :
    (ofRatio negative number 1).isFinite = true ↔
      number.log2 ≤ 1022 ∨
        number.log2 = 1023 ∧ roundQuotient number (twoTo 971) ≠ twoTo 53 := by
  have hlow : max ((number.log2 : Int) - Nat.log2 1 - 53) minExponent = number.log2 - 53 := by
    have hone : Nat.log2 1 = 0 := by decide
    simp only [hone, minExponent]
    omega
  have hexponent :
      ¬(scaled number 1 (number.log2 - 53)).1 / (scaled number 1 (number.log2 - 53)).2 <
      twoTo 53 := Nat.not_lt.2 (twoTo_le_scaled h)
  have htop : number.log2 = 1023 → scaled number 1 ((number.log2 : Int) - 53 + 1) =
      (number, twoTo 971) := by
    intro htop
    rw [htop, scaled, if_pos (by omega), Nat.one_mul]
    rfl
  unfold ofRatio
  simp only [if_neg h, hlow, if_neg hexponent]
  generalize scaled number 1 ((number.log2 : Int) - 53 + 1) = pair at htop ⊢
  obtain ⟨finalNum, finalDen⟩ := pair
  generalize twoTo 971 = unit at htop ⊢
  have hsame : number.log2 = 1023 →
      roundQuotient number unit = roundQuotient finalNum finalDen := by
    intro hlead
    cases htop hlead
    rfl
  have hfinite : ∀ (significand : Nat) (exponent : Int),
      ((if maxExponent < exponent then infinity negative
        else finite negative significand exponent).isFinite = true) ↔ exponent ≤ 971 := by
    intro significand exponent
    rw [maxExponent]
    by_cases hbeyond : 971 < exponent
    · rw [if_pos hbeyond]
      exact iff_of_false Bool.false_ne_true (by omega)
    · rw [if_neg hbeyond]
      exact iff_of_true rfl (by omega)
  by_cases hround : roundQuotient finalNum finalDen = twoTo 53
  · simp only [hround, if_true, hfinite]
    constructor
    · intro hwithin
      exact .inl (by omega)
    · rintro (hless | ⟨hlead, hne⟩)
      · omega
      · exact absurd (hsame hlead ▸ hround) hne
  · simp only [hround, if_false, hfinite]
    constructor
    · intro hwithin
      rcases Nat.lt_or_eq_of_le (show number.log2 ≤ 1023 by omega) with hless | hlead
      · exact .inl (by omega)
      · exact .inr ⟨hlead, hsame hlead ▸ hround⟩
    · rintro (hless | ⟨hlead, -⟩) <;> omega

end Whole

/-- A whole number is rounded to an infinity exactly from the bound on. -/
theorem ofInt_isFinite_iff {number : Int} :
    (ofInt number).isFinite = true ↔ number.natAbs < overflowBound := by
  have hunit : twoTo 971 = 2 * twoTo 970 := twoTo_succ 970
  have hlimit : twoTo 1024 = twoTo 53 * twoTo 971 := twoTo_add 53 971
  have hpos := twoTo_pos 970
  have hword : twoTo 53 = 9007199254740991 + 1 := rfl
  rw [ofInt, overflowBound]
  generalize decide (number < 0) = negative
  generalize number.natAbs = magnitude
  by_cases hzero : magnitude = 0
  · subst hzero
    refine iff_of_true rfl ?_
    rw [hlimit, hunit, hword]
    generalize twoTo 970 = half at hpos ⊢
    omega
  · rw [isFinite_ofRatio hzero, hword]
    have hlead : twoTo magnitude.log2 ≤ magnitude := Nat.log2_self_le hzero
    have hnext : magnitude < twoTo (magnitude.log2 + 1) := Nat.lt_log2_self
    have hhalf : twoTo 1024 = 2 * twoTo 1023 := twoTo_succ 1023
    have hless : magnitude.log2 ≤ 1022 → magnitude < twoTo 1023 := fun hle =>
      Nat.lt_of_lt_of_le hnext (twoTo_le_twoTo (Nat.succ_le_succ hle))
    have hmore : 1024 ≤ magnitude.log2 → twoTo 1024 ≤ magnitude := fun hle =>
      Nat.le_trans (twoTo_le_twoTo hle) hlead
    have hsame : magnitude.log2 = 1023 → magnitude < twoTo 1024 := by
      intro heq
      rwa [heq] at hnext
    have hround : magnitude < (9007199254740991 + 1) * twoTo 971 →
        (roundQuotient magnitude (twoTo 971) = 9007199254740991 + 1 ↔
          9007199254740991 * twoTo 971 + twoTo 970 ≤ magnitude) :=
      roundQuotient_eq_succ_iff hunit rfl hpos
    rw [hword] at hlimit
    clear hword
    -- from here on only the order of the powers counts, not what they are
    generalize twoTo 1023 = low, twoTo 1024 = high, twoTo 971 = unit, twoTo 970 = half at *
    clear hlead hnext
    generalize magnitude.log2 = lead at *
    rcases Nat.lt_trichotomy lead 1023 with hlt | heq | hgt
    · omega
    · have hiff := hround (by omega)
      omega
    · omega

end TypedSql.Number.Binary64
