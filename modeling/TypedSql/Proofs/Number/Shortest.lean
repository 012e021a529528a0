import TypedSql.Number.Shortest
import TypedSql.Proofs.Number.Power
import TypedSql.Proofs.Number.Reading

/-!
# Decimal texts of binary numbers

The text of a binary number is a numeral whose digits and exponent are few, so it is read as a
decimal: `exists_read?_render`.
-/

namespace TypedSql.Number

open TypedSql.Text

namespace Decimal

section Parts

variable {whole places tail fraction : List Char} {exponent : Int}

/-- The most digits that a text of a number is looked at with, and the largest exponent. -/
def longest : Nat := 10000

/-- A numeral of not too many digits with an exponent that is not too large is read as a decimal. -/
theorem exists_read?_parts (negative : Bool) (hwhole : whole ≠ [])
    (hdigits : ∀ c ∈ whole ++ places, isAsciiDigit c = true)
    (hfraction : fraction = [] ∧ places = [] ∨ fraction = '.' :: places)
    (htail : readExponent? tail = some exponent)
    (hmark : ∀ c, tail.head? = some c → c = 'e') (hchars : ∀ c ∈ tail, isNumeralChar c = true)
    (hlength : (whole ++ places).length ≤ longest) (hexponent : exponent.natAbs ≤ longest) :
    ∃ decimal, read? ((signText negative).toList ++ (whole ++ (fraction ++ tail))) =
      some decimal := by
  have hbody := readNumeral?_eq hwhole hdigits hmark hfraction
  rw [htail, Option.map_some] at hbody
  have hsome : whole ++ places ≠ [] := List.append_ne_nil_of_left_ne_nil hwhole _
  have hcount : digitCount (ofAscii (whole ++ places)) ≤ longest :=
    Nat.le_trans (digitCount_ofAscii_le hsome hdigits) hlength
  have hnumeral : ∀ c, isAsciiDigit c = true → isNumeralChar c = true := fun c hc => by
    rw [isNumeralChar, hc, Bool.true_or]
  refine exists_read? negative hbody ?_ ?_ ?_ ?_
  · intro c hc
    simp only [List.mem_append] at hc hdigits
    rcases hc with hc | hc | hc
    · exact hnumeral c (hdigits c (.inl hc))
    · rcases hfraction with ⟨rfl, -⟩ | rfl
      · cases hc
      · rcases List.mem_cons.1 hc with rfl | hc
        · decide
        · exact hnumeral c (hdigits c (.inr hc))
    · exact hchars c hc
  · intro c hc
    rw [List.head?_append_of_ne_nil _ hwhole] at hc
    exact hdigits c (List.mem_append_left _ (List.mem_of_mem_head? hc))
  · rw [List.length_append] at hlength
    simp only [minExponent, longest] at *
    omega
  · simp only [adjusted, maxAdjusted, longest] at *
    omega

end Parts

/-- The numeral of a whole number is read as a decimal. -/
theorem exists_read?_toString {number : Int} (h : hasNumeral number = true) :
    ∃ decimal, read? (toString number).toList = some decimal := by
  have hlength : (Nat.toDigits 10 number.natAbs ++ []).length ≤ longest := by
    rw [List.append_nil]
    exact Nat.le_trans (hasNumeral_iff.1 h) (by decide)
  have hdigits : ∀ c ∈ Nat.toDigits 10 number.natAbs ++ [], isAsciiDigit c = true := by
    rw [List.append_nil]
    exact fun c hc => isAsciiDigit_of_mem_toDigits hc
  have hsign : (signText (number < 0)).toList = if number < 0 then ['-'] else [] := by
    rw [signText]
    simp only [decide_eq_true_eq]
    split <;> rfl
  have hread := exists_read?_parts (number < 0) Nat.toDigits_ne_nil hdigits (.inl ⟨rfl, rfl⟩)
    (rfl : readExponent? [] = some 0) (by simp) (by simp) hlength (Nat.zero_le _)
  rwa [List.append_nil, List.append_nil, hsign, ← toList_toString_int] at hread

end Decimal

namespace Binary64

/-- The numbers of 53 bits and an exponent in range, the infinities and the NaN. -/
def IsProper : Binary64 → Prop
  | finite _ significand exponent =>
    significand < twoTo 53 ∧ minExponent ≤ exponent ∧ exponent ≤ maxExponent
  | _ => True

section Layout

variable {digits : Nat} {last : Int}

/-- An exponent is a sign and digits, which denote its magnitude. -/
theorem exponentText_eq (exponent : Int) :
    ∃ worths, (exponentText exponent).toList = (if exponent < 0 then '-' else '+') :: worths ∧
      worths ≠ [] ∧ (∀ c ∈ worths, isAsciiDigit c = true) ∧
        Decimal.ofAscii worths = exponent.natAbs := by
  have hdigits : (toString exponent.natAbs).toList = Nat.toDigits 10 exponent.natAbs :=
    Nat.toList_repr
  have hsign :
      (if exponent < 0 then "-" else "+").toList = [if exponent < 0 then '-' else '+'] := by
    split <;> rfl
  have hascii : ∀ c ∈ Nat.toDigits 10 exponent.natAbs, isAsciiDigit c = true := fun c hc =>
    isAsciiDigit_of_mem_toDigits hc
  simp only [exponentText, String.toList_append, hdigits, hsign]
  by_cases hsmall : exponent.natAbs < 10
  · refine ⟨'0' :: Nat.toDigits 10 exponent.natAbs, ?_, List.cons_ne_nil _ _,
      List.forall_mem_cons.2 ⟨by decide, hascii⟩, ?_⟩
    · rw [if_pos hsmall]
      rfl
    · rw [ofAscii_eq_ofDigitChars, Nat.ofDigitChars_cons]
      exact Nat.ofDigitChars_ten_toDigits
  · refine ⟨Nat.toDigits 10 exponent.natAbs, ?_, Nat.toDigits_ne_nil, hascii,
      ofAscii_toDigits _⟩
    rw [if_neg hsmall]
    rfl

/-- The exponent behind a numeral is read again. -/
theorem readExponent?_exponentText (exponent : Int) :
    Decimal.readExponent? ('e' :: (exponentText exponent).toList) = some exponent ∧
      ∀ c ∈ (exponentText exponent).toList, Decimal.isNumeralChar c = true := by
  obtain ⟨worths, htext, hsome, hdigits, hvalue⟩ := exponentText_eq exponent
  have hall : worths.all isAsciiDigit = true := List.all_eq_true.2 hdigits
  have hempty : worths.isEmpty = false := List.isEmpty_eq_false_iff.2 hsome
  rw [htext]
  constructor
  · by_cases hsign : exponent < 0
    · have hmagnitude : signed true exponent.natAbs = exponent := by
        rw [signed, if_pos rfl]
        omega
      simp [Decimal.readExponent?, hsign, splitSign, hall, hempty, hvalue, hmagnitude]
    · have hmagnitude : signed false exponent.natAbs = exponent := by
        rw [signed, if_neg Bool.false_ne_true]
        omega
      simp [Decimal.readExponent?, hsign, splitSign, hall, hempty, hvalue, hmagnitude]
  · refine List.forall_mem_cons.2 ⟨by split <;> decide, fun c hc => ?_⟩
    rw [Decimal.isNumeralChar, hdigits c hc, Bool.true_or]

/-- Digits that are laid out are read as a decimal, if they are few and stand not too far from the
point. -/
theorem exists_read?_layout (negative : Bool) (hcount : digitCount digits ≤ 2000)
    (hlast : last.natAbs ≤ 2000) :
    ∃ decimal, Decimal.read? ((Decimal.signText negative).toList ++ (layout digits last).toList) =
      some decimal := by
  have hascii : ∀ c ∈ Nat.toDigits 10 digits, isAsciiDigit c = true := fun c hc =>
    isAsciiDigit_of_mem_toDigits hc
  have hzeros : ∀ (count : Nat), ∀ c ∈ List.replicate count '0', isAsciiDigit c = true := by
    intro count c hc
    cases List.eq_of_mem_replicate hc
    decide
  have hsome : Nat.toDigits 10 digits ≠ [] := Nat.toDigits_ne_nil
  have hplain : ∀ whole places : List Char, whole ≠ [] →
      (∀ c ∈ whole ++ places, isAsciiDigit c = true) →
      (whole ++ places).length ≤ Decimal.longest →
      ∃ decimal, Decimal.read? ((Decimal.signText negative).toList ++ (whole ++ '.' :: places)) =
        some decimal := by
    intro whole places hwhole hdigits hlength
    have hread := Decimal.exists_read?_parts negative hwhole hdigits (.inr rfl)
      (rfl : Decimal.readExponent? [] = some 0) (by simp) (by simp) hlength (Nat.zero_le _)
    rwa [List.append_nil] at hread
  rw [digitCount] at hcount
  unfold layout
  simp only
  generalize Nat.toDigits 10 digits = text at *
  have hlonger : 0 < text.length := List.length_pos_iff.2 hsome
  split
  · next hnear =>
      split
      · have hread := hplain ['0']
          (List.replicate (-(last + text.length - 1) - 1).toNat '0' ++ text) (List.cons_ne_nil _ _)
          (by
            rw [List.singleton_append, List.forall_mem_cons, List.forall_mem_append]
            exact ⟨by decide, hzeros _, hascii⟩)
          (by
            simp only [List.length_append, List.length_replicate, List.length_singleton,
              Decimal.longest]
            omega)
        simpa using hread
      · split
        · have hread := hplain (text ++ List.replicate last.toNat '0') ['0']
            (List.append_ne_nil_of_left_ne_nil hsome _)
            (by
              rw [List.forall_mem_append, List.forall_mem_append]
              exact ⟨⟨hascii, hzeros _⟩, List.forall_mem_singleton.2 (by decide)⟩)
            (by
              simp only [List.length_append, List.length_replicate, List.length_singleton,
                Decimal.longest]
              omega)
          simpa using hread
        · next hlead hwhole =>
            have hfront : text.take (last + text.length - 1 + 1).toNat ≠ [] := by
              rw [ne_eq, List.take_eq_nil_iff, not_or]
              exact ⟨by omega, hsome⟩
            have hread := hplain (text.take (last + text.length - 1 + 1).toNat)
              (text.drop (last + text.length - 1 + 1).toNat) hfront
              (by rwa [List.take_append_drop])
              (by
                rw [List.take_append_drop, Decimal.longest]
                omega)
            simpa using hread
  · obtain ⟨hexponent, hmark⟩ := readExponent?_exponentText (last + text.length - 1)
    have hchars : ∀ c ∈ 'e' :: (exponentText (last + text.length - 1)).toList,
        Decimal.isNumeralChar c = true := List.forall_mem_cons.2 ⟨by decide, hmark⟩
    have hlarge : (last + text.length - 1 : Int).natAbs ≤ Decimal.longest := by
      rw [Decimal.longest]
      omega
    cases text with
    | nil => exact absurd rfl hsome
    | cons first rest =>
        cases rest with
        | nil =>
            have hread := Decimal.exists_read?_parts negative hsome hascii
              (.inl ⟨rfl, rfl⟩) hexponent (by simp) hchars (by simp [Decimal.longest]) hlarge
            simpa using hread
        | cons second others =>
            have hread := Decimal.exists_read?_parts negative (List.cons_ne_nil first [])
              hascii (.inr rfl) hexponent (by simp) hchars
              (by
                rw [Decimal.longest]
                simp only [List.length_append, List.length_cons, List.length_nil] at hcount ⊢
                omega) hlarge
            simpa using hread

end Layout

section Digits

variable {significand digits : Nat} {exponent grid : Int}

theorem roundQuotient_le (num den : Nat) : roundQuotient num den ≤ num / den + 1 := by
  unfold roundQuotient
  simp only
  split <;> omega

/-- A point on a grid is at most one step above the number. -/
theorem nearestOn?_le {interval : RoundingInterval} (h : interval.nearestOn? grid = some digits) :
    digits ≤ interval.value * tenTo (-grid).toNat + 1 := by
  have hup : (if 0 ≤ grid then 1 else tenTo (-grid).toNat) = tenTo (-grid).toNat := by
    split
    · next hgrid =>
        rw [show (-grid).toNat = 0 by omega]
        rfl
    · rfl
  unfold RoundingInterval.nearestOn? at h
  simp only [hup] at h
  generalize interval.den * (if 0 ≤ grid then tenTo grid.toNat else 1) = step at h
  have hbelow : interval.value * tenTo (-grid).toNat / step ≤
      interval.value * tenTo (-grid).toNat := Nat.div_le_self _ _
  split at h
  · cases h
    exact Nat.le_trans (roundQuotient_le _ _) (Nat.succ_le_succ hbelow)
  · cases h
    exact Nat.le_succ_of_le hbelow
  · cases h
    exact Nat.succ_le_succ hbelow
  · cases h

/-- A number up to a power of ten has at most one digit more than the power. -/
theorem digitCount_le_of_le_tenTo {n count : Nat} (h : n ≤ tenTo count) :
    digitCount n ≤ count + 1 :=
  (digitCount_le_iff (Nat.succ_pos count)).2
    (Nat.lt_of_le_of_lt h (tenTo_lt_tenTo_succ count))

/-- A step above a product of two numbers up to powers of ten has few digits. -/
theorem digitCount_le_of_step {n first second up down : Nat} (h : n ≤ first * second + 1)
    (hfirst : first ≤ tenTo up) (hsecond : second ≤ tenTo down) :
    digitCount n ≤ up + down + 2 := by
  refine digitCount_le_of_le_tenTo (?_ : n ≤ tenTo (up + down + 1))
  calc n ≤ first * second + 1 := h
    _ ≤ tenTo up * tenTo down + 1 := Nat.succ_le_succ (Nat.mul_le_mul hfirst hsecond)
    _ = tenTo (up + down) + 1 := by rw [tenTo_add]
    _ ≤ tenTo (up + down + 1) := tenTo_lt_tenTo_succ (up + down)

/-- The reals that round to a number of 53 bits stay below a power of two. -/
theorem value_roundingInterval_le (hsignificand : significand < twoTo 53)
    (hhigh : exponent ≤ maxExponent) :
    (roundingInterval significand exponent).value ≤ twoTo 1024 := by
  have hfactor : (if 0 ≤ exponent - 2 then twoTo (exponent - 2).toNat else 1) ≤ twoTo 969 := by
    split
    · refine twoTo_le_twoTo ?_
      rw [maxExponent] at hhigh
      omega
    · exact twoTo_pos 969
  calc (roundingInterval significand exponent).value
      = 4 * significand * (if 0 ≤ exponent - 2 then twoTo (exponent - 2).toNat else 1) := rfl
    _ ≤ twoTo 2 * twoTo 53 * twoTo 969 :=
        Nat.mul_le_mul (Nat.mul_le_mul_left 4 (Nat.le_of_lt hsignificand)) hfactor
    _ = twoTo 1024 := by rw [← twoTo_add, ← twoTo_add]

/-- The shortest digits of a number are few and stand not far from the point. -/
theorem shortest_bounds (hsignificand : significand < twoTo 53) (hlow : minExponent ≤ exponent)
    (hhigh : exponent ≤ maxExponent) :
    digitCount (shortest significand exponent).1 ≤ 2000 ∧
      (shortest significand exponent).2.natAbs ≤ 2000 := by
  have hlog : significand.log2 ≤ 52 := by
    by_cases hzero : significand = 0
    · subst hzero
      decide
    · exact Nat.le_of_lt_succ ((Nat.log2_lt hzero).2 hsignificand)
  unfold shortest
  simp only
  generalize htop : Int.fdiv ((exponent + significand.log2 + 1) * 30103) 100000 + 1 = top
  have hrange : -330 ≤ top ∧ top ≤ 330 := by
    rw [Int.fdiv_eq_ediv_of_nonneg _ (by omega)] at htop
    simp only [minExponent, maxExponent] at hlow hhigh
    omega
  cases hfound : ((List.range 24).map fun step : Nat => top - (step : Int)).findSome? fun grid =>
      ((roundingInterval significand exponent).nearestOn? grid).map fun digits =>
        (digits, grid) with
  | none =>
      refine ⟨?_, ?_⟩
      · refine Nat.le_trans (digitCount_le_of_le_tenTo ?_) (by omega : 53 + 1 ≤ 2000)
        exact Nat.le_trans (Nat.le_of_lt hsignificand) (twoTo_le_tenTo 53)
      · simp only [Option.getD_none, minExponent, maxExponent] at hlow hhigh ⊢
        omega
  | some found =>
      obtain ⟨grid, hgrid, hnearest⟩ := List.exists_of_findSome?_eq_some hfound
      obtain ⟨digits, hdigits, rfl⟩ := Option.map_eq_some_iff.1 hnearest
      obtain ⟨step, hstep, rfl⟩ := List.mem_map.1 hgrid
      rw [List.mem_range] at hstep
      refine ⟨?_, ?_⟩
      · have hvalue := Nat.le_trans (value_roundingInterval_le hsignificand hhigh)
          (twoTo_le_tenTo 1024)
        have hup : tenTo (-(top - (step : Int))).toNat ≤ tenTo 400 := tenTo_le_tenTo (by omega)
        have hcount := digitCount_le_of_step (nearestOn?_le hdigits) hvalue hup
        exact Nat.le_trans hcount (by omega : 1024 + 400 + 2 ≤ 2000)
      · simp only [Option.getD_some]
        omega

end Digits

/-- The text of a binary number is read as a decimal. -/
theorem exists_read?_render {number : Binary64} (h : number.IsProper) :
    ∃ decimal, Decimal.read? number.render.toList = some decimal := by
  cases number with
  | nan => exact ⟨_, rfl⟩
  | infinity negative => cases negative <;> exact ⟨_, rfl⟩
  | finite negative significand exponent =>
      have hzero : layout 0 0 = "0.0" := by decide
      obtain ⟨hsignificand, hlow, hhigh⟩ := h
      rw [render, String.toList_append]
      split
      · rw [← hzero]
        exact exists_read?_layout negative (by decide) (by decide)
      · obtain ⟨hcount, hlast⟩ := shortest_bounds hsignificand hlow hhigh
        exact exists_read?_layout negative hcount hlast

end Binary64

end TypedSql.Number
