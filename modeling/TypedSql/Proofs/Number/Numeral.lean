import Mathlib.Data.Nat.Digits.Defs
import TypedSql.Number.Decimal
import TypedSql.Proofs.Identifier.Grammar
import TypedSql.Proofs.Text.Classes

/-!
# Decimal digits

The digits of a natural number as they are written: ASCII digits without a zero in front, which
denote the number again. `ofAscii_toDigits` and `ofAscii_padded` read them back, without and with
zeros up to a width. Digits of any script that may have blanks behind them are read as the number
that they denote: `readInt?_digits`.
-/

namespace TypedSql.Number

open TypedSql.Text

/-- The number that ASCII digits denote, as the library reads it. -/
theorem ofAscii_eq_ofDigitChars (digits : List Char) :
    Decimal.ofAscii digits = Nat.ofDigitChars 10 digits 0 := by
  rw [Decimal.ofAscii, ofDigits, List.foldl_map, Nat.ofDigitChars_eq_foldl]

/-- The digits of a number denote it. -/
theorem ofAscii_toDigits (n : Nat) : Decimal.ofAscii (Nat.toDigits 10 n) = n := by
  rw [ofAscii_eq_ofDigitChars, Nat.ofDigitChars_ten_toDigits]

/-- The digits of a number are ASCII digits. -/
theorem isAsciiDigit_of_mem_toDigits {n : Nat} {c : Char} (h : c ∈ Nat.toDigits 10 n) :
    isAsciiDigit c = true := by
  rw [Identifier.isAsciiDigit_eq_isDigit]
  exact Nat.isDigit_of_mem_toDigits (by omega) (by omega) h

/-- Only zero has a zero in front. -/
theorem head_toDigits_ne {n : Nat} (h : n ≠ 0) (rest : List Char) :
    Nat.toDigits 10 n ≠ '0' :: rest := by
  induction n using Nat.strongRecOn generalizing rest with
  | ind n ih =>
      rw [Nat.toDigits_eq_if (by omega)]
      split
      · next hsmall =>
          intro hdigit
          have hzero : Nat.digitChar n = '0' := (List.cons.inj hdigit).1
          rw [Nat.digitChar_eq_zero] at hzero
          exact h hzero
      · next hlarge =>
          obtain ⟨first, others, hdigits⟩ :=
            List.exists_cons_of_ne_nil (Nat.toDigits_ne_nil (n := n / 10) (b := 10))
          rw [hdigits, List.cons_append]
          intro hfirst
          refine ih (n / 10) (by omega) (by omega) others ?_
          rw [hdigits, (List.cons.inj hfirst).1]

/-- So many digits are enough exactly for the numbers below the power of ten. -/
theorem digitCount_le_iff {n count : Nat} (h : 0 < count) :
    digitCount n ≤ count ↔ n < 10 ^ count :=
  Nat.length_toDigits_le_iff (by omega) h

theorem lt_tenTo_iff {n count : Nat} : n < tenTo count ↔ n < 10 ^ count := Iff.rfl

/-- The least number of one digit too many has no numeral. -/
theorem hasNumeral_tenTo_maxDigits : hasNumeral (tenTo maxDigits : Nat) = false := by
  rw [hasNumeral, Int.natAbs_natCast]
  exact decide_eq_false (Nat.lt_irrefl _)

/-- A whole number has a numeral exactly if it has no more digits than numerals may have. -/
theorem hasNumeral_iff {number : Int} :
    hasNumeral number = true ↔ digitCount number.natAbs ≤ maxDigits := by
  rw [digitCount_le_iff (by decide), hasNumeral, decide_eq_true_iff, lt_tenTo_iff]

/-- A whole number is written as its digits, behind a minus if it is negative. -/
theorem toList_toString_int (number : Int) :
    (toString number).toList =
      (if number < 0 then ['-'] else []) ++ Nat.toDigits 10 number.natAbs := by
  cases number with
  | ofNat natural =>
      have hsign : ¬Int.ofNat natural < 0 := Int.not_lt.2 (Int.natCast_nonneg natural)
      rw [if_neg hsign]
      exact Nat.toList_repr
  | negSucc natural =>
      have htext : toString (Int.negSucc natural) = "-" ++ (natural + 1).repr := rfl
      rw [if_pos (Int.negSucc_lt_zero natural), htext, String.toList_append, Nat.toList_repr]
      rfl

/-- Digits that fit into a width fill it. -/
theorem length_padded {width n : Nat} (h : digitCount n ≤ width) :
    (padded width n).length = width := by
  have hdigits : (Nat.toDigits 10 n).length ≤ width := h
  simp only [padded, List.length_append, List.length_replicate]
  omega

/-- The digits of a number denote it, whatever width they fill. -/
theorem ofAscii_padded (width n : Nat) : Decimal.ofAscii (padded width n) = n := by
  rw [ofAscii_eq_ofDigitChars, padded, Nat.ofDigitChars_append, Nat.ofDigitChars_replicate_zero,
    Nat.mul_zero, Nat.ofDigitChars_ten_toDigits]

/-- Filled up digits are ASCII digits. -/
theorem isAsciiDigit_of_mem_padded {width n : Nat} {c : Char} (h : c ∈ padded width n) :
    isAsciiDigit c = true := by
  rcases List.mem_append.1 h with hzero | hdigit
  · rw [List.eq_of_mem_replicate hzero]
    rfl
  · exact isAsciiDigit_of_mem_toDigits hdigit

/-- The number that decimal digits of any script denote. -/
def ofScripts (digits : List Char) : Nat :=
  ofDigits (digits.map fun c => (decimalDigit? c).getD 0)

section Reading

variable {digits rest : List Char}

/-- ASCII digits denote the same number among the digits of all scripts. -/
theorem ofScripts_eq_ofAscii (h : ∀ c ∈ digits, isAsciiDigit c = true) :
    ofScripts digits = Decimal.ofAscii digits := by
  have hworths : ∀ c ∈ digits, (decimalDigit? c).getD 0 = c.toNat - '0'.toNat := fun c hc =>
    congrArg (·.getD 0) (decimalDigit?_of_isAsciiDigit (h c hc))
  rw [ofScripts, List.map_congr_left hworths, Decimal.ofAscii]

/-- A run of digits without underscores is read digit by digit. -/
theorem digitRun?_digits (hne : digits ≠ []) (h : ∀ c ∈ digits, isDecimalDigit c = true) :
    digitRun? digits = some (digits.map fun c => (decimalDigit? c).getD 0) := by
  have hworth : ∀ c, isDecimalDigit c = true →
      decimalDigit? c = some ((decimalDigit? c).getD 0) := fun c hc => by
    obtain ⟨worth, hsome⟩ := Option.isSome_iff_exists.1 hc
    rw [hsome, Option.getD_some]
  induction digits using digitRun?.induct with
  | case1 => exact absurd rfl hne
  | case2 c =>
      rw [digitRun?, hworth c (h c List.mem_cons_self)]
      rfl
  | case3 c rest =>
      have hmark := h '_' (List.mem_cons_of_mem c List.mem_cons_self)
      exact absurd hmark (by decide)
  | case4 c rest hmore hmark ih =>
      obtain ⟨hc, hrest⟩ := List.forall_mem_cons.1 h
      rw [digitRun?, hworth c hc, ih hmore hrest]
      · rfl
      · exact hmore
      · exact hmark

/-- Digits of any script are read as the number that they denote, whatever blanks stand behind. -/
theorem readInt?_digits (hne : digits ≠ []) (hlength : digits.length ≤ maxDigits)
    (h : ∀ c ∈ digits, isDecimalDigit c = true) (hrest : ∀ c ∈ rest, isSpace c = true) :
    readInt? (digits ++ rest) = some (ofScripts digits : Int) := by
  -- neither the strip of blanks nor the sign takes anything from the digits
  have hsolid : ∀ c ∈ digits, isSpace c = false := fun c hc => by
    rw [isSpace, isBlank_of_isDecimalDigit (h c hc), Bool.false_and]
  have htrim : trimSpace (digits ++ rest) = digits := by
    rw [trimSpace, strip_append hrest]
    exact strip_eq_self (fun c hc => hsolid c (List.mem_of_head? hc))
      (fun c hc => hsolid c (List.mem_of_getLast? hc))
  have hsign : splitSign digits = (false, digits) := by
    unfold splitSign
    split
    · exact absurd (h '-' List.mem_cons_self) (by decide)
    · exact absurd (h '+' List.mem_cons_self) (by decide)
    · rfl
  have hread : readNat? digits = some (ofScripts digits) := by
    rw [readNat?, digitRun?_digits hne h]
    exact if_pos (by rwa [List.length_map])
  simp only [readInt?, htrim, hsign, hread]
  rfl

end Reading

end TypedSql.Number
