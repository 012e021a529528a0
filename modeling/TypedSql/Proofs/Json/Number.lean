import TypedSql.Proofs.Json.Text
import TypedSql.Proofs.Number.Numeral

/-!
# JSON scalars

Words and whole numbers are read back from the texts they are written as. A numeral goes on as long
as digits, places or an exponent follow it, so it is read whole where a value may end:
`readScalar_whole`.
-/

namespace TypedSql.Json

open TypedSql.Text TypedSql.Number

variable {rest : List Char}

/-- What may stand behind a value: nothing, a comma or a closing bracket or brace. -/
def EndsValue (rest : List Char) : Prop :=
  ∀ c, rest.head? = some c → c = ',' ∨ c = ']' ∨ c = '\x7d'

theorem endsValue_nil : EndsValue [] := by
  intro c hc
  cases hc

theorem endsValue_cons {c : Char} (h : c = ',' ∨ c = ']' ∨ c = '\x7d') (rest : List Char) :
    EndsValue (c :: rest) := by
  intro other hother
  cases hother
  exact h

/-- The digits of a number are read up to the end of the value. -/
theorem wholeDigits_toDigits (n : Nat) (h : EndsValue rest) :
    wholeDigits (Nat.toDigits 10 n ++ rest) = Nat.toDigits 10 n := by
  by_cases hzero : n = 0
  · subst hzero
    rfl
  · have hfirst : ∀ others, Nat.toDigits 10 n ++ rest ≠ '0' :: others := by
      intro others hdigits
      obtain ⟨first, remaining, hn⟩ :=
        List.exists_cons_of_ne_nil (Nat.toDigits_ne_nil (n := n) (b := 10))
      rw [hn, List.cons_append, List.cons.injEq] at hdigits
      exact head_toDigits_ne hzero remaining (by rw [hn, hdigits.1])
    have hrest : rest.takeWhile isAsciiDigit = [] := by
      cases rest with
      | nil => rfl
      | cons c others =>
          rcases h c rfl with rfl | rfl | rfl <;> rfl
    unfold wholeDigits
    split
    · next others hdigits => exact absurd hdigits (hfirst others)
    · rw [List.takeWhile_append_of_pos fun c hc => isAsciiDigit_of_mem_toDigits hc, hrest,
        List.append_nil]

/-- Neither places nor an exponent stand at the end of a value. -/
theorem no_fraction_of_endsValue (h : EndsValue rest) :
    placesOf rest = [] ∧ exponentOf rest = [] := by
  cases rest with
  | nil => exact ⟨rfl, rfl⟩
  | cons c others =>
      rcases h c rfl with rfl | rfl | rfl <;> exact ⟨rfl, rfl⟩

/-- The digits of a number are read as the number with the sign before them. -/
theorem readNumber_toDigits (negative : Bool) {n : Nat} (hn : digitCount n ≤ maxDigits)
    (h : EndsValue rest) :
    readNumber negative (Nat.toDigits 10 n ++ rest) = .ok (.int (signed negative n), rest) := by
  obtain ⟨hplaces, hexponent⟩ := no_fraction_of_endsValue h
  have hlength : (Nat.toDigits 10 n).length ≤ maxDigits := hn
  have hsome : (Nat.toDigits 10 n).isEmpty = false :=
    List.isEmpty_eq_false_iff.2 Nat.toDigits_ne_nil
  simp [readNumber, wholeDigits_toDigits n h, hplaces, hexponent, hlength, hsome, ofAscii_toDigits]

/-- A text that starts with a digit, also behind a minus, starts with no word. -/
theorem readWord?_of_isAsciiDigit {c : Char} (h : isAsciiDigit c = true) (rest : List Char) :
    readWord? (c :: rest) = none ∧ readWord? ('-' :: c :: rest) = none := by
  have hne : ∀ other : Char, isAsciiDigit other = false → other ≠ c := by
    intro other hother hsame
    rw [hsame, h] at hother
    cases hother
  have hn := hne 'n' rfl
  have ht := hne 't' rfl
  have hf := hne 'f' rfl
  have hN := hne 'N' rfl
  have hI := hne 'I' rfl
  have hm := hne '-' rfl
  constructor <;> simp [readWord?, words, List.isPrefixOf, hn, ht, hf, hN, hI, hm]

/-- The digits of a number, with their first one in sight. -/
theorem exists_cons_toDigits (n : Nat) :
    ∃ first others, Nat.toDigits 10 n = first :: others ∧ isAsciiDigit first = true := by
  obtain ⟨first, others, hdigits⟩ :=
    List.exists_cons_of_ne_nil (Nat.toDigits_ne_nil (n := n) (b := 10))
  have hmem : first ∈ Nat.toDigits 10 n := by
    rw [hdigits]
    exact List.mem_cons_self
  exact ⟨first, others, hdigits, isAsciiDigit_of_mem_toDigits hmem⟩

/-- A whole number that has a text is read back from it. -/
theorem readScalar_whole {number : Int} (h : hasNumeral number = true) (hrest : EndsValue rest) :
    readScalar ((toString number).toList ++ rest) = .ok (.int number, rest) := by
  obtain ⟨first, others, hdigits, hfirst⟩ := exists_cons_toDigits number.natAbs
  obtain ⟨hword, hminusWord⟩ := readWord?_of_isAsciiDigit hfirst (others ++ rest)
  have hread := fun negative => readNumber_toDigits negative (hasNumeral_iff.1 h) hrest
  rw [hdigits, List.cons_append] at hread
  rw [toList_toString_int, hdigits]
  by_cases hsign : number < 0
  · have hvalue : signed true number.natAbs = number := by
      rw [signed, if_pos rfl]
      omega
    rw [if_pos hsign]
    show readScalar ('-' :: first :: (others ++ rest)) = _
    rw [readScalar, hminusWord]
    show readNumber true (first :: (others ++ rest)) = _
    rw [hread, hvalue]
  · have hvalue : signed false number.natAbs = number := by
      rw [signed, if_neg Bool.false_ne_true]
      omega
    have hminus : first ≠ '-' := by
      intro hsame
      rw [hsame] at hfirst
      cases hfirst
    rw [if_neg hsign]
    show readScalar (first :: (others ++ rest)) = _
    rw [readScalar, hword]
    · show readNumber false (first :: (others ++ rest)) = _
      rw [hread, hvalue]
    · intro _ hcons
      exact hminus (List.cons.inj hcons).1

/-- Null is read back from its word. -/
theorem readScalar_null (rest : List Char) :
    readScalar ("null".toList ++ rest) = .ok (.null, rest) := by
  have hlength : "null".length = 4 := rfl
  simp [readScalar, readWord?, words, List.isPrefixOf, hlength]

/-- A flag is read back from its word. -/
theorem readScalar_flagText (flag : Bool) (rest : List Char) :
    readScalar ((flagText flag).toList ++ rest) = .ok (.bool flag, rest) := by
  have htrue : "true".length = 4 := rfl
  have hfalse : "false".length = 5 := rfl
  cases flag with
  | true => simp [flagText, readScalar, readWord?, words, List.isPrefixOf, htrue]
  | false => simp [flagText, readScalar, readWord?, words, List.isPrefixOf, hfalse]

end TypedSql.Json
