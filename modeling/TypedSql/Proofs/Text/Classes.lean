import Mathlib.Data.List.TakeWhile
import TypedSql.Text.Classes

/-!
# Digits and blanks

No digit of any script is blank, so nothing is stripped from a text that starts and ends with one:
`strip_eq_self`. Blanks behind a text are stripped from it: `strip_append`.
-/

namespace TypedSql.Text

/-- No digit is blank. -/
theorem isBlank_of_isAsciiDigit {c : Char} (h : isAsciiDigit c = true) : isBlank c = false := by
  simp only [isAsciiDigit, Bool.and_eq_true, decide_eq_true_eq] at h
  have hlow : 48 ≤ c.toNat := h.1
  have hhigh : c.toNat ≤ 57 := h.2
  simp only [isBlank, Bool.or_eq_false_iff, Bool.and_eq_false_iff, decide_eq_false_iff_not,
    beq_eq_false_iff_ne]
  omega

namespace CodeRanges

/-- The set that a text describes is computed from its characters. -/
theorem ofText_ofList (chars : List Char) : ofText (String.ofList chars) = ofChars chars := by
  rw [ofText, String.toList_ofList]

theorem mem_of_rangeOf? {ranges : CodeRanges} {code : Nat} {range : Nat × Nat}
    (h : ranges.rangeOf? code = some range) :
    range ∈ ranges ∧ range.1 ≤ code ∧ code ≤ range.2 := by
  refine ⟨List.mem_of_find?_eq_some h, ?_⟩
  simpa using List.find?_some h

end CodeRanges

set_option maxRecDepth 4000 in
/-- The digits beyond ASCII stand between the blanks beyond ASCII. -/
theorem decimalDigits_between_blanks : (decimalDigits.all fun range =>
    0xa0 < range.1 && range.2 < 0x1680 || 0x1680 < range.1 && range.2 < 0x2000 ||
      0x3000 < range.1) = true := by
  have hchars : decimalDigits = CodeRanges.ofChars _ := CodeRanges.ofText_ofList _
  rw [hchars]
  decide +kernel

/-- No digit of any script is blank. -/
theorem isBlank_of_isDecimalDigit {c : Char} (h : isDecimalDigit c = true) :
    isBlank c = false := by
  by_cases hascii : isAsciiDigit c = true
  · exact isBlank_of_isAsciiDigit hascii
  obtain ⟨range, hrange⟩ : ∃ range, decimalDigits.rangeOf? c.toNat = some range := by
    simp only [isAsciiDigit, Bool.and_eq_true, decide_eq_true_eq] at hascii
    simp only [isDecimalDigit, decimalDigit?, if_neg hascii] at h
    split at h
    · cases h
    · rwa [Option.isSome_map, Option.isSome_iff_exists] at h
  obtain ⟨hmem, hfirst, hlast⟩ := CodeRanges.mem_of_rangeOf? hrange
  have hbetween := List.all_eq_true.1 decimalDigits_between_blanks range hmem
  simp only [Bool.or_eq_true, Bool.and_eq_true, decide_eq_true_eq] at hbetween
  simp only [isBlank, Bool.or_eq_false_iff, Bool.and_eq_false_iff, decide_eq_false_iff_not,
    beq_eq_false_iff_ne]
  omega

/-- Nothing is stripped from a text between characters that stay. -/
theorem strip_eq_self {isOuter : Char → Bool} {text : List Char}
    (hfirst : ∀ c, text.head? = some c → isOuter c = false)
    (hlast : ∀ c, text.getLast? = some c → isOuter c = false) : strip isOuter text = text := by
  have hdrop : ∀ {chars : List Char}, (∀ c, chars.head? = some c → isOuter c = false) →
      chars.dropWhile isOuter = chars := by
    intro chars hchars
    cases chars with
    | nil => rfl
    | cons c others =>
        exact List.dropWhile_cons_of_neg (by rw [hchars c rfl]; exact Bool.false_ne_true)
  rw [strip, hdrop hfirst, hdrop (by rwa [List.head?_reverse]), List.reverse_reverse]

/-- What is stripped off a text may stand behind it. -/
theorem strip_append {isOuter : Char → Bool} {text rest : List Char}
    (h : ∀ c ∈ rest, isOuter c = true) : strip isOuter (text ++ rest) = strip isOuter text := by
  rw [strip, strip, List.dropWhile_append]
  split
  · next hempty => rw [List.isEmpty_iff.1 hempty, List.dropWhile_eq_nil_iff.2 h]
  · rw [List.reverse_append, List.dropWhile_append_of_pos]
    intro c hc
    exact h c (List.mem_reverse.1 hc)

/-- The worth of an ASCII digit among those of all scripts is that of the digit. -/
theorem decimalDigit?_of_isAsciiDigit {c : Char} (h : isAsciiDigit c = true) :
    decimalDigit? c = some (c.toNat - '0'.toNat) := by
  simp only [isAsciiDigit, Bool.and_eq_true, decide_eq_true_eq] at h
  rw [decimalDigit?, if_pos h]

/-- ASCII digits are among the digits of all scripts. -/
theorem isDecimalDigit_of_isAsciiDigit {c : Char} (h : isAsciiDigit c = true) :
    isDecimalDigit c = true := by
  rw [isDecimalDigit, decimalDigit?_of_isAsciiDigit h]
  rfl

end TypedSql.Text
