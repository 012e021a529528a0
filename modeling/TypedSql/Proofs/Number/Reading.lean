import TypedSql.Proofs.Number.Numeral
import TypedSql.Proofs.Text.Classes

/-!
# Numerals that are read as decimals

A numeral is digits, perhaps a point with further digits, and perhaps an exponent behind `e`. It is
read as a decimal wherever its exponents are within the limits: `exists_read?`.
-/

namespace TypedSql.Number.Decimal

open TypedSql.Text

section Characters

variable {text : List Char}

/-- The characters that numerals are made of. -/
def isNumeralChar (c : Char) : Bool := isAsciiDigit c || ['.', 'e', '+', '-'].contains c

/-- A numeral is all digits of the first script already. -/
theorem plain_eq_self (h : ∀ c ∈ text, isNumeralChar c = true) : plain text = text := by
  have hfilter : text.filter (· ≠ '_') = text := by
    rw [List.filter_eq_self]
    intro c hc
    rw [decide_eq_true_iff]
    rintro rfl
    exact absurd (h '_' hc) (by decide)
  rw [plain, hfilter]
  refine (List.map_congr_left fun c hc => ?_).trans (List.map_id text)
  have hchar := h c hc
  rw [isNumeralChar, Bool.or_eq_true] at hchar
  rcases hchar with hdigit | hmark
  · have hlow : 48 ≤ c.toNat := by
      simp only [isAsciiDigit, Bool.and_eq_true, decide_eq_true_eq] at hdigit
      exact hdigit.1
    rw [decimalDigit?_of_isAsciiDigit hdigit]
    simp only [show '0'.toNat = 48 from rfl, Nat.add_sub_cancel' hlow, Char.ofNat_toNat, id_eq]
  · simp only [List.contains_iff_mem, List.mem_cons, List.not_mem_nil, or_false] at hmark
    rcases hmark with rfl | rfl | rfl | rfl <;> rfl

/-- Nothing is stripped from a numeral. -/
theorem trim_eq_self (h : ∀ c ∈ text, isNumeralChar c = true) : trim text = text := by
  have hblank : ∀ c ∈ text, isBlank c = false := by
    intro c hc
    have hchar := h c hc
    rw [isNumeralChar, Bool.or_eq_true] at hchar
    rcases hchar with hdigit | hmark
    · exact isBlank_of_isAsciiDigit hdigit
    · simp only [List.contains_iff_mem, List.mem_cons, List.not_mem_nil, or_false] at hmark
      rcases hmark with rfl | rfl | rfl | rfl <;> decide
  exact strip_eq_self (fun c hc => hblank c (List.mem_of_mem_head? hc))
    fun c hc => hblank c (List.mem_of_getLast? hc)

/-- Digits have no letter case. -/
theorem toLower_of_isAsciiDigit {c : Char} (h : isAsciiDigit c = true) : c.toLower = c := by
  simp only [isAsciiDigit, Bool.and_eq_true, decide_eq_true_eq] at h
  have hhigh : c.toNat ≤ 57 := h.2
  refine dif_neg fun hupper => ?_
  have hcapital : 65 ≤ c.toNat := hupper.1
  omega

end Characters

section Numerals

variable {whole places tail body : List Char}

/-- A numeral is read as its digits, and as many powers of ten below its exponent as it has places.
-/
theorem readNumeral?_eq (hwhole : whole ≠ [])
    (hdigits : ∀ c ∈ whole ++ places, isAsciiDigit c = true)
    (htail : ∀ c, tail.head? = some c → c = 'e') {fraction : List Char}
    (hfraction : fraction = [] ∧ places = [] ∨ fraction = '.' :: places) :
    readNumeral? (whole ++ (fraction ++ tail)) =
      (readExponent? tail).map fun exponent : Int =>
        (ofAscii (whole ++ places), exponent - places.length) := by
  have hfirst : ∀ c ∈ whole, isAsciiDigit c = true := fun c hc =>
    hdigits c (List.mem_append_left places hc)
  have hlast : ∀ c ∈ places, isAsciiDigit c = true := fun c hc =>
    hdigits c (List.mem_append_right whole hc)
  have hsome : whole.isEmpty = false := List.isEmpty_eq_false_iff.2 hwhole
  have hstop : ∀ {rest : List Char}, (∀ c, rest.head? = some c → c = 'e' ∨ c = '.') →
      rest.takeWhile isAsciiDigit = [] ∧ rest.dropWhile isAsciiDigit = rest := by
    intro rest hrest
    cases rest with
    | nil => exact ⟨rfl, rfl⟩
    | cons c others => rcases hrest c rfl with rfl | rfl <;> exact ⟨rfl, rfl⟩
  obtain ⟨htake, hdrop⟩ := hstop fun c hc => .inl (htail c hc)
  rcases hfraction with ⟨rfl, rfl⟩ | rfl
  · rw [List.nil_append, readNumeral?, List.takeWhile_append_of_pos hfirst,
      List.dropWhile_append_of_pos hfirst, htake, hdrop, List.append_nil]
    cases tail with
    | nil => simp [hsome]
    | cons c others =>
        cases htail c rfl
        simp [hsome]
  · have hplaces : ∀ c, ('.' :: places ++ tail).head? = some c → c = 'e' ∨ c = '.' := by simp
    obtain ⟨hpoint, hkept⟩ := hstop hplaces
    rw [readNumeral?, List.takeWhile_append_of_pos hfirst, List.dropWhile_append_of_pos hfirst,
      hpoint, hkept, List.append_nil]
    simp only [List.cons_append, List.takeWhile_append_of_pos hlast,
      List.dropWhile_append_of_pos hlast, htake, hdrop, List.append_nil, hsome, Bool.false_and,
      Bool.false_eq_true, if_false]

/-- A number has no more digits than it is written with. -/
theorem digitCount_ofAscii_le {digits : List Char} (h : digits ≠ [])
    (hdigits : ∀ c ∈ digits, isAsciiDigit c = true) :
    digitCount (ofAscii digits) ≤ digits.length := by
  rw [digitCount_le_iff (List.length_pos_iff.2 h), ofAscii_eq_ofDigitChars]
  clear h
  induction digits with
  | nil => exact Nat.one_pos
  | cons c rest ih =>
      have hrest := ih fun other hother => hdigits other (List.mem_cons_of_mem c hother)
      have hdigit := hdigits c List.mem_cons_self
      simp only [isAsciiDigit, Bool.and_eq_true, decide_eq_true_eq] at hdigit
      have hworth : c.toNat ≤ 57 := hdigit.2
      rw [Nat.ofDigitChars_cons, Nat.ofDigitChars_eq_ofDigitChars_zero, List.length_cons,
        Nat.pow_succ, Nat.mul_zero, Nat.zero_add]
      have hnine : c.toNat - '0'.toNat ≤ 9 := by
        simp only [show '0'.toNat = 48 from rfl]
        omega
      calc 10 ^ rest.length * (c.toNat - '0'.toNat) + Nat.ofDigitChars 10 rest 0
          < 10 ^ rest.length * 9 + 10 ^ rest.length :=
            Nat.add_lt_add_of_le_of_lt (Nat.mul_le_mul_left _ hnine) hrest
        _ = 10 ^ rest.length * 10 := by omega

/-- A numeral whose exponents are within the limits is read as a decimal, with or without a sign. -/
theorem exists_read? (negative : Bool) {coefficient : Nat} {exponent : Int}
    (hbody : readNumeral? body = some (coefficient, exponent))
    (hchars : ∀ c ∈ body, isNumeralChar c = true)
    (hfirst : ∀ c, body.head? = some c → isAsciiDigit c = true)
    (hlow : minExponent ≤ exponent) (hhigh : adjusted coefficient exponent ≤ maxAdjusted) :
    ∃ decimal, read? ((signText negative).toList ++ body) = some decimal := by
  have hsigned : ∀ c ∈ (signText negative).toList ++ body, isNumeralChar c = true := by
    intro c hc
    rcases List.mem_append.1 hc with hsign | hc
    · cases negative with
      | false => cases hsign
      | true =>
          cases List.mem_singleton.1 hsign
          decide
    · exact hchars c hc
  cases body with
  | nil => cases hbody
  | cons first rest =>
      have hne : ∀ other : Char, isAsciiDigit other = false → first ≠ other := by
        rintro other hother rfl
        rw [hfirst first rfl] at hother
        cases hother
      have hsplit : splitSign ((signText negative).toList ++ first :: rest) =
          (negative, first :: rest) := by
        cases negative with
        | true => rfl
        | false =>
            show splitSign (first :: rest) = _
            unfold splitSign
            split
            · next heq => exact absurd (List.cons.inj heq).1 (hne '-' rfl)
            · next heq => exact absurd (List.cons.inj heq).1 (hne '+' rfl)
            · rfl
      have hword : ∀ (chars : List Char) (word : String) (letter : Char) (letters : List Char),
          word.toList = letter :: letters → isAsciiDigit letter = false →
            isWord (first :: chars) word = false := by
        intro chars word letter letters hletters hletter
        rw [isWord, hletters, List.map_cons, toLower_of_isAsciiDigit (hfirst first rfl),
          List.cons_beq_cons, beq_false_of_ne (hne letter hletter), Bool.false_and]
      have hspecial : readNan? negative (first :: rest) = none := by
        rw [readNan?, List.take_succ_cons, List.take_succ_cons, hword _ _ _ _ rfl rfl,
          hword _ _ _ _ rfl rfl]
        rfl
      have hinside : minExponent ≤ exponent ∧
          (if coefficient = 0 then exponent else adjusted coefficient exponent) ≤ maxAdjusted := by
        have hsome : 0 < digitCount coefficient := List.length_pos_iff.2 Nat.toDigits_ne_nil
        have hle : exponent ≤ adjusted coefficient exponent := by
          rw [adjusted]
          omega
        refine ⟨hlow, ?_⟩
        split
        · exact Int.le_trans hle hhigh
        · exact hhigh
      refine ⟨.finite negative coefficient exponent, ?_⟩
      rw [read?, trim_eq_self hsigned, plain_eq_self hsigned, hsplit]
      simp only [hword _ "inf" _ _ rfl rfl, hword _ "infinity" _ _ rfl rfl, hspecial, hbody,
        bounded?, Bool.or_self, Bool.false_eq_true, if_false]
      exact if_pos hinside

end Numerals

end TypedSql.Number.Decimal
