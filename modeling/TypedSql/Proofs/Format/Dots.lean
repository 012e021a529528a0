import TypedSql.Proofs.Format.Whole
import TypedSql.Proofs.Number.Numeral

/-!
# Dotted quads

The format of an address of 32 bits is checked in two steps. A pattern asks for four groups of one
to three digits between dots; then the number of every piece between dots must not be above 255.
The pattern takes digits of any script and lets one line break stand at the end, and the reader of
numbers passes both. So the texts with the format are the quads in digits of any script with one
line break behind them or none: `isIpv4_iff`. `isIpv4_decides_quads` is the main statement; it also
says which of these texts are the quads in ASCII digits.
-/

namespace TypedSql.Format

open TypedSql.Text TypedSql.Number Pattern

/-- Whether a text is four parts with single dots between them. -/
def IsQuad (IsPart : List Char → Prop) (text : List Char) : Prop :=
  ∃ parts : List (List Char), parts.length = 4 ∧ (∀ part ∈ parts, IsPart part) ∧
    text = ['.'].intercalate parts

/-- Whether a word is one to three decimal digits of any script. -/
def IsDigits (word : List Char) : Prop :=
  (1 ≤ word.length ∧ word.length ≤ 3) ∧ ∀ c ∈ word, isDecimalDigit c = true

/-- Whether a word is a number up to 255 in one to three decimal digits of any script. -/
def IsScriptByte (word : List Char) : Prop := IsDigits word ∧ ofScripts word ≤ 255

/-- Whether a word is a number up to 255 in one to three ASCII digits. -/
def IsByte (word : List Char) : Prop :=
  (1 ≤ word.length ∧ word.length ≤ 3) ∧ (∀ c ∈ word, isAsciiDigit c = true) ∧
    Decimal.ofAscii word ≤ 255

variable {word text rest : List Char} {parts : List (List Char)}

theorem IsDigits.ne_nil (h : IsDigits word) : word ≠ [] := List.ne_nil_of_length_pos h.1.1

theorem ne_dot_of_isDecimalDigit {c : Char} (h : isDecimalDigit c = true) : c ≠ '.' := by
  rintro rfl
  exact absurd h (by decide)

theorem IsDigits.dot_not_mem (h : IsDigits word) : '.' ∉ word := fun hdot =>
  ne_dot_of_isDecimalDigit (h.2 '.' hdot) rfl

/-- The numbers in ASCII digits are those in digits of any script without other digits. -/
theorem isByte_iff : IsByte word ↔ IsScriptByte word ∧ ∀ c ∈ word, isAsciiDigit c = true := by
  constructor
  · intro ⟨hlength, hdigits, hbound⟩
    refine ⟨⟨⟨hlength, fun c hc => isDecimalDigit_of_isAsciiDigit (hdigits c hc)⟩, ?_⟩, hdigits⟩
    rwa [ofScripts_eq_ofAscii hdigits]
  · intro ⟨⟨⟨hlength, _⟩, hbound⟩, hdigits⟩
    exact ⟨hlength, hdigits, by rwa [ofScripts_eq_ofAscii hdigits] at hbound⟩

section Pattern

/-- The pattern of one to three digits. -/
theorem spells_digits_iff : (between 1 3 (char false [.digit false])).Spells word ↔
    IsDigits word := by
  rw [between, spells_repeated_char_iff]
  simp only [IsDigits, Option.some.injEq, forall_eq', Nat.max_eq_right (show 1 ≤ 3 by decide),
    List.any_cons, List.any_nil, Bool.or_false, CharItem.contains, Bool.bne_false]

/-- The pattern of a whole address admits four groups of digits between dots, with one line break
behind them or none. -/
theorem startsIn_dotted_iff : dotted.startsIn text = true ↔
    ∃ quad rest, text = quad ++ rest ∧ (rest = [] ∨ rest = ['\n']) ∧ IsQuad IsDigits quad := by
  have hmarked : ∀ word : List Char,
      (sequence [between 1 3 (char false [.digit false]), single '.']).Spells word ↔
        ∃ part, (between 1 3 (char false [.digit false])).Spells part ∧ word = part ++ ['.'] := by
    intro word
    simp only [spells_pair_iff, spells_single_iff]
    constructor
    · intro ⟨part, _, hword, hpart, hdot⟩
      exact ⟨part, hpart, hdot ▸ hword⟩
    · intro ⟨part, hpart, hword⟩
      exact ⟨part, ['.'], hword, hpart, rfl⟩
  rw [dotted, startsIn_whole_iff rfl]
  simp only [spells_separated_iff hmarked, spells_digits_iff, IsQuad]

end Pattern

section Pieces

/-- What stands behind the last part of a text between marks stays with the last piece. -/
theorem splitOn_intercalate_append {mark : Char} {front : List (List Char)} {last : List Char}
    (hparts : ∀ part ∈ front ++ [last], mark ∉ part) (hrest : mark ∉ rest) :
    splitOn mark ([mark].intercalate (front ++ [last]) ++ rest) = front ++ [last ++ rest] := by
  obtain ⟨hfront, hlast⟩ := List.forall_mem_append.1 hparts
  have hpieces : ∀ piece ∈ front ++ [last ++ rest], mark ∉ piece := by
    refine List.forall_mem_append.2 ⟨hfront, List.forall_mem_singleton.2 fun hmem => ?_⟩
    exact (List.mem_append.1 hmem).elim (hlast last List.mem_cons_self) hrest
  rw [← flatMap_append_mark, List.append_assoc, flatMap_append_mark, splitOn_eq,
    List.splitOn_intercalate mark hpieces (List.append_ne_nil_of_right_ne_nil _ (by simp))]

/-- A piece of digits has a number, and blanks behind it do not change the number. -/
theorem any_readInt?_eq (hword : IsDigits word) (hrest : ∀ c ∈ rest, isSpace c = true) :
    ((readInt? (word ++ rest)).any fun number => number ≤ 255) =
      decide (ofScripts word ≤ 255) := by
  have hlength : word.length ≤ maxDigits := Nat.le_trans hword.1.2 (by decide)
  rw [readInt?_digits hword.ne_nil hlength hword.2 hrest, Option.any_some]
  exact decide_eq_decide.2 Int.ofNat_le

/-- The numbers of the pieces are those of the parts, though a line break stays with the last. -/
theorem all_pieces_iff (hne : parts ≠ []) (hparts : ∀ part ∈ parts, IsDigits part)
    (hrest : rest = [] ∨ rest = ['\n']) :
    ((splitOn '.' (['.'].intercalate parts ++ rest)).all fun piece =>
        (readInt? piece).any fun number => number ≤ 255) = true ↔
      ∀ part ∈ parts, ofScripts part ≤ 255 := by
  -- only the last piece can have something behind its digits
  obtain ⟨front, last, rfl⟩ := (List.eq_nil_or_concat' parts).resolve_left hne
  have hdot : '.' ∉ rest := by
    rcases hrest with rfl | rfl <;> decide
  have hblank : ∀ c ∈ rest, isSpace c = true := by
    rcases hrest with rfl | rfl
    · exact List.forall_mem_nil _
    · exact List.forall_mem_singleton.2 rfl
  have hread : ∀ part ∈ front,
      ((readInt? part).any fun number => number ≤ 255) = decide (ofScripts part ≤ 255) := by
    intro part hpart
    have h := any_readInt?_eq (hparts part (List.mem_append_left _ hpart))
      (List.forall_mem_nil fun c => isSpace c = true)
    rwa [List.append_nil] at h
  have hlast := any_readInt?_eq (hparts last (List.mem_append_right _ List.mem_cons_self)) hblank
  rw [splitOn_intercalate_append (fun part hpart => (hparts part hpart).dot_not_mem) hdot,
    List.all_append, Bool.and_eq_true, List.forall_mem_append, List.all_eq_true,
    List.forall_mem_singleton]
  refine and_congr (forall₂_congr fun part hpart => ?_) ?_
  · rw [hread part hpart, decide_eq_true_eq]
  · rw [List.all_cons, List.all_nil, Bool.and_true, hlast, decide_eq_true_eq]

end Pieces

/-- A text has the format exactly if it is a quad in digits of any script, with one line break
behind it or none. -/
theorem isIpv4_iff {text : String} : isIpv4 text = true ↔
    ∃ quad rest, text.toList = quad ++ rest ∧ (rest = [] ∨ rest = ['\n']) ∧
      IsQuad IsScriptByte quad := by
  rw [isIpv4, Bool.and_eq_true, startsIn_dotted_iff]
  have hne : ∀ parts : List (List Char), parts.length = 4 → parts ≠ [] := by
    rintro _ hlength rfl
    cases hlength
  constructor
  · intro ⟨⟨quad, rest, htext, hrest, parts, hlength, hparts, hquad⟩, hall⟩
    rw [htext, hquad, all_pieces_iff (hne parts hlength) hparts hrest] at hall
    exact ⟨quad, rest, htext, hrest, parts, hlength,
      fun part hpart => ⟨hparts part hpart, hall part hpart⟩, hquad⟩
  · intro ⟨quad, rest, htext, hrest, parts, hlength, hparts, hquad⟩
    have hdigits : ∀ part ∈ parts, IsDigits part := fun part hpart => (hparts part hpart).1
    refine ⟨⟨quad, rest, htext, hrest, parts, hlength, hdigits, hquad⟩, ?_⟩
    rw [htext, hquad, all_pieces_iff (hne parts hlength) hdigits hrest]
    exact fun part hpart => (hparts part hpart).2

/-- The quads in ASCII digits are those in digits of any script without other digits. -/
theorem isQuad_isByte_iff : IsQuad IsByte text ↔ IsQuad IsScriptByte text ∧
    ∀ c ∈ text, isDecimalDigit c = true → isAsciiDigit c = true := by
  constructor
  · intro ⟨parts, hlength, hparts, htext⟩
    refine ⟨⟨parts, hlength, fun part hpart => (isByte_iff.1 (hparts part hpart)).1, htext⟩, ?_⟩
    intro c hc hdigit
    rw [htext, mem_intercalate_mark_iff (ne_dot_of_isDecimalDigit hdigit)] at hc
    obtain ⟨part, hpart, hc⟩ := hc
    exact (hparts part hpart).2.1 c hc
  · intro ⟨⟨parts, hlength, hparts, htext⟩, hdigits⟩
    refine ⟨parts, hlength, fun part hpart => isByte_iff.2 ⟨hparts part hpart, ?_⟩, htext⟩
    intro c hc
    have hdigit := (hparts part hpart).1.2 c hc
    refine hdigits c ?_ hdigit
    rw [htext, mem_intercalate_mark_iff (ne_dot_of_isDecimalDigit hdigit)]
    exact ⟨part, hpart, hc⟩

/-- A quad has no line break. -/
theorem IsQuad.line_break_not_mem (h : IsQuad IsScriptByte text) : '\n' ∉ text := by
  obtain ⟨parts, -, hparts, rfl⟩ := h
  rw [mem_intercalate_mark_iff (by decide)]
  intro ⟨part, hpart, hbreak⟩
  exact absurd ((hparts part hpart).1.2 '\n' hbreak) (by decide)

/-- The texts with the format of an address of 32 bits are the quads of numbers up to 255 in one to
three decimal digits of any script, with one line break behind them or none. Among them those
without a line break and without digits of other scripts are the quads in ASCII digits. -/
theorem isIpv4_decides_quads (text : String) :
    (isIpv4 text = true ↔ ∃ quad rest, text.toList = quad ++ rest ∧ (rest = [] ∨ rest = ['\n']) ∧
      IsQuad IsScriptByte quad) ∧
    (IsQuad IsByte text.toList ↔ isIpv4 text = true ∧ '\n' ∉ text.toList ∧
      ∀ c ∈ text.toList, isDecimalDigit c = true → isAsciiDigit c = true) := by
  refine ⟨isIpv4_iff, ?_⟩
  rw [isQuad_isByte_iff, ← and_assoc]
  refine and_congr_left fun _ => ?_
  rw [isIpv4_iff]
  constructor
  · intro hquad
    exact ⟨⟨text.toList, [], (List.append_nil _).symm, .inl rfl, hquad⟩, hquad.line_break_not_mem⟩
  · intro ⟨⟨quad, rest, htext, hrest, hquad⟩, hbreak⟩
    rcases hrest with rfl | rfl
    · rwa [htext, List.append_nil]
    · exact absurd (htext ▸ List.mem_append_right quad List.mem_cons_self) hbreak

set_option maxRecDepth 4000 in
/-- The digit one of the Arabic script. -/
theorem decimalDigit?_arabic_one : decimalDigit? '١' = some 1 := by
  -- the table is given by its text, which computes only as a list of characters
  have hchars : decimalDigits = CodeRanges.ofChars _ := CodeRanges.ofText_ofList _
  rw [decimalDigit?, hchars]
  decide +kernel

/-- A line break behind a quad passes, and so does a digit of another script. -/
theorem line_break_and_other_digits_pass :
    (isIpv4 "1.2.3.4\n" = true ∧ ¬IsQuad IsByte "1.2.3.4\n".toList) ∧
      isIpv4 "١.2.3.4" = true ∧ ¬IsQuad IsByte "١.2.3.4".toList := by
  have harabic : isDecimalDigit '١' = true := by rw [isDecimalDigit, decimalDigit?_arabic_one]; rfl
  refine ⟨⟨by decide, fun h => ?_⟩, isIpv4_iff.2 ?_, fun h => ?_⟩
  · exact absurd (isQuad_isByte_iff.1 h).1.line_break_not_mem (by decide)
  · refine ⟨_, [], (List.append_nil _).symm, .inl rfl, [['١'], ['2'], ['3'], ['4']], rfl, ?_,
      by decide⟩
    have hsingle : ∀ c, isDecimalDigit c = true → ofScripts [c] ≤ 255 → IsScriptByte [c] :=
      fun c hdigit hbound => ⟨⟨by simp, List.forall_mem_singleton.2 hdigit⟩, hbound⟩
    have hone : ofScripts ['١'] = 1 := by
      simp [ofScripts, ofDigits, decimalDigit?_arabic_one]
    simp only [List.forall_mem_cons]
    exact ⟨hsingle '١' harabic (by rw [hone]; decide), hsingle '2' (by decide) (by decide),
      hsingle '3' (by decide) (by decide), hsingle '4' (by decide) (by decide),
      List.forall_mem_nil _⟩
  · exact absurd ((isQuad_isByte_iff.1 h).2 '١' (by decide) harabic) (by decide)

end TypedSql.Format
