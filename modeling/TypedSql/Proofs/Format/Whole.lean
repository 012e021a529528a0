import Mathlib.Data.List.Basic
import TypedSql.Format.Address
import TypedSql.Proofs.Text.Spelling

/-!
# Whole texts of a format

The words of the patterns that formats are put together from, parts between marks among them, and
the texts that a format of a whole text admits: a word of its pattern, with one line break behind it
or none, by `startsIn_whole_iff`.
-/

namespace TypedSql.Format

open TypedSql.Text Pattern

variable {pattern first second : Pattern} {patterns others : List Pattern} {word text : List Char}

theorem spells_pair_iff : (sequence [first, second]).Spells word ↔
    ∃ front back, word = front ++ back ∧ first.Spells front ∧ second.Spells back := by
  simp only [sequence, List.foldr_cons, List.foldr_nil, Spells]
  refine exists_congr fun front => exists_congr fun back => and_congr_right fun _ =>
    and_congr_right fun _ => ?_
  constructor
  · rintro ⟨last, _, rfl, hlast, rfl⟩
    rwa [List.append_nil]
  · intro hback
    exact ⟨back, [], (List.append_nil back).symm, hback, rfl⟩

/-- The words of alternatives are those of any of them. -/
theorem spells_oneOf_iff :
    (oneOf first others).Spells word ↔ ∃ pattern ∈ first :: others, pattern.Spells word := by
  induction others generalizing first with
  | nil => simp [oneOf]
  | cons second others ih =>
      rw [show oneOf first (second :: others) = oneOf (either first second) others from rfl, ih]
      simp only [List.mem_cons, or_and_right, exists_or, exists_eq_left, Spells, or_assoc]

/-- Each pattern of a sequence has a word inside those of the sequence. -/
theorem exists_word_of_sequence (hpattern : pattern ∈ patterns)
    (h : (sequence patterns).Spells word) : ∃ part, part ⊆ word ∧ pattern.Spells part := by
  induction patterns generalizing word with
  | nil => exact absurd hpattern List.not_mem_nil
  | cons first patterns ih =>
      obtain ⟨front, back, rfl, hfront, hback⟩ := h
      rcases List.mem_cons.1 hpattern with rfl | hpattern
      · exact ⟨front, List.subset_append_left front back, hfront⟩
      · obtain ⟨part, hpart, hspells⟩ := ih hpattern hback
        exact ⟨part, List.Subset.trans hpart (List.subset_append_right front back), hspells⟩

/-- A pattern that is repeated at least once has a word inside those of the repetition. -/
theorem exists_word_of_repeated {least : Nat} {most : Option Nat} (hleast : 0 < least)
    (h : (repeated pattern least most).Spells word) :
    ∃ part, part ⊆ word ∧ pattern.Spells part := by
  obtain ⟨words, ⟨hcount, -⟩, rfl, hwords⟩ := h
  obtain ⟨part, hpart⟩ := List.exists_mem_of_length_pos (Nat.lt_of_lt_of_le hleast hcount)
  exact ⟨part, fun c hc => List.mem_flatten.2 ⟨part, hpart, hc⟩, hwords part hpart⟩

/-- The words of a pattern repeated between two bounds, put together from parts of its words. -/
theorem spells_between_iff {Part : Type} {IsPart : Part → Prop} {form : Part → List Char}
    {least most : Nat} (hbounds : least ≤ most)
    (h : ∀ word, pattern.Spells word ↔ ∃ part, IsPart part ∧ word = form part) :
    (between least most pattern).Spells word ↔ ∃ parts : List Part,
      (least ≤ parts.length ∧ parts.length ≤ most) ∧ word = parts.flatMap form ∧
        ∀ part ∈ parts, IsPart part := by
  rw [between, spells_repeated_iff h]
  refine exists_congr fun parts => and_congr_left fun _ => and_congr_right fun _ => ?_
  simp only [Option.some.injEq, forall_eq', Nat.max_eq_right hbounds]

/-- Parts with a mark behind each and one more part are parts between marks. -/
theorem flatMap_append_mark (mark : Char) (parts : List (List Char)) (last : List Char) :
    parts.flatMap (· ++ [mark]) ++ last = [mark].intercalate (parts ++ [last]) := by
  induction parts with
  | nil => exact List.intercalate_singleton.symm
  | cons part parts ih =>
      have hne : parts ++ [last] ≠ [] := List.append_ne_nil_of_right_ne_nil parts (by simp)
      rw [List.flatMap_cons, List.append_assoc, ih, List.cons_append,
        List.intercalate_cons_of_ne_nil hne]

/-- Between marks stand the characters of the parts. -/
theorem mem_intercalate_mark_iff {mark c : Char} {parts : List (List Char)} (hmark : c ≠ mark) :
    c ∈ [mark].intercalate parts ↔ ∃ part ∈ parts, c ∈ part := by
  induction parts with
  | nil => simp
  | cons part parts ih =>
      cases parts with
      | nil => simp
      | cons next parts =>
          rw [List.intercalate_cons_cons, List.mem_append, ih, List.exists_mem_cons_iff]
          simp [hmark]

/-- The words of a number of patterns with a mark behind each and of one more without it. -/
theorem spells_separated_iff {marked : Pattern} {mark : Char} {count : Nat}
    (h : ∀ word, marked.Spells word ↔ ∃ part, pattern.Spells part ∧ word = part ++ [mark]) :
    (sequence [times count marked, pattern]).Spells word ↔
      ∃ parts : List (List Char), parts.length = count + 1 ∧
        (∀ part ∈ parts, pattern.Spells part) ∧ word = [mark].intercalate parts := by
  simp only [spells_pair_iff, times, spells_between_iff (Nat.le_refl count) h]
  constructor
  · rintro ⟨_, last, rfl, ⟨parts, hlength, rfl, hparts⟩, hlast⟩
    refine ⟨parts ++ [last], ?_, ?_, flatMap_append_mark mark parts last⟩
    · rw [List.length_append, List.length_singleton]
      omega
    · simpa [or_imp, forall_and] using ⟨hparts, hlast⟩
  · rintro ⟨parts, hlength, hparts, rfl⟩
    obtain ⟨parts, last, rfl⟩ :=
      (List.eq_nil_or_concat' parts).resolve_left fun h => by simp [h] at hlength
    rw [List.length_append, List.length_singleton] at hlength
    refine ⟨_, last, (flatMap_append_mark mark parts last).symm, ⟨parts, by omega, rfl, ?_⟩, ?_⟩
    · exact fun part hpart => hparts part (List.mem_append_left _ hpart)
    · exact hparts last (List.mem_append_right _ List.mem_cons_self)

/-- A place is the stop of a text if nothing or one line break stands behind it. -/
theorem isStop_append_iff {rest : List Char} :
    isStop (word ++ rest).toArray word.length = true ↔ rest = [] ∨ rest = ['\n'] := by
  simp only [isStop, List.size_toArray, List.length_append, List.getElem?_toArray,
    List.getElem?_append_right (Nat.le_refl word.length), Nat.sub_self, Bool.or_eq_true,
    Bool.and_eq_true, decide_eq_true_eq]
  rcases rest with _ | ⟨c, _ | ⟨other, rest⟩⟩
  · simp
  · simp
  · simp only [List.length_cons, reduceCtorEq, List.cons.injEq, and_false, or_false, iff_false]
    omega

/-- A whole text has a format if it is a word of it, with one line break behind it or none. -/
theorem startsIn_whole_iff (h : pattern.isPlain = true) :
    (whole pattern).startsIn text = true ↔
      ∃ word rest, text = word ++ rest ∧ (rest = [] ∨ rest = ['\n']) ∧ pattern.Spells word := by
  rw [startsIn_iff]
  simp only [whole, sequence, List.foldr_cons, List.foldr_nil, Leads, leads_iff_spells h]
  constructor
  · rintro ⟨_, _, ⟨-, rfl⟩, _, ⟨word, rest, htext, rfl, hword⟩, _, ⟨hstop, rfl⟩, rfl⟩
    rw [List.drop_zero] at htext
    subst htext
    rw [Nat.zero_add] at hstop
    exact ⟨word, rest, rfl, isStop_append_iff.1 hstop, hword⟩
  · rintro ⟨word, rest, rfl, hrest, hword⟩
    exact ⟨word.length, 0, ⟨trivial, rfl⟩, word.length,
      ⟨word, rest, rfl, (Nat.zero_add _).symm, hword⟩, word.length,
      ⟨isStop_append_iff.2 hrest, rfl⟩, rfl⟩

end TypedSql.Format
