import TypedSql.Proofs.Condition.Elaboration
import TypedSql.Proofs.Sql.Piece

/-!
# Characters in the text of a predicate

A character that stands neither in quoted names nor in the fixed texts around them is nowhere in the
text of a predicate without raw SQL: `lacks_pieces`. Braces and single quotes are such characters.
-/

namespace TypedSql.Condition

open TypedSql.Sql TypedSql.Identifier

/-- The fixed texts of predicates, besides comparisons. -/
def fixedTexts : List String :=
  [alwaysTrue, alwaysFalse, nullKeyword false, nullKeyword true, withinKeyword false,
    withinKeyword true, " ", " BETWEEN ", " AND ", " OR ", ", ", "(", " (", "NOT (", ")"]

/-- Whether a character stands neither in quoted names nor in the fixed texts of predicates. -/
def IsForeign (mark : Char) : Prop :=
  isShown mark = false ∧ mark ≠ '\x60' ∧ ∀ text ∈ fixedTexts ++ comparisons, mark ∉ text.toList

instance (mark : Char) : Decidable (IsForeign mark) := inferInstanceAs (Decidable (_ ∧ _ ∧ _))

/-- Whether a piece is text without a character, or a value with the type inferred for it. -/
def Lacks (mark : Char) : Piece → Prop
  | .text chars => mark ∉ chars.toList
  | .bound type value => type = Wire.placeholderType value

section Pieces

variable {mark : Char}

theorem not_mem_append {first second : String} (hfirst : mark ∉ first.toList)
    (hsecond : mark ∉ second.toList) : mark ∉ (first ++ second).toList := by
  simp [hfirst, hsecond]

theorem lacks_ofValue (value : Value) : Lacks mark (.ofValue value) := rfl

/-- Pieces with a separator between them lack what the pieces and the separator lack. -/
theorem lacks_join {separator : String} (hseparator : mark ∉ separator.toList)
    {lists : List (List Piece)} (h : ∀ pieces ∈ lists, ∀ piece ∈ pieces, Lacks mark piece) :
    ∀ piece ∈ Piece.join separator lists, Lacks mark piece := by
  induction lists with
  | nil => simp [Piece.join]
  | cons pieces rest ih =>
      have hrest := ih fun others hothers => h others (List.mem_cons_of_mem pieces hothers)
      cases rest with
      | nil => simpa [Piece.join] using h pieces List.mem_cons_self
      | cons other others =>
          intro piece hpiece
          simp only [Piece.join, List.mem_append, List.mem_cons] at hpiece
          rcases hpiece with hpiece | rfl | hpiece
          · exact h pieces List.mem_cons_self piece hpiece
          · exact hseparator
          · exact hrest piece hpiece

/-- Pieces between two texts lack what the pieces and the texts lack. -/
theorem lacks_enclosed {first last : String} (hfirst : mark ∉ first.toList)
    (hlast : mark ∉ last.toList) {inner : List Piece} (h : ∀ piece ∈ inner, Lacks mark piece) :
    ∀ piece ∈ .text first :: inner ++ [.text last], Lacks mark piece := by
  intro piece hpiece
  rw [List.cons_append, List.mem_cons, List.mem_append, List.mem_singleton] at hpiece
  rcases hpiece with rfl | hpiece | rfl
  · exact hfirst
  · exact h piece hpiece
  · exact hlast

end Pieces

section Predicates

variable {mark : Char} {sort : String → Prop}

theorem IsForeign.not_mem_fixed (h : IsForeign mark) {text : String} (htext : text ∈ fixedTexts) :
    mark ∉ text.toList :=
  h.2.2 text (List.mem_append_left _ htext)

theorem IsForeign.not_mem_comparison (h : IsForeign mark) {text : String}
    (htext : text ∈ comparisons) : mark ∉ text.toList :=
  h.2.2 text (List.mem_append_right _ htext)

theorem IsForeign.not_mem_column (h : IsForeign mark) {column : String}
    (hcolumn : IsQuoted column) :
    mark ∉ column.toList :=
  hcolumn.not_mem h.1 h.2.1

open Predicate

mutual

/-- The text of a proper predicate has no foreign character that its raw SQL has not. -/
theorem lacks_pieces (hmark : IsForeign mark) (hsort : ∀ sql, sort sql → mark ∉ sql.toList)
    {predicate : Predicate} (h : Proper sort predicate) :
    ∀ piece ∈ predicate.pieces, Lacks mark piece := by
  have hblank : mark ∉ " ".toList := hmark.not_mem_fixed (by decide)
  cases predicate with
  | verbatim sql => simpa [pieces, Lacks] using hsort sql h.2
  | constant truth =>
      have htruth : (if truth then alwaysTrue else alwaysFalse) ∈ fixedTexts := by
        cases truth <;> decide
      simpa [pieces, Lacks] using hmark.not_mem_fixed htruth
  | isNull column negated =>
      have hkeyword : nullKeyword negated ∈ fixedTexts := by cases negated <;> decide
      have htext := not_mem_append (not_mem_append (hmark.not_mem_column h) hblank)
        (hmark.not_mem_fixed hkeyword)
      exact List.forall_mem_singleton.2 htext
  | compare column comparison value =>
      have htext := not_mem_append (not_mem_append (not_mem_append
        (hmark.not_mem_column h.1) hblank) (hmark.not_mem_comparison h.2)) hblank
      exact List.forall_mem_cons.2 ⟨htext, List.forall_mem_singleton.2 (lacks_ofValue value)⟩
  | within column negated members =>
      have hkeyword : withinKeyword negated ∈ fixedTexts := by cases negated <;> decide
      have hopening : mark ∉ " (".toList := hmark.not_mem_fixed (by decide)
      have htext := not_mem_append (not_mem_append (not_mem_append
        (hmark.not_mem_column h.1) hblank) (hmark.not_mem_fixed hkeyword)) hopening
      have hmembers : ∀ pieces ∈ members.map fun member => [Piece.ofValue member],
          ∀ piece ∈ pieces, Lacks mark piece := by
        simp [lacks_ofValue]
      exact lacks_enclosed htext (hmark.not_mem_fixed (by decide))
        (lacks_join (hmark.not_mem_fixed (by decide)) hmembers)
  | between column low high =>
      have hkeyword : mark ∉ " BETWEEN ".toList := hmark.not_mem_fixed (by decide)
      have hbetween := not_mem_append (hmark.not_mem_column h) hkeyword
      have hand : Lacks mark (.text " AND ") := hmark.not_mem_fixed (by decide)
      simp only [pieces, List.forall_mem_cons]
      exact ⟨hbetween, lacks_ofValue low, hand, lacks_ofValue high, fun _ hnone => nomatch hnone⟩
  | all parts =>
      obtain ⟨-, hparts⟩ := h
      exact lacks_join (hmark.not_mem_fixed (by decide)) (lacks_piecesOfAll hmark hsort hparts)
  | group joiner parts =>
      obtain ⟨-, hparts⟩ := h
      have hseparator : joiner.separator ∈ fixedTexts := by cases joiner <;> decide
      exact lacks_enclosed (hmark.not_mem_fixed (by decide)) (hmark.not_mem_fixed (by decide))
        (lacks_join (hmark.not_mem_fixed hseparator) (lacks_piecesOfAll hmark hsort hparts))
  | negation inner =>
      have hproper : Proper sort inner := h
      exact lacks_enclosed (hmark.not_mem_fixed (by decide)) (hmark.not_mem_fixed (by decide))
        (lacks_pieces hmark hsort hproper)

/-- The texts of proper predicates have no foreign character that their raw SQL has not. -/
theorem lacks_piecesOfAll (hmark : IsForeign mark) (hsort : ∀ sql, sort sql → mark ∉ sql.toList)
    {parts : List Predicate} (h : ProperEach sort parts) :
    ∀ pieces ∈ piecesOfAll parts, ∀ piece ∈ pieces, Lacks mark piece := by
  cases parts with
  | nil => simp [piecesOfAll]
  | cons part rest =>
      have hpart := lacks_pieces hmark hsort h.1
      have hrest := lacks_piecesOfAll hmark hsort h.2
      simpa [piecesOfAll] using ⟨hpart, hrest⟩

end

end Predicates

end TypedSql.Condition
