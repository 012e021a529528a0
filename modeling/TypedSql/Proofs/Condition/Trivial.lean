import TypedSql.Proofs.Condition.Clause

/-!
# Trivial clauses

Whether a clause is trivial does not depend on where its parameters begin: `isTrivial_ofPredicate`.
A clause with a parameter has a brace in its text and is never trivial
(`parameters_eq_nil_of_isTrivial`), and one without parameters has the same text whatever the
numbers. No clause has an empty text: `compile_sql_ne_empty`.
-/

namespace TypedSql.Condition

open TypedSql.Sql

section Pieces

variable {pieces : List Piece} {name other : Nat → String}

/-- Where a value is bound there is a placeholder. -/
theorem mem_render_of_values (hvalues : Piece.values pieces ≠ []) (distance : Nat) :
    '\x7b' ∈ (Piece.render name distance pieces).toList := by
  induction pieces generalizing distance with
  | nil => exact absurd rfl hvalues
  | cons piece rest ih =>
      cases piece with
      | text chars =>
          rw [Piece.render_text, String.toList_append]
          exact List.mem_append_right _ (ih hvalues distance)
      | bound type value => simp [Piece.render, Piece.texts, placeholderOf]

/-- Without values the numbering does not matter. -/
theorem render_eq_of_values (hvalues : Piece.values pieces = []) (distance further : Nat) :
    Piece.render name distance pieces = Piece.render other further pieces := by
  induction pieces with
  | nil => rfl
  | cons piece rest ih =>
      cases piece with
      | text chars => rw [Piece.render_text, Piece.render_text, ih hvalues]
      | bound type value => cases hvalues

/-- Pieces have the text that always holds under one numbering exactly if they have it under any
other. -/
theorem render_eq_alwaysTrue_iff (distance further : Nat) :
    Piece.render name distance pieces = alwaysTrue ↔
      Piece.render other further pieces = alwaysTrue := by
  have hbrace : '\x7b' ∉ alwaysTrue.toList := by decide
  -- only a bound value makes the text depend on the numbering, and it brings a brace with it
  by_cases hvalues : Piece.values pieces = []
  · rw [render_eq_of_values hvalues distance further]
  · constructor
    · intro h
      exact absurd (h ▸ mem_render_of_values hvalues distance) hbrace
    · intro h
      exact absurd (h ▸ mem_render_of_values hvalues further) hbrace

end Pieces

/-- A clause is trivial or not wherever the numbering of its parameters starts. -/
theorem isTrivial_ofPredicate (start other : Start) (predicate : Option Predicate) :
    (Clause.ofPredicate start predicate).isTrivial =
      (Clause.ofPredicate other predicate).isTrivial := by
  simp only [Clause.isTrivial, Clause.ofPredicate, Clause.ofPieces]
  exact decide_eq_decide.2 (render_eq_alwaysTrue_iff 0 0)

/-- Two clauses of one condition are both trivial or both not. -/
theorem isTrivial_compile {condition : Value} {start other : Start} {clause again : Clause}
    (h : compile condition start = .ok clause) (hagain : compile condition other = .ok again) :
    clause.isTrivial = again.isTrivial := by
  obtain ⟨predicate, helaborate, rfl, -⟩ := compile_eq_ok.1 h
  obtain ⟨same, hsame, rfl, -⟩ := compile_eq_ok.1 hagain
  rw [helaborate] at hsame
  cases hsame
  exact isTrivial_ofPredicate start other predicate

/-- A trivial clause has no parameters. -/
theorem parameters_eq_nil_of_isTrivial {condition : Value} {start : Start} {clause : Clause}
    (h : compile condition start = .ok clause) (htrivial : clause.isTrivial = true) :
    clause.parameters = [] := by
  obtain ⟨predicate, -, rfl, -⟩ := compile_eq_ok.1 h
  have hsql : Piece.render start.name 0 (predicate.getD (.constant true)).pieces = alwaysTrue :=
    of_decide_eq_true htrivial
  have hvalues : Piece.values (predicate.getD (.constant true)).pieces = [] := by
    by_contra hvalues
    have hbrace : '\x7b' ∈ alwaysTrue.toList := hsql ▸ mem_render_of_values hvalues 0
    exact absurd hbrace (by decide)
  have hparameters :
      Piece.parameters start.name 0 (predicate.getD (.constant true)).pieces = [] := by
    rw [Piece.parameters_eq, hvalues]
    rfl
  show start.gather (Piece.parameters _ _ _) = _
  rw [hparameters]
  cases start <;> rfl

section Nonempty

open Predicate

variable {sort : String → Prop} {name : Nat → String}

mutual

/-- A proper predicate has a text. -/
theorem render_pieces_ne_empty {predicate : Predicate} (h : Proper sort predicate)
    (distance : Nat) : Piece.render name distance predicate.pieces ≠ "" := by
  cases predicate with
  | verbatim sql => simpa [pieces] using h.1
  | constant truth => cases truth <;> simp [pieces, alwaysTrue, alwaysFalse]
  | isNull | compare | within | between | negation | group => simp [pieces]
  | all parts =>
      obtain ⟨hparts, hproper⟩ := h
      exact render_join_ne_empty hparts hproper distance

/-- Predicates put together have a text, if there are any. -/
theorem render_join_ne_empty {separator : String} {parts : List Predicate} (hparts : parts ≠ [])
    (hproper : ProperEach sort parts) (distance : Nat) :
    Piece.render name distance (Piece.join separator (piecesOfAll parts)) ≠ "" := by
  match parts with
  | [] => exact absurd rfl hparts
  | [part] => exact render_pieces_ne_empty hproper.1 distance
  | part :: other :: others =>
      simp [piecesOfAll, Piece.join, render_pieces_ne_empty hproper.1 distance]

end

/-- A clause has a text, whatever raw SQL is in its condition. -/
theorem compile_sql_ne_empty {condition : Value} {start : Start} {clause : Clause}
    (h : compile condition start = .ok clause) : clause.sql ≠ "" := by
  obtain ⟨predicate, helaborate, rfl, -⟩ := compile_eq_ok.1 h
  have hproper := (elaborate_stands (everyRaw_true condition) helaborate).getD.1
  exact render_pieces_ne_empty hproper 0

end Nonempty

end TypedSql.Condition
