import TypedSql.Proofs.Condition.Elaboration
import TypedSql.Proofs.Sql.Numbering
import TypedSql.Proofs.Sql.Piece

/-!
# Written conditions are read back

The text of a predicate is a phrase with the truth of the predicate: `expresses_pieces` says so of
every proper predicate, wherever the numbering of its placeholders begins, and
`Members.ofValues` of the list behind a membership test.
-/

namespace TypedSql.Condition

open TypedSql.Sql

/-- `Namable name` says that no name of a numbering has the marks of a placeholder in it. -/
def Namable (name : Nat → String) : Prop :=
  ∀ place, ':' ∉ (name place).toList ∧ '\x7d' ∉ (name place).toList

theorem namable_number (index : Int) : Namable (Start.number index).name :=
  fun _ => ⟨not_mem_parameter (by decide) (by decide) _,
    not_mem_parameter (by decide) (by decide) _⟩

/-- The types of placeholders that bind bare values. -/
def placeholderTypes : List String :=
  ["Nullable(String)", "UInt8", "Int32", "UInt64", "Int64", "Float64", "DateTime", "Date",
    "Array(String)", "String"]

theorem placeholderType_mem (value : Value) : Wire.placeholderType value ∈ placeholderTypes := by
  unfold Wire.placeholderType
  split
  case h_3 =>
      split
      · decide
      · split <;> decide
  all_goals decide

/-- The type of a placeholder that binds a bare value has no brace in it. -/
theorem not_mem_placeholderType (value : Value) : '\x7d' ∉ (Wire.placeholderType value).toList := by
  have hnone : ∀ type ∈ placeholderTypes, '\x7d' ∉ type.toList := by decide
  exact hnone _ (placeholderType_mem value)

section Members

variable {parameters : Parameters} {name : Nat → String} {distance : Nat}

/-- A value that is provided is supplied to its placeholder. -/
theorem supplies_of_provides (hname : Namable name) {value : Value} {values : List Value}
    (h : Provides parameters name distance (value :: values)) :
    Supplies parameters (placeholderOf (name distance) (Wire.placeholderType value)) value :=
  Supplies.placeholderOf (hname distance).1 (hname distance).2 (not_mem_placeholderType value)
    h.head

/-- The values that a list of members binds are the members. -/
theorem values_members (members : List Value) :
    Piece.values (Piece.join ", " (members.map fun member => [.ofValue member])) = members := by
  induction members with
  | nil => rfl
  | cons member rest ih =>
      cases rest with
      | nil => rfl
      | cons other others =>
          simp only [List.map_cons, Piece.join] at ih ⊢
          simp [ih]

/-- A written list of members is read as the members. -/
theorem Members.ofValues (hname : Namable name) {members : List Value} (hmembers : members ≠ [])
    (h : Provides parameters name distance members) :
    Members parameters (Piece.render name distance
      (Piece.join ", " (members.map fun member => [.ofValue member]))) members := by
  induction members generalizing distance with
  | nil => exact absurd rfl hmembers
  | cons member rest ih =>
      have hslot := supplies_of_provides hname h
      cases rest with
      | nil => simpa [Piece.join] using Members.single hslot
      | cons other others =>
          have hrest := ih (List.cons_ne_nil other others) h.tail
          simp only [List.map_cons, Piece.join] at hrest ⊢
          simpa [String.append_assoc] using Members.cons hslot hrest

end Members

/-- One member more in a group joins its truth to the others. -/
theorem joinTruths_cons (joiner : Joiner) (first second : Bool) (rest : List Bool) :
    joinTruths joiner (first :: second :: rest) =
      joinTruth joiner first (joinTruths joiner (second :: rest)) := by
  cases joiner <;> simp [joinTruths, joinTruth]

theorem joinTruths_single (joiner : Joiner) (truth : Bool) : joinTruths joiner [truth] = truth := by
  cases joiner <;> simp [joinTruths]

namespace Predicate

/-- A membership test binds its members. -/
theorem values_within (column : String) (negated : Bool) (members : List Value) :
    Piece.values (within column negated members).pieces = members := by
  simp only [pieces, List.cons_append, Piece.values_text, Piece.values_append, values_members,
    Piece.values, List.append_nil]

/-- A group binds what its parts bind. -/
theorem values_group (joiner : Joiner) (parts : List Predicate) :
    Piece.values (group joiner parts).pieces =
      Piece.values (Piece.join joiner.separator (piecesOfAll parts)) := by
  simp only [pieces, List.cons_append, Piece.values_text, Piece.values_append, Piece.values,
    List.append_nil]

/-- A negation binds what it negates binds. -/
theorem values_negation (inner : Predicate) :
    Piece.values (negation inner).pieces = Piece.values inner.pieces := by
  simp only [pieces, List.cons_append, Piece.values_text, Piece.values_append, Piece.values,
    List.append_nil]

end Predicate

section Writing

variable {parameters : Parameters} {name : Nat → String} {sort : String → Prop}
variable {raw : (Test → Bool) → String → Bool}

open Predicate

mutual

/-- The text of a proper predicate is a conjunction with the truth of the predicate, given that raw
SQL of the sort is one. -/
theorem expresses_pieces (hname : Namable name)
    (hraw : ∀ sql, sort sql → Expresses parameters (.chain .and) sql fun truth => raw truth sql)
    {predicate : Predicate} {distance : Nat} (hproper : Proper sort predicate)
    (hvalues : Provides parameters name distance (Piece.values predicate.pieces)) :
    Expresses parameters (.chain .and) (Piece.render name distance predicate.pieces)
      fun truth => predicate.holds ⟨truth, raw truth⟩ := by
  cases predicate with
  | verbatim sql => simpa [pieces, holds] using hraw sql hproper.2
  | constant truth => simpa [pieces, holds] using (Expresses.constant truth).toConjunction
  | isNull column negated =>
      simpa [pieces, holds] using (Expresses.isNull hproper negated).toConjunction
  | compare column comparison value =>
      obtain ⟨hcolumn, hcomparison⟩ := hproper
      have hslot := supplies_of_provides hname hvalues
      have h := (Expresses.compare hcolumn hcomparison hslot).toConjunction
      simpa [pieces, holds] using h
  | within column negated members =>
      obtain ⟨hcolumn, hmembers⟩ := hproper
      rw [values_within] at hvalues
      have hlist := Members.ofValues hname hmembers hvalues
      have h := (Expresses.within hcolumn negated hlist).toConjunction
      simpa [pieces, holds, String.append_assoc] using h
  | between column low high =>
      have hlow := supplies_of_provides hname hvalues
      have hhigh := supplies_of_provides hname hvalues.tail
      have h := (Expresses.between hproper hlow hhigh).toConjunction
      simpa [pieces, holds, String.append_assoc] using h
  | all parts =>
      -- without parentheses this has to stay a conjunction, which a group or a negation can hold
      obtain ⟨hparts, hproper⟩ := hproper
      exact expresses_join hname hraw .and hparts hproper hvalues
  | group joiner parts =>
      obtain ⟨hparts, hproper⟩ := hproper
      rw [values_group] at hvalues
      have hinner := expresses_join hname hraw joiner hparts hproper hvalues
      -- whichever joiner is inside, in parentheses the members are one operand
      have h := (hinner.toDisjunction.group).toConjunction
      simpa [pieces, holds, String.append_assoc] using h
  | negation inner =>
      rw [values_negation] at hvalues
      have hproper : Proper sort inner := hproper
      have hinner := expresses_pieces hname hraw hproper hvalues
      have h := (hinner.toDisjunction.negation).toConjunction
      simpa [pieces, holds, String.append_assoc] using h

/-- Predicates written with a joiner between them are a chain of the joiner with their truths
joined. -/
theorem expresses_join (hname : Namable name)
    (hraw : ∀ sql, sort sql → Expresses parameters (.chain .and) sql fun truth => raw truth sql)
    (joiner : Joiner) {parts : List Predicate} {distance : Nat} (hparts : parts ≠ [])
    (hproper : ProperEach sort parts)
    (hvalues : Provides parameters name distance
      (Piece.values (Piece.join joiner.separator (piecesOfAll parts)))) :
    Expresses parameters (.chain joiner)
      (Piece.render name distance (Piece.join joiner.separator (piecesOfAll parts)))
      fun truth => joinTruths joiner (holdsEach ⟨truth, raw truth⟩ parts) := by
  match parts with
  | [] => exact absurd rfl hparts
  | [part] =>
      -- a single part is a chain of either joiner
      have h := (expresses_pieces hname hraw hproper.1 hvalues).ofConjunction joiner
      simpa [piecesOfAll, Piece.join, holdsEach, joinTruths_single] using h
  | part :: other :: others =>
      simp only [piecesOfAll, Piece.join, Piece.values_append, Piece.values] at hvalues
      have hfirst := (expresses_pieces hname hraw hproper.1 hvalues.left).ofConjunction joiner
      have hrest := expresses_join hname hraw joiner (List.cons_ne_nil other others) hproper.2
        hvalues.right
      have h := hfirst.joined hrest
      simpa [piecesOfAll, Piece.join, holdsEach, joinTruths_cons, String.append_assoc] using h

end

end Writing

end TypedSql.Condition
