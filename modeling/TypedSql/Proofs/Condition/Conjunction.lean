import TypedSql.Proofs.Condition.Placeholder
import TypedSql.Proofs.Statement.Capacity

/-!
# Conjunctions of conditions

Several conditions are compiled as the members of one group. `compile_conjunction_iff` says that the
clause of the group is made of the clauses of the conditions one behind the other: each is numbered
from where the one before it ends, and what stands for no predicate has none. What can be compiled
has keys that pass: `checkKeys_of_elaborate`.
-/

namespace TypedSql.Condition

open TypedSql.Sql TypedSql.Outcome TypedSql.Statement

/-- `Clauses index conditions clauses` says that clauses are those of conditions one behind the
other, numbered from an index; a condition that stands for no predicate has none. -/
inductive Clauses : Nat → List Value → List Clause → Prop
  | nil {index : Nat} : Clauses index [] []
  | skip {index : Nat} {condition : Value} {conditions : List Value} {clauses : List Clause}
      (hnone : elaborate condition = .ok none) (rest : Clauses index conditions clauses) :
      Clauses index (condition :: conditions) clauses
  | cons {index : Nat} {condition : Value} {conditions : List Value} {clause : Clause}
      {clauses : List Clause} (hsome : elaborate condition ≠ .ok none)
      (h : compile condition (.number index) = .ok clause)
      (rest : Clauses (index + clause.parameters.length) conditions clauses) :
      Clauses index (condition :: conditions) (clause :: clauses)

/-- The conjunction of clauses in one pair of parentheses; without any it holds always. -/
def conjunction (clauses : List Clause) : Clause where
  sql :=
    if clauses.isEmpty then alwaysTrue
    else "(" ++ " AND ".intercalate (clauses.map Clause.sql) ++ ")"
  parameters := clauses.flatMap Clause.parameters

/-- The clauses of predicates one behind the other. -/
def clausesFrom (index : Nat) : List Predicate → List Clause
  | [] => []
  | part :: rest =>
      .ofPieces (.number index) part.pieces ::
        clausesFrom (index + (Piece.values part.pieces).length) rest

/-- The values of predicates. -/
def valuesOf (parts : List Predicate) : List Value :=
  parts.flatMap fun part => Piece.values part.pieces

section Numbering

variable {name other : Nat → String}

/-- The text of pieces depends on nothing but the names that are given to their values. -/
theorem render_congr {distance further : Nat}
    (h : ∀ count, name (distance + count) = other (further + count)) (pieces : List Piece) :
    Piece.render name distance pieces = Piece.render other further pieces := by
  induction pieces generalizing distance further with
  | nil => rfl
  | cons piece rest ih =>
      cases piece with
      | text chars => rw [Piece.render_text, Piece.render_text, ih h]
      | bound type value =>
          have hrest : Piece.render name (distance + 1) rest =
              Piece.render other (further + 1) rest := by
            refine ih fun count => ?_
            rw [Nat.add_assoc, Nat.add_assoc]
            exact h (1 + count)
          have hfirst : name distance = other further := h 0
          show String.join (_ :: _) = String.join (_ :: _)
          rw [String.join_cons, String.join_cons, hfirst]
          exact congrArg _ hrest

/-- Pieces behind so many values are numbered from there. -/
theorem render_number (index : Nat) (pieces : List Piece) :
    Piece.render (Start.number 0).name index pieces =
      (Clause.ofPieces (.number index) pieces).sql := by
  refine render_congr (fun count => ?_) pieces
  simp [Start.name]

/-- The parameters of a clause are its values, numbered from its start. -/
theorem parameters_ofPieces (index : Int) (pieces : List Piece) :
    (Clause.ofPieces (.number index) pieces).parameters = numbered index (Piece.values pieces) := by
  have hparameters := parameters_eq_numbered index 0 pieces
  rwa [Int.natCast_zero, Int.add_zero] at hparameters

theorem length_parameters_ofPieces (index : Int) (pieces : List Piece) :
    (Clause.ofPieces (.number index) pieces).parameters.length = (Piece.values pieces).length := by
  rw [parameters_ofPieces, ← List.length_map Prod.snd, map_snd_numbered]

/-- A condition that stands for a predicate has a clause behind so many values exactly if its own
values can be numbered. -/
theorem compile_number_iff {condition : Value} {part : Predicate} {index : Nat} {clause : Clause}
    (h : elaborate condition = .ok (some part)) :
    compile condition (.number index) = .ok clause ↔
      clause = .ofPieces (.number index) part.pieces ∧
        ((Piece.values part.pieces).length = 0 ∨
          index + (Piece.values part.pieces).length ≤ mostValues) := by
  rw [compile_eq_ok, h]
  constructor
  · rintro ⟨_, ⟨⟩, rfl, hnames⟩
    rw [Clause.ofPredicate, length_parameters_ofPieces, checkNames_natural_iff] at hnames
    exact ⟨rfl, hnames⟩
  · rintro ⟨rfl, hnames⟩
    rw [← checkNames_natural_iff] at hnames
    refine ⟨_, rfl, rfl, ?_⟩
    rwa [length_parameters_ofPieces]

end Numbering

section Parts

variable {index : Nat} {part next : Predicate} {parts rest : List Predicate}
variable {conditions : List Value} {clauses : List Clause}

theorem join_cons_cons (separator : String) :
    Piece.join separator (Predicate.piecesOfAll (part :: next :: rest)) =
      part.pieces ++ .text separator ::
        Piece.join separator (Predicate.piecesOfAll (next :: rest)) := rfl

/-- Predicates that are joined have the texts of their clauses, joined likewise. -/
theorem render_join (separator : String) (index : Nat) (parts : List Predicate) :
    Piece.render (Start.number 0).name index (Piece.join separator (Predicate.piecesOfAll parts)) =
      separator.intercalate ((clausesFrom index parts).map Clause.sql) := by
  induction parts generalizing index with
  | nil => rfl
  | cons part rest ih =>
      cases rest with
      | nil => exact render_number index part.pieces
      | cons next others =>
          rw [join_cons_cons, Piece.render_append, Piece.render_text, ih, render_number]
          simp only [clausesFrom, List.map_cons, String.intercalate_cons_cons]
          rw [String.append_assoc]

/-- Predicates that are joined have the values of all of them. -/
theorem values_join (separator : String) (parts : List Predicate) :
    Piece.values (Piece.join separator (Predicate.piecesOfAll parts)) = valuesOf parts := by
  induction parts with
  | nil => rfl
  | cons part rest ih =>
      cases rest with
      | nil => simp [Predicate.piecesOfAll, Piece.join, valuesOf]
      | cons next others =>
          rw [join_cons_cons, Piece.values_append, Piece.values_text, ih]
          rfl

/-- The clauses of predicates have the values of all of them as parameters. -/
theorem flatMap_parameters (index : Nat) (parts : List Predicate) :
    (clausesFrom index parts).flatMap Clause.parameters = numbered index (valuesOf parts) := by
  induction parts generalizing index with
  | nil => rfl
  | cons part rest ih =>
      have hvalues : valuesOf (part :: rest) = Piece.values part.pieces ++ valuesOf rest := rfl
      rw [clausesFrom, List.flatMap_cons, ih, parameters_ofPieces, hvalues, numbered_append,
        Int.natCast_add]

/-- The clause of a group of predicates is the conjunction of their clauses. -/
theorem ofPredicate_group (parts : List Predicate) :
    Clause.ofPredicate .zero (Predicate.allOf (Predicate.groupOf .and parts).toList) =
      conjunction (clausesFrom 0 parts) := by
  cases parts with
  | nil => rfl
  | cons part rest =>
      obtain ⟨joined, hjoined⟩ : ∃ joined,
          joined = Piece.join " AND " (Predicate.piecesOfAll (part :: rest)) := ⟨_, rfl⟩
      have hclause : Clause.ofPredicate .zero
            (Predicate.allOf (Predicate.groupOf .and (part :: rest)).toList) =
          .ofPieces (.number 0) (.text "(" :: (joined ++ [.text ")"])) := by
        rw [hjoined]
        rfl
      have hsql : (Clause.ofPieces (.number 0) (.text "(" :: (joined ++ [.text ")"]))).sql =
          "(" ++ " AND ".intercalate ((clausesFrom 0 (part :: rest)).map Clause.sql) ++ ")" := by
        rw [Clause.ofPieces, Piece.render_text, Piece.render_append, hjoined, render_join,
          Piece.render_text, Piece.render_nil, String.append_empty, String.append_assoc]
      have hparameters :
          (Clause.ofPieces (.number 0) (.text "(" :: (joined ++ [.text ")"]))).parameters =
            (clausesFrom 0 (part :: rest)).flatMap Clause.parameters := by
        rw [parameters_ofPieces, flatMap_parameters, Piece.values_text, Piece.values_append,
          hjoined, values_join, Piece.values_text]
        exact congrArg _ (List.append_nil _)
      rw [hclause, conjunction, ← hparameters, ← hsql]
      rfl

/-- Conditions have clauses one behind the other exactly if all their values can be numbered. -/
theorem clauses_iff (h : elaborateAll conditions = .ok parts) :
    Clauses index conditions clauses ↔
      clauses = clausesFrom index parts ∧
        ((valuesOf parts).length = 0 ∨ index + (valuesOf parts).length ≤ mostValues) := by
  induction conditions generalizing index parts clauses with
  | nil =>
      cases h
      constructor
      · rintro ⟨⟩
        exact ⟨rfl, .inl rfl⟩
      · rintro ⟨rfl, -⟩
        exact .nil
  | cons condition rest ih =>
      simp only [elaborateAll, bind_eq_ok, pure_eq_ok] at h
      obtain ⟨first, hfirst, others, hothers, rfl⟩ := h
      cases first with
      | none =>
          rw [Option.toList_none, List.nil_append, ← ih hothers]
          constructor
          · intro h
            cases h with
            | skip _ hrest => exact hrest
            | cons hsome => exact absurd hfirst hsome
          · exact .skip hfirst
      | some part =>
          have hvalues : valuesOf (part :: others) = Piece.values part.pieces ++ valuesOf others :=
            rfl
          rw [Option.toList_some, List.singleton_append, hvalues, clausesFrom, List.length_append]
          constructor
          · intro h
            cases h with
            | skip hnone =>
                rw [hfirst] at hnone
                cases hnone
            | cons _ hclause hrest =>
                obtain ⟨rfl, hpart⟩ := (compile_number_iff hfirst).1 hclause
                rw [length_parameters_ofPieces] at hrest
                obtain ⟨rfl, hrest⟩ := (ih hothers).1 hrest
                exact ⟨rfl, by omega⟩
          · rintro ⟨rfl, hnames⟩
            have hsome : elaborate condition ≠ .ok none := by simp [hfirst]
            refine .cons hsome ((compile_number_iff hfirst).2 ⟨rfl, by omega⟩) ?_
            rw [length_parameters_ofPieces]
            exact (ih hothers).2 ⟨rfl, by omega⟩

/-- Conditions with a clause each elaborate, to predicates with the values of all clauses. -/
theorem exists_elaborateAll {alone : List Clause}
    (h : List.Forall₂ (fun condition clause => compile condition .zero = .ok clause) conditions
      alone) :
    ∃ parts, elaborateAll conditions = .ok parts ∧
      (valuesOf parts).length = (alone.flatMap Clause.parameters).length := by
  induction h with
  | nil => exact ⟨[], rfl, rfl⟩
  | @cons condition clause _ _ hclause _ ih =>
      obtain ⟨others, hothers, hlength⟩ := ih
      obtain ⟨first, hfirst, rfl, -⟩ := compile_eq_ok.1 hclause
      refine ⟨first.toList ++ others, ?_, ?_⟩
      · simp only [elaborateAll, bind_eq_ok, pure_eq_ok]
        exact ⟨first, hfirst, others, hothers, rfl⟩
      · have hvalues : (valuesOf first.toList).length =
            (Clause.ofPredicate .zero first).parameters.length := by
          rw [Clause.ofPredicate, Start.zero, length_parameters_ofPieces]
          cases first with
          | none => rfl
          | some part => simp [valuesOf]
        rw [List.flatMap_cons, List.length_append, ← hlength, ← hvalues, ← List.length_append]
        simp [valuesOf]

/-- Of conditions that elaborate each one does. -/
theorem elaborates_of_mem (h : elaborateAll conditions = .ok parts) {condition : Value}
    (hmem : condition ∈ conditions) : ∃ predicate, elaborate condition = .ok predicate := by
  induction conditions generalizing parts with
  | nil => cases hmem
  | cons other rest ih =>
      simp only [elaborateAll, bind_eq_ok] at h
      obtain ⟨first, hfirst, others, hothers, -⟩ := h
      rcases List.mem_cons.1 hmem with rfl | hmem
      · exact ⟨first, hfirst⟩
      · exact ih hothers hmem

/-- A group of conditions elaborates to the group of what the conditions elaborate to. -/
theorem elaborate_conjunction (h : elaborateAll conditions = .ok parts) :
    elaborate (.map [(.text "and", .list conditions)]) =
      .ok (Predicate.allOf (Predicate.groupOf .and parts).toList) := by
  have hentry : elaborateEntry (.text "and") (.list conditions) =
      .ok (Predicate.groupOf .and parts) := by
    show (elaborateAll conditions).map (Predicate.groupOf .and) = _
    rw [h]
    rfl
  have hentries : elaborateEntries [(.text "and", .list conditions)] =
      .ok (Predicate.groupOf .and parts).toList := by
    rw [elaborateEntries_cons, hentry, ← List.append_nil (Predicate.groupOf .and parts).toList]
    rfl
  rw [elaborate, hentries]
  rfl

/-- Several conditions have a clause exactly if all their values can be numbered: the conjunction of
their clauses one behind the other. -/
theorem compile_conjunction_iff {clause : Clause} (h : elaborateAll conditions = .ok parts) :
    compile (.map [(.text "and", .list conditions)]) .zero = .ok clause ↔
      ∃ clauses, Clauses 0 conditions clauses ∧ clause = conjunction clauses := by
  have hnumbers : Start.zero.checkNames (conjunction (clausesFrom 0 parts)).parameters.length =
      .ok () ↔ (valuesOf parts).length = 0 ∨ 0 + (valuesOf parts).length ≤ mostValues := by
    rw [conjunction, flatMap_parameters, ← List.length_map Prod.snd, map_snd_numbered]
    exact checkNames_natural_iff
  simp only [compile_eq_ok, elaborate_conjunction h, Except.ok.injEq, exists_eq_left',
    clauses_iff h, ofPredicate_group, ← hnumbers]
  constructor
  · rintro ⟨rfl, hnames⟩
    exact ⟨_, ⟨rfl, hnames⟩, rfl⟩
  · rintro ⟨_, ⟨rfl, hnames⟩, rfl⟩
    exact ⟨rfl, hnames⟩

end Parts

section Keys

/-- A key of a condition that elaborates is a connective or a name. -/
theorem passes_of_elaborateEntry {key value : Value} {first : Option Predicate}
    (h : elaborateEntry key value = .ok first) :
    key.asText?.any reservedKeys.contains = true ∨ Identifier.isNameValue key = true := by
  have hreserved {connective : Connective} (hkey : connective? key = some connective) :
      key.asText?.any reservedKeys.contains = true := by
    obtain ⟨text, htext, hlookup⟩ := Option.bind_eq_some_iff.1 hkey
    have hknown : ∀ entry ∈ connectiveKeys, entry.1 ∈ reservedKeys := by decide
    obtain ⟨before, after, hentries, -⟩ := List.lookup_eq_some_iff.1 hlookup
    have hmem : (text, connective) ∈ connectiveKeys := by simp [hentries]
    simpa [htext] using hknown _ hmem
  cases elaborates_of_elaborateEntry h with
  | list hkey | tuple hkey | single hkey | negation hkey => exact .inl (hreserved hkey)
  | field _ hfield =>
      obtain ⟨name, hname, -⟩ := bind_eq_ok.1 hfield
      exact .inr (Identifier.quote_eq_ok.1 hname).1

/-- What can be compiled has keys that pass. -/
theorem checkKeys_of_elaborate {condition : Value} {predicate : Option Predicate}
    (h : elaborate condition = .ok predicate) : checkKeys condition = .ok () := by
  cases condition with
  | map entries =>
      obtain ⟨parts, hparts, -⟩ := bind_eq_ok.1 h
      have hkeys : ∀ entry ∈ entries, entry.1.asText?.any reservedKeys.contains = true ∨
          Identifier.isNameValue entry.1 = true := by
        clear h
        induction entries generalizing parts with
        | nil => exact List.forall_mem_nil _
        | cons entry rest ih =>
            obtain ⟨key, value⟩ := entry
            simp only [elaborateEntries_cons, bind_eq_ok] at hparts
            obtain ⟨first, hfirst, others, hothers, -⟩ := hparts
            exact List.forall_mem_cons.2 ⟨passes_of_elaborateEntry hfirst, ih _ hothers⟩
      have hnone : entries.find? (fun entry => !(entry.1.asText?.any reservedKeys.contains ||
          Identifier.isNameValue entry.1)) = none := by
        refine List.find?_eq_none.2 fun entry hentry => ?_
        rcases hkeys entry hentry with hkey | hkey <;> simp [hkey]
      simp only [checkKeys, hnone]
  | _ => rfl

end Keys

end TypedSql.Condition
