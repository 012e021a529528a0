import TypedSql.Proofs.Condition.Conjunction
import TypedSql.Proofs.Model.Chain
import TypedSql.Proofs.Model.Guard
import TypedSql.Proofs.Table.Reachable

/-!
# Gathered conditions

The conditions that a chain of calls has gathered are one conjunction, and every statement carries
it: `conditions_are_conjoined`. `CarriesClause` says what that is for the statements of a model; it
does not depend on how the clause came about (`carries_of_clause`).
-/

namespace TypedSql.Model

open TypedSql.Sql TypedSql.Outcome TypedSql.Statement TypedSql.Condition

/-- A statement with a clause behind its head. A trivial clause is left out. -/
def withClause (head : String) (clause : Clause) : Bound :=
  if clause.isTrivial then { sql := head, parameters := [] }
  else { sql := head ++ " WHERE " ++ clause.sql, parameters := clause.parameters }

/-- Whether all statements of a model carry a clause. A deletion does so unless the clause is
trivial. -/
structure CarriesClause (model : Model) (clause : Clause) : Prop where
  select : model.selectStatement =
    .ok (withClause (selectionHead ["*"] (Identifier.backquoted model.name)) clause)
  count : model.countStatement =
    .ok (withClause (selectionHead ["COUNT(*) AS " ++ Identifier.backquoted "count"]
      (Identifier.backquoted model.name)) clause)
  aggregate : ∀ (entries : Entries) (expressions : List String), entries ≠ [] →
    (entries.mapM fun entry => model.aggregateText entry.1 entry.2) = .ok expressions →
      model.aggregateStatement (.map entries) =
        .ok (withClause (selectionHead expressions (Identifier.backquoted model.name)) clause)
  delete : clause.isTrivial = false → model.deleteStatement .null =
    .ok (withClause (deletionHead (Identifier.backquoted model.name)) clause)

/-- Whether a clause is that of conditions that were gathered: of a single one its own clause, of
several the conjunction of their clauses one behind the other. -/
def IsGathered : List Value → Clause → Prop
  | [condition], clause => compile condition .zero = .ok clause
  | conditions, clause =>
      ∃ clauses, Clauses 0 conditions clauses ∧ clause = conjunction clauses

section Carrying

variable {model : Model} {clause : Clause} {conditions : List Value}

/-- What selects expressions from the table under the condition in force carries its clause. -/
theorem bound_selection {action : Action (List (String × Value))} {expressions : List String}
    {table : String} (hnonempty : expressions ≠ [])
    (hclause : model.clause .null .zero = .ok clause)
    (hruns : Runs action {} clause.parameters
      { verb := some .select, table := some table, selected := expressions.map .text
        conditions := if clause.isTrivial then [] else [.text clause.sql] }) :
    bound action = .ok (withClause (selectionHead expressions table) clause) := by
  cases htrivial : clause.isTrivial with
  | true =>
      rw [htrivial] at hruns
      have hparameters := parameters_eq_nil_of_isTrivial hclause htrivial
      refine bound_eq_ok.2 ⟨_, _, _, hruns, build_selection hnonempty [], ?_⟩
      rw [withClause, if_pos htrivial, hparameters]
      simp [Builder.clause, numbered]
  | false =>
      rw [htrivial] at hruns
      refine bound_eq_ok.2 ⟨_, _, _, hruns, build_selection hnonempty [clause.sql], ?_⟩
      have hwritten : " ".intercalate (selectionHead expressions table ::
          Builder.clause "WHERE" " AND " [clause.sql]) =
            selectionHead expressions table ++ " WHERE " ++ clause.sql :=
        intercalate_condition _ _
      rw [withClause, htrivial, hwritten]
      rfl

/-- The condition in force is added behind the table. -/
theorem runs_fromTable {selected : List Value}
    (hname : Identifier.isNameValue (.text model.name) = true)
    (hclause : model.clause .null .zero = .ok clause) :
    Runs (do Action.fromTable (.text model.name); model.applyCondition .null)
      { verb := some .select, selected } clause.parameters
      { verb := some .select, table := some (Identifier.backquoted model.name), selected
        conditions := if clause.isTrivial then [] else [.text clause.sql] } :=
  Runs.bind_iff.2 ⟨(), _, runs_setTable_of_isName hname,
    (runs_applyCondition_iff rfl).2 ⟨clause, hclause, rfl, rfl⟩⟩

/-- With nothing gathered but conditions, all statements carry the clause of the condition in
force. -/
theorem carries_of_clause (hname : Identifier.isNameValue (.text model.name) = true)
    (hstate : model.state = { conditions })
    (hnull : (model.effective .null).isNull = false)
    (hclause : model.clause .null .zero = .ok clause) : CarriesClause model clause := by
  have hgrouping : model.applyGrouping = pure () := by simp [applyGrouping, hstate]
  constructor
  case select =>
    unfold selectStatement
    simp only [hstate]
    refine bound_selection (List.cons_ne_nil _ _) hclause ?_
    obtain ⟨_, _, htable, hcondition⟩ := Runs.bind_iff.1 (runs_fromTable hname hclause)
    refine Runs.bind_iff.2 ⟨(), { verb := some .select, selected := [.text "*"] }, rfl, ?_⟩
    refine Runs.bind_iff.2 ⟨_, _, htable, Runs.bind_iff.2 ⟨_, _, hcondition, ?_⟩⟩
    rw [hgrouping]
    rfl
  case count =>
    unfold countStatement
    refine bound_selection (List.cons_ne_nil _ _) hclause ?_
    exact Runs.bind_iff.2 ⟨(), _, Runs.modify_iff.2 rfl, runs_fromTable hname hclause⟩
  case aggregate =>
    intro entries expressions hentries hexpressions
    have htruthy : (!(Value.map entries).isTruthy) = false := by
      cases entries with
      | nil => exact absurd rfl hentries
      | cons => rfl
    have hnonempty : expressions ≠ [] := by
      rintro rfl
      exact hentries (List.length_eq_zero_iff.1 (length_of_mapM hexpressions).symm)
    unfold aggregateStatement
    rw [htruthy]
    refine bind_eq_ok.2 ⟨expressions, hexpressions, bound_selection hnonempty hclause ?_⟩
    obtain ⟨_, _, htable, hcondition⟩ := Runs.bind_iff.1 (runs_fromTable hname hclause)
    refine Runs.bind_iff.2 ⟨(), _, Runs.modify_iff.2 rfl, ?_⟩
    refine Runs.bind_iff.2 ⟨_, _, htable, Runs.bind_iff.2 ⟨_, _, hcondition, ?_⟩⟩
    rw [hgrouping]
    rfl
  case delete =>
    intro htrivial
    have hrequire : model.requireCondition "DELETE" .null = .ok (model.effective .null) :=
      requireCondition_eq_ok.2 ⟨rfl, hnull, clause, hclause, htrivial⟩
    rw [delete_of_requireCondition hrequire hname hclause, withClause, htrivial]
    rfl

end Carrying

section Gathering

variable {model : Model} {conditions : List Value} {alone : List Clause} {clause : Clause}

/-- A call with a condition adds it. -/
theorem conditions_filter {condition : Value} (h : condition.isNull = false) :
    (Step.filter condition []).conditions = [condition] := by
  simp [Step.conditions, h]

/-- A call with a condition whose keys pass goes through exactly if the condition can be copied. -/
theorem passes_filter_iff [Copying] {table : Table} {condition : Value}
    (hpresent : condition.isNull = false) (hkeys : checkKeys condition = .ok ()) :
    (Step.filter condition []).Passes table ↔ Copying.copies condition = true := by
  rw [Step.Passes, conditions_filter hpresent, List.forall_mem_singleton]
  exact and_iff_right ⟨fun _ => hkeys, fun h => nomatch h⟩

/-- Conditions that are chained are gathered behind those before. -/
theorem foldl_filter (hnull : ∀ condition ∈ conditions, condition.isNull = false)
    (state : QueryState) :
    (conditions.map fun condition => Step.filter condition []).foldl
        (fun state step => step.change state) state =
      { state with conditions := state.conditions ++ conditions } := by
  induction conditions generalizing state with
  | nil => simp
  | cons condition rest ih =>
      obtain ⟨hcondition, hrest⟩ := List.forall_mem_cons.1 hnull
      rw [List.map_cons, List.foldl_cons, ih hrest]
      simp [Step.change, conditions_filter hcondition]

/-- The condition in force has the clause of the conditions that were gathered. -/
theorem clause_eq_ok_iff (hstate : model.state = { conditions }) (hnonempty : conditions ≠ [])
    {parts : List Predicate} (h : elaborateAll conditions = .ok parts) :
    model.clause .null .zero = .ok clause ↔ IsGathered conditions clause := by
  match conditions with
  | [condition] => simp [Model.clause, effective, hstate, IsGathered, Value.isNull]
  | first :: second :: rest =>
      have heffective : model.effective .null =
          .map [(.text "and", .list (first :: second :: rest))] := by
        simp [effective, hstate, Value.isNull]
      rw [Model.clause, heffective]
      exact compile_conjunction_iff h

/-- Conditions that were gathered have a clause exactly if all their values can be numbered. -/
theorem exists_isGathered_iff (hnonempty : conditions ≠ [])
    (halone : List.Forall₂ (fun condition clause => compile condition .zero = .ok clause) conditions
      alone) :
    (∃ clause, IsGathered conditions clause) ↔
      (alone.flatMap Clause.parameters).length ≤ mostValues := by
  obtain ⟨parts, hparts, hlength⟩ := exists_elaborateAll halone
  match conditions with
  | [condition] =>
      obtain ⟨clause, _, hclause, hnil, rfl⟩ := List.forall₂_cons_left_iff.1 halone
      cases hnil
      obtain ⟨_, -, -, hnames⟩ := compile_eq_ok.1 hclause
      have hvalues : clause.parameters.length = 0 ∨ 0 + clause.parameters.length ≤ mostValues :=
        checkNames_natural_iff.1 hnames
      simp only [List.flatMap_singleton]
      exact iff_of_true ⟨clause, hclause⟩ (by omega)
  | first :: second :: rest =>
      rw [← hlength]
      have hclauses : (∃ clauses, Clauses 0 (first :: second :: rest) clauses) ↔
          (valuesOf parts).length ≤ mostValues := by
        simp only [clauses_iff hparts]
        constructor
        · rintro ⟨_, -, hvalues⟩
          omega
        · exact fun hvalues => ⟨_, rfl, .inr (by omega)⟩
      rw [← hclauses]
      constructor
      · rintro ⟨_, clauses, hclauses, -⟩
        exact ⟨clauses, hclauses⟩
      · rintro ⟨clauses, hclauses⟩
        exact ⟨_, clauses, hclauses, rfl⟩

end Gathering

theorem accounts_reachable : accounts.table.Reachable := by
  let definition : Value := .map [(.text "id", .map [(.text "type", .text "Int32")]),
    (.text "name", .map [(.text "type", .text "String"), (.text "nullable", .bool true)])]
  have hkeys : definition.HasDistinctKeys := by
    simp [definition, Value.HasDistinctKeys, Keyed.HasDistinctKeys, Value.text_isKey, Value.asText?]
  have hdefined : Table.ofDefinition (.text "accounts") definition = .ok accounts.table := by rfl
  exact Table.reachable_of_ofDefinition hkeys hdefined

end TypedSql.Model
