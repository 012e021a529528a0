import TypedSql.Proofs.Model.Statement
import TypedSql.Proofs.Statement.Selection

/-!
# Selections of models

A selection that is compiled writes what the state has gathered, each part in its place:
`select_eq_ok` gives the builder that is written.
-/

namespace TypedSql.Model

open TypedSql.Sql TypedSql.Outcome TypedSql.Statement TypedSql.Condition

variable {model : Model} {before after : Builder}

/-- A grouping adds the quoted names of its fields. -/
theorem runs_applyGrouping (h : Runs model.applyGrouping before () after) :
    (∀ name ∈ model.state.grouping.getD [], Identifier.isNameValue (.text name) = true) ∧
      after = { before with
        grouping := before.grouping ++
          (model.state.grouping.getD []).map Identifier.backquoted } := by
  have hnone (h : Runs (pure () : Action Unit) before () after) :
      (∀ name ∈ ([] : List String), Identifier.isNameValue (.text name) = true) ∧
        after = { before with grouping := before.grouping ++ [].map Identifier.backquoted } := by
    obtain ⟨-, rfl⟩ := Runs.pure_iff.1 h
    simp
  unfold applyGrouping at h
  cases hgrouping : model.state.grouping with
  | none =>
      rw [hgrouping] at h
      exact hnone h
  | some fields =>
      cases fields with
      | nil =>
          rw [hgrouping] at h
          exact hnone h
      | cons field rest =>
          rw [hgrouping] at h
          obtain ⟨names, helements, hnames, rfl⟩ := runs_groupBy h
          obtain rfl : (field :: rest).map .text = names := Option.some.inj helements
          refine ⟨fun name hname => hnames _ (List.mem_map_of_mem hname), ?_⟩
          rw [quotedNames, List.map_map]
          rfl

/-- Whether a text orders by a field in a direction. -/
def Orders (entry : String × String) (text : String) : Prop :=
  Identifier.isNameValue (.text entry.1) = true ∧
    ∃ known ∈ Action.directions, Action.checkDirection (.text entry.2) = .ok known ∧
      text = Identifier.backquoted entry.1 ++ " " ++ known

/-- An ordering adds a text for each of its fields. -/
theorem runs_orderings {orderings : List (String × String)}
    (h : Runs (orderings.forM fun (field, direction) =>
      Action.orderBy (.text field) (.text direction)) before () after) :
    ∃ texts, List.Forall₂ Orders orderings texts ∧
      after = { before with ordering := before.ordering ++ texts } := by
  induction orderings generalizing before with
  | nil =>
      obtain rfl := Runs.forM_nil_iff.1 h
      exact ⟨[], .nil, by simp⟩
  | cons ordering rest ih =>
      obtain ⟨between, hordering, hrest⟩ := Runs.forM_cons_iff.1 h
      obtain ⟨known, hknown, hcheck, hname, rfl⟩ := runs_orderBy hordering
      obtain ⟨texts, htexts, rfl⟩ := ih hrest
      refine ⟨_ :: texts, .cons ⟨hname, known, hknown, hcheck, rfl⟩ htexts, ?_⟩
      simp only [List.append_assoc, List.singleton_append]
      rfl

/-- The text of a field in an ordering is plain. -/
theorem Orders.isPlain {entry : String × String} {text : String} (h : Orders entry text) :
    IsPlain text := by
  obtain ⟨hname, known, hknown, -, rfl⟩ := h
  have hdirections : ∀ known ∈ Action.directions, IsPlain (" " ++ known) := by decide
  have hplain := (isPlain_backquoted hname).append (hdirections known hknown)
  rwa [← String.append_assoc] at hplain

/-- A selection that is compiled writes its fields, the clause of the condition in force unless it
is trivial, and what else the state has gathered. -/
theorem select_eq_ok {statement : Bound} (h : model.selectStatement = .ok statement) :
    ∃ names clause orders query,
      selectedNames (.ofOption Value.ofNames model.state.selected) = some names ∧
      (∀ text ∈ names.map fieldText, IsPlain text) ∧
      Identifier.isNameValue (.text model.name) = true ∧
      model.clause .null .zero = .ok clause ∧
      (∀ name ∈ model.state.grouping.getD [], Identifier.isNameValue (.text name) = true) ∧
      List.Forall₂ Orders model.state.ordering orders ∧
      ({ verb := some .select, table := some (Identifier.backquoted model.name)
         selected := (names.map fieldText).map .text
         conditions := if clause.isTrivial then [] else [.text clause.sql]
         grouping := (model.state.grouping.getD []).map Identifier.backquoted
         ordering := orders, limit := model.state.limit, offset := model.state.offset } :
        Builder).build = .ok query ∧
      statement = { sql := query.sql
                    parameters := numbered 0 query.parameters ++ clause.parameters } := by
  obtain ⟨parameters, builder, query, hruns, hbuild, rfl⟩ := bound_eq_ok.1 h
  obtain ⟨_, _, hselect, hruns⟩ := Runs.bind_iff.1 hruns
  obtain ⟨names, hnames, hplain, rfl⟩ := runs_select hselect
  obtain ⟨_, _, htable, hruns⟩ := Runs.bind_iff.1 hruns
  obtain ⟨hname, rfl⟩ := runs_setTable htable
  obtain ⟨_, _, hcondition, hruns⟩ := Runs.bind_iff.1 hruns
  obtain ⟨clause, hclause, rfl, rfl⟩ := runs_applyCondition rfl hcondition
  obtain ⟨_, _, hgrouping, hruns⟩ := Runs.bind_iff.1 hruns
  obtain ⟨hgroupingNames, rfl⟩ := runs_applyGrouping hgrouping
  obtain ⟨_, _, hordering, hruns⟩ := Runs.bind_iff.1 hruns
  obtain ⟨orders, horders, rfl⟩ := runs_orderings hordering
  obtain ⟨_, _, hlimit, hruns⟩ := Runs.bind_iff.1 hruns
  obtain rfl := runs_limit hlimit
  obtain ⟨_, _, hoffset, hruns⟩ := Runs.bind_iff.1 hruns
  obtain rfl := runs_offset hoffset
  obtain ⟨rfl, rfl⟩ := Runs.pure_iff.1 hruns
  refine ⟨names, clause, orders, query, hnames, hplain, hname, hclause, hgroupingNames, horders,
    ?_, rfl⟩
  -- nothing was set before the limit and the offset
  have hcount (count : Option Int) : (count.orElse fun _ => none) = count := by cases count <;> rfl
  simp only [List.nil_append, hcount] at hbuild
  exact hbuild

end TypedSql.Model
