import Mathlib.Data.List.Forall2
import TypedSql.Proofs.Condition.Clause
import TypedSql.Proofs.Model.Conjunction
import TypedSql.Proofs.Model.Selection
import TypedSql.Proofs.Statement.Cutting
import TypedSql.Proofs.Table.Lookup

/-!
# Selections tell states apart

The text of a selection determines what the state has gathered, up to the values that are bound:
`selection_determines_state`. Two things make it so. A state that calls have made suits its table
(`suits_of_chain`), so that its parts are parts of a selection (`exists_selection`); and the text of
a selection determines its parts.
-/

namespace TypedSql

open TypedSql.Sql TypedSql.Outcome TypedSql.Statement TypedSql.Condition

namespace Model

/-- Whether a state has gathered what there is in a table: names of columns, at least one if fields
are selected, and directions in capitals. -/
structure Suits (table : Table) (state : QueryState) : Prop where
  selected : ∀ names ∈ state.selected, names ≠ [] ∧ ∀ name ∈ names, name ∈ table.columnNames
  ordering : ∀ entry ∈ state.ordering,
    entry.1 ∈ table.columnNames ∧ entry.2 ∈ Action.directions
  grouping : ∀ name ∈ state.grouping.getD [], name ∈ table.columnNames

section Suits

variable {table : Table} {state : QueryState} {model final : Model}

/-- Nothing gathered suits every table. -/
theorem suits_empty (table : Table) : Suits table {} where
  selected names hnames := by cases hnames
  ordering := List.forall_mem_nil _
  grouping := List.forall_mem_nil _

theorem mem_columnNames_of_mem_names {fields : List Value}
    (h : ∀ field ∈ fields, table.hasColumn field = .ok true) :
    ∀ name ∈ Step.names fields, name ∈ table.columnNames :=
  List.forall_mem_map.2 fun field hfield => Table.mem_columnNames_of_hasColumn (h field hfield)

/-- A call that passes keeps the state suitable. -/
theorem Suits.change [Copying] {step : Step} (h : Suits table state) (hpasses : step.Passes table) :
    Suits table (step.change state) := by
  cases step with
  | filter | limit | offset => exact ⟨h.selected, h.ordering, h.grouping⟩
  | select fields =>
      refine ⟨fun names hnames => ?_, h.ordering, h.grouping⟩
      simp only [Step.change] at hnames
      split at hnames
      · cases hnames
      · next hnonempty =>
          cases hnames
          exact ⟨by simpa using hnonempty, mem_columnNames_of_mem_names hpasses⟩
  | orderBy field direction =>
      obtain ⟨⟨known, hknown, hcapitals⟩, hfield⟩ := hpasses
      refine ⟨h.selected, List.forall_mem_append.2 ⟨h.ordering, ?_⟩, h.grouping⟩
      refine List.forall_mem_singleton.2 ⟨Table.mem_columnNames_of_hasColumn hfield, ?_⟩
      rw [hcapitals]
      exact hknown
  | groupBy fields => exact ⟨h.selected, h.ordering, mem_columnNames_of_mem_names hpasses⟩
  | reset => exact suits_empty table

/-- Calls that pass keep the state suitable. -/
theorem Suits.foldl [Copying] {steps : List Step} (h : Suits table state)
    (hpasses : ∀ step ∈ steps, step.Passes table) :
    Suits table (steps.foldl (fun state step => step.change state) state) := by
  induction steps generalizing state with
  | nil => exact h
  | cons step rest ih =>
      obtain ⟨hstep, hrest⟩ := List.forall_mem_cons.1 hpasses
      exact ih (h.change hstep) hrest

/-- What a chain of calls on a fresh model has gathered suits the table. -/
theorem suits_of_chain [Copying] {steps : List Step} (hfresh : model.state = {})
    (h : model.chain steps = .ok final) : Suits model.table final.state := by
  obtain ⟨hpasses, rfl⟩ := (chain_eq_ok_iff (copies_of_fresh hfresh)).1 h
  rw [hfresh]
  exact (suits_empty model.table).foldl hpasses

end Suits

section Selections

variable {model : Model} {table : Table} {statement : Bound}

/-- The texts of the fields that a state selects. -/
def fieldTexts : Option (List String) → List String
  | none => ["*"]
  | some names => names.map Identifier.backquoted

/-- Fields that are selected are determined by their texts. -/
theorem fieldTexts_injective : Function.Injective fieldTexts := by
  have hstar (names : List String) : ["*"] ≠ names.map Identifier.backquoted := by
    intro h
    obtain ⟨name, -, hname⟩ := List.mem_map.1 (h ▸ List.mem_singleton_self "*")
    have hchars := congrArg String.toList hname
    simp [Identifier.backquoted] at hchars
  intro selected other h
  cases selected with
  | none =>
      cases other with
      | none => rfl
      | some names => exact absurd h (hstar names)
  | some names =>
      cases other with
      | none => exact absurd h.symm (hstar names)
      | some others => rw [List.map_injective_iff.2 Identifier.backquoted_injective h]

/-- The selected fields of a suitable state are written as they are. -/
theorem Suits.map_fieldText {state : QueryState} (hsuits : Suits table state) (hvalid : table.Valid)
    {names : List Value} (h : selectedNames (.ofOption Value.ofNames state.selected) = some names) :
    names.map fieldText = fieldTexts state.selected := by
  cases hselected : state.selected with
  | none =>
      rw [hselected] at h
      cases h
      rfl
  | some known =>
      obtain ⟨hnonempty, hknown⟩ := hsuits.selected known hselected
      rw [hselected] at h
      cases known with
      | nil => exact absurd rfl hnonempty
      | cons first rest =>
          obtain rfl : (first :: rest).map .text = names := Option.some.inj h
          rw [List.map_map]
          refine List.map_congr_left fun name hname => ?_
          -- a star is no name of a column, so it always stands for all of them
          have hstar : name ≠ "*" := by
            rintro rfl
            exact absurd (hvalid.names _ (hknown _ hname)) (by decide)
          have htext : (Value.text name).asText? ≠ some "*" := by simpa [Value.asText?] using hstar
          exact if_neg htext

/-- The name of a column is quoted. -/
theorem isQuoted_of_mem_columnNames (hvalid : table.Valid) {name : String}
    (h : name ∈ table.columnNames) : Identifier.IsQuoted (Identifier.backquoted name) :=
  ⟨name, rfl, fun _ hc => Identifier.isShown_of_mem_name (hvalid.names name h) hc⟩

/-- A suitable state selects fields, and at least one. -/
theorem Suits.fieldTexts {state : QueryState} (h : Suits table state)
    (hvalid : table.Valid) : fieldTexts state.selected ≠ [] ∧
      ∀ text ∈ fieldTexts state.selected, IsField text := by
  cases hselected : state.selected with
  | none => exact ⟨List.cons_ne_nil _ _, List.forall_mem_singleton.2 (.inl rfl)⟩
  | some names =>
      obtain ⟨hnonempty, hnames⟩ := h.selected names hselected
      exact ⟨fun hnil => hnonempty (List.map_eq_nil_iff.1 hnil), List.forall_mem_map.2
        fun name hname => .inr (isQuoted_of_mem_columnNames hvalid (hnames name hname))⟩

/-- The text of a field in an ordering is one. -/
theorem Orders.isOrdering {entry : String × String} {text : String} (h : Orders entry text) :
    IsOrdering text := by
  obtain ⟨hname, known, hknown, -, rfl⟩ := h
  exact ⟨_, Identifier.isQuoted_backquoted hname, known, hknown, rfl⟩

/-- What an ordering adds for a field of a suitable state is the field with its direction. -/
theorem Orders.eq {entry : String × String} {text : String} (h : Orders entry text)
    (hdirection : entry.2 ∈ Action.directions) :
    text = Identifier.backquoted entry.1 ++ " " ++ entry.2 := by
  have hcapitals : ∀ direction ∈ Action.directions,
      Action.checkDirection (.text direction) = .ok direction := by decide +kernel
  obtain ⟨-, known, -, hcheck, rfl⟩ := h
  cases (hcapitals entry.2 hdirection).symm.trans hcheck
  rfl

/-- The orderings of suitable states are determined by what they add. -/
theorem leftUnique_orders (hvalid : table.Valid) :
    Relator.LeftUnique fun (entry : String × String) text =>
      (entry.1 ∈ table.columnNames ∧ entry.2 ∈ Action.directions) ∧ Orders entry text := by
  rintro ⟨field, direction⟩ ⟨other, another⟩ text ⟨⟨hfield, hdirection⟩, horders⟩
    ⟨⟨hother, hanother⟩, hsame⟩
  obtain rfl := horders.eq hdirection
  have htexts : (Identifier.backquoted field).toList ++ (" " ++ direction).toList =
      (Identifier.backquoted other).toList ++ (" " ++ another).toList := by
    simp only [← String.toList_append, ← String.append_assoc]
    rw [hsame.eq hanother]
  obtain ⟨hquoted, hbehind⟩ := prefixFree_isQuoted.cut (isQuoted_of_mem_columnNames hvalid hfield)
    (isQuoted_of_mem_columnNames hvalid hother) htexts
  exact Prod.ext (Identifier.backquoted_injective hquoted)
    ((String.append_right_inj " ").1 (String.toList_inj.1 hbehind))

/-- The condition in force has no raw SQL if the gathered ones have none. -/
theorem isRawFree_effective (h : ∀ condition ∈ model.state.conditions, IsRawFree condition) :
    IsRawFree (model.effective .null) := by
  have heach {conditions : List Value} (h : ∀ condition ∈ conditions, IsRawFree condition) :
      EachRaw (fun _ => False) conditions := by
    induction conditions with
    | nil => trivial
    | cons condition rest ih =>
        obtain ⟨hcondition, hrest⟩ := List.forall_mem_cons.1 h
        exact ⟨hcondition, ih hrest⟩
  have hnull : (!Value.null.isNull) = false := rfl
  rw [effective, hnull, if_neg Bool.false_ne_true]
  split
  · trivial
  · next condition hconditions =>
      exact h condition (hconditions ▸ List.mem_singleton_self condition)
  · exact ⟨heach h, trivial⟩

/-- Whether a selection has the parts that a state with a clause is written as. A trivial clause is
left out. -/
structure Writes (state : QueryState) (clause : Clause) (selection : Selection) : Prop where
  fields : selection.fields = fieldTexts state.selected
  condition : selection.condition = if clause.isTrivial then none else some clause.sql
  grouping : selection.grouping = (state.grouping.getD []).map Identifier.backquoted
  ordering : List.Forall₂ Orders state.ordering selection.ordering
  limit : selection.limit = state.limit
  offset : selection.offset = state.offset

/-- What a suitable state has gathered is written as the parts of a selection. -/
theorem exists_selection (hvalid : table.Valid) (hsuits : Suits table model.state)
    (hraw : ∀ condition ∈ model.state.conditions, IsRawFree condition)
    (h : model.selectStatement = .ok statement) :
    ∃ (selection : Selection) (query : Query) (clause : Clause),
      selection.builder.build = .ok query ∧ query.sql = statement.sql ∧
      model.clause .null .zero = .ok clause ∧ Writes model.state clause selection := by
  obtain ⟨names, clause, orders, query, hnames, -, hname, hclause, -, horders, hbuild, rfl⟩ :=
    select_eq_ok h
  have hconditions : (if clause.isTrivial then [] else [.text clause.sql]) =
      (if clause.isTrivial then none else some clause.sql).toList.map Value.text := by
    cases clause.isTrivial <;> rfl
  rw [hsuits.map_fieldText hvalid hnames, hconditions] at hbuild
  let selection : Selection := {
    fields := fieldTexts model.state.selected
    table := Identifier.backquoted model.name
    condition := if clause.isTrivial then none else some clause.sql
    grouping := (model.state.grouping.getD []).map Identifier.backquoted
    ordering := orders
    limit := model.state.limit
    offset := model.state.offset
    nonempty := (hsuits.fieldTexts hvalid).1
    isField := (hsuits.fieldTexts hvalid).2
    isTable := Identifier.isQuoted_backquoted hname
    scans := by
      cases clause.isTrivial with
      | true => exact fun sql hsql => absurd hsql (Option.not_mem_none sql)
      | false =>
          rintro _ ⟨⟩
          exact scans_compile (isRawFree_effective hraw) hclause
    isGrouping := List.forall_mem_map.2 fun name hname =>
      isQuoted_of_mem_columnNames hvalid (hsuits.grouping name hname)
    isOrdering := by
      intro text htext
      obtain ⟨_, -, horder⟩ := exists_of_mem_right horders htext
      exact horder.isOrdering }
  exact ⟨selection, query, clause, hbuild, rfl, hclause, rfl, rfl, rfl, horders, rfl, rfl⟩

variable {first second : QueryState} {clause again : Clause} {selection : Selection}

/-- Suitable states have the same ordering if they are written as one selection. -/
theorem Writes.ordering_eq (h : Writes first clause selection)
    (hother : Writes second again selection) (hvalid : table.Valid) (hfirst : Suits table first)
    (hsecond : Suits table second) : first.ordering = second.ordering :=
  List.left_unique_forall₂' (leftUnique_orders hvalid)
    ((List.forall₂_and_left _ _).2 ⟨hfirst.ordering, h.ordering⟩)
    ((List.forall₂_and_left _ _).2 ⟨hsecond.ordering, hother.ordering⟩)

/-- Clauses have the same text if they are written alike: one that is left out is known. -/
theorem Writes.sql_eq (h : Writes first clause selection)
    (hother : Writes second again selection) : clause.sql = again.sql := by
  have hsame := h.condition.symm.trans hother.condition
  simp only [Clause.isTrivial, decide_eq_true_iff] at hsame
  split at hsame <;> split at hsame
  · next htrivial hagain => rw [htrivial, hagain]
  · cases hsame
  · cases hsame
  · exact Option.some.inj hsame

end Selections

/-- Two models that chains of calls have made for one table, with no raw SQL in their conditions,
have gathered the same if the texts of their selections are the same: the same fields, orderings,
limits, offsets and groupings, none and an empty one being the same grouping, and conditions with
the same text. -/
theorem selection_determines_state [Coercion] [Copying] {model first second : Model}
    {steps others : List Step} {statement other : Bound} (htable : model.table.Reachable)
    (hfresh : model.state = {}) (hfirst : model.chain steps = .ok first)
    (hsecond : model.chain others = .ok second)
    (hraw : ∀ condition ∈ first.state.conditions ++ second.state.conditions, IsRawFree condition)
    (hstatement : first.selectStatement = .ok statement)
    (hother : second.selectStatement = .ok other) (hsql : statement.sql = other.sql) :
    first.state.selected = second.state.selected ∧
      first.state.ordering = second.state.ordering ∧
      first.state.limit = second.state.limit ∧ first.state.offset = second.state.offset ∧
      first.state.grouping.getD [] = second.state.grouping.getD [] ∧
      ∃ clause again, first.clause .null .zero = .ok clause ∧
        second.clause .null .zero = .ok again ∧ clause.sql = again.sql := by
  obtain ⟨hfirstRaw, hsecondRaw⟩ := List.forall_mem_append.1 hraw
  have hfirstSuits := suits_of_chain hfresh hfirst
  have hsecondSuits := suits_of_chain hfresh hsecond
  obtain ⟨selection, query, clause, hbuild, hquery, hclause, hwrites⟩ :=
    exists_selection htable.valid hfirstSuits hfirstRaw hstatement
  obtain ⟨same, another, again, hbuildAgain, hanother, hagain, hwritesAgain⟩ :=
    exists_selection htable.valid hsecondSuits hsecondRaw hother
  obtain rfl : selection = same :=
    Selection.eq_of_sql_eq hbuild hbuildAgain (by rw [hquery, hanother, hsql])
  exact ⟨fieldTexts_injective (hwrites.fields.symm.trans hwritesAgain.fields),
    hwrites.ordering_eq hwritesAgain htable.valid hfirstSuits hsecondSuits,
    hwrites.limit.symm.trans hwritesAgain.limit, hwrites.offset.symm.trans hwritesAgain.offset,
    List.map_injective_iff.2 Identifier.backquoted_injective
      (hwrites.grouping.symm.trans hwritesAgain.grouping),
    clause, again, hclause, hagain, hwrites.sql_eq hwritesAgain⟩

/-- Calls in two orders, with two values of a condition, have one text. -/
theorem accounts_selections_agree :
    let steps : List Step := [.select [.text "name"], .filter (.map [(.text "id", .int 1)]) [],
      .groupBy [.text "name"], .orderBy (.text "name") (.text "desc"), .limit (.int 3)]
    let others : List Step := [.limit (.int 3), .groupBy [.text "name"],
      .filter (.map [(.text "id", .int 2)]) [], .orderBy (.text "name") (.text "DESC"),
      .select [.text "name"]]
    let sql := "SELECT `name` FROM `accounts` WHERE `id` = {param0:Int32} GROUP BY `name` " ++
      "ORDER BY `name` DESC LIMIT 3"
    ∃ first second statement other, accounts.table.Reachable ∧ accounts.state = {} ∧
      accounts.chain steps = .ok first ∧ accounts.chain others = .ok second ∧
      (∀ condition ∈ first.state.conditions ++ second.state.conditions, IsRawFree condition) ∧
      first.selectStatement = .ok statement ∧ second.selectStatement = .ok other ∧
      statement.sql = sql ∧ other.sql = sql ∧
      first.state.ordering = second.state.ordering ∧
      ∃ clause again, first.clause .null .zero = .ok clause ∧
        second.clause .null .zero = .ok again ∧ clause.sql = again.sql := by
  intro steps others sql
  have hsteps : ∀ step ∈ steps, step.Passes accounts.table := by decide +kernel
  have hothers : ∀ step ∈ others, step.Passes accounts.table := by decide +kernel
  have hcopies := copies_of_fresh (rfl : accounts.state = {})
  have hfirst := (chain_eq_ok_iff hcopies).2 ⟨hsteps, rfl⟩
  have hsecond := (chain_eq_ok_iff hcopies).2 ⟨hothers, rfl⟩
  let first : Model :=
    { accounts with state := steps.foldl (fun state step => step.change state) {} }
  let second : Model :=
    { accounts with state := others.foldl (fun state step => step.change state) {} }
  have hraw : ∀ condition ∈ first.state.conditions ++ second.state.conditions,
      IsRawFree condition := by
    simp [first, second, steps, others, Step.change, Step.conditions,
      Value.isNull, IsRawFree, EveryRaw, EntriesRaw]
  obtain ⟨statement, hstatement, hsql⟩ : ∃ statement, first.selectStatement = .ok statement ∧
      statement.sql = sql := toOption_map_eq_some.1 (by decide +kernel)
  obtain ⟨other, hother, hsame⟩ : ∃ statement, second.selectStatement = .ok statement ∧
      statement.sql = sql := toOption_map_eq_some.1 (by decide +kernel)
  obtain ⟨-, hordering, -, -, -, hclauses⟩ := selection_determines_state accounts_reachable rfl
    hfirst hsecond hraw hstatement hother (hsql.trans hsame.symm)
  exact ⟨first, second, statement, other, accounts_reachable, rfl, hfirst, hsecond, hraw,
    hstatement, hother, hsql, hsame, hordering, hclauses⟩

end Model

end TypedSql
