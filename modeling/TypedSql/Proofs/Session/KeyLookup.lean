import TypedSql.Proofs.Condition.SingleKey
import TypedSql.Proofs.Model.Conjunction
import TypedSql.Proofs.Model.Selection
import TypedSql.Proofs.Session.Update
import TypedSql.Session.Reading

/-!
# Lookups by the primary key

A lookup compiles a condition under the name of the primary key, so a value is read as every value
of a condition is. It asks for one row whose key equals the value unless the value is a map with the
key of an operator, or the primary key has the name of a connective: `looks_up_key_iff`.
-/

namespace TypedSql

open TypedSql.Outcome TypedSql.Statement TypedSql.Condition

/-- The call of a statement that answers with rows. -/
def Statement.Bound.question (statement : Bound) : Call where
  isQuery := true
  sql := .text statement.sql
  parameters := statement.parameters.map fun (name, value) => (.text name, value)

namespace Session

variable {executor : Executor} {before : Journal}

/-- Whatever a question is answered, it is the one call that is sent. -/
theorem calls_query (settings : Settings) (statement : Bound) :
    (run (query settings (.text statement.sql) (Model.parametersOf statement)) executor
      before).2.calls = before.calls ++ [statement.question] := by
  have hnamed : statement.question.IsNamed := statement.isNamed_command
  have hrows : ∀ answer, Silent (rowsOf answer) := by
    intro answer
    unfold rowsOf
    split
    · exact .pure []
    · cases answer.elements? with
      | some rows => exact .pure rows
      | none => exact fun _ _ => rfl
  rw [query, show parameterEntries (Model.parametersOf statement) = _ from parameterEntries_map _,
    run_bind_ok (run_ofExcept _), Silent.calls_bind hrows]
  obtain ⟨logs, hrun⟩ := @run_execute executor before settings _ hnamed
  show (run (execute settings statement.question) executor before).2.calls = _
  rw [hrun]
  cases executor before.calls statement.question with
  | ok answer => rfl
  | error error =>
      obtain ⟨fault, more, hfailed⟩ := @run_failed executor
        { before with
          calls := before.calls ++ [statement.question], logs := before.logs ++ logs }
        Value statement.question error
      simp only [hfailed]

end Session

namespace Model

open Session

variable {model : Model} {executor : Executor} {before : Journal} {key : String} {value : Value}

section Statement

variable {condition : Value} {clause : Clause}

/-- The first row that meets a condition is asked for with the clause of the condition. -/
theorem selectStatement_first (hname : Identifier.isName model.name = true)
    (hstate : model.state = { conditions := [condition], limit := some 1 })
    (hclause : compile condition .zero = .ok clause) :
    model.selectStatement = .ok
      { sql := (withClause (selectionHead ["*"] (Identifier.backquoted model.name)) clause).sql ++
          " LIMIT 1"
        parameters := clause.parameters } := by
  have hforce : model.clause .null .zero = .ok clause := by
    have heffective : model.effective .null = condition := by
      simp [effective, hstate, Value.isNull]
    rwa [Model.clause, heffective]
  have hgrouping : model.applyGrouping = pure () := by simp [applyGrouping, hstate]
  have hbuild : ({ verb := some .select, table := some (Identifier.backquoted model.name)
                   selected := ["*"].map .text
                   conditions := (if clause.isTrivial then [] else [clause.sql]).map .text } :
      Builder).build = .ok
        { sql := (withClause (selectionHead ["*"] (Identifier.backquoted model.name)) clause).sql
          parameters := [] } := by
    rw [build_selection (List.cons_ne_nil _ _), withClause]
    split
    · rfl
    · exact congrArg _ (congrArg (Query.mk · []) (intercalate_condition _ _))
  unfold selectStatement
  simp only [hstate]
  refine bound_eq_ok.2 ⟨_, _, _, ?_, build_limited rfl rfl rfl rfl hbuild, rfl⟩
  refine Runs.bind_iff.2 ⟨(), { verb := some .select, selected := [.text "*"] }, rfl, ?_⟩
  refine Runs.bind_iff.2 ⟨(), _, runs_setTable_of_isName hname, ?_⟩
  refine Runs.bind_iff.2 ⟨clause.parameters, _,
    (runs_applyCondition_iff rfl).2 ⟨clause, hforce, rfl, rfl⟩, ?_⟩
  rw [hgrouping]
  cases clause.isTrivial <;> rfl

end Statement

section Lookup

/-- The model of a lookup: it asks for one row under the condition that the key has the value. -/
def lookingUp (model : Model) (key : String) (value : Value) : Model :=
  { model with state := { conditions := [.map [(.text key, value)]], limit := some 1 } }

/-- The primary key of a valid table has a name. -/
theorem isName_primaryKey (htable : model.table.Valid) (hkey : model.table.primaryKey? = some key) :
    Identifier.isName key = true := by
  obtain ⟨entry, hentry, rfl⟩ := Option.map_eq_some_iff.1 hkey
  exact htable.names _ (List.mem_map_of_mem (List.mem_of_find?_eq_some hentry))

section Calls

variable [Copying] {settings : Settings}

/-- A condition under the primary key is added to a fresh model exactly if it can be copied. -/
theorem filter_key_eq_ok (htable : model.table.Valid) (hfresh : model.state = {})
    (hkey : model.table.primaryKey? = some key) {next : Model} :
    model.filter (.map [(.text key, value)]) [] = .ok next ↔
      Copying.copies (.map [(.text key, value)]) = true ∧
        next = { model with state := { conditions := [.map [(.text key, value)]] } } := by
  have hcheck : checkKeys (.map [(.text key, value)]) = .ok () := by
    have hname : Identifier.isNameValue (.text key) = true := isName_primaryKey htable hkey
    simp [checkKeys, hname]
  have hstep := @run_eq_ok_iff _ model next (.filter (.map [(.text key, value)]) [])
    (copies_of_fresh hfresh)
  rw [passes_filter_iff rfl hcheck, hfresh] at hstep
  exact hstep

variable [Json.Depth]

/-- A lookup whose condition cannot be copied sends nothing. -/
theorem calls_findByPrimaryKey_of_not_copies (htable : model.table.Valid)
    (hfresh : model.state = {}) (hkey : model.table.primaryKey? = some key)
    (hcopies : Copying.copies (.map [(.text key, value)]) ≠ true) :
    (run (model.findByPrimaryKey value) executor before).2.calls = before.calls := by
  rw [findByPrimaryKey, hkey]
  show (run (model.findOne (.map [(.text key, value)]) []) executor before).2.calls = _
  cases hfilter : model.filter (.map [(.text key, value)]) [] with
  | ok next => exact absurd ((filter_key_eq_ok htable hfresh hkey).1 hfilter).1 hcopies
  | error fault => rw [findOne, hfilter, run_bind_error (run_ofExcept _)]

/-- A lookup sends the statement of its model, if there is one. -/
theorem calls_findByPrimaryKey (htable : model.table.Valid)
    (hsettings : model.settings = some settings) (hfresh : model.state = {})
    (hkey : model.table.primaryKey? = some key)
    (hcopies : Copying.copies (.map [(.text key, value)]) = true) :
    (run (model.findByPrimaryKey value) executor before).2.calls =
      before.calls ++ match (model.lookingUp key value).selectStatement with
        | .ok statement => [statement.question]
        | .error _ => [] := by
  have hfilter : model.filter (.map [(.text key, value)]) [] =
      .ok { model with state := { conditions := [.map [(.text key, value)]] } } :=
    (filter_key_eq_ok htable hfresh hkey).2 ⟨hcopies, rfl⟩
  let filtered : Model := { model with state := { conditions := [.map [(.text key, value)]] } }
  have hfiltered : filtered.state.Copies := List.forall_mem_singleton.2 hcopies
  have hlimit : filtered.limit (.int 1) = .ok (model.lookingUp key value) :=
    (@run_eq_ok_iff _ filtered _ (.limit (.int 1)) hfiltered).2 ⟨rfl, rfl⟩
  have hlookup : (run (model.findByPrimaryKey value) executor before).2.calls =
      (run (model.lookingUp key value).rows executor before).2.calls := by
    rw [findByPrimaryKey, hkey]
    show (run (model.findOne (.map [(.text key, value)]) []) executor before).2.calls = _
    rw [findOne, hfilter, run_bind_ok (run_ofExcept _), first, hlimit, run_bind_ok (run_ofExcept _)]
    refine Silent.calls_bind fun rows => ?_
    cases rows with
    | nil => exact .pure _
    | cons => exact .ofExcept _
  rw [hlookup, rows]
  cases (model.lookingUp key value).selectStatement with
  | error fault => exact (List.append_nil _).symm
  | ok statement =>
      rw [run_bind_ok (run_ofExcept _), runQuery, requireSettings,
        show (model.lookingUp key value).settings = some settings from hsettings]
      exact calls_query settings statement

end Calls

/-- The call that asks for one row whose key has a value. -/
def keyLookup (model : Model) (key : String) (value : Value) : Call where
  isQuery := true
  sql := .text ("SELECT * FROM " ++ Identifier.backquoted model.name ++ " WHERE " ++
    keyText key value ++ " LIMIT 1")
  parameters := (keyParameters value).map fun (name, value) => (.text name, value)

theorem toList_keyText (key : String) (value : Value) :
    ∃ rest, (keyText key value).toList = '\x60' :: rest := by
  unfold keyText Identifier.backquoted
  rw [String.toList_append, String.toList_append, String.toList_append]
  exact ⟨_, rfl⟩

/-- What a lookup sends carries the clause of its condition. -/
theorem question_of_selectStatement (htable : model.table.Valid) {statement : Bound}
    (h : (model.lookingUp key value).selectStatement = .ok statement) :
    ∃ clause, compile (.map [(.text key, value)]) .zero = .ok clause ∧ statement =
      { sql := (withClause ("SELECT * FROM " ++ Identifier.backquoted model.name) clause).sql ++
          " LIMIT 1"
        parameters := clause.parameters } := by
  obtain ⟨_, clause, _, _, _, _, _, hclause, _⟩ := select_eq_ok h
  have hcompile : compile (.map [(.text key, value)]) .zero = .ok clause := hclause
  have hstatement :=
    @selectStatement_first (model.lookingUp key value) _ _ htable.name rfl hcompile
  rw [selectionHead_all] at hstatement
  exact ⟨clause, hcompile, Except.ok.inj (h.symm.trans hstatement)⟩

/-- The condition of a connective is not the test of a key. -/
theorem sql_ne_of_connective {clause : Clause} (hconnective : connective? (.text key) ≠ none)
    (hclause : compile (.map [(.text key, value)]) .zero = .ok clause) (head : String) :
    (withClause head clause).sql ++ " LIMIT 1" ≠
      head ++ " WHERE " ++ keyText key value ++ " LIMIT 1" := by
  intro hsql
  obtain ⟨rest, htext⟩ := toList_keyText key value
  have hhead := head?_of_connective hconnective hclause
  have hchars := congrArg String.toList hsql
  unfold withClause at hchars
  split at hchars
  · -- without a condition the limit stands in its place
    simp only [String.toList_append, List.append_assoc, List.append_cancel_left_eq] at hchars
    cases hchars
  · simp only [String.toList_append, List.append_assoc, List.append_cancel_left_eq, htext] at hchars
    cases hsql : clause.sql.toList with
    | nil => exact compile_sql_ne_empty hclause (String.toList_eq_nil_iff.1 hsql)
    | cons first others =>
        rw [hsql] at hchars hhead
        exact hhead (congrArg some (List.cons.inj hchars).1)

/-- A lookup of data under the name of a column sends the test of the key. -/
theorem selectStatement_key (htable : model.table.Valid) (hkey : Identifier.isName key = true)
    (hcolumn : connective? (.text key) = none) (hdata : value.isData = true)
    (hlooks : looksLikeOperators value = false) :
    ∃ statement, (model.lookingUp key value).selectStatement = .ok statement ∧
      statement.question = model.keyLookup key value := by
  have hclause := compile_key hkey hcolumn hdata hlooks
  have htrivial : Clause.isTrivial
      { sql := keyText key value, parameters := keyParameters value } = false := by
    obtain ⟨rest, htext⟩ := toList_keyText key value
    refine decide_eq_false fun hsame => ?_
    rw [show keyText key value = alwaysTrue from hsame] at htext
    cases htext
  have hstatement := @selectStatement_first (model.lookingUp key value) _ _ htable.name rfl hclause
  rw [selectionHead_all, withClause, htrivial] at hstatement
  exact ⟨_, hstatement, rfl⟩

/-- A lookup that sends the test of the key is under the name of a column, and its value is no map
of operators. -/
theorem column_of_question (htable : model.table.Valid) {statement : Bound}
    (h : (model.lookingUp key value).selectStatement = .ok statement)
    (hquestion : statement.question = model.keyLookup key value) :
    connective? (.text key) = none ∧ looksLikeOperators value = false := by
  obtain ⟨clause, hclause, rfl⟩ := question_of_selectStatement htable h
  injection hquestion with _ hsql hparameters
  injection hsql with hsql
  have hcolumn : connective? (.text key) = none :=
    Decidable.not_not.1 fun hconnective => sql_ne_of_connective hconnective hclause _ hsql
  refine ⟨hcolumn, Bool.not_eq_true _ ▸ fun hlooks => ?_⟩
  obtain ⟨entries, hentries, -⟩ := (Option.any_eq_true _ _).1 hlooks
  cases value with
  | map known =>
      -- the test of the key binds the map, which a map of operators does not
      have hmem : (Value.text "param0", Value.map known) ∈
          clause.parameters.map fun (name, value) => (.text name, value) := by
        rw [hparameters]
        exact List.mem_cons_self
      obtain ⟨⟨name, bound⟩, hbound, hsame⟩ := List.mem_map.1 hmem
      cases hsame
      exact not_mem_parameters_of_operators hcolumn hlooks hclause _ hbound
  | _ => cases hentries

/-- A lookup asks for one row whose key has the value, exactly if the value is no map with the key
of an operator and the key has not the name of a connective; the value has to be one that can be
copied. -/
theorem looks_up_key_iff [Coercion] [Copying] [Json.Depth] (htable : model.table.Reachable)
    {settings : Settings} (hsettings : model.settings = some settings) (hfresh : model.state = {})
    (hkey : model.table.primaryKey? = some key) (hdata : value.isData = true)
    (executor : Executor) (before : Journal) :
    (run (model.findByPrimaryKey value) executor before).2.calls =
        before.calls ++ [model.keyLookup key value] ↔
      Copying.copies (.map [(.text key, value)]) = true ∧ key ∉ connectiveNames ∧
        looksLikeOperators value = false := by
  have hname := isName_primaryKey htable.valid hkey
  by_cases hcopies : Copying.copies (.map [(.text key, value)]) = true
  · rw [and_iff_right hcopies,
      calls_findByPrimaryKey htable.valid hsettings hfresh hkey hcopies,
      List.append_cancel_left_eq, ← connective?_eq_none_iff hname]
    constructor
    · intro hsent
      cases hstatement : (model.lookingUp key value).selectStatement with
      | error fault =>
          rw [hstatement] at hsent
          cases hsent
      | ok statement =>
          rw [hstatement] at hsent
          exact column_of_question htable.valid hstatement (List.cons.inj hsent).1
    · rintro ⟨hcolumn, hlooks⟩
      obtain ⟨statement, hstatement, hquestion⟩ :=
        @selectStatement_key model _ _ htable.valid hname hcolumn hdata hlooks
      rw [hstatement, ← hquestion]
  · rw [calls_findByPrimaryKey_of_not_copies htable.valid hfresh hkey hcopies]
    refine iff_of_false (fun hsent => ?_) fun h => hcopies h.1
    exact List.cons_ne_nil _ _ (List.self_eq_append_right.1 hsent)

/-- A user is looked up by a number, and by null. -/
theorem users_looked_up :
    let executor : Executor := fun _ _ => .ok .null
    users.table.Reachable ∧ users.state = {} ∧ users.table.primaryKey? = some "id" ∧
      (run (users.findByPrimaryKey (.int 7)) executor {}).2.calls =
        [users.keyLookup "id" (.int 7)] ∧
      (run (users.findByPrimaryKey .null) executor {}).2.calls = [users.keyLookup "id" .null] := by
  intro executor
  exact ⟨users_reachable, rfl, rfl,
    (looks_up_key_iff users_reachable rfl rfl rfl rfl executor {}).2 ⟨rfl, by decide, rfl⟩,
    (looks_up_key_iff users_reachable rfl rfl rfl rfl executor {}).2 ⟨rfl, by decide, rfl⟩⟩

/-- A map with the key of an operator is no key that is looked up: the question has another
condition and binds nothing. -/
theorem users_key_read_as_operators :
    let value : Value := .map [(.text "in", .list [])]
    let calls := (run (users.findByPrimaryKey value) (fun _ _ => .ok .null) {}).2.calls
    value.isData = true ∧ users.table.Reachable ∧ users.state = {} ∧
      users.table.primaryKey? = some "id" ∧ calls ≠ [users.keyLookup "id" value] ∧
      (calls.map fun call => (call.sql.asText?, call.parameters.length)) =
        [(some "SELECT * FROM \x60users\x60 WHERE 1=0 LIMIT 1", 0)] := by
  intro value calls
  have hcalls : (calls.map fun call => (call.sql.asText?, call.parameters.length)) =
      [(some "SELECT * FROM \x60users\x60 WHERE 1=0 LIMIT 1", 0)] := by
    decide +kernel
  refine ⟨rfl, users_reachable, rfl, rfl, fun hsame => ?_, hcalls⟩
  rw [hsame] at hcalls
  have hlength := congrArg (List.map Prod.snd) hcalls
  cases hlength

end Lookup

end Model

end TypedSql
