import TypedSql.Proofs.Condition.Constant
import TypedSql.Proofs.Model.Composition

/-!
# What the guard lets pass

The guard of updates and deletions looks at nothing but the text of the condition in force. Of the
conditions without a test of a column it refuses those that are empty and the empty exclusion that
stands alone; every other one passes, whether it holds of every row or of none
(`constant_conditions_refused_iff`).
-/

namespace TypedSql.Model

open TypedSql.Sql TypedSql.Outcome TypedSql.Statement TypedSql.Condition

variable {model : Model} {given : Value} {before : Builder} {clause : Clause}

section Passing

/-- A condition in force that is not trivial can be added to a statement. -/
theorem runs_applyCondition_of_clause (hstart : before.start = .zero)
    (hclause : model.clause given (.number before.bound.length) = .ok clause)
    (htrivial : clause.isTrivial = false) :
    Runs (model.applyCondition given) before clause.parameters
      { before with conditions := before.conditions ++ [.text clause.sql] } := by
  refine (runs_applyCondition_iff hstart).2 ⟨clause, hclause, rfl, ?_⟩
  rw [htrivial]
  rfl

/-- What passes the guard has the clause of the condition in force, which is not trivial. -/
theorem clause_of_requireCondition {operation : String} {condition : Value} {start : Start}
    (hrequire : model.requireCondition operation given = .ok condition)
    (hclause : model.clause given start = .ok clause) :
    model.clause condition start = .ok clause ∧ clause.isTrivial = false := by
  obtain ⟨rfl, hnull, known, hknown, htrivial⟩ := requireCondition_eq_ok.1 hrequire
  refine ⟨?_, ?_⟩
  · rw [Model.clause, effective_of_not_isNull hnull]
    exact hclause
  · rw [isTrivial_compile hclause hknown, htrivial]

/-- A deletion goes through with every condition that passes the guard. -/
theorem delete_of_requireCondition {condition : Value}
    (hrequire : model.requireCondition "DELETE" given = .ok condition)
    (hname : Identifier.isNameValue (.text model.name) = true)
    (hclause : model.clause given .zero = .ok clause) :
    model.deleteStatement given =
      .ok { sql := deletionHead (Identifier.backquoted model.name) ++ " WHERE " ++ clause.sql
            parameters := clause.parameters } := by
  obtain ⟨hcondition, htrivial⟩ := clause_of_requireCondition hrequire hclause
  have hdelete : Runs (Action.deleteFrom (.text model.name)) {} ()
      { verb := some .delete, table := some (Identifier.backquoted model.name) } :=
    Runs.bind_iff.2 ⟨(), _, Runs.modify_iff.2 rfl, runs_setTable_of_isName hname⟩
  have hruns : Runs (do Action.deleteFrom (.text model.name); model.applyCondition condition) {}
      clause.parameters
      { verb := some .delete, table := some (Identifier.backquoted model.name)
        conditions := [.text clause.sql] } :=
    Runs.bind_iff.2 ⟨(), _, hdelete, runs_applyCondition_of_clause rfl hcondition htrivial⟩
  have hbound := bound_eq_ok.2 ⟨clause.parameters, _, _, hruns, build_deletion, rfl⟩
  unfold deleteStatement
  rw [hrequire]
  exact hbound

/-- An update goes through with a condition that passes the guard and has its clause from every
number, if it does with any other condition. -/
theorem update_of_requireCondition {condition data other : Value} {statement : Bound}
    (hrequire : model.requireCondition "UPDATE" given = .ok condition)
    (hclause : ∀ index : Int, model.clause given (.number index) = .ok clause)
    (h : model.updateStatement data other = .ok statement) :
    ∃ again, model.updateStatement data given = .ok again := by
  obtain ⟨htruthy, _, entries, names, values, types, -, hdata, hnames, hfields, hvalues, htypes,
    hbound⟩ := updateStatement_eq_ok.1 h
  obtain ⟨hkeys, -⟩ := mapM_keyed_eq_ok hvalues
  obtain ⟨htypeKeys, hwire⟩ := mapM_keyed_eq_ok htypes
  obtain ⟨_, _, _, hruns, -, -⟩ := bound_eq_ok.1 hbound
  obtain ⟨_, _, hupdate, hruns⟩ := Runs.bind_iff.1 hruns
  obtain ⟨_, _, hverb, htable⟩ := Runs.bind_iff.1 hupdate
  obtain rfl := runs_setVerb hverb
  obtain ⟨-, rfl⟩ := runs_setTable htable
  obtain ⟨_, between, hset, -⟩ := Runs.bind_iff.1 hruns
  obtain ⟨-, hbetween⟩ := runs_set_data rfl hkeys htypeKeys hwire hset
  -- up to the condition both updates are one run; only what follows `between` is new
  have hstart : between.start = .zero := by rw [hbetween]
  obtain ⟨hcondition, htrivial⟩ :=
    clause_of_requireCondition hrequire (hclause between.bound.length)
  have hruns : Runs (do
      Action.update (.text model.name)
      Action.set (.map values) (.map types)
      model.applyCondition condition) {} clause.parameters
      { between with conditions := between.conditions ++ [.text clause.sql] } :=
    Runs.bind_iff.2 ⟨(), _, hupdate, Runs.bind_iff.2 ⟨(), _, hset,
      runs_applyCondition_of_clause hstart hcondition htrivial⟩⟩
  have hassigned : (quotedNames (entries.map Prod.fst)).zip
      (slotsFrom (0 : Nat) ((entries.map Prod.fst).map model.typeFor)) ≠ [] := by
    cases entries with
    | nil =>
        subst hdata
        cases htruthy
    | cons => simp [quotedNames, slotsFrom]
  subst hbetween
  have hbound := bound_eq_ok.2 ⟨clause.parameters, _, _, hruns, build_update hassigned, rfl⟩
  exact ⟨_, updateStatement_eq_ok.2 ⟨htruthy, condition, entries, names, values, types, hrequire,
    hdata, hnames, hfields, hvalues, htypes, hbound⟩⟩

end Passing

/-- Of the conditions without raw SQL and without a test of a column, the guard refuses those that
are empty and the empty exclusion that stands alone. Both hold of every row. With any other one,
true or not, every deletion is compiled, and every update that would be compiled with some
condition. -/
theorem constant_conditions_refused_iff (model : Model) (given : Value) {clause : Clause}
    (hconstant : isConstant (model.effective given) = true)
    (hclause : model.clause given .zero = .ok clause) :
    let condition := model.effective given
    (IsEmpty condition ∨ IsLoneExclusion condition →
      (∀ assignment, holdsUnder assignment condition = true) ∧
      (∀ data : Value, data.isTruthy = true →
        model.updateStatement data given = .error (.conditionRequired "UPDATE" model.name)) ∧
      model.deleteStatement given = .error (.conditionRequired "DELETE" model.name)) ∧
    (¬ (IsEmpty condition ∨ IsLoneExclusion condition) →
      (∀ data other statement, model.updateStatement data other = .ok statement →
        ∃ again, model.updateStatement data given = .ok again) ∧
      (Identifier.isNameValue (.text model.name) = true →
        model.deleteStatement given =
          .ok { sql := deletionHead (Identifier.backquoted model.name) ++ " WHERE " ++ clause.sql
                parameters := clause.parameters })) := by
  intro condition
  have hsql := sql_eq_alwaysTrue_iff hconstant hclause
  constructor
  · intro hplain
    have htrivial := hsql.2 hplain
    obtain ⟨hupdate, hdelete⟩ := refused_of_trivial (.inr ⟨clause, hclause, htrivial⟩)
    exact ⟨holdsUnder_of_sql_eq_alwaysTrue hconstant hclause htrivial, hupdate, hdelete⟩
  · intro hother
    have hnull : condition.isNull = false := by
      cases hcondition : condition with
      | null => exact absurd (.inl (hcondition ▸ fun _ => rfl)) hother
      | _ => rfl
    have htrivial : clause.isTrivial = false := by
      cases htrivial : clause.isTrivial with
      | false => rfl
      | true => exact absurd (hsql.1 (by simpa [Clause.isTrivial] using htrivial)) hother
    have hrequire : ∀ operation, model.requireCondition operation given = .ok condition :=
      fun operation => requireCondition_eq_ok.2 ⟨rfl, hnull, clause, hclause, htrivial⟩
    have hnumbered := (compile_ofConstants hconstant hclause).2
    exact ⟨fun data other statement h => update_of_requireCondition (hrequire _) hnumbered h,
      fun hname => delete_of_requireCondition (hrequire _) hname hclause⟩

/-- An empty exclusion that stands alone is refused; in a group it passes and the deletion hits
every row. -/
theorem accounts_constant_conditions :
    let exclusion : Value := .map [(.text "id", .map [(.text "notIn", .list [])])]
    let lone : Value := .map [(.text "or", .list []),
      (.text "id", .map [(.text "notIn", .list [])])]
    let grouped : Value := .map [(.text "and", .list [exclusion])]
    (isConstant (accounts.effective lone) = true ∧ IsLoneExclusion (accounts.effective lone) ∧
      accounts.deleteStatement lone = .error (.conditionRequired "DELETE" "accounts")) ∧
    isConstant (accounts.effective grouped) = true ∧
      ¬ (IsEmpty (accounts.effective grouped) ∨ IsLoneExclusion (accounts.effective grouped)) ∧
      ∃ clause, accounts.clause grouped .zero = .ok clause ∧ clause.sql = "(1=1)" ∧
        accounts.deleteStatement grouped =
          .ok { sql := deletionHead (Identifier.backquoted accounts.name) ++ " WHERE " ++ clause.sql
                parameters := clause.parameters } := by
  intro exclusion lone grouped
  have hlone : isConstant (accounts.effective lone) = true := by decide +kernel
  have hloneClause : ((accounts.clause lone .zero).map Clause.sql).toOption = some "1=1" := by
    decide +kernel
  have hexclusion : IsLoneExclusion (accounts.effective lone) :=
    ⟨_, .text "id", .map [(.text "notIn", .list [])], rfl, by rfl, by rfl, .list [], by rfl, by rfl⟩
  have hgrouped : isConstant (accounts.effective grouped) = true := by decide +kernel
  have hgroupedClause : ((accounts.clause grouped .zero).map Clause.sql).toOption =
      some "(1=1)" := by
    decide +kernel
  have hother : ¬ (IsEmpty (accounts.effective grouped) ∨
      IsLoneExclusion (accounts.effective grouped)) := by
    rintro (hempty | ⟨entries, key, value, hmap, hfilter, hkey, -⟩)
    · cases hempty ⟨fun _ => true, fun _ => true⟩
    · cases hmap
      have hpresent : [(Value.text "and", Value.list [exclusion])].filter isPresent =
          [(.text "and", .list [exclusion])] := by rfl
      cases hpresent.symm.trans hfilter
      cases hkey
  obtain ⟨loneClause, hloneClause, -⟩ := toOption_map_eq_some.1 hloneClause
  obtain ⟨groupedClause, hgroupedClause, hsql⟩ := toOption_map_eq_some.1 hgroupedClause
  have hname : Identifier.isNameValue (.text accounts.name) = true := by decide +kernel
  exact ⟨⟨hlone, hexclusion,
      ((constant_conditions_refused_iff accounts lone hlone hloneClause).1 (.inr hexclusion)).2.2⟩,
    hgrouped, hother, groupedClause, hgroupedClause, hsql,
    ((constant_conditions_refused_iff accounts grouped hgrouped hgroupedClause).2 hother).2 hname⟩

/-- A condition that holds of every row passes the guard in a group, as a negation and beside
another one, and the statements hit every row. -/
theorem accounts_truths_pass :
    let exclusion : Value := .map [(.text "notIn", .list [])]
    let grouped : Value := .map [(.text "and", .list [.map [(.text "id", exclusion)]])]
    let negated : Value := .negation (.map [(.text "id", .map [(.text "in", .list [])])])
    let twice : Value := .map [(.text "id", exclusion), (.text "name", exclusion)]
    (∀ entry ∈ [(grouped, "(1=1)"), (negated, "NOT (1=0)"), (twice, "1=1 AND 1=1")],
      isConstant (accounts.effective entry.1) = true ∧
      (∀ assignment, holdsUnder assignment (accounts.effective entry.1) = true) ∧
      ∃ statement, accounts.deleteStatement entry.1 = .ok statement ∧
        statement.sql = "DELETE FROM \x60accounts\x60 WHERE " ++ entry.2) ∧
    ∃ statement,
      accounts.updateStatement (.map [(.text "name", .text "x")]) grouped = .ok statement ∧
        statement.sql = "UPDATE \x60accounts\x60 SET " ++
          "\x60name\x60 = \x7bparam0:Nullable(String)\x7d WHERE (1=1)" := by
  intro exclusion grouped negated twice
  constructor
  · intro entry hentry
    simp only [List.mem_cons, List.not_mem_nil, or_false] at hentry
    rcases hentry with rfl | rfl | rfl
    · exact ⟨by decide +kernel, fun _ => rfl, toOption_map_eq_some.1 (by decide +kernel)⟩
    · exact ⟨by decide +kernel, fun _ => rfl, toOption_map_eq_some.1 (by decide +kernel)⟩
    · exact ⟨by decide +kernel, fun _ => rfl, toOption_map_eq_some.1 (by decide +kernel)⟩
  · exact toOption_map_eq_some.1 (by decide +kernel)

end TypedSql.Model
