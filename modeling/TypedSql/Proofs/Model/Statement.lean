import TypedSql.Model.Compile
import TypedSql.Proofs.Condition.Trivial
import TypedSql.Proofs.Statement.Binding

/-!
# Statements of models, opened up

What there is to know where a statement of a model is compiled: `bound_eq_ok` gives the builder that
is written, `runs_applyCondition` what the condition in force adds to it.
-/

namespace TypedSql

open TypedSql.Sql TypedSql.Outcome TypedSql.Statement TypedSql.Condition

/-- The values of a statement are numbered from zero. -/
theorem named_zero (values : List Value) : named .zero values = numbered 0 values := by
  have hzip := map_zipIdx_eq_numbered 0 0 values
  rw [Int.natCast_zero, Int.add_zero] at hzip
  exact hzip

namespace Model

/-- A table of accounts, for the cases of general statements. -/
def accounts : Model where
  table :=
    { name := "accounts"
      columns := [("id", { kind := .int32 }), ("name", { kind := .string, nullable := true })] }

/-- A bound statement is that of a builder which the actions made of an empty one. -/
theorem bound_eq_ok {action : Action (List (String × Value))} {statement : Bound} :
    bound action = .ok statement ↔ ∃ parameters builder query,
      Runs action {} parameters builder ∧ builder.build = .ok query ∧
        statement = { sql := query.sql
                      parameters := numbered 0 query.parameters ++ parameters } := by
  unfold bound assemble Runs
  cases hrun : (ExceptT.run action).run {} with
  | mk outcome builder =>
      cases outcome with
      | ok parameters =>
          simp only [bind_eq_ok, map_eq_ok, pure_eq_ok, Query.namedParameters, named_zero]
          constructor
          · rintro ⟨_, ⟨query, hquery, rfl⟩, rfl⟩
            exact ⟨parameters, builder, query, rfl, hquery, rfl⟩
          · rintro ⟨_, _, query, heq, hquery, rfl⟩
            cases heq
            exact ⟨_, ⟨query, hquery, rfl⟩, rfl⟩
      | error fault =>
          simp only [bind_eq_ok]
          constructor
          · rintro ⟨_, hfault, -⟩
            cases hfault
          · rintro ⟨_, _, _, heq, -⟩
            cases heq

/-- A condition that is given is the one in force. -/
theorem effective_of_not_isNull {model : Model} {given : Value} (h : given.isNull = false) :
    model.effective given = given := by
  simp [effective, h]

/-- The condition in force adds its text and its parameters to a statement, numbered behind the
values bound before; a trivial one adds no text. -/
theorem runs_applyCondition_iff {model : Model} {given : Value} {before after : Builder}
    {parameters : List (String × Value)} (hstart : before.start = .zero) :
    Runs (model.applyCondition given) before parameters after ↔
      ∃ clause, model.clause given (.number before.bound.length) = .ok clause ∧
        parameters = clause.parameters ∧
        after = { before with
          conditions := before.conditions ++
            if clause.isTrivial then [] else [.text clause.sql] } := by
  have hnext : before.next = .number before.bound.length := by
    simp [Builder.next, hstart, Start.zero, Start.plus]
  have hadded {clause : Clause}
      (hclause : model.clause given (.number before.bound.length) = .ok clause) :
      Runs (do
        if !clause.isTrivial then Action.condition (.text clause.sql)
        return clause.parameters) before parameters after ↔
      parameters = clause.parameters ∧ after = { before with
        conditions := before.conditions ++
          if clause.isTrivial then [] else [.text clause.sql] } := by
    have htruthy : (Value.text clause.sql).isTruthy = true := by
      simpa [Value.isTruthy] using compile_sql_ne_empty hclause
    have hcondition : Action.condition (.text clause.sql) = modify fun builder =>
        { builder with conditions := builder.conditions ++ [.text clause.sql] } := if_pos htruthy
    cases htrivial : clause.isTrivial with
    | true =>
        simp only [Bool.not_true, Bool.false_eq_true, if_false, if_true, List.append_nil]
        exact Runs.pure_iff.trans (and_congr eq_comm eq_comm)
    | false =>
        simp only [Bool.not_false, Bool.false_eq_true, if_false, if_true, hcondition]
        constructor
        · intro h
          obtain ⟨_, _, hmodify, hpure⟩ := Runs.bind_iff.1 h
          obtain ⟨rfl, rfl⟩ := Runs.pure_iff.1 hpure
          exact ⟨rfl, (Runs.modify_iff.1 hmodify).symm⟩
        · rintro ⟨rfl, rfl⟩
          exact Runs.bind_iff.2 ⟨(), _, Runs.modify_iff.2 rfl, Runs.pure_iff.2 ⟨rfl, rfl⟩⟩
  unfold applyCondition
  simp only [Runs.bind_iff, Runs.get_iff, Runs.ofExcept_iff]
  constructor
  · rintro ⟨_, _, ⟨rfl, rfl⟩, clause, _, ⟨hclause, rfl⟩, h⟩
    rw [hnext] at hclause
    exact ⟨clause, hclause, (hadded hclause).1 h⟩
  · rintro ⟨clause, hclause, h⟩
    refine ⟨before, before, ⟨rfl, rfl⟩, clause, before, ⟨?_, rfl⟩, (hadded hclause).2 h⟩
    rw [hnext]
    exact hclause

/-- What is added to a statement by the condition in force. -/
theorem runs_applyCondition {model : Model} {given : Value} {before after : Builder}
    {parameters : List (String × Value)} (hstart : before.start = .zero)
    (h : Runs (model.applyCondition given) before parameters after) :
    ∃ clause, model.clause given (.number before.bound.length) = .ok clause ∧
      parameters = clause.parameters ∧
      after = { before with
        conditions := before.conditions ++ if clause.isTrivial then [] else [.text clause.sql] } :=
  (runs_applyCondition_iff hstart).1 h

end Model

end TypedSql
