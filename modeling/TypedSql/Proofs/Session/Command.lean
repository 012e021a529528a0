import TypedSql.Proofs.Outcome
import TypedSql.Proofs.Session.Run

/-!
# Commands

Running a compiled statement hands exactly one call to the executor: its text with its parameters.
Logging the statement never fails, for the names of its parameters are texts, so whether the session
goes on is up to the executor alone (`run_runCommand`).
-/

namespace TypedSql

open TypedSql.Statement TypedSql.Outcome

/-- The call of a statement without an answer. -/
def Statement.Bound.command (statement : Bound) : Call where
  isQuery := false
  sql := .text statement.sql
  parameters := statement.parameters.map fun (name, value) => (.text name, value)

/-- Whether the parameters of a call have texts for names. -/
def Call.IsNamed (call : Call) : Prop := ∀ entry ∈ call.parameters, entry.1.isText = true

theorem Statement.Bound.isNamed_command (statement : Bound) : statement.command.IsNamed := by
  intro entry hentry
  obtain ⟨named, -, rfl⟩ := List.mem_map.1 hentry
  rfl

namespace Session

variable {executor : Executor} {before : Journal}

/-- Whether an executor answers a call behind earlier ones. -/
def Answers (executor : Executor) (earlier : List Call) (call : Call) : Prop :=
  ∃ answer, executor earlier call = .ok answer

/-- Whether an executor answers calls one after the other. -/
def AnswersAll (executor : Executor) : List Call → List Call → Prop
  | _, [] => True
  | earlier, call :: rest =>
    Answers executor earlier call ∧ AnswersAll executor (earlier ++ [call]) rest

theorem answersAll_of_forall (h : ∀ earlier call, Answers executor earlier call)
    (earlier calls : List Call) : AnswersAll executor earlier calls := by
  induction calls generalizing earlier with
  | nil => trivial
  | cons call rest ih => exact ⟨h earlier call, ih _⟩

section Order

/-- Whether values are all texts. -/
def AreTexts (values : List Value) : Prop := ∀ value ∈ values, value.isText = true

/-- Texts can be compared. -/
theorem exists_isLess {first second : Value} (hfirst : first.isText = true)
    (hsecond : second.isText = true) : ∃ isLess, first.isLess second = .ok isLess := by
  obtain ⟨chars, hchars⟩ := Option.isSome_iff_exists.1 hfirst
  obtain ⟨others, hothers⟩ := Option.isSome_iff_exists.1 hsecond
  have hscalars : first.isLess second = Value.Comparison.less.holdsScalars first second := by
    cases first with
    | text | kind | operator => rfl
    | _ => cases hchars
  have horder : Value.orderScalars first second = .ok (some (compare chars others)) := by
    unfold Value.orderScalars
    rw [hchars, hothers]
  rw [hscalars]
  unfold Value.Comparison.holdsScalars
  rw [horder]
  exact ⟨_, rfl⟩

/-- A text has its place among texts. -/
theorem exists_insertInOrder {value : Value} (hvalue : value.isText = true) {values : List Value}
    (h : AreTexts values) :
    ∃ sorted, insertInOrder value values = .ok sorted ∧ AreTexts sorted := by
  induction values with
  | nil => exact ⟨[value], rfl, List.forall_mem_singleton.2 hvalue⟩
  | cons first rest ih =>
      obtain ⟨hfirst, hrest⟩ := List.forall_mem_cons.1 h
      obtain ⟨sorted, hsorted, htexts⟩ := ih hrest
      obtain ⟨isLess, hless⟩ := exists_isLess hvalue hfirst
      rw [insertInOrder, hless]
      cases isLess with
      | true => exact ⟨value :: first :: rest, rfl, List.forall_mem_cons.2 ⟨hvalue, h⟩⟩
      | false =>
          refine ⟨first :: sorted, ?_, List.forall_mem_cons.2 ⟨hfirst, htexts⟩⟩
          rw [hsorted]
          rfl

/-- Texts can be put in order. -/
theorem exists_inOrder {values : List Value} (h : AreTexts values) :
    ∃ sorted, inOrder values = .ok sorted := by
  have hfold : ∀ before, AreTexts before → ∃ sorted,
      values.foldlM (fun sorted value => insertInOrder value sorted) before = .ok sorted := by
    induction values with
    | nil => exact fun before _ => ⟨before, rfl⟩
    | cons value rest ih =>
        intro before hbefore
        obtain ⟨hvalue, hrest⟩ := List.forall_mem_cons.1 h
        obtain ⟨between, hbetween, htexts⟩ := exists_insertInOrder hvalue hbefore
        obtain ⟨sorted, hsorted⟩ := ih hrest between htexts
        refine ⟨sorted, ?_⟩
        rw [List.foldlM_cons, hbetween]
        exact hsorted
  exact hfold [] fun _ hmem => nomatch hmem

end Order

/-- A statement whose parameters have texts for names can be logged. -/
theorem run_logStatement (settings : Settings) {statement : Call} (h : statement.IsNamed) :
    ∃ logs, run (logStatement settings statement) executor before =
      (.ok (), { before with logs := before.logs ++ logs }) := by
  unfold logStatement
  split
  · obtain ⟨sorted, hsorted⟩ := exists_inOrder (List.forall_mem_map.2 h)
    rw [hsorted]
    exact ⟨_, rfl⟩
  · exact ⟨[], by rw [run_pure, List.append_nil]⟩

/-- A failure of the executor fails the session and hands it no other call. -/
theorem run_failed {α : Type} (statement : Call) (error : Value) :
    ∃ fault logs, run (failed statement error : Session α) executor before =
      (.error fault, { before with logs := before.logs ++ logs }) := by
  have hnone : { before with logs := before.logs ++ [] } = before := by rw [List.append_nil]
  unfold failed
  split
  · exact ⟨_, [], by rw [run_throw, hnone]⟩
  · simp only
    generalize Except.mapError Fault.breach _ = line
    cases line with
    | error breach => exact ⟨breach, [], by rw [run_bind_error (run_ofExcept _), hnone]⟩
    | ok line =>
        rw [run_bind_ok (run_ofExcept _)]
        exact ⟨_, _, rfl⟩

/-- A statement whose parameters have texts for names is handed to the executor; what it answers is
the result, and the session fails exactly if it raises an exception. -/
theorem run_execute (settings : Settings) {statement : Call} (h : statement.IsNamed) :
    ∃ logs, run (execute settings statement) executor before =
      match executor before.calls statement with
      | .ok answer => (.ok answer, { before with
          calls := before.calls ++ [statement], logs := before.logs ++ logs })
      | .error error => run (failed statement error) executor { before with
          calls := before.calls ++ [statement], logs := before.logs ++ logs } := by
  obtain ⟨logs, hlog⟩ := @run_logStatement executor before settings statement h
  refine ⟨logs, ?_⟩
  rw [execute, run_bind_ok hlog, run_bind_ok (run_call _)]
  cases executor before.calls statement <;> rfl

/-- Parameters that are given as a map are the entries of the map. -/
theorem parameterEntries_map (entries : Entries) :
    parameterEntries (.map entries) = .ok entries := by
  cases entries <;> rfl

/-- A statement without an answer is handed to the executor with its parameters; the session goes on
exactly if the executor answers. -/
theorem run_command (settings : Settings) {sql parameters : Value} {entries : Entries}
    (hparameters : parameterEntries parameters = .ok entries)
    (hnamed : Call.IsNamed { isQuery := false, sql, parameters := entries }) :
    ∃ outcome logs, run (command settings sql parameters) executor before =
        (outcome, { before with
          calls := before.calls ++ [{ isQuery := false, sql, parameters := entries }]
          logs := before.logs ++ logs }) ∧
      (outcome = .ok () ↔
        Answers executor before.calls { isQuery := false, sql, parameters := entries }) := by
  obtain ⟨logs, hrun⟩ := @run_execute executor before settings _ hnamed
  rw [command, hparameters, run_bind_ok (run_ofExcept _)]
  generalize Call.mk false sql entries = statement at *
  cases hanswer : executor before.calls statement with
  | ok answer =>
      rw [hanswer] at hrun
      exact ⟨.ok (), logs, by rw [run_bind_ok hrun, run_pure], iff_of_true rfl ⟨answer, hanswer⟩⟩
  | error error =>
      rw [hanswer] at hrun
      obtain ⟨fault, more, hfailed⟩ := @run_failed executor
        { before with calls := before.calls ++ [statement], logs := before.logs ++ logs }
        Value statement error
      refine ⟨.error fault, logs ++ more, ?_, iff_of_false (fun h => nomatch h) ?_⟩
      · rw [run_bind_error (hrun.trans hfailed), List.append_assoc]
      · rintro ⟨answer, h⟩
        cases hanswer.symm.trans h

end Session

namespace Model

open Session

variable {model : Model} {executor : Executor} {before : Journal} {statement : Bound}

/-- A model without settings hands nothing to an executor. -/
theorem run_runCommand_unbound (h : model.settings = none) :
    run (model.runCommand statement) executor before = (.error (.unbound model.name), before) := by
  unfold runCommand requireSettings
  rw [h]
  rfl

/-- A compiled statement of a model with settings is handed to the executor, whatever it answers. -/
theorem run_runCommand {settings : Settings} (h : model.settings = some settings) :
    ∃ outcome logs, run (model.runCommand statement) executor before =
        (outcome, { before with
          calls := before.calls ++ [statement.command], logs := before.logs ++ logs }) ∧
      (outcome = .ok () ↔ Answers executor before.calls statement.command) := by
  unfold runCommand requireSettings
  rw [h]
  exact run_command settings (parameterEntries_map _) statement.isNamed_command

/-- Running a compiled statement fails without a call, or hands the executor the call of the
statement. -/
theorem exists_of_run_runCommand {outcome : Except Fault Unit} {after : Journal}
    (hrun : run (model.runCommand statement) executor before = (outcome, after)) :
    (after.calls = before.calls ∧ outcome ≠ .ok ()) ∨
      after.calls = before.calls ++ [statement.command] := by
  cases hsettings : model.settings with
  | none =>
      cases (run_runCommand_unbound hsettings).symm.trans hrun
      exact .inl ⟨rfl, fun h => nomatch h⟩
  | some settings =>
      obtain ⟨known, logs, hknown, -⟩ :=
        @run_runCommand model executor before statement settings hsettings
      cases hknown.symm.trans hrun
      exact .inr rfl

end Model

end TypedSql
