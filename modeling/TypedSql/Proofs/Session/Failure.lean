import TypedSql.Proofs.Json.Writable
import TypedSql.Proofs.Session.Command
import TypedSql.Proofs.Value.Display
import TypedSql.Proofs.Value.Key
import TypedSql.Session.Client

/-!
# Failures of executors

An exception of the executor ends a statement after its one call. It surfaces as a report, its own
or one about the statement (`Surfaces`), if the exception and the parameters have the texts that the
log line shows (`IsLoggable`), and as a breach otherwise: `failures_surface_iff`.
-/

namespace TypedSql

open TypedSql.Outcome

namespace Session

/-- Whether an exception is a report. -/
def isReport : Value → Bool
  | .report _ _ _ => true
  | _ => false

/-- `Surfaces statement error fault` says that a fault is what an exception of the executor is to
come out as. An exception that is a report comes out as it is; any other one becomes a report about
the statement, with the text of the exception. -/
inductive Surfaces (statement : Call) : Value → Fault → Prop
  | same (family : Family) (message context : Value) :
      Surfaces statement (.report family message context) (.raised family message context)
  | wrapped {error : Value} {fault : Fault} (herror : isReport error = false)
      (h : fault.report? = some (.make .query ("Statement failed: " ++ error.display)
        [statement.sql, .map statement.parameters])) : Surfaces statement error fault

/-- Whether the failure of a statement can be logged. Reports are not logged; else the exception has
a text, and so have all keys, numbers and other values in the parameters. -/
def IsLoggable (statement : Call) (error : Value) : Prop :=
  isReport error = true ∨ error.isDisplayable = true ∧
    Json.hasEntriesWritableBy Value.inspected? statement.parameters = true

/-- No breach is what an exception is to come out as. -/
theorem not_surfaces_breach {statement : Call} {error : Value} (breach : Breach) :
    ¬Surfaces statement error (.breach breach) := by
  intro h
  cases h with
  | wrapped _ h => cases h

/-- An exception that is no report surfaces with its text, the statement and its parameters. -/
theorem Surfaces.report?_eq {statement : Call} {error : Value} {fault : Fault}
    (h : Surfaces statement error fault) (herror : isReport error = false) :
    fault.report? = some (.make .query ("Statement failed: " ++ error.display)
      [statement.sql, .map statement.parameters]) := by
  cases h with
  | same => cases herror
  | wrapped _ h => exact h

section Reports

variable {message sql : String} {parameters : Entries}

/-- The context of a report about a statement has a JSON text exactly if the parameters do. -/
theorem isWritableBy_context :
    Json.isWritableBy Value.inspected?
        (Report.make .query message [.text sql, .map parameters]).context =
      Json.hasEntriesWritableBy Value.inspected? parameters := by
  have hcontext : (Report.make .query message [.text sql, .map parameters]).context =
      .map [(.text "sql", .text sql), (.text "params", .map parameters)] := by
    simp [Report.make, Report.contextOf, Report.ownFields, Keyed.putAll, Keyed.put, Keyed.has,
      Value.text_isKey, Value.asText?]
  simp [hcontext, Json.isWritableBy, Json.hasEntriesWritableBy, Json.hasKeyText, Value.isText,
    Value.asText?]

/-- A report about a statement can be logged exactly if its parameters have JSON texts. -/
theorem exists_format_iff :
    (∃ line, (Report.make .query message [.text sql, .map parameters]).format = .ok line) ↔
      Json.hasEntriesWritableBy Value.inspected? parameters = true := by
  rw [← isWritableBy_context, ← Json.exists_writeBy_iff, Report.format]
  cases Json.write Value.inspected?
      (Report.make .query message [.text sql, .map parameters]).context with
  | ok context => exact iff_of_true ⟨_, rfl⟩ ⟨context, rfl⟩
  | error fault => simp [Except.mapError, bind, Except.bind]

end Reports

variable {executor : Executor} {before : Journal}

/-- An exception that is no report is reported about the statement, once there is a line for the
log. -/
theorem failed_eq {α : Type} {statement : Call} {error : Value} (h : isReport error = false) :
    (failed statement error : Session α) = (do
      let fault := Fault.statementFailed error statement.sql statement.parameters
      let line ← ofExcept ((fault.report.bind Report.format).mapError .breach)
      log .error line
      throw fault) := by
  cases error with
  | report family message context => cases h
  | _ => rfl

/-- The report about a statement shows the text of the exception; without one there is none. -/
theorem report_statementFailed (error sql : Value) (parameters : Entries) :
    (Fault.statementFailed error sql parameters).report =
      if error.isDisplayable then
        .ok (.make .query ("Statement failed: " ++ error.display) [sql, .map parameters])
      else .error .badValue := by
  show error.requireText.map _ = _
  rw [Value.requireText_eq]
  cases error.isDisplayable <;> rfl

/-- The failure of a statement has a line for the log exactly if it can be logged. -/
theorem exists_line_iff {statement : Call} {sql : String} (hsql : statement.sql = .text sql)
    {error : Value} (h : isReport error = false) :
    (∃ line, (Fault.statementFailed error statement.sql statement.parameters).report.bind
      Report.format = .ok line) ↔ IsLoggable statement error := by
  rw [report_statementFailed, hsql, IsLoggable, h]
  cases error.isDisplayable with
  | false => simp [Except.bind]
  | true => simpa [Except.bind] using exists_format_iff

/-- What an exception of the executor makes of a statement: it surfaces if it can be logged, and is
a breach otherwise. -/
theorem run_failed_cases {α : Type} {statement : Call} {sql : String}
    (hsql : statement.sql = .text sql) (error : Value) :
    ∃ fault logs, run (failed statement error : Session α) executor before =
        (.error fault, { before with logs := before.logs ++ logs }) ∧
      (Surfaces statement error fault ∧ IsLoggable statement error ∨
        (∃ breach, fault = .breach breach) ∧ ¬IsLoggable statement error) := by
  have hnone : { before with logs := before.logs ++ [] } = before := by rw [List.append_nil]
  cases hreport : isReport error with
  | true =>
      cases error with
      | report family message context =>
          exact ⟨_, [], by rw [failed, run_throw, hnone], .inl ⟨.same .., .inl rfl⟩⟩
      | _ => cases hreport
  | false =>
      rw [failed_eq hreport, ← exists_line_iff hsql hreport]
      simp only
      cases hline : (Fault.statementFailed error statement.sql statement.parameters).report.bind
          Report.format with
      | ok line =>
          have hdisplayable : error.isDisplayable = true :=
            (((exists_line_iff hsql hreport).1 ⟨line, hline⟩).resolve_left (by simp [hreport])).1
          refine ⟨_, _, rfl, .inl ⟨.wrapped hreport ?_, line, rfl⟩⟩
          rw [Fault.report?, report_statementFailed, hdisplayable]
          rfl
      | error breach =>
          exact ⟨.breach breach, [], by rw [hnone]; rfl, .inr ⟨⟨_, rfl⟩, fun ⟨_, h⟩ => nomatch h⟩⟩

/-- `EndsWith statement error before result` says how a statement ends for which the executor raises
an exception. The statement is handed over once; the exception surfaces exactly if it can be logged,
and nothing but a breach takes its place. -/
def EndsWith {α : Type} (statement : Call) (error : Value) (before : Journal)
    (result : Except Fault α × Journal) : Prop :=
  ∃ fault logs, result = (.error fault, { before with
      calls := before.calls ++ [statement], logs := before.logs ++ logs }) ∧
    (Surfaces statement error fault ↔ IsLoggable statement error) ∧
    (¬IsLoggable statement error → ∃ breach, fault = .breach breach)

/-- A statement whose parameters have texts for names ends with what the executor raises. -/
theorem endsWith_execute (settings : Settings) {statement : Call} {sql : String} {error : Value}
    (hsql : statement.sql = .text sql) (hnamed : statement.IsNamed)
    (herror : executor before.calls statement = .error error) :
    EndsWith statement error before (run (execute settings statement) executor before) := by
  obtain ⟨logs, hrun⟩ := @run_execute executor before settings statement hnamed
  rw [herror] at hrun
  obtain ⟨fault, more, hfailed, hfault⟩ := @run_failed_cases executor
    { before with calls := before.calls ++ [statement], logs := before.logs ++ logs }
    Value statement sql hsql error
  refine ⟨fault, logs ++ more, ?_, ?_⟩
  · rw [hrun.trans hfailed, List.append_assoc]
  · rcases hfault with ⟨hsurfaces, hloggable⟩ | ⟨⟨breach, rfl⟩, hloggable⟩
    · exact ⟨iff_of_true hsurfaces hloggable, fun h => absurd hloggable h⟩
    · exact ⟨iff_of_false (not_surfaces_breach breach) hloggable, fun _ => ⟨breach, rfl⟩⟩

/-- What follows a statement is not reached where the statement ends. -/
theorem EndsWith.bind {α β : Type} {statement : Call} {error : Value} {session : Session α}
    {next : α → Session β} (h : EndsWith statement error before (run session executor before)) :
    EndsWith statement error before (run (session >>= next) executor before) := by
  obtain ⟨fault, logs, hrun, hfault⟩ := h
  exact ⟨fault, logs, run_bind_error hrun, hfault⟩

end Session

namespace Client

open Session

/-- Whatever exception the executor raises for a statement whose parameters have texts for names, a
client hands the statement over once and ends with the exception, if it is a report, or with a
report about the statement; unless the exception or something in the parameters has no text, which
makes it a breach. -/
theorem failures_surface_iff (client : Client) (sql : String) {parameters : Entries}
    (hnamed : ∀ entry ∈ parameters, entry.1.isText = true) (executor : Executor)
    (before : Journal) (error : Value) :
    (executor before.calls { isQuery := true, sql := .text sql, parameters } = .error error →
      EndsWith { isQuery := true, sql := .text sql, parameters } error before
        (run (client.query (.text sql) (.map parameters)) executor before)) ∧
    (executor before.calls { isQuery := false, sql := .text sql, parameters } = .error error →
      EndsWith { isQuery := false, sql := .text sql, parameters } error before
        (run (client.command (.text sql) (.map parameters)) executor before)) := by
  have hends (isQuery : Bool) := @endsWith_execute executor before client.settings
    { isQuery, sql := .text sql, parameters } sql error rfl hnamed
  constructor
  · intro herror
    rw [query, Session.query, parameterEntries_map, run_bind_ok (run_ofExcept _)]
    exact (hends true herror).bind
  · intro herror
    rw [command, Session.command, parameterEntries_map, run_bind_ok (run_ofExcept _)]
    exact (hends false herror).bind

/-- A map under a whole number, octets and a column are written to the log with the rest. -/
theorem failure_of_boom :
    let parameters : Entries := [
      (.text "param0", .map [(.int 7, .tuple [.null, .bytes [1, 255]]), (.text "x", .list [])]),
      (.kind .uint8, .operator .gt)]
    let error : Value := .exception "RuntimeError" [.text "boom"]
    let executor : Executor := fun _ _ => .error error
    let call : Call := { isQuery := true, sql := .text "SELECT 1", parameters }
    (∀ entry ∈ parameters, entry.1.isText = true) ∧ executor [] call = .error error ∧
      ∃ fault logs,
        run (({} : Client).query (.text "SELECT 1") (.map parameters)) executor {} =
          (.error fault, { calls := [call], logs }) ∧
        fault.report? = some (.make .query "Statement failed: boom"
          [.text "SELECT 1", .map parameters]) := by
  intro parameters error executor call
  have hnamed : ∀ entry ∈ parameters, entry.1.isText = true := by
    simp [parameters, Value.isText, Value.asText?]
  have hloggable : IsLoggable call error := .inr ⟨rfl, by decide +kernel⟩
  obtain ⟨fault, logs, hrun, hsurfaces, -⟩ :=
    (failures_surface_iff {} "SELECT 1" hnamed executor {} error).1 rfl
  refine ⟨hnamed, rfl, fault, logs, hrun, ?_⟩
  exact (hsurfaces.2 hloggable).report?_eq rfl

/-- A map under a pair cannot be written to the log, so the exception is lost. -/
theorem failure_of_pair_lost :
    let parameters : Entries := [(.text "param0", .map [(.tuple [.int 1, .int 2], .text "x")])]
    let error : Value := .exception "RuntimeError" [.text "boom"]
    let executor : Executor := fun _ _ => .error error
    let call : Call := { isQuery := true, sql := .text "SELECT 1", parameters }
    (∀ entry ∈ parameters, entry.1.isText = true) ∧ executor [] call = .error error ∧
      ∃ fault logs,
        run (({} : Client).query (.text "SELECT 1") (.map parameters)) executor {} =
          (.error fault, { calls := [call], logs }) ∧
        fault.report? = none ∧ ¬Surfaces call error fault := by
  intro parameters error executor call
  have hnamed : ∀ entry ∈ parameters, entry.1.isText = true := by
    simp [parameters, Value.isText, Value.asText?]
  have hloggable : ¬IsLoggable call error := by
    rintro (h | ⟨-, h⟩) <;> cases h
  have hends : EndsWith call error {} (run (execute {} call >>= rowsOf) executor {}) :=
    (@endsWith_execute executor {} {} call "SELECT 1" error rfl hnamed rfl).bind
  obtain ⟨fault, logs, hrun, -, hbreach⟩ := hends
  obtain ⟨breach, rfl⟩ := hbreach hloggable
  refine ⟨hnamed, rfl, _, logs, ?_, rfl, not_surfaces_breach breach⟩
  rw [query, Session.query, parameterEntries_map, run_bind_ok (run_ofExcept _)]
  exact hrun

end Client

end TypedSql
