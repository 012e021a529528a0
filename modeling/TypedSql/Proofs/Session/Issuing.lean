import TypedSql.Proofs.Session.Command
import TypedSql.Proofs.Table.Ddl
import TypedSql.Session.Client

/-!
# Creating and dropping tables

A client creates and drops the tables of its models by one statement for each, in the order of the
models. `Issues` says which statements a session issues one after the other, whatever the executor
answers; `issues_createTables` and `issues_dropTables` say which these are. Valid tables can all be
dropped; creating them ends at the first one that has a number too long to be written.
-/

namespace TypedSql

namespace Session

variable {executor : Executor} {before : Journal} {session : Session Unit}
variable {commands others : List Call} {completes : Prop}

/-- `Sends executor before session commands outcome` says that a session hands exactly these
commands to the executor, and what it ends with. -/
def Sends (executor : Executor) (before : Journal) (session : Session Unit) (commands : List Call)
    (outcome : Except Fault Unit) : Prop :=
  ∃ logs, run session executor before = (outcome, { before with
    calls := before.calls ++ commands, logs := before.logs ++ logs })

/-- A session that fails does so whatever stands behind it. -/
theorem Sends.bind_error {next : Unit → Session Unit} {fault : Fault}
    (h : Sends executor before session commands (.error fault)) :
    Sends executor before (session >>= next) commands (.error fault) := by
  obtain ⟨logs, hrun⟩ := h
  exact ⟨logs, run_bind_error hrun⟩

/-- What stands behind a session is sent behind it. -/
theorem Sends.behind {next : Unit → Session Unit} {logs : List LogLine}
    {outcome : Except Fault Unit}
    (hrun : run session executor before = (.ok (), { before with
      calls := before.calls ++ commands, logs := before.logs ++ logs }))
    (h : Sends executor { before with
      calls := before.calls ++ commands, logs := before.logs ++ logs } (next ()) others outcome) :
    Sends executor before (session >>= next) (commands ++ others) outcome := by
  obtain ⟨more, hmore⟩ := h
  refine ⟨logs ++ more, ?_⟩
  rw [run_bind_ok hrun, hmore, List.append_assoc, List.append_assoc]

/-- `Issues executor before session commands completes` says that a session issues commands one
after the other. An executor that answers all of them gets exactly these, and the session goes
through exactly if `completes` holds. Otherwise the session ends with the first command that is not
answered. -/
structure Issues (executor : Executor) (before : Journal) (session : Session Unit)
    (commands : List Call) (completes : Prop) : Prop where
  answered : AnswersAll executor before.calls commands →
    ∃ outcome, Sends executor before session commands outcome ∧ (outcome = .ok () ↔ completes)
  refused : ∀ sent command rest, commands = sent ++ command :: rest →
    AnswersAll executor before.calls sent → ¬Answers executor (before.calls ++ sent) command →
      ∃ fault, Sends executor before session (sent ++ [command]) (.error fault)

/-- A session that sends nothing issues nothing. -/
theorem Sends.issues {outcome : Except Fault Unit} (h : Sends executor before session [] outcome)
    (hcompletes : outcome = .ok () ↔ completes) : Issues executor before session [] completes where
  answered _ := ⟨outcome, h, hcompletes⟩
  refused sent command rest hnone := by simp at hnone

/-- A command that goes through if it is answered stands before what is issued behind it. -/
theorem Issues.cons {next : Unit → Session Unit} {command : Call} {outcome : Except Fault Unit}
    (h : Sends executor before session [command] outcome)
    (houtcome : outcome = .ok () ↔ Answers executor before.calls command)
    (hnext : ∀ logs, Issues executor { before with
      calls := before.calls ++ [command], logs := before.logs ++ logs } (next ()) commands
        completes) :
    Issues executor before (session >>= next) (command :: commands) completes where
  answered hanswers := by
    obtain ⟨hcommand, hcommands⟩ := hanswers
    obtain rfl := houtcome.2 hcommand
    obtain ⟨logs, hrun⟩ := h
    obtain ⟨outcome, hsends, hcompletes⟩ := (hnext logs).answered hcommands
    exact ⟨outcome, .behind hrun hsends, hcompletes⟩
  refused sent last rest hsplit hanswers hrefused := by
    cases sent with
    | nil =>
        obtain ⟨rfl, rfl⟩ := List.cons.inj hsplit
        rw [List.append_nil] at hrefused
        cases outcome with
        | ok => exact absurd (houtcome.1 rfl) hrefused
        | error fault => exact ⟨fault, h.bind_error⟩
    | cons first sent =>
        obtain ⟨rfl, rfl⟩ := List.cons.inj hsplit
        obtain ⟨hcommand, hcommands⟩ := hanswers
        obtain rfl := houtcome.2 hcommand
        obtain ⟨logs, hrun⟩ := h
        rw [List.append_cons] at hrefused
        obtain ⟨fault, hsends⟩ := (hnext logs).refused sent last rest rfl hcommands hrefused
        have hsent : Sends executor before (session >>= next) ([command] ++ (sent ++ [last]))
            (.error fault) := .behind hrun hsends
        exact ⟨fault, hsent⟩

section Statements

variable {ι : Type} {line : ι → String} {text : ι → Except Fault String}

/-- The call of a statement without parameters. -/
def statementCall (sql : String) : Call where
  isQuery := false
  sql := .text sql
  parameters := []

/-- What is done for each table: a line is logged and the statement sent, if it can be written. -/
def issueStatement (settings : Settings) (line : String) (text : Except Fault String) :
    Session Unit := do
  log .info line
  let sql ← ofExcept text
  command settings (.text sql) .null

/-- A statement that can be written is sent. -/
theorem sends_issueStatement (settings : Settings) (line sql : String) :
    ∃ outcome, Sends executor before (issueStatement settings line (.ok sql)) [statementCall sql]
        outcome ∧ (outcome = .ok () ↔ Answers executor before.calls (statementCall sql)) := by
  obtain ⟨outcome, logs, hrun, hanswers⟩ := @run_command executor
    { before with logs := before.logs ++ [{ level := .info, message := line }] } settings
    (.text sql) .null [] rfl fun _ hentry => nomatch hentry
  refine ⟨outcome, ⟨{ level := .info, message := line } :: logs, ?_⟩, hanswers⟩
  rw [issueStatement, run_bind_ok (run_log _ _), run_bind_ok (run_ofExcept _), hrun]
  simp [statementCall]

/-- A statement that cannot be written ends the session. -/
theorem sends_issueStatement_error (settings : Settings) (line : String) (fault : Fault) :
    Sends executor before (issueStatement settings line (.error fault)) [] (.error fault) := by
  refine ⟨[{ level := .info, message := line }], ?_⟩
  rw [List.append_nil]
  rfl

/-- A list is empty if all of its members have a property that its first member has not. -/
theorem eq_nil_of_head? {rest : List ι} {holds : ι → Prop}
    (hhead : ∀ item ∈ rest.head?, ¬holds item) (h : ∀ item ∈ rest, holds item) : rest = [] := by
  cases rest with
  | nil => rfl
  | cons item rest => exact absurd (h item List.mem_cons_self) (hhead item rfl)

/-- Statements are issued in order, up to the first one that cannot be written. -/
theorem issues_forM (settings : Settings) (items : List ι) :
    ∃ written rest sqls, items = written ++ rest ∧
      List.Forall₂ (fun item sql => text item = .ok sql) written sqls ∧
      (∀ item ∈ rest.head?, ¬∃ sql, text item = .ok sql) ∧
      ∀ executor before, Issues executor before
        (items.forM fun item => issueStatement settings (line item) (text item))
        (sqls.map statementCall) (rest = []) := by
  induction items with
  | nil =>
      refine ⟨[], [], [], rfl, .nil, by simp, fun executor before => ?_⟩
      have hnothing : Sends executor before (pure ()) [] (.ok ()) := ⟨[], by simp⟩
      exact hnothing.issues (iff_of_true rfl rfl)
  | cons item items ih =>
      have hsteps : (item :: items).forM (fun item =>
          issueStatement settings (line item) (text item)) =
        issueStatement settings (line item) (text item) >>= fun _ =>
          items.forM fun item => issueStatement settings (line item) (text item) := rfl
      rw [hsteps]
      cases hitem : text item with
      | error fault =>
          refine ⟨[], item :: items, [], rfl, .nil, by simp [hitem], fun executor before => ?_⟩
          exact (sends_issueStatement_error settings _ fault).bind_error.issues (by simp)
      | ok sql =>
          obtain ⟨written, rest, sqls, rfl, hwritten, hrest, hissues⟩ := ih
          refine ⟨item :: written, rest, sql :: sqls, rfl, .cons hitem hwritten, hrest, ?_⟩
          intro executor before
          obtain ⟨outcome, hsends, houtcome⟩ :=
            @sends_issueStatement executor before settings (line item) sql
          exact .cons hsends houtcome fun logs => hissues executor _

/-- Statements that can all be written are all issued. -/
theorem issues_forM_of_ok (settings : Settings) {items : List ι} {sql : ι → String}
    (h : ∀ item ∈ items, text item = .ok (sql item)) :
    Issues executor before
      (items.forM fun item => issueStatement settings (line item) (text item))
      (items.map fun item => statementCall (sql item)) True := by
  obtain ⟨written, rest, sqls, rfl, hwritten, hrest, hissues⟩ :=
    @issues_forM ι line text settings items
  obtain rfl := eq_nil_of_head? hrest fun item hitem => ⟨_, h item (List.mem_append_right _ hitem)⟩
  rw [List.append_nil] at h hissues ⊢
  have hsqls : List.Forall₂ (fun item known => sql item = known) written sqls :=
    ((List.forall₂_and_left _ _).2 ⟨h, hwritten⟩).imp fun _ _ hitem =>
      Except.ok.inj (hitem.1.symm.trans hitem.2)
  obtain rfl := List.forall₂_eq_eq_eq ▸ List.forall₂_map_left_iff.2 hsqls
  simpa [Function.comp_def] using hissues executor before

end Statements

end Session

namespace Table

variable {table : Table}

/-- Whether the whole numbers that the types of the columns show can be written. -/
def HasNumerals (table : Table) : Prop := ∀ entry ∈ table.columns, entry.2.HasNumerals

/-- `IsCreation engine ifNotExists table sql` says that a statement creates a table with an engine.
It shows the columns of the table in their order. -/
def IsCreation (engine : String) (ifNotExists : Bool) (table : Table) (sql : String) : Prop :=
  ∃ lines, List.Forall₂ IsLine table.columns lines ∧
    sql = table.creation engine "" ifNotExists lines []

/-- The statement that drops a table. -/
def dropping (ifExists : Bool) (table : Table) : String :=
  "DROP TABLE " ++ (if ifExists then "IF EXISTS " else "") ++ Identifier.backquoted table.name

section Valid

variable {engine : String} {ifNotExists : Bool}

/-- A valid table is created by a statement that shows its columns. -/
theorem Valid.createText_eq_ok_iff (h : table.Valid) {sql : String} :
    table.createText { engine := .text engine, ifNotExists } = .ok sql ↔
      table.IsCreation engine ifNotExists sql := by
  have hoptions : table.createText { engine := .text engine, ifNotExists } =
      table.createText (unordered engine "" ifNotExists []) := rfl
  rw [hoptions, h.createText_eq_ok]
  simp [IsCreation]

/-- There is such a statement exactly if the numbers in it can be written. -/
theorem Valid.exists_isCreation_iff (h : table.Valid) :
    (∃ sql, table.IsCreation engine ifNotExists sql) ↔ table.HasNumerals := by
  have hoptions := @Valid.exists_createText_iff table engine "" ifNotExists [] h
  rw [and_iff_left (by simp)] at hoptions
  rw [HasNumerals, ← hoptions]
  exact exists_congr fun sql => h.createText_eq_ok_iff.symm

/-- A valid table is dropped by its name. -/
theorem Valid.dropText_eq_ok (h : table.Valid) (ifExists : Bool) :
    table.dropText ifExists = .ok (table.dropping ifExists) := by
  rw [dropText, quoteText_eq_ok h.name]
  rfl

end Valid

end Table

namespace Client

open Session

variable {client : Client}

/-- The tables of a client, in the order of its models. -/
def tables (client : Client) : List Table := client.models.map fun entry => entry.2.table

/-- The engine of tables that are created with a given one, which may be missing or empty. -/
def engineOf (client : Client) : Option String → String
  | none | some "" => client.settings.engine
  | some engine => engine

/-- Creating the tables of a client does the same for each of its models. -/
theorem createTables_eq (ifNotExists : Bool) (engine : Option String) :
    client.createTables ifNotExists (.ofOption .text engine) =
      client.models.forM fun entry =>
        issueStatement client.settings ("CREATE TABLE " ++ entry.1.display)
          (entry.2.table.createText { engine := .text (client.engineOf engine), ifNotExists }) := by
  have hengine : (if (Value.ofOption .text engine).isTruthy then .ofOption .text engine
      else .text client.settings.engine) = Value.text (client.engineOf engine) := by
    cases engine with
    | none => rfl
    | some known =>
        by_cases hempty : known = ""
        · subst hempty
          rfl
        · simp [Value.ofOption, Value.isTruthy, engineOf, hempty]
  rw [← hengine]
  rfl

/-- `IssuesCreations client tables ifNotExists engine` says that a client creates tables by one
statement for each, in order, up to the first table that has a number that cannot be written. There
the session ends; without such a table it goes through. -/
def IssuesCreations (client : Client) (tables : List Table) (ifNotExists : Bool)
    (engine : Option String) : Prop :=
  ∃ written rest sqls, tables = written ++ rest ∧
    List.Forall₂ (Table.IsCreation (client.engineOf engine) ifNotExists) written sqls ∧
    (∀ table ∈ rest.head?, ¬table.HasNumerals) ∧
    ∀ executor before,
      Issues executor before (client.createTables ifNotExists (.ofOption .text engine))
        (sqls.map statementCall) (rest = [])

/-- The tables of a client are created up to the first one that cannot be. -/
theorem issues_createTables (hvalid : ∀ table ∈ client.tables, table.Valid) (ifNotExists : Bool)
    (engine : Option String) : client.IssuesCreations client.tables ifNotExists engine := by
  obtain ⟨written, rest, sqls, hmodels, hwritten, hrest, hissues⟩ := @issues_forM _
    (fun entry : Value × Model => "CREATE TABLE " ++ entry.1.display)
    (fun entry => entry.2.table.createText
      { engine := .text (client.engineOf engine), ifNotExists }) client.settings client.models
  have hentries : ∀ entry ∈ written ++ rest, entry.2.table.Valid := fun entry hentry =>
    hvalid _ (List.mem_map_of_mem (hmodels ▸ hentry))
  refine ⟨written.map fun entry => entry.2.table, rest.map fun entry => entry.2.table, sqls, ?_, ?_,
    ?_, fun executor before => ?_⟩
  · rw [tables, hmodels, List.map_append]
  · refine List.forall₂_map_left_iff.2 (((List.forall₂_and_left _ _).2 ⟨fun entry hentry =>
      hentries entry (List.mem_append_left _ hentry), hwritten⟩).imp fun entry sql hentry => ?_)
    exact hentry.1.createText_eq_ok_iff.1 hentry.2
  · rw [List.head?_map]
    intro table htable hnumerals
    obtain ⟨entry, hentry, rfl⟩ := Option.map_eq_some_iff.1 htable
    have hvalid := hentries entry (List.mem_append_right _ (List.mem_of_mem_head? hentry))
    obtain ⟨sql, hsql⟩ := hvalid.exists_isCreation_iff.2 hnumerals
    exact hrest entry hentry ⟨sql, hvalid.createText_eq_ok_iff.2 hsql⟩
  · rw [createTables_eq, List.map_eq_nil_iff]
    exact hissues executor before

/-- Tables whose numbers can be written are all created, if the executor answers. -/
theorem IssuesCreations.sends {tables : List Table} {ifNotExists : Bool} {engine : Option String}
    (h : client.IssuesCreations tables ifNotExists engine)
    (hnumerals : ∀ table ∈ tables, table.HasNumerals) {executor : Executor}
    (hanswers : ∀ earlier call, Answers executor earlier call) (before : Journal) :
    ∃ sqls, List.Forall₂ (Table.IsCreation (client.engineOf engine) ifNotExists) tables sqls ∧
      Sends executor before (client.createTables ifNotExists (.ofOption .text engine))
        (sqls.map statementCall) (.ok ()) := by
  obtain ⟨written, rest, sqls, rfl, hwritten, hrest, hissues⟩ := h
  have hnone := eq_nil_of_head? hrest fun table htable =>
    hnumerals table (List.mem_append_right _ htable)
  obtain ⟨outcome, hsends, hcompletes⟩ :=
    (hissues executor before).answered (answersAll_of_forall hanswers _ _)
  obtain rfl := hcompletes.2 hnone
  refine ⟨sqls, ?_, hsends⟩
  rwa [hnone, List.append_nil]

/-- Dropping the tables of a client issues a statement for each of them. -/
theorem issues_dropTables (hvalid : ∀ table ∈ client.tables, table.Valid) (ifExists : Bool)
    (executor : Executor) (before : Journal) :
    Issues executor before (client.dropTables ifExists)
      (client.tables.map fun table => statementCall (table.dropping ifExists)) True := by
  have htext : ∀ entry ∈ client.models,
      entry.2.table.dropText ifExists = .ok (entry.2.table.dropping ifExists) := fun entry hentry =>
    (hvalid _ (List.mem_map_of_mem hentry)).dropText_eq_ok ifExists
  rw [tables, List.map_map]
  exact issues_forM_of_ok client.settings htext

end Client

end TypedSql
