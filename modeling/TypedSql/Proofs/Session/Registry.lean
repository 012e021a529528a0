import Mathlib.Data.List.Induction
import TypedSql.Proofs.Session.BulkInsertion
import TypedSql.Proofs.Session.Issuing
import TypedSql.Proofs.Table.Reachable

/-!
# Registries

A client keeps a model for each name that has been defined. Whatever definitions are tried, in any
order and with failures in between, its models are those of the tables that are `registered`: one
for each name, in the order of the first definitions, each of the last table that was defined under
the name. `registry_of_definitions` says so, and what creating and dropping these tables hands to an
executor.
-/

namespace TypedSql

open TypedSql.Number TypedSql.Outcome TypedSql.Keyed

namespace Table

/-- The last of some tables that has a name. -/
def latest? (tables : List Table) (known : String) : Option Table :=
  tables.reverse.find? fun table => table.name = known

/-- What is left of tables that are registered one after the other: the last table of each name, in
the order in which the names came first. -/
def registered (tables : List Table) : List Table :=
  (tables.map name).eraseDups.filterMap (latest? tables)

variable {tables : List Table} {table : Table} {known : String}

/-- The last table of a name is a table that is put behind the others, if it has the name. -/
theorem latest?_concat :
    latest? (tables ++ [table]) known =
      if table.name = known then some table else latest? tables known := by
  rw [latest?, List.reverse_concat, List.find?_cons]
  by_cases hname : table.name = known <;> simp [hname, latest?]

theorem name_of_latest? (h : latest? tables known = some table) : table.name = known := by
  simpa using List.find?_some h

/-- Every name among tables is that of a last table. -/
theorem exists_latest? (h : known ∈ tables.map name) :
    ∃ table, latest? tables known = some table := by
  obtain ⟨table, htable, hname⟩ := List.mem_map.1 h
  refine Option.isSome_iff_exists.1 (List.find?_isSome.2 ⟨table, List.mem_reverse.2 htable, ?_⟩)
  exact decide_eq_true hname

/-- Each name is registered once, in the order in which the names came first. -/
theorem map_name_registered (tables : List Table) :
    (registered tables).map name = (tables.map name).eraseDups := by
  have hname : ∀ known ∈ (tables.map name).eraseDups,
      (latest? tables known).map name = some known := by
    intro known hknown
    obtain ⟨table, htable⟩ := exists_latest? (List.mem_eraseDups.1 hknown)
    rw [htable, Option.map_some, name_of_latest? htable]
  rw [registered, List.map_filterMap, List.filterMap_congr hname, List.filterMap_some]

/-- A name behind others is one more name if it is not among them. -/
theorem eraseDups_concat (names : List String) (known : String) :
    (names ++ [known]).eraseDups =
      if known ∈ names then names.eraseDups else names.eraseDups ++ [known] := by
  rw [List.eraseDups_append, List.removeAll, List.filter_cons]
  by_cases hknown : known ∈ names <;> simp [hknown, List.eraseDups_cons]

/-- A table with a new name is registered behind the others. -/
theorem registered_concat_of_not_mem (h : table.name ∉ tables.map name) :
    registered (tables ++ [table]) = registered tables ++ [table] := by
  have hnames : ((tables ++ [table]).map name).eraseDups =
      (tables.map name).eraseDups ++ [table.name] := by
    rw [List.map_append, List.map_singleton, eraseDups_concat, if_neg h]
  have hothers : ∀ known ∈ (tables.map name).eraseDups,
      latest? (tables ++ [table]) known = latest? tables known := by
    intro known hknown
    rw [latest?_concat, if_neg]
    rintro rfl
    exact h (List.mem_eraseDups.1 hknown)
  have hlast : latest? (tables ++ [table]) table.name = some table := by
    rw [latest?_concat, if_pos rfl]
  rw [registered, hnames, List.filterMap_append, List.filterMap_congr hothers]
  simp [registered, hlast]

/-- A table with a known name takes the place of the one with this name. -/
theorem registered_concat_of_mem (h : table.name ∈ tables.map name) :
    registered (tables ++ [table]) =
      (registered tables).map fun known => if known.name = table.name then table else known := by
  have hnames : ((tables ++ [table]).map name).eraseDups = (tables.map name).eraseDups := by
    rw [List.map_append, List.map_singleton, eraseDups_concat, if_pos h]
  rw [registered, hnames, registered, List.map_filterMap]
  refine List.filterMap_congr fun known hknown => ?_
  obtain ⟨old, hold⟩ := exists_latest? (List.mem_eraseDups.1 hknown)
  rw [latest?_concat, hold, Option.map_some, name_of_latest? hold]
  by_cases hname : table.name = known
  · rw [if_pos hname, if_pos hname.symm]
  · rw [if_neg hname, if_neg (Ne.symm hname)]

/-- What is left of tables is one of them. -/
theorem mem_of_mem_registered (h : table ∈ registered tables) : table ∈ tables := by
  obtain ⟨known, -, hlatest⟩ := List.mem_filterMap.1 h
  exact List.mem_reverse.1 (List.mem_of_find?_eq_some hlatest)

end Table

namespace TableSource

/-- The columns that a model is defined by. -/
def columns [Coercion] : TableSource → Except Fault (List (String × Column))
  | .table known => .ok known.columns
  | .definition given => (Table.columnsOf given).map Table.withTextNames

/-- Whether a source can be given. Tables are those that calls make; maps have every key once. -/
def IsGiven [Coercion] : TableSource → Prop
  | .table known => known.Reachable
  | .definition given => given.HasDistinctKeys

end TableSource

namespace Client

open Session

/-- A call that defines a model. -/
structure Definition where
  name : Value
  source : TableSource

/-- The table that a call defines, if the call succeeds. -/
def Definition.table? [Coercion] (call : Definition) : Option Table :=
  (tableOf call.name call.source).toOption

/-- What a call makes of a client; one that fails leaves the client as it is. -/
def defineStep [Coercion] (executor : Executor) (state : Client × Journal) (call : Definition) :
    Client × Journal :=
  match run (state.1.define call.name call.source) executor state.2 with
  | (.ok (client, _), after) => (client, after)
  | (.error _, after) => (state.1, after)

/-- What calls make of a client, one after the other. -/
def defineEach [Coercion] (executor : Executor) (state : Client × Journal)
    (calls : List Definition) :
    Client × Journal :=
  calls.foldl (defineStep executor) state

variable {name : Value} {source : TableSource} {table : Table}

/-- The table of a model has the name and the columns that it is defined by. -/
theorem tableOf_eq_ok [Coercion] (h : tableOf name source = .ok table) :
    name.asText? = some table.name ∧ source.columns = .ok table.columns := by
  cases source with
  | table known =>
      rw [tableOf] at h
      split at h
      · next hname =>
          cases h
          exact ⟨hname, rfl⟩
      · simp only [Table.ofColumns, Table.ofDefinition, bind_eq_ok, pure_eq_ok,
          Table.columnsOf_definitionOf, Except.ok.injEq, exists_eq_left'] at h
        obtain ⟨text, hname, -, -, rfl⟩ := h
        exact ⟨Table.asText?_of_checkTableName hname,
          congrArg Except.ok (Table.withTextNames_texts known.columns).symm⟩
  | definition definition =>
      simp only [tableOf, Table.ofDefinition, bind_eq_ok, pure_eq_ok] at h
      obtain ⟨text, hname, columns, hcolumns, -, -, rfl⟩ := h
      refine ⟨Table.asText?_of_checkTableName hname, ?_⟩
      rw [TableSource.columns, hcolumns]
      rfl

/-- The table of a model is valid. -/
theorem valid_of_tableOf [Coercion] (hgiven : source.IsGiven)
    (h : tableOf name source = .ok table) :
    table.Valid := by
  cases source with
  | table known =>
      have hvalid : known.Valid := Table.ReachableFrom.valid hgiven
      rw [tableOf] at h
      split at h
      · cases h
        exact hvalid
      · exact Table.valid_of_ofColumns hvalid.hasDistinctKeys h
  | definition definition => exact Table.valid_of_ofDefinition hgiven h

/-- The model of a table, tied to the settings of its client. -/
def modelOf (settings : Settings) (table : Table) : Model := { table, settings := some settings }

section Definitions

variable {client : Client} {executor : Executor} {before : Journal}

/-- A definition without a table fails, and nothing else happens. -/
theorem run_define_error [Coercion] {fault : Fault} (h : tableOf name source = .error fault) :
    run (client.define name source) executor before = (.error fault, before) := by
  rw [define, h, run_bind_error (run_ofExcept _)]

/-- A definition with a table puts its model under the name. -/
theorem run_define_ok [Coercion] (h : tableOf name source = .ok table) :
    ∃ logs, run (client.define name source) executor before =
      (.ok ({ client with models := client.models.put name (modelOf client.settings table) },
        modelOf client.settings table), { before with logs := before.logs ++ logs }) := by
  rw [define, h, run_bind_ok (run_ofExcept _)]
  cases client.models.has name with
  | false => exact ⟨_, rfl⟩
  | true =>
      simp only [if_true, run_bind, run_log, run_pure, List.append_assoc]
      exact ⟨_, rfl⟩

/-- `IsRegistry settings tables client` says that a client has the settings, and the models of the
tables under the names of the tables. -/
structure IsRegistry (settings : Settings) (tables : List Table) (client : Client) : Prop where
  settings_eq : client.settings = settings
  models_eq : (client.models.map fun entry => (entry.1.asText?, entry.2)) =
    tables.map fun table => (some table.name, modelOf settings table)

variable {settings : Settings} {tables : List Table}

/-- The tables of a client are those that it has models of. -/
theorem IsRegistry.tables_eq (h : IsRegistry settings tables client) : client.tables = tables := by
  have htables := congrArg (List.map fun entry => entry.2.table) h.models_eq
  simpa [Client.tables, modelOf, Function.comp_def] using htables

/-- A name is in use exactly if it is the name of a table. -/
theorem IsRegistry.has_eq (h : IsRegistry settings tables client)
    (hname : name.asText? = some table.name) :
    client.models.has name = decide (table.name ∈ tables.map Table.name) := by
  have hkeys := congrArg (List.any · fun entry => entry.1 = some table.name) h.models_eq
  simp only [List.any_map, Function.comp_def] at hkeys
  simp only [has, Value.isKey_of_asText hname, hkeys, Option.some.injEq]
  rw [Bool.eq_iff_iff]
  simp

/-- A definition that succeeds registers its table. -/
theorem IsRegistry.put (h : IsRegistry settings (Table.registered tables) client)
    (hname : name.asText? = some table.name) :
    IsRegistry settings (Table.registered (tables ++ [table]))
      { client with models := client.models.put name (modelOf client.settings table) } where
  settings_eq := h.settings_eq
  models_eq := by
    have hhas : client.models.has name = decide (table.name ∈ tables.map Table.name) := by
      rw [h.has_eq hname, Table.map_name_registered]
      simp only [List.mem_eraseDups]
    simp only [h.settings_eq]
    by_cases hmem : table.name ∈ tables.map Table.name
    · -- the models under other names are those that there were
      have hreplaced := congrArg (List.map fun entry : Option String × Model =>
        if entry.1 = some table.name then (entry.1, modelOf settings table) else entry) h.models_eq
      rw [Keyed.put, hhas, decide_eq_true hmem, if_pos rfl, Table.registered_concat_of_mem hmem]
      simp only [List.map_map, Function.comp_def, Value.isKey_of_asText hname] at hreplaced ⊢
      refine (List.map_congr_left fun entry _ => ?_).trans
        (hreplaced.trans (List.map_congr_left fun known _ => ?_))
      · by_cases hentry : entry.1.asText? = some table.name <;> simp [hentry]
      · by_cases hknown : known.name = table.name <;> simp [hknown]
    · have hnew : client.models.has name = false := by rw [hhas, decide_eq_false hmem]
      rw [Keyed.put_of_has_eq_false hnew, Table.registered_concat_of_not_mem hmem, List.map_append,
        List.map_append, ← h.models_eq]
      simp [hname]

/-- What a call makes of a registry. -/
theorem IsRegistry.step [Coercion] (h : IsRegistry settings (Table.registered tables) client)
    (call : Definition) :
    IsRegistry settings (Table.registered (tables ++ call.table?.toList))
      (defineStep executor (client, before) call).1 := by
  cases htable : tableOf call.name call.source with
  | error fault =>
      rw [Definition.table?, htable, defineStep, run_define_error htable]
      simpa [Except.toOption] using h
  | ok table =>
      obtain ⟨logs, hrun⟩ := @run_define_ok _ _ _ client executor before _ htable
      rw [Definition.table?, htable, defineStep, hrun]
      exact h.put (tableOf_eq_ok htable).1

/-- What calls make of a client without models: it has a model for each name, of the last table
that has been defined under the name. -/
theorem isRegistry_defineEach [Coercion] (settings : Settings) (calls : List Definition) :
    IsRegistry settings (Table.registered (calls.filterMap Definition.table?))
      (defineEach executor ({ settings }, before) calls).1 := by
  induction calls using List.reverseRecOn with
  | nil => exact ⟨rfl, rfl⟩
  | append_singleton calls call ih =>
      rw [defineEach, List.foldl_concat, List.filterMap_append, ← defineEach]
      have hcall : [call].filterMap Definition.table? = call.table?.toList := by
        rw [List.filterMap_cons]
        cases call.table? <;> rfl
      rw [hcall]
      exact ih.step call

end Definitions

/-- `Runs executor journal client call` says what a call does. Without a table it fails and leaves
everything as it is; the table that it defines has the name and the columns that it gives. -/
def Definition.Runs [Coercion] (executor : Executor) (journal : Journal) (client : Client)
    (call : Definition) : Prop :=
  match call.table? with
  | none =>
    (∃ fault, (run (client.define call.name call.source) executor journal).1 = .error fault) ∧
      defineStep executor (client, journal) call = (client, journal)
  | some table =>
    call.name.asText? = some table.name ∧ call.source.columns = .ok table.columns ∧
      ∃ after, (run (client.define call.name call.source) executor journal).1 =
        .ok (after, modelOf client.settings table)

/-- Every call does so. -/
theorem Definition.runs [Coercion] (executor : Executor) (journal : Journal) (client : Client)
    (call : Definition) : call.Runs executor journal client := by
  unfold Definition.Runs Definition.table?
  cases htable : tableOf call.name call.source with
  | error fault =>
      have hrun := @run_define_error _ _ client executor journal _ fault htable
      exact ⟨⟨fault, congrArg Prod.fst hrun⟩, by rw [defineStep, hrun]⟩
  | ok table =>
      obtain ⟨hname, hcolumns⟩ := tableOf_eq_ok htable
      obtain ⟨logs, hrun⟩ := @run_define_ok _ _ _ client executor journal _ htable
      exact ⟨hname, hcolumns, _, congrArg Prod.fst hrun⟩

/-- Tables that are left of calls that can be given are valid. -/
theorem valid_of_mem_registered [Coercion] {calls : List Definition}
    (hgiven : ∀ call ∈ calls, call.source.IsGiven)
    (htable : table ∈ Table.registered (calls.filterMap Definition.table?)) : table.Valid := by
  obtain ⟨call, hcall, hdefined⟩ := List.mem_filterMap.1 (Table.mem_of_mem_registered htable)
  exact valid_of_tableOf (hgiven call hcall) (toOption_eq_some.1 hdefined)

/-- Whatever definitions are tried on a client without models, the ones that fail change nothing.
The client ends up with a model for each name that has been defined, in the order of the first
definitions, and the model has the columns of the last one. Creating its tables issues one statement
for each, in this order, as far as they can be written; dropping them issues one for each. -/
theorem registry_of_definitions [Coercion] (settings : Settings) {calls : List Definition}
    (hgiven : ∀ call ∈ calls, call.source.IsGiven) (executor : Executor) (before : Journal) :
    let client := (defineEach executor ({ settings }, before) calls).1
    let tables := Table.registered (calls.filterMap Definition.table?)
    (∀ call ∈ calls, ∀ client journal, call.Runs executor journal client) ∧
      (client.models.map fun entry => (entry.1.asText?, entry.2)) =
        tables.map (fun table => (some table.name, modelOf settings table)) ∧
      (∀ ifNotExists engine, client.IssuesCreations tables ifNotExists engine) ∧
      ∀ ifExists executor before, Issues executor before (client.dropTables ifExists)
        (tables.map fun table => statementCall (table.dropping ifExists)) True := by
  intro client tables
  have hregistry : IsRegistry settings tables client := isRegistry_defineEach settings calls
  have hvalid : ∀ table ∈ client.tables, table.Valid := by
    rw [hregistry.tables_eq]
    exact fun table htable => valid_of_mem_registered hgiven htable
  refine ⟨fun call _ client journal => call.runs executor journal client, hregistry.models_eq, ?_⟩
  rw [← hregistry.tables_eq]
  exact ⟨issues_createTables hvalid, issues_dropTables hvalid⟩

/-- A table of accounts, for the case below. -/
def accounts : Table :=
  { name := "accounts", columns := [("id", { kind := .uint32 }), ("name", { kind := .string })] }

theorem accounts_reachable : accounts.Reachable := by
  have hdefined : Table.ofDefinition (.text "accounts")
      (.map [(.text "id", .kind .uint32), (.text "name", .kind .string)]) = .ok accounts := by rfl
  exact Table.reachable_of_ofDefinition
    (by simp [Value.HasDistinctKeys, HasDistinctKeys, Value.text_isKey, Value.asText?]) hdefined

/-- Users are defined twice, people by the table of accounts, and one definition has no name. -/
theorem registry_of_users_and_people :
    let calls : List Definition := [
      { name := .text "users", source := .definition (.map [(.text "id", .kind .uint32)]) },
      { name := .text "people", source := .table accounts },
      { name := .text "", source := .table accounts },
      { name := .text "users", source := .definition (.map [(.text "name", .kind .string)]) }]
    let client := (defineEach (fun _ _ => .ok .null) ({}, {}) calls).1
    (∀ call ∈ calls, call.source.IsGiven) ∧
      (client.models.map fun entry => (entry.1.asText?, entry.2.table.columnNames)) =
        [(some "users", ["name"]), (some "people", ["id", "name"])] ∧
      Sends (fun _ _ => .ok .null) {} (client.createTables true .null) (.map statementCall [
        "CREATE TABLE IF NOT EXISTS `users` (\n  `name` String\n)\n" ++
          "ENGINE = MergeTree()\nORDER BY `name`",
        "CREATE TABLE IF NOT EXISTS `people` (\n  `id` UInt32,\n  `name` String\n)\n" ++
          "ENGINE = MergeTree()\nORDER BY `id`"]) (.ok ()) := by
  intro calls client
  have hgiven : ∀ call ∈ calls, call.source.IsGiven := by
    simp [calls, TableSource.IsGiven, accounts_reachable, Value.HasDistinctKeys, HasDistinctKeys]
  let users : Table := { name := "users", columns := [("name", { kind := .string })] }
  let people : Table := { name := "people", columns := accounts.columns }
  have htables : Table.registered (calls.filterMap Definition.table?) = [users, people] := by rfl
  obtain ⟨-, hmodels, hcreations, -⟩ := registry_of_definitions {} hgiven (fun _ _ => .ok .null) {}
  rw [htables] at hmodels hcreations
  have hvalid : ∀ table ∈ [users, people], table.Valid := fun table htable =>
    valid_of_mem_registered hgiven (htables ▸ htable)
  have hengine : client.engineOf none = "MergeTree()" := by
    rw [engineOf, (isRegistry_defineEach {} calls).settings_eq]
    rfl
  have husers := hvalid users List.mem_cons_self
  have hpeople := hvalid people (List.mem_cons_of_mem _ List.mem_cons_self)
  have hfirst : users.createText { engine := .text "MergeTree()", ifNotExists := true } = .ok
      ("CREATE TABLE IF NOT EXISTS `users` (\n  `name` String\n)\n" ++
        "ENGINE = MergeTree()\nORDER BY `name`") := toOption_eq_some.1 (by decide +kernel)
  have hsecond : people.createText { engine := .text "MergeTree()", ifNotExists := true } = .ok
      ("CREATE TABLE IF NOT EXISTS `people` (\n  `id` UInt32,\n  `name` String\n)\n" ++
        "ENGINE = MergeTree()\nORDER BY `id`") := toOption_eq_some.1 (by decide +kernel)
  have hnumerals : ∀ table ∈ [users, people], table.HasNumerals := by
    refine List.forall_mem_cons.2 ⟨?_, List.forall_mem_singleton.2 ?_⟩
    · exact husers.exists_isCreation_iff.1 ⟨_, husers.createText_eq_ok_iff.1 hfirst⟩
    · exact hpeople.exists_isCreation_iff.1 ⟨_, hpeople.createText_eq_ok_iff.1 hsecond⟩
  have hanswers : ∀ earlier call, Answers (fun _ _ => .ok .null) earlier call :=
    fun _ _ => ⟨.null, rfl⟩
  obtain ⟨sqls, hsqls, hsends⟩ := (hcreations true none).sends hnumerals hanswers {}
  rw [hengine] at hsqls
  refine ⟨hgiven, ?_, ?_⟩
  · have hcolumns := congrArg (List.map fun entry : Option String × Model =>
      (entry.1, entry.2.table.columnNames)) hmodels
    rw [List.map_map] at hcolumns
    exact hcolumns
  · cases hsqls with
    | cons hone hothers =>
        cases hothers with
        | cons htwo hnone =>
            cases hnone
            obtain rfl := Except.ok.inj (hfirst.symm.trans (husers.createText_eq_ok_iff.2 hone))
            obtain rfl := Except.ok.inj (hsecond.symm.trans (hpeople.createText_eq_ok_iff.2 htwo))
            exact hsends

/-- A table of labels whose length has one digit too many is defined, but creating it fails, and
nothing is sent. -/
theorem labels_not_created :
    let labels := (Model.labels (tenTo maxDigits)).table
    let calls : List Definition := [{ name := .text "labels", source := .table labels }]
    let client := (defineEach (fun _ _ => .ok .null) ({}, {}) calls).1
    (∀ call ∈ calls, call.source.IsGiven) ∧ client.tables = [labels] ∧
      ∃ fault, Sends (fun _ _ => .ok .null) {} (client.createTables true .null) []
        (.error fault) := by
  intro labels calls client
  have hgiven : ∀ call ∈ calls, call.source.IsGiven :=
    List.forall_mem_singleton.2 (Model.labels_reachable (tenTo_pos maxDigits))
  have htables : client.tables = [labels] := (isRegistry_defineEach {} calls).tables_eq
  have hvalid : ∀ table ∈ client.tables, table.Valid := by
    rw [htables]
    exact List.forall_mem_singleton.2 (Model.labels_reachable (tenTo_pos maxDigits)).valid
  have hnumerals : ¬labels.HasNumerals := by
    intro h
    have hnumeral := Table.hasNumeral_of_hasNumerals (h _ List.mem_cons_self)
    rw [hasNumeral_tenTo_maxDigits] at hnumeral
    cases hnumeral
  refine ⟨hgiven, htables, ?_⟩
  obtain ⟨written, rest, sqls, hsplit, hwritten, -, hissues⟩ := issues_createTables hvalid true none
  rw [htables] at hsplit
  cases hwritten with
  | nil =>
      obtain ⟨outcome, hsends, hcompletes⟩ := (hissues (fun _ _ => .ok .null) {}).answered trivial
      cases outcome with
      | error fault => exact ⟨fault, hsends⟩
      | ok =>
          obtain rfl := hcompletes.1 rfl
          cases hsplit
  | cons hfirst _ =>
      obtain ⟨rfl, -⟩ := List.cons.inj hsplit
      have hlabels : labels.Valid := (Model.labels_reachable (tenTo_pos maxDigits)).valid
      exact absurd (hlabels.exists_isCreation_iff.1 ⟨_, hfirst⟩) hnumerals

end Client

end TypedSql
