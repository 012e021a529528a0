import TypedSql.Proofs.Model.Insertion
import TypedSql.Proofs.Session.Creation
import TypedSql.Proofs.Session.Update
import TypedSql.Proofs.Wire.Null

/-!
# Null parameters

Where a checked insertion or an update binds null. In an update the type of the placeholder always
admits it. An insertion of records that pass binds null to other placeholders too, but only for
columns that number themselves or have a null default: `null_parameters`.
-/

namespace TypedSql

open TypedSql.Outcome TypedSql.Sql TypedSql.Statement TypedSql.Session

/-- Whether a record that passes may have no value for a column. -/
def Column.MayBeNull (column : Column) : Prop :=
  column.nullable = true ∨ column.autoIncrement = true ∨ column.DefaultsToNull

namespace Record

variable {table : Table} {record filled : Entries}

/-- A filled record that passes has no value only for columns that may be null. -/
theorem mayBeNull_of_checkFor (hpasses : checkFor table (.map filled) = .ok ())
    (hfilled : Filled table.columns record filled) {entry : String × Column}
    (hentry : entry ∈ table.columns) (hnull : (valueAt filled entry.1).isNull = true) :
    entry.2.MayBeNull := by
  have hfield := (checkFor_eq_ok_iff.1 hpasses).2 entry hentry
  unfold valueAt at hnull
  rw [checkField, if_pos hnull] at hfield
  by_cases hoptional : Table.isOptional entry.2 = true
  · simp only [Table.isOptional, Bool.or_eq_true] at hoptional
    rcases hoptional with (hnullable | hdefault) | hauto
    · exact .inl hnullable
    · exact .inr (.inr (hfilled.defaults entry hentry hdefault hnull))
    · exact .inr (.inl hauto)
  · rw [if_neg hoptional] at hfield
    cases hfield

end Record

namespace Model

open Record

variable {model : Model} {executor : Executor} {before after : Journal}

/-- Where nothing has been sent, all that has been sent is as it should be. -/
theorem exists_sent_of_calls_eq {holds : Call → Prop} (h : after.calls = before.calls) :
    ∃ sent, after.calls = before.calls ++ sent ∧ ∀ call ∈ sent, holds call :=
  ⟨[], h.trans (List.append_nil _).symm, fun _ hcall => nomatch hcall⟩

section Insertions

variable {batch : List Entries} {insertion : Insertion}

/-- Whether an insertion binds null only to placeholders whose types admit it, or for columns that
are not nullable but number themselves or have a null default. -/
def BindsNull (model : Model) (insertion : Insertion) : Prop :=
  ∀ row ∈ insertion.rows, ∀ field ∈ insertion.columns.zip row,
    insertion.parameters.lookup field.2.name = some .null → AdmitsNull field.2.type ∨
      ∃ column, (field.1, column) ∈ model.table.columns ∧ column.nullable = false ∧
        (column.autoIncrement = true ∨ column.DefaultsToNull)

/-- An insertion binds null for the columns for which some record has no value. -/
theorem Carries.bindsNull (h : model.Carries batch insertion)
    (hnull : ∀ record ∈ batch, ∀ entry ∈ model.batchColumns batch,
      (valueAt record entry.1).isNull = true → entry.2.MayBeNull) :
    model.BindsNull insertion := by
  intro row hrow field hfield hlookup
  obtain ⟨record, hrecord, column, hcolumn, htype, wire, hwire, hencode⟩ :=
    h.exists_of_mem hrow hfield
  cases hlookup.symm.trans hwire
  have hmay := hnull record hrecord _ hcolumn (Wire.isNull_of_encode hencode)
  by_cases hnullable : column.nullable = true
  · exact .inl (Column.admitsNull_placeholderType htype hnullable)
  · exact .inr ⟨column, mem_of_mem_batchColumns hcolumn, Bool.not_eq_true _ ▸ hnullable,
      hmay.resolve_left hnullable⟩

/-- `model.Inserts call` says that a call inserts records into the table of a model, and where it
binds null. -/
def Inserts (model : Model) (call : Call) : Prop :=
  ∃ batch insertion, model.Carries batch insertion ∧ call = insertion.statement.command ∧
    model.BindsNull insertion

/-- The statement of records of known columns inserts them, where they have no value only for
columns that may be null. -/
theorem inserts_of_insertRecords (h : model.table.Valid) (hbatch : batch ≠ [])
    (hknown : model.Knows batch)
    (hnull : ∀ record ∈ batch, ∀ entry ∈ model.batchColumns batch,
      (valueAt record entry.1).isNull = true → entry.2.MayBeNull)
    {statement : Bound} (hstatement : model.insertRecords (batch.map .map) = .ok statement) :
    model.Inserts statement.command := by
  obtain ⟨insertion, rfl, hcarries⟩ := carries_of_insertRecords h hbatch hknown hstatement
  exact ⟨batch, insertion, hcarries, rfl, hcarries.bindsNull hnull⟩

/-- Every call of a checked creation inserts. -/
theorem inserts_of_run_create (h : model.table.Valid) {data fields : Value}
    (hdata : data.HasDistinctKeys) {outcome : Except Fault Value}
    (hrun : run (model.create data true fields) executor before = (outcome, after)) :
    ∃ sent, after.calls = before.calls ++ sent ∧ ∀ call ∈ sent, model.Inserts call := by
  rcases exists_of_run_create hrun with hsame | ⟨filled, between, restricted, statement, hprepared,
    hcheck, hrestrict, hstatement, hcalls⟩
  · exact exists_sent_of_calls_eq hsame
  obtain ⟨record, hrecord, hfilled⟩ := filled_of_run_prepareRecord h hprepared
  have hpasses := checkPrepared_eq_ok_iff.1 hcheck rfl filled List.mem_cons_self
  have hdistinct := hfilled.distinct (hasDistinctKeys_recordEntries hdata hrecord)
  have hknown : model.Knows [restricted] := List.forall_mem_singleton.2 fun entry hentry =>
    (checkFor_eq_ok_iff.1 hpasses).1 entry ((sublist_of_restrict hrestrict).subset hentry)
  refine ⟨_, hcalls, List.forall_mem_singleton.2 ?_⟩
  refine inserts_of_insertRecords h (List.cons_ne_nil _ _) hknown ?_ hstatement
  refine List.forall_mem_singleton.2 fun entry hentry hnull => ?_
  rw [batchColumns_singleton] at hentry
  obtain ⟨hcolumn, hhas⟩ := List.mem_filter.1 hentry
  rw [valueAt_of_restrict hrestrict hdistinct hhas] at hnull
  exact mayBeNull_of_checkFor hpasses hfilled hcolumn hnull

/-- Every call of a checked bulk insertion inserts. -/
theorem inserts_of_run_bulkCreate (h : model.table.Valid) {records batchSize : Value}
    {outcome : Except Fault (List Value)}
    (hrun : run (model.bulkCreate records true batchSize) executor before = (outcome, after)) :
    ∃ sent, after.calls = before.calls ++ sent ∧ ∀ call ∈ sent, model.Inserts call := by
  rcases exists_of_run_bulkCreate hrun with hsame | ⟨prepared, size, between, sending, sent, -,
    hprepared, hsending, hcalls, -⟩
  · exact exists_sent_of_calls_eq hsame
  obtain ⟨hsize, hfilled⟩ := prepared_of_run_prepareBulk h hprepared
  refine ⟨sent, hcalls, fun call hcall => ?_⟩
  obtain ⟨batch, hbatch, statement, hstatement, rfl⟩ := hsending.exists_of_mem hcall
  have hmem := mem_of_mem_batches hbatch
  refine inserts_of_insertRecords h (ne_nil_of_mem_batches hsize hbatch) ?_ ?_ hstatement
  · exact fun record hrecord => (checkFor_eq_ok_iff.1 (hfilled record (hmem record hrecord)).1).1
  · intro record hrecord entry hentry hnull
    obtain ⟨hpasses, _, hfilled⟩ := hfilled record (hmem record hrecord)
    exact mayBeNull_of_checkFor hpasses hfilled (mem_of_mem_batchColumns hentry) hnull

end Insertions

section Updates

/-- `model.Assigns patch call` says that a call updates the table of a model with the fields of a
patch that an update writes, and that it binds null only to placeholders whose types admit it. -/
def Assigns (model : Model) (patch : Entries) (call : Call) : Prop :=
  ∃ assignments condition, ∃ statement : Bound, call = statement.command ∧
    statement.sql =
      updateHead (Identifier.backquoted model.name) assignments ++ " WHERE " ++ condition ∧
    assignments.map Prod.fst = quotedNames ((model.writtenFields patch).map Prod.fst) ∧
    ∀ assignment ∈ assignments, ∃ value,
      statement.parameters.lookup assignment.2.name = some value ∧
        (value = .null → AdmitsNull assignment.2.type)

/-- What an update writes is null only for columns with placeholders that admit null. -/
theorem admitsNull_of_mem_writtenFields {patch : Entries} {entry : Value × Value}
    (hentry : entry ∈ model.writtenFields patch) {type : String}
    (htype : model.wireType entry.1 = .ok (.text type))
    (hwire : model.toWire entry.1 entry.2 = .ok .null) : AdmitsNull type := by
  obtain ⟨column, text, hcolumn, hplaceholder, htext⟩ := wireType_eq_ok.1 htype
  cases htext
  rw [toWire, hcolumn] at hwire
  exact Column.admitsNull_placeholderType hplaceholder
    (nullable_of_mem_writtenFields hentry (Wire.isNull_of_encode hwire) hcolumn)

/-- The statement of the fields that an update writes assigns them. -/
theorem assigns_of_updateStatement {patch : Entries} {given : Value} {statement : Bound}
    (h : model.updateStatement (.map (model.writtenFields patch)) given = .ok statement) :
    model.Assigns patch statement.command := by
  obtain ⟨entries, values, types, clause, hdata, hvalues, htypes, -, -, hsql, hparameters, -, -⟩ :=
    update_eq_ok h
  cases hdata
  have hvaluesLength := length_of_mapM hvalues
  have htypesLength := length_of_mapM htypes
  rw [List.length_map] at htypesLength
  have hlookup := lookup_numbered (hvaluesLength.trans htypesLength.symm) 0
  have hslots := length_slotsFrom 0 types
  refine ⟨_, clause.sql, statement, rfl, hsql, ?_, fun assignment hassignment => ?_⟩
  · rw [List.map_fst_zip]
    simp [quotedNames, hslots, htypesLength]
  · -- the place of the field is that of its value, its type and its placeholder
    obtain ⟨place, hplace, rfl⟩ := List.mem_iff_getElem.1 hassignment
    simp only [List.length_zip, hslots, Nat.lt_min] at hplace
    have hentry : place < (model.writtenFields patch).length := htypesLength ▸ hplace.2
    have hvalue := (mapM_eq_ok_iff.1 hvalues).get hentry (hvaluesLength.symm ▸ hentry)
    have htype := (mapM_eq_ok_iff.1 htypes).get hentry (by simpa using hplace.2)
    have hfound := List.getElem_of_eq hlookup (by simpa [hslots] using hplace.2)
    have hslot := List.getElem_of_eq (map_type_slotsFrom 0 types) (by simpa [hslots] using hplace.2)
    simp only [List.get_eq_getElem, List.getElem_map] at hvalue htype hfound hslot
    rw [List.getElem_zip, hparameters, List.lookup_append, hfound, hslot]
    refine ⟨_, rfl, fun hnull => ?_⟩
    rw [hnull] at hvalue
    exact admitsNull_of_mem_writtenFields (List.getElem_mem hentry) htype hvalue

/-- Every call of an update assigns what it writes of its patch. -/
theorem assigns_of_run_update {data given : Value} {outcome : Except Fault Unit}
    (hrun : run (model.update data given) executor before = (outcome, after)) :
    ∃ sent, after.calls = before.calls ++ sent ∧
      ∀ call ∈ sent, ∃ patch, data = .map patch ∧ model.Assigns patch call := by
  rcases exists_of_run_update hrun with ⟨hsame, -⟩ | ⟨hpatch, statement, hstatement, hcalls⟩
  · exact exists_sent_of_calls_eq hsame
  · refine ⟨_, hcalls, List.forall_mem_singleton.2 ?_⟩
    cases data with
    | map patch => exact ⟨patch, rfl, assigns_of_updateStatement hstatement⟩
    | _ =>
        obtain ⟨_, -, hnone⟩ := bind_eq_ok.1 hpatch
        cases hnone

end Updates

/-- Checked insertions and updates of a reachable table bind null only to placeholders whose types
admit it, but for one case: an insertion also binds it for columns that are not nullable but number
themselves or have a null default. -/
theorem null_parameters [Coercion] (model : Model) (htable : model.table.Reachable) :
    (∀ (data fields : Value) (executor : Executor) (before : Journal) (outcome : Except Fault Value)
      (after : Journal), data.HasDistinctKeys →
      run (model.create data true fields) executor before = (outcome, after) →
        ∃ sent, after.calls = before.calls ++ sent ∧ ∀ call ∈ sent, model.Inserts call) ∧
    (∀ (records batchSize : Value) (executor : Executor) (before : Journal)
      (outcome : Except Fault (List Value)) (after : Journal),
      run (model.bulkCreate records true batchSize) executor before = (outcome, after) →
        ∃ sent, after.calls = before.calls ++ sent ∧ ∀ call ∈ sent, model.Inserts call) ∧
    ∀ (data given : Value) (executor : Executor) (before : Journal) (outcome : Except Fault Unit)
      (after : Journal),
      run (model.update data given) executor before = (outcome, after) →
        ∃ sent, after.calls = before.calls ++ sent ∧
          ∀ call ∈ sent, ∃ patch, data = .map patch ∧ model.Assigns patch call :=
  ⟨fun _ _ _ _ _ _ hdata => inserts_of_run_create htable.valid hdata,
    fun _ _ _ _ _ _ => inserts_of_run_bulkCreate htable.valid,
    fun _ _ _ _ _ _ => assigns_of_run_update⟩

/-- A user without an age, which is written by each of the three calls. -/
theorem users_bind_null :
    let record : Entries := [(.text "id", .int 1), (.text "name", .text "a"), (.text "age", .null)]
    let executor : Executor := fun _ _ => .ok .null
    (∃ call, (run (users.create (.map record) true .null) executor {}).2.calls = [call] ∧
      users.Inserts call) ∧
    (∃ call, (run (users.bulkCreate (.list [.map record]) true (.int 1)) executor {}).2.calls =
      [call] ∧ users.Inserts call) ∧
    ∃ call, (run (users.update (.map [(.text "age", .null)]) (.map [(.text "id", .int 1)])) executor
      {}).2.calls = [call] ∧ users.Assigns [(.text "age", .null)] call := by
  intro record executor
  have hdata : (Value.map record).HasDistinctKeys := by
    simp [record, Value.HasDistinctKeys, Keyed.HasDistinctKeys, Value.text_isKey, Value.asText?]
  have hcreated : (run (users.create (.map record) true .null) executor {}).2.calls.length = 1 := by
    decide +kernel
  have hinserted : (run (users.bulkCreate (.list [.map record]) true (.int 1)) executor
      {}).2.calls.length = 1 := by
    decide +kernel
  have hupdated : (run (users.update (.map [(.text "age", .null)]) (.map [(.text "id", .int 1)]))
      executor {}).2.calls.length = 1 := by
    decide +kernel
  obtain ⟨hcreate, hbulk, hupdate⟩ := null_parameters users users_reachable
  refine ⟨?_, ?_, ?_⟩
  · obtain ⟨sent, hsent, hinserts⟩ := hcreate (.map record) .null executor {} _ _ hdata rfl
    obtain ⟨call, hcall⟩ := List.length_eq_one_iff.1 hcreated
    obtain rfl : sent = [call] := hsent.symm.trans hcall
    exact ⟨call, hcall, hinserts call List.mem_cons_self⟩
  · obtain ⟨sent, hsent, hinserts⟩ := hbulk (.list [.map record]) (.int 1) executor {} _ _ rfl
    obtain ⟨call, hcall⟩ := List.length_eq_one_iff.1 hinserted
    obtain rfl : sent = [call] := hsent.symm.trans hcall
    exact ⟨call, hcall, hinserts call List.mem_cons_self⟩
  · obtain ⟨sent, hsent, hassigns⟩ := hupdate (.map [(.text "age", .null)])
      (.map [(.text "id", .int 1)]) executor {} _ _ rfl
    obtain ⟨call, hcall⟩ := List.length_eq_one_iff.1 hupdated
    obtain rfl : sent = [call] := hsent.symm.trans hcall
    obtain ⟨patch, hpatch, hassigned⟩ := hassigns call List.mem_cons_self
    cases hpatch
    exact ⟨call, hcall, hassigned⟩

/-- A table of counters that number themselves, with settings. -/
def counters : Model where
  table :=
    { name := "counters"
      columns := [
        ("id", { kind := .uint32, autoIncrement := true }),
        ("name", { kind := .string })] }
  settings := some {}

theorem counters_reachable : counters.table.Reachable := by
  let definition : Value := .map [
    (.text "id", .map [(.text "type", .text "UInt32"), (.text "autoIncrement", .bool true)]),
    (.text "name", .map [(.text "type", .text "String")])]
  have hkeys : definition.HasDistinctKeys := by
    simp [definition, Value.HasDistinctKeys, Keyed.HasDistinctKeys, Value.text_isKey, Value.asText?]
  have hdefined : Table.ofDefinition (.text "counters") definition = .ok counters.table := by rfl
  exact Table.reachable_of_ofDefinition hkeys hdefined

/-- A counter that is created without a number passes the check, and null is bound to a placeholder
whose type does not admit it. -/
theorem counters_bind_null :
    let record : Entries := [(.text "id", .null), (.text "name", .text "a")]
    let executor : Executor := fun _ _ => .ok .null
    counters.table.Reachable ∧ ∃ (after : Journal) (statement : Bound),
      run (counters.create (.map record) true .null) executor {} =
        (.ok (.map record), after) ∧ after.calls = [statement.command] ∧
      statement.sql = "INSERT INTO \x60counters\x60 (\x60id\x60, \x60name\x60) " ++
        "VALUES (\x7bparam0:UInt32\x7d, \x7bparam1:String\x7d)" ∧
      statement.parameters.lookup "param0" = some .null := by
  intro record executor
  have hpasses : checkFor counters.table (.map record) = .ok () :=
    toOption_eq_some.1 (by decide +kernel)
  have hinserted : ((counters.insertRecords [.map record]).map fun statement =>
      (statement.sql, (statement.parameters.lookup "param0").map Value.isNull)).toOption =
        some ("INSERT INTO \x60counters\x60 (\x60id\x60, \x60name\x60) " ++
          "VALUES (\x7bparam0:UInt32\x7d, \x7bparam1:String\x7d)", some true) := by
    decide +kernel
  obtain ⟨statement, hstatement, hparts⟩ := toOption_map_eq_some.1 hinserted
  obtain ⟨hsql, hnull⟩ := Prod.mk.inj hparts
  obtain ⟨value, hvalue, hnull⟩ := Option.map_eq_some_iff.1 hnull
  obtain ⟨after, hrun, hcalls⟩ := @run_create counters executor {} _ rfl record record rfl hpasses
    statement hstatement fun _ _ => ⟨.null, rfl⟩
  refine ⟨counters_reachable, after, statement, hrun, hcalls, hsql, ?_⟩
  cases value with
  | null => exact hvalue
  | _ => cases hnull

end Model

end TypedSql
