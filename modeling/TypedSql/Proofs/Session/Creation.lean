import TypedSql.Proofs.Session.Batch
import TypedSql.Proofs.Session.Preparation

/-!
# Creating records

A record that is created is prepared, checked and restricted to some of its fields before it is
inserted by itself; many records are prepared and checked before they are sent in batches.
`exists_of_run_create` and `exists_of_run_bulkCreate` say what has been done where something has
been sent, `run_create` that a record that passes is inserted, and `run_bulkCreate` that prepared
records are sent.
-/

namespace TypedSql.Model

open TypedSql.Outcome TypedSql.Statement Session Record

variable {model : Model} {executor : Executor} {before after : Journal}

section Restriction

variable {record restricted : Entries} {fields : Value}

/-- A restricted record has some of the entries of the record. -/
theorem sublist_of_restrict (h : restrict record fields = .ok restricted) :
    restricted.Sublist record := by
  unfold restrict at h
  split at h
  · cases h
    exact List.Sublist.refl _
  · exact sublist_of_filterM h

/-- What a restricted record still gives a value for has the value of the record. -/
theorem valueAt_of_restrict (h : restrict record fields = .ok restricted)
    (hdistinct : Keyed.HasDistinctKeys record) {name : String}
    (hhas : Keyed.has restricted (.text name) = true) :
    valueAt restricted name = valueAt record name := by
  have hsublist := sublist_of_restrict h
  obtain ⟨entry, hentry, hkey⟩ := List.any_eq_true.1 hhas
  rw [Value.isKey_of_asText rfl, decide_eq_true_iff] at hkey
  have hname : (Value.text name).asText? = some name := rfl
  have hrestricted : Keyed.HasDistinctKeys restricted := hdistinct.sublist hsublist
  unfold valueAt
  rw [Keyed.get?_eq_at? hname, Keyed.get?_eq_at? hname, hrestricted.at?_of_mem hentry hkey,
    hdistinct.at?_of_mem (hsublist.subset hentry) hkey]

end Restriction

/-- Creating a record hands the executor no call, or that of the statement of what is left of the
prepared record. -/
theorem exists_of_run_create {data fields : Value} {validate : Bool} {outcome : Except Fault Value}
    (hrun : run (model.create data validate fields) executor before = (outcome, after)) :
    after.calls = before.calls ∨ ∃ filled between restricted statement,
      run (model.prepareRecord data) executor before = (.ok filled, between) ∧
      model.checkPrepared validate [filled] = .ok () ∧
      restrict filled fields = .ok restricted ∧
      model.insertRecords [.map restricted] = .ok statement ∧
      after.calls = before.calls ++ [statement.command] := by
  rcases run_bind_cases hrun with ⟨fault, hprepared, -⟩ | ⟨filled, between, hprepared, hrun⟩
  · exact .inl ((silent_prepareRecord data).calls_eq hprepared)
  have hcalls := (silent_prepareRecord data).calls_eq hprepared
  rcases run_ofExcept_bind_cases hrun with ⟨fault, -, rfl⟩ | ⟨_, hcheck, hrun⟩
  · exact .inl hcalls
  rcases run_ofExcept_bind_cases hrun with ⟨fault, -, rfl⟩ | ⟨restricted, hrestrict, hrun⟩
  · exact .inl hcalls
  -- a record that has been inserted is given back, which changes nothing in the journal
  obtain ⟨inserted, hinsert⟩ : ∃ inserted,
      run (model.insertBatch [restricted]) executor between = (inserted, after) := by
    rcases run_bind_cases hrun with ⟨fault, hinsert, -⟩ | ⟨_, last, hinsert, hgiven⟩
    · exact ⟨_, hinsert⟩
    · cases hgiven
      exact ⟨_, hinsert⟩
  rw [← hcalls]
  refine (exists_of_run_insertBatch hinsert).imp_right ?_
  rintro ⟨statement, hstatement, hsent⟩
  exact ⟨filled, between, restricted, statement, hprepared, hcheck, hrestrict, hstatement, hsent⟩

/-- A record that passes is inserted by the call of its statement, if the executor answers. -/
theorem run_create {settings : Settings} (hsettings : model.settings = some settings)
    {record filled : Entries} (hfilled : ((model.prepare record).run before.draws).1 = filled)
    (hpasses : checkFor model.table (.map filled) = .ok ()) {statement : Bound}
    (hstatement : model.insertRecords [.map filled] = .ok statement)
    (hanswers : ∀ earlier call, Answers executor earlier call) :
    ∃ after, run (model.create (.map record) true .null) executor before =
        (.ok (.map filled), after) ∧ after.calls = before.calls ++ [statement.command] := by
  have hbatch : model.insertRecords ([filled].map .map) = .ok statement := hstatement
  obtain ⟨outcome, logs, hinsert, houtcome⟩ := @run_insertBatch model executor
    { before with draws := ((model.prepare record).run before.draws).2 } [filled] settings hsettings
    statement hbatch
  obtain rfl := houtcome.2 (hanswers _ _)
  have hchecked : model.checkPrepared true [filled] = .ok () :=
    checkPrepared_eq_ok_iff.2 fun _ => List.forall_mem_singleton.2 hpasses
  refine ⟨{ before with
    draws := ((model.prepare record).run before.draws).2
    calls := before.calls ++ [statement.command]
    logs := before.logs ++ logs }, ?_, rfl⟩
  unfold create
  rw [run_bind_ok (run_prepareRecord record), hfilled, hchecked, run_bind_ok (run_ofExcept _)]
  exact run_bind_ok hinsert

section Bulk

variable {records batchSize : Value} {validate : Bool} {prepared : List Entries} {size : Nat}
variable {between : Journal}

/-- A bulk insertion of a model with settings sends the batches of what it has prepared. -/
theorem run_bulkCreate {settings : Settings} (hsettings : model.settings = some settings)
    (hprepared : run (model.prepareBulk records validate batchSize) executor before =
      (.ok (prepared, size), between)) :
    ∃ outcome sent logs, run (model.bulkCreate records validate batchSize) executor before =
        (outcome.map fun _ => prepared.map .map,
          { between with calls := before.calls ++ sent, logs := between.logs ++ logs }) ∧
      Sending model executor before.calls (batches size prepared.length prepared) sent outcome := by
  have hcalls := (silent_prepareBulk records validate batchSize).calls_eq hprepared
  obtain ⟨outcome, sent, logs, hrun, hsending⟩ := @run_forM_insertBatch model executor between
    (batches size prepared.length prepared) settings hsettings
  rw [hcalls] at hrun hsending
  refine ⟨outcome, sent, logs, ?_, hsending⟩
  unfold bulkCreate
  rw [run_bind_ok hprepared]
  cases outcome with
  | ok => exact run_bind_ok hrun
  | error fault => exact run_bind_error hrun

/-- A bulk insertion stops at a batch without a statement, when those before it have been sent. -/
theorem run_bulkCreate_stopped (hsettings : model.settings ≠ none)
    (hprepared : run (model.prepareBulk records validate batchSize) executor before =
      (.ok (prepared, size), between))
    {done rest : List (List Entries)} {batch : List Entries} {statements : List Bound}
    {fault : Fault} (hbatches : batches size prepared.length prepared = done ++ batch :: rest)
    (hdone : (done.mapM fun batch => model.insertRecords (batch.map .map)) = .ok statements)
    (hanswers : AnswersAll executor before.calls (statements.map Bound.command))
    (hbatch : model.insertRecords (batch.map .map) = .error fault) :
    ∃ after, run (model.bulkCreate records validate batchSize) executor before =
        (.error fault, after) ∧
      after.calls = before.calls ++ statements.map Bound.command := by
  obtain ⟨settings, hsettings⟩ := Option.ne_none_iff_exists'.1 hsettings
  obtain ⟨sending, sent, logs, hbulk, hsending⟩ := run_bulkCreate hsettings hprepared
  rw [hbatches] at hsending
  obtain ⟨rfl, rfl⟩ := hsending.unique (Sending.of_stopped hdone hanswers hbatch) hanswers
  exact ⟨_, hbulk, rfl⟩

/-- A bulk insertion sends nothing, or a model with settings sends the batches of what it has
prepared. -/
theorem exists_of_run_bulkCreate {outcome : Except Fault (List Value)} {after : Journal}
    (hrun : run (model.bulkCreate records validate batchSize) executor before = (outcome, after)) :
    after.calls = before.calls ∨ ∃ prepared size between sending sent,
      model.settings ≠ none ∧
      run (model.prepareBulk records validate batchSize) executor before =
        (.ok (prepared, size), between) ∧
      Sending model executor before.calls (batches size prepared.length prepared) sent sending ∧
      after.calls = before.calls ++ sent ∧
      outcome = sending.map fun _ => prepared.map .map := by
  cases hsettings : model.settings with
  | none =>
      have hsilent : Silent (model.bulkCreate records validate batchSize) :=
        (silent_prepareBulk records validate batchSize).bind fun _ =>
          (Silent.forM (silent_insertBatch hsettings) _).bind fun _ => Silent.pure _
      exact .inl (hsilent.calls_eq hrun)
  | some settings =>
      cases hprepared : run (model.prepareBulk records validate batchSize) executor before with
      | mk preparation between =>
          cases preparation with
          | error fault =>
              cases (run_bind_error hprepared).symm.trans hrun
              exact .inl ((silent_prepareBulk records validate batchSize).calls_eq hprepared)
          | ok result =>
              obtain ⟨sending, sent, logs, hbulk, hsending⟩ := run_bulkCreate hsettings hprepared
              cases hbulk.symm.trans hrun
              exact .inr ⟨result.1, result.2, between, sending, sent,
                Option.some_ne_none settings, rfl, hsending, rfl, rfl⟩

end Bulk

end TypedSql.Model
