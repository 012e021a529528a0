import TypedSql.Proofs.Session.Command
import TypedSql.Session.Writing

/-!
# Batches

A list is cut into batches without loss (`flatten_batches`), and `batches_eq` says which items stand
in which batch. Batches of records are inserted one after the other: `Sending` says which calls an
executor gets and how that ends, and `run_forM_insertBatch` that sessions do so.
-/

namespace TypedSql.Model

open TypedSql.Statement TypedSql.Outcome Session

section Cutting

variable {α : Type} {size fuel : Nat} {items : List α}

/-- The items that stand in the batch with an index: `size` of them, or those that are left. -/
def batchAt (size : Nat) (items : List α) (index : Nat) : List α :=
  (items.drop (index * size)).take size

/-- Cutting a list into batches neither loses, repeats nor moves anything. -/
theorem flatten_batches (hsize : 0 < size) (hfuel : items.length ≤ fuel) :
    (batches size fuel items).flatten = items := by
  fun_induction batches size fuel items with
  | case1 => rfl
  | case2 items => exact (List.eq_nil_of_length_eq_zero (Nat.le_zero.1 hfuel)).symm
  | case3 fuel items _ ih =>
      have hshorter : (items.drop size).length ≤ fuel := by
        rw [List.length_drop]
        omega
      rw [List.flatten_cons, ih hshorter, List.take_append_drop]

/-- A list longer than a batch has one batch more than what is left behind the first one. -/
theorem batchTotal_succ (hsize : 0 < size) {length : Nat} (hlength : 0 < length) :
    (length + size - 1) / size = (length - size + size - 1) / size + 1 := by
  rcases Nat.le_total size length with hle | hle
  · have hsum : length + size - 1 = (length - size + size - 1) + size := by omega
    rw [hsum, Nat.add_div_right _ hsize]
  · have hsum : length + size - 1 = (length - 1) + size := by omega
    have hrest : length - size + size - 1 < size := by omega
    rw [hsum, Nat.add_div_right _ hsize, Nat.div_eq_of_lt hrest, Nat.div_eq_of_lt (by omega)]

/-- The batches of a list are its runs of `size` items, the last one perhaps shorter. -/
theorem batches_eq (hsize : 0 < size) (hfuel : items.length ≤ fuel) :
    batches size fuel items =
      (List.range ((items.length + size - 1) / size)).map (batchAt size items) := by
  fun_induction batches size fuel items with
  | case1 =>
      have hnone : (0 + size - 1) / size = 0 := Nat.div_eq_of_lt (by omega)
      rw [List.length_nil, hnone]
      rfl
  | case2 items hitems =>
      exact absurd (List.eq_nil_of_length_eq_zero (Nat.le_zero.1 hfuel)) hitems
  | case3 fuel items hitems ih =>
      have hshorter : (items.drop size).length ≤ fuel := by
        rw [List.length_drop]
        omega
      rw [ih hshorter, List.length_drop, batchTotal_succ hsize (List.length_pos_of_ne_nil hitems),
        List.range_succ_eq_map, List.map_cons, List.map_map, batchAt, Nat.zero_mul, List.drop_zero]
      refine congrArg _ (List.map_congr_left fun index _ => ?_)
      rw [Function.comp_apply, batchAt, batchAt, List.drop_drop, Nat.succ_mul, Nat.add_comm]

/-- What stands in a batch is an item of the list. -/
theorem mem_of_mem_batches {batch : List α} (h : batch ∈ batches size fuel items) :
    ∀ item ∈ batch, item ∈ items := by
  fun_induction batches size fuel items with
  | case1 => cases h
  | case2 => cases h
  | case3 fuel items _ ih =>
      rcases List.mem_cons.1 h with rfl | h
      · exact fun item hitem => List.mem_of_mem_take hitem
      · exact fun item hitem => List.mem_of_mem_drop (ih h item hitem)

/-- No batch is empty. -/
theorem ne_nil_of_mem_batches (hsize : 0 < size) {batch : List α}
    (h : batch ∈ batches size fuel items) : batch ≠ [] := by
  fun_induction batches size fuel items with
  | case1 => cases h
  | case2 => cases h
  | case3 fuel items hitems ih =>
      rcases List.mem_cons.1 h with rfl | h
      · rw [Ne, List.take_eq_nil_iff, not_or]
        exact ⟨Nat.ne_of_gt hsize, hitems⟩
      · exact ih h

end Cutting

section Sending

/-- `Sending model executor earlier batches sent outcome` says that inserting batches one after the
other, behind the calls `earlier`, hands the calls `sent` to the executor and ends with `outcome`. A
batch without a statement ends it without a call, and so does a call that is not answered. -/
inductive Sending (model : Model) (executor : Executor) :
    List Call → List (List Entries) → List Call → Except Fault Unit → Prop
  | finished {earlier : List Call} : Sending model executor earlier [] [] (.ok ())
  | stopped {earlier : List Call} {batch : List Entries} {rest : List (List Entries)}
      {fault : Fault} (hbatch : model.insertRecords (batch.map .map) = .error fault) :
      Sending model executor earlier (batch :: rest) [] (.error fault)
  | refused {earlier : List Call} {batch : List Entries} {rest : List (List Entries)}
      {statement : Bound} {fault : Fault}
      (hbatch : model.insertRecords (batch.map .map) = .ok statement)
      (hrefused : ¬Answers executor earlier statement.command) :
      Sending model executor earlier (batch :: rest) [statement.command] (.error fault)
  | answered {earlier : List Call} {batch : List Entries} {rest : List (List Entries)}
      {statement : Bound} {sent : List Call} {outcome : Except Fault Unit}
      (hbatch : model.insertRecords (batch.map .map) = .ok statement)
      (hanswered : Answers executor earlier statement.command)
      (hrest : Sending model executor (earlier ++ [statement.command]) rest sent outcome) :
      Sending model executor earlier (batch :: rest) (statement.command :: sent) outcome

variable {model : Model} {executor : Executor} {before : Journal}
variable {earlier sent : List Call} {outcome : Except Fault Unit} {batch : List Entries}
variable {items rest : List (List Entries)}

/-- A model with settings inserts a batch by the call of its statement. -/
theorem run_insertBatch {settings : Settings} (hsettings : model.settings = some settings)
    {statement : Bound} (hbatch : model.insertRecords (batch.map .map) = .ok statement) :
    ∃ outcome logs, run (model.insertBatch batch) executor before =
        (outcome, { before with
          calls := before.calls ++ [statement.command], logs := before.logs ++ logs }) ∧
      (outcome = .ok () ↔ Answers executor before.calls statement.command) := by
  unfold insertBatch
  rw [hbatch, run_bind_ok (run_ofExcept _)]
  exact run_runCommand hsettings

theorem run_insertBatch_error {fault : Fault}
    (hbatch : model.insertRecords (batch.map .map) = .error fault) :
    run (model.insertBatch batch) executor before = (.error fault, before) := by
  unfold insertBatch
  rw [hbatch, run_bind_error (run_ofExcept _)]

/-- Inserting a batch hands the executor no call, or that of the statement of the batch. -/
theorem exists_of_run_insertBatch {after : Journal}
    (hrun : run (model.insertBatch batch) executor before = (outcome, after)) :
    after.calls = before.calls ∨ ∃ statement,
      model.insertRecords (batch.map .map) = .ok statement ∧
        after.calls = before.calls ++ [statement.command] := by
  rcases run_ofExcept_bind_cases hrun with ⟨fault, -, rfl⟩ | ⟨statement, hstatement, hrun⟩
  · exact .inl rfl
  · exact (exists_of_run_runCommand hrun).imp And.left fun hcalls => ⟨statement, hstatement, hcalls⟩

/-- A model without settings inserts no batch. -/
theorem silent_insertBatch (hsettings : model.settings = none) (batch : List Entries) :
    Silent (model.insertBatch batch) := by
  refine (Silent.ofExcept _).bind fun statement executor before => ?_
  rw [run_runCommand_unbound hsettings]

/-- Batches of a model with settings are inserted one after the other. -/
theorem run_forM_insertBatch {settings : Settings} (hsettings : model.settings = some settings) :
    ∃ outcome sent logs, run (items.forM model.insertBatch) executor before =
        (outcome, { before with calls := before.calls ++ sent, logs := before.logs ++ logs }) ∧
      Sending model executor before.calls items sent outcome := by
  induction items generalizing before with
  | nil => exact ⟨.ok (), [], [], by simp [List.forM], .finished⟩
  | cons batch rest ih =>
      have hsteps : (batch :: rest).forM model.insertBatch =
        model.insertBatch batch >>= fun _ => rest.forM model.insertBatch := rfl
      rw [hsteps]
      cases hbatch : model.insertRecords (batch.map .map) with
      | error fault =>
          refine ⟨.error fault, [], [], ?_, .stopped hbatch⟩
          rw [run_bind_error (run_insertBatch_error hbatch)]
          simp
      | ok statement =>
          obtain ⟨outcome, logs, hrun, hanswers⟩ :=
            @run_insertBatch model executor before batch settings hsettings statement hbatch
          cases outcome with
          | error fault =>
              refine ⟨.error fault, [statement.command], logs, run_bind_error hrun, ?_⟩
              refine .refused hbatch fun hanswered => ?_
              cases hanswers.2 hanswered
          | ok =>
              obtain ⟨outcome, sent, more, hrest, hsending⟩ := @ih { before with
                calls := before.calls ++ [statement.command], logs := before.logs ++ logs }
              refine ⟨outcome, statement.command :: sent, logs ++ more, ?_, ?_⟩
              · rw [run_bind_ok hrun, hrest]
                simp
              · exact .answered hbatch (hanswers.1 rfl) hsending

namespace Sending

/-- Every call is that of the statement of a batch. -/
theorem exists_of_mem (h : Sending model executor earlier items sent outcome) {call : Call}
    (hcall : call ∈ sent) : ∃ batch ∈ items, ∃ statement,
      model.insertRecords (batch.map .map) = .ok statement ∧ call = statement.command := by
  induction h with
  | finished => cases hcall
  | stopped => cases hcall
  | refused hbatch =>
      exact ⟨_, List.mem_cons_self, _, hbatch, List.mem_singleton.1 hcall⟩
  | answered hbatch _ _ ih =>
      rcases List.mem_cons.1 hcall with rfl | hcall
      · exact ⟨_, List.mem_cons_self, _, hbatch, rfl⟩
      · obtain ⟨batch, hmem, hfound⟩ := ih hcall
        exact ⟨batch, List.mem_cons_of_mem _ hmem, hfound⟩

/-- Where all batches get through, each one has a statement and all of these have been sent. -/
theorem statements (h : Sending model executor earlier items sent (.ok ())) :
    ∃ statements, (items.mapM fun batch => model.insertRecords (batch.map .map)) = .ok statements ∧
      sent = statements.map Bound.command := by
  generalize hok : Except.ok () = outcome at h
  induction h with
  | finished => exact ⟨[], rfl, rfl⟩
  | stopped => cases hok
  | refused => cases hok
  | answered hbatch _ _ ih =>
      obtain ⟨statements, hrest, rfl⟩ := ih hok
      exact ⟨_, mapM_cons_eq_ok.2 ⟨_, statements, hbatch, hrest, rfl⟩, rfl⟩

/-- Batches that all have statements get through to an executor that answers everything. -/
theorem eq_ok (h : Sending model executor earlier items sent outcome)
    (hanswers : ∀ earlier call, Answers executor earlier call)
    (hstatements : ∀ batch ∈ items, ∃ statement,
      model.insertRecords (batch.map .map) = .ok statement) : outcome = .ok () := by
  induction h with
  | finished => rfl
  | stopped hbatch =>
      obtain ⟨statement, hstatement⟩ := hstatements _ List.mem_cons_self
      cases hbatch.symm.trans hstatement
  | refused _ hrefused => exact absurd (hanswers _ _) hrefused
  | answered _ _ _ ih => exact ih fun batch hmem => hstatements batch (List.mem_cons_of_mem _ hmem)

/-- Where the executor has answered every call, a failure comes from a batch without a statement;
the batches before it have been sent. -/
theorem exists_stopped {fault : Fault}
    (h : Sending model executor earlier items sent (.error fault))
    (hanswers : AnswersAll executor earlier sent) :
    ∃ done batch rest statements, items = done ++ batch :: rest ∧
      (done.mapM fun batch => model.insertRecords (batch.map .map)) = .ok statements ∧
      sent = statements.map Bound.command ∧
      model.insertRecords (batch.map .map) = .error fault := by
  generalize herror : Except.error fault = outcome at h
  induction h with
  | finished => cases herror
  | @stopped _ batch rest _ hbatch =>
      cases herror
      exact ⟨[], batch, rest, [], rfl, rfl, rfl, hbatch⟩
  | refused _ hrefused => exact absurd hanswers.1 hrefused
  | @answered _ first _ statement _ _ hbatch _ _ ih =>
      obtain ⟨done, batch, rest, statements, rfl, hdone, rfl, hfault⟩ := ih hanswers.2 herror
      exact ⟨first :: done, batch, rest, statement :: statements, rfl,
        mapM_cons_eq_ok.2 ⟨_, _, hbatch, hdone, rfl⟩, rfl, hfault⟩

/-- Batches before one without a statement are sent, if the executor answers them. -/
theorem of_stopped {fault : Fault} {done : List (List Entries)} {statements : List Bound}
    (hdone : (done.mapM fun batch => model.insertRecords (batch.map .map)) = .ok statements)
    (hanswers : AnswersAll executor earlier (statements.map Bound.command))
    (hbatch : model.insertRecords (batch.map .map) = .error fault) :
    Sending model executor earlier (done ++ batch :: rest) (statements.map Bound.command)
      (.error fault) := by
  induction done generalizing earlier statements with
  | nil =>
      cases hdone
      exact .stopped hbatch
  | cons first done ih =>
      obtain ⟨statement, others, hfirst, hothers, rfl⟩ := mapM_cons_eq_ok.1 hdone
      exact .answered hfirst hanswers.1 (ih hothers hanswers.2)

/-- What is sent and how that ends is certain, if the executor answers. -/
theorem unique (h : Sending model executor earlier items sent outcome) {known : List Call}
    {other : Except Fault Unit} (hknown : Sending model executor earlier items known other)
    (hanswers : AnswersAll executor earlier known) : outcome = other ∧ sent = known := by
  induction hknown generalizing sent with
  | finished =>
      cases h
      exact ⟨rfl, rfl⟩
  | stopped hbatch =>
      cases h with
      | stopped hother =>
          cases hbatch.symm.trans hother
          exact ⟨rfl, rfl⟩
      | refused hother | answered hother => cases hbatch.symm.trans hother
  | refused _ hrefused => exact absurd hanswers.1 hrefused
  | answered hbatch hanswered _ ih =>
      cases h with
      | stopped hother => cases hbatch.symm.trans hother
      | refused hother hrefused =>
          cases hbatch.symm.trans hother
          exact absurd hanswered hrefused
      | answered hother _ hrest =>
          cases hbatch.symm.trans hother
          obtain ⟨rfl, rfl⟩ := ih hrest hanswers.2
          exact ⟨rfl, rfl⟩

end Sending

end Sending

end TypedSql.Model
