import TypedSql.Proofs.Session.Run
import TypedSql.Proofs.Table.Record
import TypedSql.Proofs.Value.Amount
import TypedSql.Session.Writing

/-!
# Prepared records

What preparing a record changes of it: defaults come in where there is no value, and nothing else
happens (`Filled`). Records are prepared and checked without a call to the executor; where that goes
through, `run_prepareBulk` says what it gives.
-/

namespace TypedSql

open TypedSql.Outcome TypedSql.Session

/-- Whether a column has a default that may give null. -/
def Column.DefaultsToNull (column : Column) : Prop :=
  column.hasDefault = true ∧ ∃ draws, (column.resolveDefault.run draws).1.isNull = true

namespace Record

variable {columns : List (String × Column)} {record filled : Entries}

/-- `Filled columns record filled` says that a record has been filled with defaults of columns:
there are no other new keys, values that were there stay, and a column with a default has no value
only if its default gives none. Keys that differ stay different. -/
structure Filled (columns : List (String × Column)) (record filled : Entries) : Prop where
  keys : ∀ holds : Value → Prop, (∀ entry ∈ record, holds entry.1) →
    (∀ entry ∈ columns, holds (.text entry.1)) → ∀ entry ∈ filled, holds entry.1
  distinct : Keyed.HasDistinctKeys record → Keyed.HasDistinctKeys filled
  others : ∀ chars ∉ columns.map Prod.fst, valueAt filled chars = valueAt record chars
  given : ∀ chars, (valueAt record chars).isNull = false →
    valueAt filled chars = valueAt record chars
  defaults : ∀ entry ∈ columns, entry.2.hasDefault = true →
    (valueAt filled entry.1).isNull = true → entry.2.DefaultsToNull

/-- Filling in the default of one column. -/
theorem filled_fillDefault (record : Entries) (name : String) (column : Column) (draws : Draws) :
    Filled [(name, column)] record ((Model.fillDefault record name column).run draws).1 := by
  have hname : (Value.text name).asText? = some name := rfl
  unfold Model.fillDefault
  split
  · next hfills =>
      obtain ⟨hdefault, hnull⟩ := Bool.and_eq_true_iff.1 hfills
      constructor
      case keys =>
        intro holds hrecord hcolumn
        exact Keyed.forall_key_put holds hrecord (hcolumn _ List.mem_cons_self) _
      case distinct => exact fun hdistinct => hdistinct.put _ _
      case others =>
        intro chars hchars
        exact (valueAt_put hname chars).trans (if_neg (Ne.symm (List.ne_of_not_mem_cons hchars)))
      case given =>
        intro chars hgiven
        refine (valueAt_put hname chars).trans (if_neg ?_)
        rintro rfl
        rw [valueAt, hnull] at hgiven
        cases hgiven
      case defaults =>
        intro entry hentry _ hstays
        obtain rfl := List.mem_singleton.1 hentry
        have hvalue : valueAt ((do return Keyed.put record (.text name) (← column.resolveDefault) :
            StateM Draws Entries).run draws).1 name = (column.resolveDefault.run draws).1 :=
          (valueAt_put hname name).trans (if_pos rfl)
        exact ⟨hdefault, draws, by rw [← hvalue]; exact hstays⟩
  · next hkeeps =>
      constructor
      case keys => exact fun _ hrecord _ => hrecord
      case distinct => exact id
      case others => exact fun _ _ => rfl
      case given => exact fun _ _ => rfl
      case defaults =>
        intro entry hentry hdefault hnull
        obtain rfl := List.mem_singleton.1 hentry
        exact absurd (Bool.and_eq_true_iff.2 ⟨hdefault, hnull⟩) hkeeps

/-- Columns are filled one after the other; none is touched by the others. -/
theorem Filled.cons {name : String} {column : Column} {between : Entries}
    (hfirst : Filled [(name, column)] record between) (hrest : Filled columns between filled)
    (hname : name ∉ columns.map Prod.fst) : Filled ((name, column) :: columns) record filled := by
  constructor
  case keys =>
    intro holds hrecord hcolumns
    obtain ⟨hcolumn, hothers⟩ := List.forall_mem_cons.1 hcolumns
    exact hrest.keys holds (hfirst.keys holds hrecord (List.forall_mem_singleton.2 hcolumn)) hothers
  case distinct => exact fun hdistinct => hrest.distinct (hfirst.distinct hdistinct)
  case others =>
    intro chars hchars
    rw [List.map_cons, List.mem_cons, not_or] at hchars
    rw [hrest.others chars hchars.2, hfirst.others chars (by simpa using hchars.1)]
  case given =>
    intro chars hgiven
    have hbetween := hfirst.given chars hgiven
    rw [hrest.given chars (by rwa [hbetween]), hbetween]
  case defaults =>
    intro entry hentry hdefault hnull
    rcases List.mem_cons.1 hentry with rfl | hentry
    · rw [hrest.others name hname] at hnull
      exact hfirst.defaults _ List.mem_cons_self hdefault hnull
    · exact hrest.defaults entry hentry hdefault hnull

/-- Columns with different names are filled one after the other. -/
theorem filled_foldlM (hnodup : (columns.map Prod.fst).Nodup) (record : Entries) (draws : Draws) :
    Filled columns record ((columns.foldlM (fun record (name, column) =>
      Model.fillDefault record name column) record).run draws).1 := by
  induction columns generalizing record draws with
  | nil =>
      exact ⟨fun _ hrecord _ => hrecord, id, fun _ _ => rfl, fun _ _ => rfl,
        fun _ hentry => nomatch hentry⟩
  | cons entry rest ih =>
      rw [List.map_cons, List.nodup_cons] at hnodup
      rw [List.foldlM_cons]
      exact (filled_fillDefault record entry.1 entry.2 draws).cons (ih hnodup.2 _ _) hnodup.1

end Record

namespace Model

open Record

variable {model : Model} {executor : Executor} {before : Journal}

/-- Preparing a record fills it with the defaults of the table. -/
theorem filled_prepare (h : model.table.Valid) (record : Entries) (draws : Draws) :
    Filled model.table.columns record ((model.prepare record).run draws).1 :=
  filled_foldlM h.distinct record draws

/-- Records that are prepared one after the other are each filled. -/
theorem filled_mapM_prepare (h : model.table.Valid) (records : List Entries) (draws : Draws) :
    List.Forall₂ (Filled model.table.columns) records
      ((records.mapM model.prepare).run draws).1 := by
  induction records generalizing draws with
  | nil => exact .nil
  | cons record rest ih =>
      rw [List.mapM_cons]
      exact .cons (filled_prepare h record draws) (ih _)

/-- Preparing a record asks generators and does nothing else. -/
theorem run_prepareRecord (record : Entries) :
    run (model.prepareRecord (.map record)) executor before =
      (.ok ((model.prepare record).run before.draws).1,
        { before with draws := ((model.prepare record).run before.draws).2 }) := by
  have hentries : recordEntries (.map record) = .ok record := rfl
  unfold prepareRecord
  rw [hentries, run_bind_ok (run_ofExcept _), run_drawing]

theorem silent_prepareRecord (data : Value) : Silent (model.prepareRecord data) :=
  (Silent.ofExcept _).bind fun _ => Silent.drawing _

/-- The entries of a record have different keys. -/
theorem hasDistinctKeys_recordEntries {data : Value} {record : Entries}
    (hdata : data.HasDistinctKeys) (h : recordEntries data = .ok record) :
    Keyed.HasDistinctKeys record := by
  unfold recordEntries at h
  split at h
  · cases h
    exact hdata
  · split at h
    · obtain ⟨pairs, -, h⟩ := bind_eq_ok.1 h
      obtain rfl := pure_eq_ok.1 h
      exact Keyed.hasDistinctKeys_nil.putAll pairs
    · cases h

/-- What is prepared of a record given as a value is the record filled. -/
theorem filled_of_run_prepareRecord (h : model.table.Valid) {data : Value} {filled : Entries}
    {after : Journal}
    (hrun : run (model.prepareRecord data) executor before = (.ok filled, after)) :
    ∃ record, recordEntries data = .ok record ∧ Filled model.table.columns record filled := by
  obtain ⟨record, between, hrecord, hdrawing⟩ := exists_of_run_bind hrun
  rw [run_ofExcept] at hrecord
  obtain ⟨hentries, rfl⟩ := Prod.mk.inj hrecord
  rw [run_drawing] at hdrawing
  cases hdrawing
  exact ⟨record, hentries, filled_prepare h record _⟩

/-- Records are prepared one after the other. -/
theorem run_mapM_prepareRecord (records : List Entries) :
    run ((records.map Value.map).mapM model.prepareRecord) executor before =
      (.ok ((records.mapM model.prepare).run before.draws).1,
        { before with draws := ((records.mapM model.prepare).run before.draws).2 }) := by
  induction records generalizing before with
  | nil => rfl
  | cons record rest ih =>
      rw [List.map_cons, List.mapM_cons, run_bind_ok (run_prepareRecord record), run_bind_ok ih,
        List.mapM_cons]
      rfl

/-- What is prepared of records given as values is filled. -/
theorem filled_of_run_mapM (h : model.table.Valid) {items : List Value} {prepared : List Entries}
    {after : Journal}
    (hrun : run (items.mapM model.prepareRecord) executor before = (.ok prepared, after)) :
    ∀ filled ∈ prepared, ∃ record, Filled model.table.columns record filled := by
  induction items generalizing before prepared with
  | nil =>
      cases hrun
      exact fun _ hmem => nomatch hmem
  | cons item rest ih =>
      rw [List.mapM_cons] at hrun
      obtain ⟨first, between, hitem, hrun⟩ := exists_of_run_bind hrun
      obtain ⟨others, last, hrest, hrun⟩ := exists_of_run_bind hrun
      cases hrun
      obtain ⟨record, -, hfilled⟩ := filled_of_run_prepareRecord h hitem
      exact List.forall_mem_cons.2 ⟨⟨record, hfilled⟩, ih hrest⟩

/-- Records pass exactly if each of them does, or if no check is asked for. -/
theorem checkPrepared_eq_ok_iff {validate : Bool} {prepared : List Entries} :
    model.checkPrepared validate prepared = .ok () ↔
      (validate = true → ∀ record ∈ prepared, checkFor model.table (.map record) = .ok ()) := by
  unfold checkPrepared
  cases validate with
  | true => simpa using forM_eq_ok_iff
  | false => simp

/-- Preparing a bulk insertion hands no call to the executor. -/
theorem silent_prepareBulk (records : Value) (validate : Bool) (batchSize : Value) :
    Silent (model.prepareBulk records validate batchSize) := by
  refine (Silent.ofExcept _).bind fun items => ?_
  refine (Silent.mapM silent_prepareRecord items).bind fun prepared => ?_
  refine (Silent.ofExcept _).bind fun _ => ?_
  exact (Silent.ofExcept _).bind fun _ => Silent.pure _

/-- Records and a positive size of batches can be inserted in bulk. -/
theorem bulkItems_eq_ok {items : List Value} (hitems : items ≠ []) {batchSize : Value} {size : Int}
    (hsize : batchSize.asInt? = some size) (hpositive : 1 ≤ size) :
    bulkItems (.list items) batchSize = .ok items := by
  have htruthy : (Value.list items).isTruthy = true := by simpa [Value.isTruthy] using hitems
  unfold bulkItems
  rw [htruthy, Value.isAtMost_zero hsize, decide_eq_false (by omega)]
  rfl

/-- Records are prepared in bulk if they pass where a check is asked for. -/
theorem run_prepareBulk {records : List Entries} (hrecords : records ≠ []) {validate : Bool}
    {batchSize : Value} {size : Int} (hsize : batchSize.asInt? = some size) (hpositive : 1 ≤ size)
    (hpasses : validate = true → ∀ record ∈ ((records.mapM model.prepare).run before.draws).1,
      checkFor model.table (.map record) = .ok ()) :
    run (model.prepareBulk (.list (records.map .map)) validate batchSize) executor before =
      (.ok (((records.mapM model.prepare).run before.draws).1, size.toNat),
        { before with draws := ((records.mapM model.prepare).run before.draws).2 }) := by
  have hitems := bulkItems_eq_ok (by simpa using hrecords : records.map Value.map ≠ []) hsize
    hpositive
  have hcount : batchCount batchSize = .ok size.toNat := by rw [batchCount, hsize]
  unfold prepareBulk
  rw [hitems, run_bind_ok (run_ofExcept _), run_bind_ok (run_mapM_prepareRecord records),
    checkPrepared_eq_ok_iff.2 hpasses, run_bind_ok (run_ofExcept _), hcount]
  rfl

/-- Batches that are asked for have a positive size. -/
theorem size_pos_of_bulkItems {records batchSize : Value} {items : List Value} {size : Nat}
    (hitems : bulkItems records batchSize = .ok items) (hsize : batchCount batchSize = .ok size) :
    0 < size := by
  unfold bulkItems at hitems
  split at hitems
  · cases hitems
  · obtain ⟨isSmall, hsmall, hitems⟩ := bind_eq_ok.1 hitems
    unfold batchCount at hsize
    split at hsize
    · next count hcount =>
        obtain rfl := Except.ok.inj hsize
        rw [Value.isAtMost_zero hcount] at hsmall
        obtain rfl := Except.ok.inj hsmall
        by_contra hzero
        rw [decide_eq_true (by omega)] at hitems
        cases hitems
    · cases hsize

/-- What a checked bulk insertion has prepared is filled and passes the check of the table. -/
theorem prepared_of_run_prepareBulk (h : model.table.Valid) {records batchSize : Value}
    {prepared : List Entries} {size : Nat} {after : Journal}
    (hrun : run (model.prepareBulk records true batchSize) executor before =
      (.ok (prepared, size), after)) :
    0 < size ∧ ∀ filled ∈ prepared, checkFor model.table (.map filled) = .ok () ∧
      ∃ record, Filled model.table.columns record filled := by
  obtain ⟨items, _, hitems, hrun⟩ := exists_of_run_bind hrun
  obtain ⟨known, _, hprepared, hrun⟩ := exists_of_run_bind hrun
  obtain ⟨_, _, hcheck, hrun⟩ := exists_of_run_bind hrun
  rw [run_ofExcept] at hitems hcheck
  obtain ⟨hpasses, rfl⟩ := Prod.mk.inj hcheck
  obtain ⟨count, _, hcount, hrun⟩ := exists_of_run_bind hrun
  rw [run_ofExcept] at hcount
  cases hrun
  refine ⟨size_pos_of_bulkItems (Prod.mk.inj hitems).1 (Prod.mk.inj hcount).1, ?_⟩
  intro filled hfilled
  exact ⟨checkPrepared_eq_ok_iff.1 hpasses rfl filled hfilled,
    filled_of_run_mapM h hprepared filled hfilled⟩

end Model

end TypedSql
