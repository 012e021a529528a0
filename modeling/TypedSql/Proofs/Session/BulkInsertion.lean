import TypedSql.Proofs.Model.Insertion
import TypedSql.Proofs.Session.Creation
import TypedSql.Proofs.Session.Update

/-!
# Bulk insertions

A bulk insertion prepares all its records before it sends the first statement, but it compiles the
statement of a batch only after those before it have been sent. `bulk_insertion_iff` says when one
goes through and that nothing is lost, repeated or moved then; `partial_bulk_insertion_iff` says
when one fails halfway.
-/

namespace TypedSql.Model

open TypedSql.Number TypedSql.Outcome TypedSql.Statement Session Record

variable {model : Model} {executor : Executor} {before : Journal}

section Batches

variable {batch : List Entries} {record : Entries}

/-- A column that no record of a batch gives a value for has none in any of them. -/
theorem valueAt_of_not_has {name : String} (h : Keyed.has record (.text name) = false) :
    valueAt record name = .null := by
  rw [← Keyed.isSome_get?, Option.isSome_eq_false_iff, Option.isNone_iff_eq_none] at h
  rw [valueAt, h]
  rfl

/-- Where all given values can be sent, all values of a batch can, for those that are missing are
null. -/
theorem exists_encode_batch
    (h : ∀ record ∈ batch, ∀ entry ∈ model.writtenColumns record, ∃ wire,
      Wire.encode (valueAt record entry.1) entry.2.kind entry.2.elementKind = .ok wire) :
    ∀ record ∈ batch, ∀ entry ∈ model.batchColumns batch, ∃ wire,
      Wire.encode (valueAt record entry.1) entry.2.kind entry.2.elementKind = .ok wire := by
  intro record hrecord entry hentry
  cases hhas : Keyed.has record (.text entry.1) with
  | true =>
      exact h record hrecord entry (List.mem_filter.2 ⟨mem_of_mem_batchColumns hentry, hhas⟩)
  | false =>
      refine ⟨.null, ?_⟩
      rw [valueAt_of_not_has hhas]
      rfl

/-- Whether the values of a batch have placeholders: there are not too many to be numbered, and the
types of their columns can be written. -/
def HasPlaceholders (model : Model) (batch : List Entries) : Prop :=
  batch.length * (model.batchColumns batch).length ≤ mostValues ∧
    ∀ entry ∈ model.batchColumns batch, entry.2.HasNumerals

/-- Records whose given values can be sent have a statement exactly if there are placeholders for
them. -/
theorem exists_statement_iff_hasPlaceholders (h : model.table.Valid) (hbatch : batch ≠ [])
    (hknown : model.Knows batch)
    (hencodes : ∀ record ∈ batch, ∀ entry ∈ model.writtenColumns record, ∃ wire,
      Wire.encode (valueAt record entry.1) entry.2.kind entry.2.elementKind = .ok wire) :
    (∃ statement, model.insertRecords (batch.map .map) = .ok statement) ↔
      model.HasPlaceholders batch := by
  rw [exists_insertRecords_iff h hbatch hknown, ← and_assoc]
  exact and_iff_left (exists_encode_batch hencodes)

/-- `model.Restores record row` says that a row that has been read has the wire values of a record
under the names of columns: of all that the record gives a value for, and perhaps of more. -/
def Restores (model : Model) (record : Entries) (row : List (String × Option Value)) : Prop :=
  ∃ columns, List.Sublist columns model.table.columns ∧
    (∀ entry ∈ model.writtenColumns record, entry ∈ columns) ∧ Returns columns record row

/-- The rows of an insertion restore the records that it carries. -/
theorem Carries.restores {insertion : Insertion} (h : model.Carries batch insertion) :
    List.Forall₂ model.Restores batch insertion.read := by
  refine List.forall₂_iff_get.2 ⟨h.read.length_eq, fun index hrecord hrow => ?_⟩
  refine ⟨model.batchColumns batch, List.filter_sublist, fun entry hentry => ?_,
    (List.forall₂_iff_get.1 h.read).2 index hrecord hrow⟩
  obtain ⟨hmem, hhas⟩ := List.mem_filter.1 hentry
  exact List.mem_filter.2 ⟨hmem, List.any_eq_true.2 ⟨_, List.get_mem batch _, hhas⟩⟩

/-- Statements that insert batches carry the records of the batches, one statement for each. -/
theorem exists_carrying (h : model.table.Valid) {items : List (List Entries)}
    (hitems : ∀ batch ∈ items, batch ≠ [] ∧ model.Knows batch) {statements : List Bound}
    (hstatements :
      (items.mapM fun batch => model.insertRecords (batch.map .map)) = .ok statements) :
    ∃ insertions : List Insertion, statements = insertions.map Insertion.statement ∧
      List.Forall₂ model.Carries items insertions := by
  induction items generalizing statements with
  | nil =>
      cases hstatements
      exact ⟨[], rfl, .nil⟩
  | cons batch rest ih =>
      obtain ⟨⟨hbatch, hknown⟩, hrest⟩ := List.forall_mem_cons.1 hitems
      obtain ⟨statement, others, hstatement, hothers, rfl⟩ := mapM_cons_eq_ok.1 hstatements
      obtain ⟨insertion, rfl, hcarries⟩ := carries_of_insertRecords h hbatch hknown hstatement
      obtain ⟨insertions, rfl, hcarried⟩ := ih hrest hothers
      exact ⟨insertion :: insertions, rfl, .cons hcarries hcarried⟩

/-- The rows of all insertions restore the records of all batches. -/
theorem restores_flatMap_read {items : List (List Entries)} {insertions : List Insertion}
    (h : List.Forall₂ model.Carries items insertions) :
    List.Forall₂ model.Restores items.flatten (insertions.flatMap Insertion.read) := by
  induction h with
  | nil => exact .nil
  | cons hcarries _ ih =>
      rw [List.flatten_cons, List.flatMap_cons]
      exact List.rel_append hcarries.restores ih

end Batches

/-- Records of known columns have known columns when they are prepared. -/
theorem knows_of_filled {records prepared : List Entries} (hknown : model.Knows records)
    (h : List.Forall₂ (Filled model.table.columns) records prepared) : model.Knows prepared := by
  have hcolumns : ∀ entry ∈ model.table.columns,
      model.table.keyed.has (.text entry.1) = true := fun _ hentry =>
    Table.has_keyed_of_mem hentry rfl
  induction h with
  | nil => exact fun _ hrecord => nomatch hrecord
  | cons hfilled _ ih =>
      obtain ⟨hrecord, hrest⟩ := List.forall_mem_cons.1 hknown
      refine List.forall_mem_cons.2 ⟨?_, ih hrest⟩
      exact hfilled.keys (model.table.keyed.has · = true) hrecord hcolumns

section Prepared

variable {prepared : List Entries} {size : Nat}

/-- Batches of records whose values can be sent all have statements exactly if in each of them there
are placeholders. -/
theorem exists_statements_iff_hasPlaceholders (h : model.table.Valid)
    (hknown : model.Knows prepared) (hsize : 0 < size)
    (hencodes : ∀ record ∈ prepared, ∀ entry ∈ model.writtenColumns record, ∃ wire,
      Wire.encode (valueAt record entry.1) entry.2.kind entry.2.elementKind = .ok wire) :
    (∀ batch ∈ batches size prepared.length prepared, ∃ statement,
      model.insertRecords (batch.map .map) = .ok statement) ↔
      ∀ index < (prepared.length + size - 1) / size,
        model.HasPlaceholders (batchAt size prepared index) := by
  have hstatement : ∀ batch ∈ batches size prepared.length prepared,
      ((∃ statement, model.insertRecords (batch.map .map) = .ok statement) ↔
        model.HasPlaceholders batch) := by
    intro batch hbatch
    have hmem := mem_of_mem_batches hbatch
    exact exists_statement_iff_hasPlaceholders h (ne_nil_of_mem_batches hsize hbatch)
      (fun record hrecord => hknown record (hmem record hrecord))
      fun record hrecord => hencodes record (hmem record hrecord)
  rw [forall₂_congr hstatement, batches_eq hsize (Nat.le_refl _), List.forall_mem_map]
  simp only [List.mem_range]

/-- Where all batches of records have got through, the insertions that have been sent carry the
batches, and their rows restore the records. -/
theorem carried_of_sending (h : model.table.Valid) (hknown : model.Knows prepared)
    (hsize : 0 < size) {earlier sent : List Call}
    (hsending : Sending model executor earlier (batches size prepared.length prepared) sent
      (.ok ())) :
    ∃ insertions : List Insertion,
      sent = insertions.map (fun insertion => insertion.statement.command) ∧
      List.Forall₂ model.Carries (batches size prepared.length prepared) insertions ∧
      List.Forall₂ model.Restores prepared (insertions.flatMap Insertion.read) := by
  have hitems : ∀ batch ∈ batches size prepared.length prepared,
      batch ≠ [] ∧ model.Knows batch := fun batch hbatch =>
    ⟨ne_nil_of_mem_batches hsize hbatch, fun record hrecord =>
      hknown record (mem_of_mem_batches hbatch record hrecord)⟩
  obtain ⟨statements, hstatements, rfl⟩ := hsending.statements
  obtain ⟨insertions, rfl, hcarries⟩ := exists_carrying h hitems hstatements
  have hrestores := restores_flatMap_read hcarries
  rw [flatten_batches hsize (Nat.le_refl _)] at hrestores
  refine ⟨insertions, ?_, hcarries, hrestores⟩
  rw [List.map_map]
  rfl

end Prepared

/-- A bulk insertion of records of known columns that pass, where a check is asked for, and whose
values can be sent goes through to an executor that answers everything exactly if in each batch the
placeholders can be numbered and their types can be written. It then gives the prepared records, and
it has sent one insertion for each batch, in order: the insertion carries the records of the batch,
and the rows of all insertions restore the prepared records. -/
theorem bulk_insertion_iff [Coercion] (model : Model) (htable : model.table.Reachable)
    {settings : Settings} (hsettings : model.settings = some settings) {records : List Entries}
    (hrecords : records ≠ []) (hknown : model.Knows records) {batchSize : Value} {size : Nat}
    (hsize : batchSize.asInt? = some (size : Int)) (hpositive : 1 ≤ size) (validate : Bool)
    (executor : Executor) (hanswers : ∀ earlier call, Answers executor earlier call)
    (before : Journal) {prepared : List Entries}
    (hprepared : prepared = ((records.mapM model.prepare).run before.draws).1)
    (hpasses : validate = true → ∀ record ∈ prepared,
      checkFor model.table (.map record) = .ok ())
    (hencodes : ∀ record ∈ prepared, ∀ entry ∈ model.writtenColumns record, ∃ wire,
      Wire.encode (valueAt record entry.1) entry.2.kind entry.2.elementKind = .ok wire) :
    let total := (records.length + size - 1) / size
    let batch := batchAt size prepared
    List.Forall₂ (Filled model.table.columns) records prepared ∧ ∃ outcome after,
      run (model.bulkCreate (.list (records.map .map)) validate batchSize) executor before =
        (outcome, after) ∧
      ((∃ result, outcome = .ok result) ↔
        ∀ index < total, model.HasPlaceholders (batch index)) ∧
      ∀ result, outcome = .ok result → result = prepared.map .map ∧
        ∃ insertions : List Insertion,
          after.calls =
            before.calls ++ insertions.map (fun insertion => insertion.statement.command) ∧
          List.Forall₂ model.Carries ((List.range total).map batch) insertions ∧
          List.Forall₂ model.Restores prepared (insertions.flatMap Insertion.read) := by
  intro total batch
  have hvalid := htable.valid
  have hfilled : List.Forall₂ (Filled model.table.columns) records prepared :=
    hprepared ▸ filled_mapM_prepare hvalid records before.draws
  have hknows : model.Knows prepared := knows_of_filled hknown hfilled
  have hrun : run (model.prepareBulk (.list (records.map .map)) validate batchSize) executor
      before = (.ok (prepared, size), _) :=
    hprepared ▸ run_prepareBulk hrecords hsize (by exact_mod_cast hpositive) (hprepared ▸ hpasses)
  obtain ⟨sending, sent, logs, hbulk, hsending⟩ := run_bulkCreate hsettings hrun
  have hall : (∀ items ∈ batches size prepared.length prepared, ∃ statement,
      model.insertRecords (items.map .map) = .ok statement) ↔
        ∀ index < total, model.HasPlaceholders (batch index) := by
    rw [exists_statements_iff_hasPlaceholders hvalid hknows hpositive hencodes, ← hfilled.length_eq]
  refine ⟨hfilled, _, _, hbulk, ?_, fun result hresult => ?_⟩
  · rw [exists_map_iff, ← hall]
    constructor
    · rintro ⟨_, rfl⟩
      obtain ⟨statements, hstatements, -⟩ := hsending.statements
      exact exists_mapM_iff.1 ⟨statements, hstatements⟩
    · exact fun hstatements => ⟨(), hsending.eq_ok hanswers hstatements⟩
  · obtain ⟨_, rfl, rfl⟩ := map_eq_ok.1 hresult
    obtain ⟨insertions, rfl, hcarries, hrestores⟩ := carried_of_sending hvalid hknows hpositive
      hsending
    rw [batches_eq hpositive (Nat.le_refl _), ← hfilled.length_eq] at hcarries
    exact ⟨rfl, insertions, rfl, hcarries, hrestores⟩

/-- Three users in batches of two. The second one comes with an age, so there is a placeholder for
the age of the first one too. -/
theorem users_inserted_in_bulk :
    let records : List Entries := [
      [(.text "id", .int 1), (.text "name", .text "a")],
      [(.text "age", .int 7), (.text "id", .int 2), (.text "name", .text "b")],
      [(.text "id", .int 3), (.text "name", .text "c")]]
    (∀ record ∈ records, checkFor users.table (.map record) = .ok ()) ∧ ∃ after insertions,
      run (users.bulkCreate (.list (records.map .map)) true (.int 2)) (fun _ _ => .ok .null) {} =
        (.ok (records.map .map), after) ∧
      after.calls = insertions.map (fun insertion => insertion.statement.command) ∧
      List.Forall₂ users.Carries [records.take 2, records.drop 2] insertions ∧
      List.Forall₂ users.Restores records (insertions.flatMap Insertion.read) := by
  intro records
  have hpasses : ∀ record ∈ records, checkFor users.table (.map record) = .ok () :=
    forM_eq_ok_iff.1 (toOption_eq_some.1 (by decide +kernel))
  have hknown : users.Knows records := fun record hrecord =>
    (checkFor_eq_ok_iff.1 (hpasses record hrecord)).1
  have hrows : (records.mapM (wireRow users.table.columns)).toOption.isSome = true := by
    decide +kernel
  have hencodes : ∀ record ∈ records, ∀ entry ∈ users.writtenColumns record, ∃ wire,
      Wire.encode (valueAt record entry.1) entry.2.kind entry.2.elementKind = .ok wire := by
    obtain ⟨rows, hsome⟩ := Option.isSome_iff_exists.1 hrows
    intro record hrecord entry hentry
    have hrow := exists_mapM_iff.1 ⟨rows, toOption_eq_some.1 hsome⟩ record hrecord
    exact exists_mapM_iff.1 hrow entry (List.mem_filter.1 hentry).1
  have hplaceholders : ∀ index, users.HasPlaceholders (batchAt 2 records index) := by
    intro index
    have hcolumns : (users.batchColumns (batchAt 2 records index)).length ≤ 3 :=
      List.length_filter_le _ users.table.columns
    have hlength : (batchAt 2 records index).length ≤ 2 := List.length_take_le _ _
    have hnumerals : ∀ entry ∈ users.table.columns, entry.2.HasNumerals := by
      simp [users, Column.HasNumerals, Column.shownDimensions]
    refine ⟨le_mostValues ?_, fun entry hentry => hnumerals entry (mem_of_mem_batchColumns hentry)⟩
    exact Nat.le_trans (Nat.mul_le_mul hlength hcolumns) (by decide)
  obtain ⟨-, outcome, after, hrun, hok, hresult⟩ := bulk_insertion_iff users users_reachable rfl
    (List.cons_ne_nil _ _) hknown (rfl : (Value.int 2).asInt? = some (2 : Nat)) (by decide) true
    (fun _ _ => .ok .null) (fun _ _ => ⟨.null, rfl⟩) {} rfl (fun _ => hpasses) hencodes
  obtain ⟨result, houtcome⟩ := hok.2 fun index _ => hplaceholders index
  obtain ⟨rfl, insertions, hcalls, hcarries, hrestores⟩ := hresult result houtcome
  rw [houtcome] at hrun
  exact ⟨hpasses, after, insertions, hrun, hcalls, hcarries, hrestores⟩

/-- Labels, all of which have the same length. -/
def labels (length : Nat) : Model where
  table := Table.labels length
  settings := some {}

theorem labels_reachable [Coercion] [LawfulCoercion] {length : Nat} (h : 0 < length) :
    (labels length).table.Reachable :=
  Table.reachable_of_ofDefinition (Table.hasDistinctKeys_labelDefinition length)
    (Table.ofDefinition_labels h)

theorem valueAt_labels (label : Value) : valueAt [(.text "label", label)] "label" = label := by
  rw [valueAt, Keyed.get?_eq_at? rfl]
  rfl

/-- A label that is not too long passes the check. -/
theorem checkFor_labels {length : Nat} {label : String} (hpositive : 0 < length)
    (hfits : label.length ≤ length) :
    checkFor (labels length).table (.map [(.text "label", .text label)]) = .ok () := by
  have hhas : (labels length).table.keyed.has (.text "label") = true :=
    Table.has_keyed_of_mem List.mem_cons_self rfl
  refine checkFor_eq_ok_iff.2 ⟨List.forall_mem_singleton.2 hhas, List.forall_mem_singleton.2 ?_⟩
  refine checkField_of_check ?_
  rw [valueAt_labels]
  have htruthy : (Value.int length).isTruthy = true := by
    simpa [Value.isTruthy] using Nat.pos_iff_ne_zero.1 hpositive
  have hmost : (Value.int label.length).isAtMost (.int length) = .ok true := by
    rw [Value.isAtMost_of_amount (Value.amount?_int _) (Value.amount?_int _)]
    exact congrArg Except.ok (decide_eq_true (by exact_mod_cast hfits))
  exact (if_pos htruthy).trans hmost

/-- A label has a placeholder only if the length of labels can be written. -/
theorem hasNumeral_of_hasPlaceholders {length : Nat} {label : Value}
    (h : (labels length).HasPlaceholders [[(.text "label", label)]]) :
    hasNumeral length = true := by
  have hhas : Keyed.has [(Value.text "label", label)] (.text "label") = true := by
    simp [Keyed.has, Value.text_isKey, Value.asText?]
  have hcolumn : ("label", { kind := .fixedString, length := some (length : Int) }) ∈
      (labels length).batchColumns [[(.text "label", label)]] :=
    List.mem_filter.2 ⟨List.mem_cons_self, by rw [List.any_cons, hhas]; rfl⟩
  exact Table.hasNumeral_of_hasNumerals (h.2 _ hcolumn)

/-- A label of a length whose numeral is too long passes the check and can be sent, but it is not
inserted. -/
theorem labels_not_inserted :
    let model := labels (tenTo maxDigits)
    let record : Entries := [(.text "label", .text "x")]
    model.table.Reachable ∧ checkFor model.table (.map record) = .ok () ∧
      (∀ entry ∈ model.writtenColumns record, ∃ wire,
        Wire.encode (valueAt record entry.1) entry.2.kind entry.2.elementKind = .ok wire) ∧
      ∀ result after, run (model.bulkCreate (.list [.map record]) true (.int 1))
        (fun _ _ => .ok .null) {} ≠ (.ok result, after) := by
  intro model record
  have hreachable : model.table.Reachable := labels_reachable (tenTo_pos maxDigits)
  have hpasses : checkFor model.table (.map record) = .ok () :=
    checkFor_labels (tenTo_pos maxDigits) (tenTo_pos maxDigits)
  have hencodes : ∀ entry ∈ model.writtenColumns record, ∃ wire,
      Wire.encode (valueAt record entry.1) entry.2.kind entry.2.elementKind = .ok wire := by
    intro entry hentry
    obtain rfl := List.mem_singleton.1 (List.mem_filter.1 hentry).1
    exact ⟨.text "x", by rw [valueAt_labels]; rfl⟩
  refine ⟨hreachable, hpasses, hencodes, fun result after hrun => ?_⟩
  have hprepared : run (model.prepareBulk (.list [.map record]) true (.int 1))
      (fun _ _ => .ok .null) {} = (.ok ([record], 1), {}) :=
    run_prepareBulk (List.cons_ne_nil record []) (rfl : (Value.int 1).asInt? = some 1) (by decide)
      fun _ => List.forall_mem_singleton.2 hpasses
  obtain ⟨sending, sent, logs, hbulk, hsending⟩ := run_bulkCreate rfl hprepared
  obtain ⟨houtcome, -⟩ := Prod.mk.inj (hbulk.symm.trans hrun)
  obtain ⟨_, rfl, -⟩ := map_eq_ok.1 houtcome
  obtain ⟨statements, hstatements, -⟩ := hsending.statements
  have hstatement := exists_mapM_iff.1 ⟨statements, hstatements⟩ [record] List.mem_cons_self
  have hplaceholders := (exists_statement_iff_hasPlaceholders hreachable.valid
    (List.cons_ne_nil record []) (List.forall_mem_singleton.2 (checkFor_eq_ok_iff.1 hpasses).1)
    (List.forall_mem_singleton.2 hencodes)).1 hstatement
  -- the length of the column has one digit too many
  have hnumeral := @hasNumeral_of_hasPlaceholders (tenTo maxDigits) (.text "x") hplaceholders
  rw [hasNumeral_tenTo_maxDigits] at hnumeral
  cases hnumeral

/-- A bulk insertion fails by itself after the executor has answered some calls exactly if its
records can be prepared and there is a batch, not the first one, without a statement; what has been
sent are the statements of the batches before it. -/
theorem partial_bulk_insertion_iff (model : Model) (records batchSize : Value) (validate : Bool)
    (executor : Executor) (before : Journal) (fault : Fault) (sent : List Call) :
    (sent ≠ [] ∧ AnswersAll executor before.calls sent ∧ ∃ after,
      run (model.bulkCreate records validate batchSize) executor before = (.error fault, after) ∧
        after.calls = before.calls ++ sent) ↔
      AnswersAll executor before.calls sent ∧ model.settings ≠ none ∧
        ∃ prepared size between done batch rest statements,
          run (model.prepareBulk records validate batchSize) executor before =
            (.ok (prepared, size), between) ∧
          batches size prepared.length prepared = done ++ batch :: rest ∧ done ≠ [] ∧
          (done.mapM fun batch => model.insertRecords (batch.map .map)) = .ok statements ∧
          sent = statements.map Bound.command ∧
          model.insertRecords (batch.map .map) = .error fault := by
  constructor
  · rintro ⟨hsent, hanswers, after, hrun, hcalls⟩
    rcases exists_of_run_bulkCreate hrun with hsame | ⟨prepared, size, between, sending, known,
      hsettings, hprepared, hsending, hknown, houtcome⟩
    · rw [hcalls, List.append_right_eq_self] at hsame
      exact absurd hsame hsent
    · obtain rfl := List.append_cancel_left (hcalls.symm.trans hknown)
      cases sending with
      | ok => cases houtcome
      | error known =>
          cases houtcome
          obtain ⟨done, batch, rest, statements, hbatches, hdone, hstatements, hbatch⟩ :=
            hsending.exists_stopped hanswers
          refine ⟨hanswers, hsettings, prepared, size, between, done, batch, rest, statements,
            hprepared, hbatches, ?_, hdone, hstatements, hbatch⟩
          rintro rfl
          cases hdone
          exact hsent hstatements
  · rintro ⟨hanswers, hsettings, prepared, size, between, done, batch, rest, statements, hprepared,
      hbatches, hsome, hdone, rfl, hbatch⟩
    refine ⟨?_, hanswers,
      run_bulkCreate_stopped hsettings hprepared hbatches hdone hanswers hbatch⟩
    rw [Ne, List.map_eq_nil_iff, ← List.length_eq_zero_iff, length_of_mapM hdone,
      List.length_eq_zero_iff]
    exact hsome

/-- Lists of whole numbers can be inserted, lists with a text cannot. -/
theorem exists_series_statement_iff (items : List Value) :
    (∃ statement, series.insertRecords [.map [(.text "items", .list items)]] = .ok statement) ↔
      ∃ wire, Wire.encode (.list items) .array (some .int32) = .ok wire := by
  have hknown := (checkFor_eq_ok_iff.1 (checkFor_series items)).1
  have hnumerals : ∀ entry ∈ series.table.columns, entry.2.HasNumerals := by
    simp [series, Column.HasNumerals, Column.shownDimensions]
  have hstatement := exists_insertStatement_iff series_reachable.valid hknown
  rw [writtenColumns_series] at hstatement
  refine hstatement.trans ⟨?_, fun hencodes => ?_⟩
  · rintro ⟨-, -, hencodes⟩
    have hwire := hencodes _ List.mem_cons_self
    rwa [valueAt_series] at hwire
  · refine ⟨le_mostValues (by decide), hnumerals, List.forall_mem_singleton.2 ?_⟩
    rwa [valueAt_series]

/-- A list with a text passes the check, but it has no statement; when that is found out, the list
before it has been sent. -/
theorem series_partly_inserted :
    let model : Model := { series with settings := some {} }
    let executor : Executor := fun _ _ => .ok .null
    let records : Value := .list [.map [(.text "items", .list [.int 1])],
      .map [(.text "items", .list [.text "x"])]]
    (∀ earlier call, Answers executor earlier call) ∧ ∃ fault after,
      run (model.bulkCreate records true (.int 1)) executor {} = (.error fault, after) ∧
        after.calls.length = 1 := by
  intro model executor records
  have hanswers : ∀ earlier call, Answers executor earlier call := fun _ _ => ⟨.null, rfl⟩
  let first : Entries := [(.text "items", .list [.int 1])]
  let second : Entries := [(.text "items", .list [.text "x"])]
  have hpasses : ∀ record ∈ [first, second], checkFor model.table (.map record) = .ok () :=
    List.forall_mem_cons.2 ⟨checkFor_series _, List.forall_mem_singleton.2 (checkFor_series _)⟩
  have hprepared : run (model.prepareBulk records true (.int 1)) executor {} =
      (.ok ([first, second], 1), {}) :=
    run_prepareBulk (List.cons_ne_nil first [second]) (rfl : (Value.int 1).asInt? = some 1)
      (by decide) fun _ => hpasses
  obtain ⟨statement, hfirst⟩ := (exists_series_statement_iff [.int 1]).2 ⟨.list [.int 1], rfl⟩
  have hsecond : ∃ fault, model.insertRecords [.map second] = .error fault := by
    cases hrecords : model.insertRecords [.map second] with
    | error fault => exact ⟨fault, rfl⟩
    | ok known =>
        obtain ⟨wire, hwire⟩ := (exists_series_statement_iff [.text "x"]).1 ⟨known, hrecords⟩
        cases hwire
  obtain ⟨fault, hfault⟩ := hsecond
  have hdone : ([[first]].mapM fun batch => model.insertRecords (batch.map .map)) =
      .ok [statement] := mapM_cons_eq_ok.2 ⟨statement, [], hfirst, rfl, rfl⟩
  obtain ⟨after, hrun, hcalls⟩ := run_bulkCreate_stopped (Option.some_ne_none _) hprepared
    (rfl : _ = [[first]] ++ [second] :: []) hdone (answersAll_of_forall hanswers _ _) hfault
  exact ⟨hanswers, fault, after, hrun, by rw [hcalls]; rfl⟩

end TypedSql.Model
