import TypedSql.Proofs.Column.Valid
import TypedSql.Proofs.Model.Composition
import TypedSql.Proofs.Statement.Rows
import TypedSql.Proofs.Table.Record

/-!
# Rows of records

Records of known columns are inserted into the columns that some of them give a value for, one row
for each record. `insertRecords_eq_ok_iff` says what the statement is, `exists_insertRecords_iff`
when there is one, and `carries_of_insertRecords` where in it the values of the records stand.
-/

namespace TypedSql.Model

open TypedSql.Number TypedSql.Outcome TypedSql.Statement

variable {model : Model} {record : Entries} {batch : List Entries} {statement : Bound}

/-- The columns that some record of a batch gives a value for, in declaration order. -/
def batchColumns (model : Model) (batch : List Entries) : List (String × Column) :=
  model.table.columns.filter fun entry =>
    batch.any fun record => Keyed.has record (.text entry.1)

/-- Whether every name in the records of a batch is that of a column. -/
def Knows (model : Model) (batch : List Entries) : Prop :=
  ∀ record ∈ batch, ∀ entry ∈ record, model.table.keyed.has entry.1 = true

/-- The wire values of a record for columns. -/
def wireRow (columns : List (String × Column)) (record : Entries) : Except Fault (List Value) :=
  columns.mapM fun entry =>
    Wire.encode (Record.valueAt record entry.1) entry.2.kind entry.2.elementKind

theorem mem_of_mem_batchColumns {entry : String × Column} (h : entry ∈ model.batchColumns batch) :
    entry ∈ model.table.columns :=
  (List.mem_filter.1 h).1

/-- The names in a record of known columns are keys, and they name columns. -/
theorem mentionedKeys_eq_ok (h : ∀ entry ∈ record, model.table.keyed.has entry.1 = true) :
    mentionedKeys (.map record) = .ok (record.map Prod.fst) := by
  have hkeys : (record.map Prod.fst).all Value.canBeKey = true := by
    rw [List.all_map, List.all_eq_true]
    exact fun entry hentry => Table.canBeKey_of_has (h entry hentry)
  refine bind_eq_ok.2 ⟨record.map Prod.fst, rfl, ?_⟩
  rw [if_pos hkeys]
  rfl

theorem checkFields_eq_ok (h : ∀ entry ∈ record, model.table.keyed.has entry.1 = true) :
    model.checkFields (record.map Prod.fst) = .ok () := by
  refine forM_eq_ok_iff.2 ?_
  rw [List.forall_mem_map]
  intro entry hentry
  have hhas := h entry hentry
  have hfound : model.table.hasColumn entry.1 = .ok true := by
    rw [Table.hasColumn, Table.find, if_pos (Table.canBeKey_of_has hhas), Table.column?, Except.map,
      Keyed.isSome_get?, hhas]
  simp only [field, hfound]
  rfl

/-- Records are inserted into the columns that some of them give a value for. -/
theorem presentColumns_eq (model : Model) (batch : List Entries) :
    model.presentColumns (batch.map (List.map Prod.fst)) =
      (model.batchColumns batch).map Prod.fst := by
  have hsame : ∀ (name : String) (record : Entries),
      ((record.map Prod.fst).any (Value.isKey (.text name))) = Keyed.has record (.text name) := by
    intro name record
    rw [List.any_map, Keyed.has]
    refine congrArg record.any (funext fun entry => ?_)
    rw [Function.comp_apply, Value.text_isKey, Value.isKey_of_asText rfl]
  simp only [presentColumns, List.any_map, Function.comp_def, hsame, Table.columnNames,
    List.filter_map, batchColumns]

/-- The row of a record for some columns of its table. -/
theorem rowOf_eq (h : model.table.Valid) {columns : List (String × Column)}
    (hcolumns : ∀ entry ∈ columns, entry ∈ model.table.columns) (record : Entries) :
    model.rowOf (columns.map Prod.fst) (.map record) = (wireRow columns record).map .list := by
  have hvalues : ((columns.map Prod.fst).mapM fun name =>
      model.toWire (.text name) (Record.valueAt record name)) = wireRow columns record := by
    rw [List.mapM_map]
    refine mapM_congr fun entry hentry => ?_
    rw [Function.comp_apply, toWire, h.column?_of_mem (hcolumns entry hentry)]
  have hrow : model.rowOf (columns.map Prod.fst) (.map record) =
      ((columns.map Prod.fst).mapM fun name =>
        model.toWire (.text name) (Record.valueAt record name)).map .list := rfl
  rw [hrow, hvalues]

/-- The types of the placeholders for some columns of the table. -/
theorem mapM_wireType_eq (h : model.table.Valid) {columns : List (String × Column)}
    (hcolumns : ∀ entry ∈ columns, entry ∈ model.table.columns) :
    ((columns.map Prod.fst).mapM fun name => model.wireType (.text name)) =
      Except.map (List.map .text) (columns.mapM fun entry => entry.2.placeholderType) := by
  rw [← mapM_map_results, List.mapM_map]
  refine mapM_congr fun entry hentry => ?_
  rw [Function.comp_apply, wireType, h.column?_of_mem (hcolumns entry hentry)]

/-- An insertion of records of known columns is made of their rows and the types of their columns.
-/
theorem insertRecords_eq (h : model.table.Valid) (hknown : model.Knows batch) :
    model.insertRecords (batch.map .map) = (do
      let rows ← batch.mapM (wireRow (model.batchColumns batch))
      let types ← (model.batchColumns batch).mapM fun entry => entry.2.placeholderType
      bound do
        Action.insertInto (.text model.name)
          (Value.ofNames ((model.batchColumns batch).map Prod.fst))
        Action.values (.list (rows.map .list)) (.list (types.map .text))
        return []) := by
  have hcolumns : ∀ entry ∈ model.batchColumns batch, entry ∈ model.table.columns :=
    fun _ => mem_of_mem_batchColumns
  have hmentions : (batch.map Value.map).mapM mentionedKeys =
      .ok (batch.map (List.map Prod.fst)) := by
    rw [List.mapM_map, mapM_eq_ok_iff, List.forall₂_map_right_iff, List.forall₂_same]
    exact fun record hrecord => mentionedKeys_eq_ok (hknown record hrecord)
  have hfields : (batch.map (List.map Prod.fst)).forM model.checkFields = .ok () := by
    rw [forM_eq_ok_iff, List.forall_mem_map]
    exact fun record hrecord => checkFields_eq_ok (hknown record hrecord)
  have hrows : (batch.map Value.map).mapM
      (model.rowOf ((model.batchColumns batch).map Prod.fst)) =
        (batch.mapM (wireRow (model.batchColumns batch))).map (List.map .list) := by
    rw [List.mapM_map, ← mapM_map_results]
    exact mapM_congr fun record _ => rowOf_eq h hcolumns record
  unfold insertRecords
  rw [hmentions]
  simp only [bind, Except.bind, hfields, presentColumns_eq, hrows, mapM_wireType_eq h hcolumns]
  cases batch.mapM (wireRow (model.batchColumns batch)) with
  | error fault => rfl
  | ok rows =>
      cases (model.batchColumns batch).mapM fun entry => entry.2.placeholderType
      all_goals rfl

/-- The statement that inserts some records of known columns. -/
theorem insertRecords_eq_ok_iff (h : model.table.Valid) (hbatch : batch ≠ [])
    (hknown : model.Knows batch) :
    model.insertRecords (batch.map .map) = .ok statement ↔ ∃ rows types,
      batch.mapM (wireRow (model.batchColumns batch)) = .ok rows ∧
      ((model.batchColumns batch).mapM fun entry => entry.2.placeholderType) = .ok types ∧
      rows.length * types.length ≤ mostValues ∧
      statement = (insertionOf model.name ((model.batchColumns batch).map Prod.fst) types
        rows).statement := by
  have hnames : ∀ name ∈ (model.batchColumns batch).map Prod.fst,
      Identifier.isName name = true := by
    rw [List.forall_mem_map]
    exact fun entry hentry => h.names _ (List.mem_map_of_mem (mem_of_mem_batchColumns hentry))
  have hnonempty : ∀ types,
      ((model.batchColumns batch).mapM fun entry => entry.2.placeholderType) = .ok types →
        ∀ type ∈ types, type ≠ "" := by
    intro types htypes type htype
    obtain ⟨entry, -, hentry⟩ := exists_of_mem_mapM htypes htype
    exact Column.placeholderType_ne_empty hentry
  have hbound : ∀ rows types,
      batch.mapM (wireRow (model.batchColumns batch)) = .ok rows →
      ((model.batchColumns batch).mapM fun entry => entry.2.placeholderType) = .ok types →
        (bound (do
          Action.insertInto (.text model.name)
            (Value.ofNames ((model.batchColumns batch).map Prod.fst))
          Action.values (.list (rows.map .list)) (.list (types.map .text))
          return []) = .ok statement ↔ rows.length * types.length ≤ mostValues ∧
            statement = (insertionOf model.name ((model.batchColumns batch).map Prod.fst) types
              rows).statement) := by
    intro rows types hrows htypes
    have hwidth := length_of_mapM htypes
    refine bound_insertion_eq_ok_iff h.name hnames (hnonempty types htypes) ?_ ?_ ?_
    · rw [List.length_map, hwidth]
    · intro items hitems
      obtain ⟨record, -, hrecord⟩ := exists_of_mem_mapM hrows hitems
      rw [length_of_mapM hrecord, hwidth]
    · rw [← List.length_pos_iff, length_of_mapM hrows]
      exact List.length_pos_iff.2 hbatch
  rw [insertRecords_eq h hknown]
  constructor
  · intro hstatement
    obtain ⟨rows, hrows, hstatement⟩ := bind_eq_ok.1 hstatement
    obtain ⟨types, htypes, hstatement⟩ := bind_eq_ok.1 hstatement
    exact ⟨rows, types, hrows, htypes, (hbound rows types hrows htypes).1 hstatement⟩
  · rintro ⟨rows, types, hrows, htypes, hstatement⟩
    exact bind_eq_ok.2 ⟨rows, hrows,
      bind_eq_ok.2 ⟨types, htypes, (hbound rows types hrows htypes).2 hstatement⟩⟩

/-- Records of known columns can be inserted exactly if their placeholders can be numbered, their
types can be written, and their values can be sent. -/
theorem exists_insertRecords_iff (h : model.table.Valid) (hbatch : batch ≠ [])
    (hknown : model.Knows batch) :
    (∃ statement, model.insertRecords (batch.map .map) = .ok statement) ↔
      batch.length * (model.batchColumns batch).length ≤ mostValues ∧
        (∀ entry ∈ model.batchColumns batch, entry.2.HasNumerals) ∧
          ∀ record ∈ batch, ∀ entry ∈ model.batchColumns batch, ∃ wire,
            Wire.encode (Record.valueAt record entry.1) entry.2.kind entry.2.elementKind =
              .ok wire := by
  have hrows : (∃ rows, batch.mapM (wireRow (model.batchColumns batch)) = .ok rows) ↔
      ∀ record ∈ batch, ∀ entry ∈ model.batchColumns batch, ∃ wire,
        Wire.encode (Record.valueAt record entry.1) entry.2.kind entry.2.elementKind = .ok wire :=
    exists_mapM_iff.trans (forall₂_congr fun _ _ => exists_mapM_iff)
  have htypes : (∃ types, ((model.batchColumns batch).mapM fun entry =>
      entry.2.placeholderType) = .ok types) ↔
        ∀ entry ∈ model.batchColumns batch, entry.2.HasNumerals := by
    refine exists_mapM_iff.trans (forall₂_congr fun entry hentry => ?_)
    exact Column.exists_placeholderType_iff (h.columns entry (mem_of_mem_batchColumns hentry))
  rw [← hrows, ← htypes]
  simp only [insertRecords_eq_ok_iff h hbatch hknown]
  constructor
  · rintro ⟨statement, rows, types, hrows, htypes, hcount, -⟩
    rw [length_of_mapM hrows, length_of_mapM htypes] at hcount
    exact ⟨hcount, ⟨types, htypes⟩, ⟨rows, hrows⟩⟩
  · rintro ⟨hcount, ⟨types, htypes⟩, ⟨rows, hrows⟩⟩
    rw [← length_of_mapM hrows, ← length_of_mapM htypes] at hcount
    exact ⟨_, rows, types, hrows, htypes, hcount, rfl⟩

section Carrying

/-- `Returns columns record row` says that a row that has been read has the wire values of a record,
each in its column. -/
def Returns (columns : List (String × Column)) (record : Entries)
    (row : List (String × Option Value)) : Prop :=
  List.Forall₂ (fun entry field => field.1 = entry.1 ∧ ∃ wire, field.2 = some wire ∧
    Wire.encode (Record.valueAt record entry.1) entry.2.kind entry.2.elementKind = .ok wire)
    columns row

/-- `model.Carries batch insertion` says that an insertion carries the records of a batch: into the
columns that some of them give a value for, a row for each record, with a placeholder of the type of
the column for each value, numbered by row and column. -/
structure Carries (model : Model) (batch : List Entries) (insertion : Insertion) : Prop where
  table : insertion.table = model.name
  columns : insertion.columns = (model.batchColumns batch).map Prod.fst
  rows : ∃ types,
    ((model.batchColumns batch).mapM fun entry => entry.2.placeholderType) = .ok types ∧
      insertion.rows = (List.range batch.length).map (gridRow types)
  parameters : insertion.parameters.length = batch.length * (model.batchColumns batch).length
  read : List.Forall₂ (Returns (model.batchColumns batch)) batch insertion.read

/-- The wire values of a record are a row of it. -/
theorem returns_of_wireRow {columns : List (String × Column)} {items : List Value}
    (h : wireRow columns record = .ok items) :
    Returns columns record ((columns.map Prod.fst).zip (items.map some)) := by
  induction columns generalizing items with
  | nil => exact .nil
  | cons entry rest ih =>
      obtain ⟨wire, others, hwire, hothers, rfl⟩ := mapM_cons_eq_ok.1 h
      exact .cons ⟨rfl, wire, rfl, hwire⟩ (ih hothers)

/-- A statement that inserts records carries them. -/
theorem carries_of_insertRecords (h : model.table.Valid) (hbatch : batch ≠ [])
    (hknown : model.Knows batch)
    (hstatement : model.insertRecords (batch.map .map) = .ok statement) :
    ∃ insertion : Insertion, statement = insertion.statement ∧ model.Carries batch insertion := by
  obtain ⟨rows, types, hrows, htypes, -, rfl⟩ :=
    (insertRecords_eq_ok_iff h hbatch hknown).1 hstatement
  have hlengths : ∀ items ∈ rows, items.length = types.length := by
    intro items hitems
    obtain ⟨record, -, hrecord⟩ := exists_of_mem_mapM hrows hitems
    rw [length_of_mapM hrecord, length_of_mapM htypes]
  have hnumbered : (numbered 0 rows.flatten).length = rows.flatten.length := by
    rw [← List.length_map Prod.snd, map_snd_numbered]
  refine ⟨_, rfl, ?_⟩
  constructor
  case table => rfl
  case columns => rfl
  case rows => exact ⟨types, htypes, by rw [insertionOf, length_of_mapM hrows]⟩
  case parameters =>
    rw [insertionOf, hnumbered, length_flatten_rows hlengths, length_of_mapM hrows,
      length_of_mapM htypes]
  case read =>
    rw [read_insertionOf hlengths, List.forall₂_map_right_iff]
    exact (mapM_eq_ok_iff.1 hrows).imp fun record items => returns_of_wireRow

/-- Each placeholder of an insertion has the type of its column, and its parameter is the wire value
of a record for that column. -/
theorem Carries.exists_of_mem {insertion : Insertion} (h : model.Carries batch insertion)
    {row : List Slot} (hrow : row ∈ insertion.rows) {field : String × Slot}
    (hfield : field ∈ insertion.columns.zip row) :
    ∃ record ∈ batch, ∃ column, (field.1, column) ∈ model.batchColumns batch ∧
      column.placeholderType = .ok field.2.type ∧ ∃ wire,
        insertion.parameters.lookup field.2.name = some wire ∧
        Wire.encode (Record.valueAt record field.1) column.kind column.elementKind = .ok wire := by
  obtain ⟨types, htypes, hrows⟩ := h.rows
  have hread : (insertion.columns.zip (row.map fun slot =>
      insertion.parameters.lookup slot.name)) ∈ insertion.read := List.mem_map_of_mem hrow
  obtain ⟨record, hrecord, hreturns⟩ := exists_of_mem_right h.read hread
  rw [hrows] at hrow
  obtain ⟨number, -, rfl⟩ := List.mem_map.1 hrow
  -- the place of the column is that of its type, its placeholder and its parameter
  obtain ⟨place, hplace, rfl⟩ := List.mem_iff_getElem.1 hfield
  have hcolumns := h.columns
  have hlength := length_of_mapM htypes
  simp only [List.length_zip, hcolumns, List.length_map, gridRow, List.length_mapIdx,
    Nat.lt_min] at hplace
  have htype := (mapM_eq_ok_iff.1 htypes).get hplace.1 hplace.2
  have hfieldAt := hreturns.get hplace.1 (by simp [hcolumns, gridRow, hplace])
  obtain ⟨-, wire, hwire, hencode⟩ := hfieldAt
  simp only [List.get_eq_getElem, List.getElem_zip, List.getElem_map] at htype hwire hencode
  refine ⟨record, hrecord, (model.batchColumns batch)[place].2, ?_⟩
  simp only [List.getElem_zip, hcolumns, List.getElem_map]
  refine ⟨List.getElem_mem hplace.1, ?_, wire, hwire, hencode⟩
  simpa [gridRow] using htype

end Carrying

end TypedSql.Model
