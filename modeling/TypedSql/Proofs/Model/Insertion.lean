import TypedSql.Proofs.Model.Rows
import TypedSql.Proofs.Table.Reachable

/-!
# Insertions of checked records

A record that passes the check of its table need not have a statement that inserts it, for the check
leaves some values open that have no form to be sent. `checked_insertion_iff` says which records can
be inserted, and of single values which can be sent.
-/

namespace TypedSql

open TypedSql.Number TypedSql.Outcome TypedSql.Statement

namespace Model

variable {model : Model} {record : Entries}

/-- The columns that a record gives a value for, in declaration order. -/
def writtenColumns (model : Model) (record : Entries) : List (String × Column) :=
  model.table.columns.filter fun entry => Keyed.has record (.text entry.1)

theorem batchColumns_singleton (model : Model) (record : Entries) :
    model.batchColumns [record] = model.writtenColumns record := by
  simp only [batchColumns, writtenColumns, List.any_cons, List.any_nil, Bool.or_false]

/-- A record of known columns can be inserted exactly if its placeholders can be numbered, their
types can be written, and its values can be sent. -/
theorem exists_insertStatement_iff (h : model.table.Valid)
    (hknown : ∀ entry ∈ record, model.table.keyed.has entry.1 = true) :
    (∃ statement, model.insertStatement (.list [.map record]) = .ok statement) ↔
      (model.writtenColumns record).length ≤ mostValues ∧
        (∀ entry ∈ model.writtenColumns record, entry.2.HasNumerals) ∧
          ∀ entry ∈ model.writtenColumns record, ∃ wire,
            Wire.encode (Record.valueAt record entry.1) entry.2.kind entry.2.elementKind =
              .ok wire := by
  have hinsertion := exists_insertRecords_iff h (List.cons_ne_nil record [])
    (List.forall_mem_singleton.2 hknown)
  rw [batchColumns_singleton, List.length_singleton, Nat.one_mul,
    List.forall_mem_singleton] at hinsertion
  exact hinsertion

/-- A record that passes the check of a table can be inserted exactly if its placeholders can be
numbered, the numbers in their types can be written, and the columns send what the check leaves open
of its values. Of a single value that passes the check of a column the same holds: it has a form to
be sent exactly if the column sends it. -/
theorem checked_insertion_iff [Coercion] (model : Model) (htable : model.table.Reachable) :
    (∀ record : Entries, (∀ entry ∈ record, entry.2.IsProper) →
      Record.checkFor model.table (.map record) = .ok () →
        ((∃ statement, model.insertStatement (.list [.map record]) = .ok statement) ↔
          (model.writtenColumns record).length ≤ mostValues ∧
            ∀ entry ∈ model.writtenColumns record, entry.2.HasNumerals ∧
              Wire.Sends entry.2 (Record.valueAt record entry.1))) ∧
      ∀ entry ∈ model.table.columns, ∀ value : Value, value.IsProper →
        Wire.check entry.2 value = .ok true →
          ((∃ wire, Wire.encode value entry.2.kind entry.2.elementKind = .ok wire) ↔
            Wire.Sends entry.2 value) := by
  constructor
  · intro record hproper hrecord
    obtain ⟨hknown, hfields⟩ := Record.checkFor_eq_ok_iff.1 hrecord
    rw [exists_insertStatement_iff htable.valid hknown]
    refine and_congr_right fun _ => forall₂_and.symm.trans (forall₂_congr fun entry hentry => ?_)
    have haccepted := Record.accepts_of_checkField (hfields entry (List.mem_filter.1 hentry).1)
    refine and_congr_right fun _ => Wire.exists_encode_iff haccepted ?_
    exact Record.isProper_valueAt hproper _
  · intro entry _ value hproper hcheck
    exact Wire.exists_encode_iff (Wire.accepts_of_check hcheck) hproper

/-- A table of lists of whole numbers, for the cases below. -/
def series : Model where
  table :=
    { name := "series"
      columns := [("items", { kind := .array, elementKind := some .int32 })] }

theorem series_reachable : series.table.Reachable := by
  let definition : Value := .map [(.text "items",
    .map [(.text "type", .text "Array"), (.text "elementType", .text "Int32")])]
  have hkeys : definition.HasDistinctKeys := List.pairwise_singleton _ _
  have hdefined : Table.ofDefinition (.text "series") definition = .ok series.table := by rfl
  exact Table.reachable_of_ofDefinition hkeys hdefined

/-- Every list passes the check. -/
theorem checkFor_series (items : List Value) :
    Record.checkFor series.table (.map [(.text "items", .list items)]) = .ok () := by
  rw [Record.checkFor_eq_ok_iff]
  refine ⟨List.forall_mem_singleton.2 ?_, List.forall_mem_singleton.2 ?_⟩
  · simp [Keyed.has, Table.keyed, series, Value.text_isKey, Value.asText?]
  · rw [Record.checkField, Keyed.get?_eq_at? rfl]
    rfl

/-- The list is the value of the only column. -/
theorem valueAt_series (items : List Value) :
    Record.valueAt [(.text "items", .list items)] "items" = .list items := by
  rw [Record.valueAt, Keyed.get?_eq_at? rfl]
  rfl

theorem writtenColumns_series (items : List Value) :
    series.writtenColumns [(.text "items", .list items)] = series.table.columns := by
  simp [writtenColumns, Keyed.has, series, Value.text_isKey, Value.asText?]

/-- A list of whole numbers passes the check and is inserted. -/
theorem series_inserts :
    Record.checkFor series.table (.map [(.text "items", .list [.int 1, .int 2])]) = .ok () ∧
      ∃ statement, series.insertStatement
        (.list [.map [(.text "items", .list [.int 1, .int 2])]]) = .ok statement := by
  have hcheck := checkFor_series [.int 1, .int 2]
  have hproper : ∀ entry ∈ [(Value.text "items", Value.list [.int 1, .int 2])],
      entry.2.IsProper := List.forall_mem_singleton.2 trivial
  refine ⟨hcheck, ((checked_insertion_iff series series_reachable).1 _ hproper hcheck).2 ?_⟩
  rw [writtenColumns_series]
  refine ⟨mostValues_pos, List.forall_mem_singleton.2 ⟨?_, ?_⟩⟩
  · exact fun dimension hmem => nomatch hmem
  · rw [valueAt_series]
    intro items hitems
    cases hitems
    exact List.forall_mem_cons.2 ⟨⟨.int 1, rfl⟩, List.forall_mem_singleton.2 ⟨.int 2, rfl⟩⟩

/-- A text in the list passes the check too, but nothing is inserted. -/
theorem series_refuses_text :
    Record.checkFor series.table (.map [(.text "items", .list [.text "x"])]) = .ok () ∧
      ∀ statement, series.insertStatement
        (.list [.map [(.text "items", .list [.text "x"])]]) ≠ .ok statement := by
  refine ⟨checkFor_series _, fun statement hstatement => ?_⟩
  have hknown := (Record.checkFor_eq_ok_iff.1 (checkFor_series [.text "x"])).1
  have hparts :=
    (exists_insertStatement_iff series_reachable.valid hknown).1 ⟨statement, hstatement⟩
  rw [writtenColumns_series] at hparts
  obtain ⟨wire, hwire⟩ := hparts.2.2 _ List.mem_cons_self
  rw [valueAt_series] at hwire
  cases hwire

end Model

end TypedSql
