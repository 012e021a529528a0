import TypedSql.Proofs.Outcome
import TypedSql.Proofs.Statement.Placeholder
import TypedSql.Statement.Query

/-!
# Written statements

The texts of the statements that have a single condition: the condition stands behind everything
that the statement does, and the values are those that the builder has bound.
-/

namespace TypedSql.Statement

open TypedSql.Outcome

/-- The text of an update without its condition. -/
def updateHead (table : String) (assignments : List (String × Slot)) : String :=
  "UPDATE " ++ table ++ " SET " ++
    Value.commaSeparated (assignments.map Builder.assignmentText)

/-- The text of a deletion without its condition. -/
def deletionHead (table : String) : String := "DELETE FROM " ++ table

/-- The text of a selection without anything behind its table. -/
def selectionHead (expressions : List String) (table : String) : String :=
  "SELECT " ++ Value.commaSeparated expressions ++ " FROM " ++ table

/-- A head and a condition behind it. -/
theorem intercalate_condition (head sql : String) :
    " ".intercalate [head, "WHERE" ++ " " ++ " AND ".intercalate [sql]] =
      head ++ " WHERE " ++ sql := by
  rw [String.intercalate_cons_cons, String.intercalate_singleton, String.intercalate_singleton,
    show " WHERE " = " " ++ ("WHERE" ++ " ") from rfl]
  simp only [String.append_assoc]

/-- An update with one condition is its head and the condition. -/
theorem build_update {table sql : String} {assignments : List (String × Slot)}
    {bound : List Value} (h : assignments ≠ []) :
    ({ verb := some .update, table := some table, assignments, conditions := [.text sql], bound } :
      Builder).build =
      .ok { sql := updateHead table assignments ++ " WHERE " ++ sql, parameters := bound } := by
  cases assignments with
  | nil => exact absurd rfl h
  | cons assignment rest =>
      rw [← intercalate_condition]
      rfl

/-- A deletion with one condition is its head and the condition. -/
theorem build_deletion {table sql : String} {bound : List Value} :
    ({ verb := some .delete, table := some table, conditions := [.text sql], bound } :
      Builder).build =
      .ok { sql := deletionHead table ++ " WHERE " ++ sql, parameters := bound } := by
  rw [← intercalate_condition]
  rfl

/-- Assignments to plain names show their placeholders. -/
theorem showsEach_assignments {names : List String} (hnames : ∀ name ∈ names, IsPlain name)
    {slots : List Slot} (hlength : names.length = slots.length) :
    ShowsEach ((names.zip slots).map Builder.assignmentText) slots := by
  induction names generalizing slots with
  | nil =>
      cases slots with
      | nil => exact ShowsEach.nil
      | cons => cases hlength
  | cons name rest ih =>
      cases slots with
      | nil => cases hlength
      | cons slot others =>
          have hname : IsPlain (name ++ " = ") :=
            (hnames name List.mem_cons_self).append (by decide)
          have hassignment : Shows (Builder.assignmentText (name, slot)) [slot] :=
            (Shows.plain hname).append (Shows.slot slot)
          exact ShowsEach.cons hassignment
            (ih (fun other hother => hnames other (List.mem_cons_of_mem name hother))
              (Nat.succ_inj.1 hlength))

/-- The head of an update shows the placeholders of its assignments. -/
theorem shows_updateHead {table : String} (htable : IsPlain table) {names : List String}
    (hnames : ∀ name ∈ names, IsPlain name) {slots : List Slot}
    (hlength : names.length = slots.length) : Shows (updateHead table (names.zip slots)) slots := by
  have hverb : IsPlain ("UPDATE " ++ table ++ " SET ") :=
    ((show IsPlain "UPDATE " by decide).append htable).append (by decide)
  exact (Shows.plain hverb).append
    ((showsEach_assignments hnames hlength).intercalate (by decide))

/-- A row shows its placeholders. -/
theorem shows_rowText (row : List Slot) : Shows (Builder.rowText row) row := by
  have hslots : ShowsEach (row.map Slot.render) row := by
    induction row with
    | nil => exact ShowsEach.nil
    | cons slot rest ih => exact ShowsEach.cons (Shows.slot slot) ih
  have hinner : Shows (Value.commaSeparated (row.map Slot.render)) row :=
    hslots.intercalate (by decide)
  have hopened := (Shows.plain (show IsPlain "(" by decide)).append hinner
  have hclosed := hopened.append (Shows.plain (show IsPlain ")" by decide))
  rwa [List.append_nil] at hclosed

theorem showsEach_rows (rows : List (List Slot)) :
    ShowsEach (rows.map Builder.rowText) rows.flatten := by
  induction rows with
  | nil => exact ShowsEach.nil
  | cons row rest ih => exact ShowsEach.cons (shows_rowText row) ih

/-- An insertion into plain columns shows the placeholders of its rows, row by row. -/
theorem shows_insertion {table : String} (htable : IsPlain table) {columns : List String}
    (hcolumns : ∀ column ∈ columns, IsPlain column) {rows : List (List Slot)}
    {bound : List Value} {query : Query}
    (h : ({ verb := some .insert, table := some table, columns, rows, bound } :
      Builder).build = .ok query) :
    Shows query.sql rows.flatten ∧ query.parameters = bound := by
  obtain ⟨parts, hparts, h⟩ := bind_eq_ok.1 h
  obtain rfl := pure_eq_ok.1 h
  refine ⟨ShowsEach.intercalate (by decide) ?_, rfl⟩
  have htableText : Shows ("INSERT INTO " ++ table) [] :=
    Shows.plain ((show IsPlain "INSERT INTO " by decide).append htable)
  have hcolumnTexts : Shows (Value.commaSeparated columns) [] :=
    (ShowsEach.plain hcolumns).intercalate (by decide)
  have hcolumnList : Shows ("(" ++ Value.commaSeparated columns ++ ")") [] :=
    ((Shows.plain (show IsPlain "(" by decide)).append hcolumnTexts).append
      (Shows.plain (show IsPlain ")" by decide))
  have hrows : Shows (Value.commaSeparated (rows.map Builder.rowText)) rows.flatten :=
    (showsEach_rows rows).intercalate (by decide)
  have hvalues : Shows ("VALUES " ++ Value.commaSeparated (rows.map Builder.rowText))
      rows.flatten :=
    (Shows.plain (show IsPlain "VALUES " by decide)).append hrows
  -- an insertion without rows is refused
  cases rows with
  | nil => cases hparts
  | cons row rest =>
      cases hparts
      have hparts := ShowsEach.cons htableText
        (ShowsEach.cons hcolumnList (ShowsEach.single hvalues))
      exact hparts

end TypedSql.Statement
