import TypedSql.Table.Ddl
import TypedSql.Proofs.Table.Valid

/-!
# Statements that create tables

The statement that creates a valid table. `createText_eq_ok` says what it shows: the lines of the
columns in their order, and a column that the table is ordered by. `exists_createText_iff` says that
a valid table has such a statement exactly if all numbers in it can be written.
-/

namespace TypedSql.Table

open TypedSql.Number TypedSql.Outcome

/-- The line of a column shows its name, its type and its comment. -/
def IsLine (entry : String × Column) (line : String) : Prop :=
  ∃ type, entry.2.typeText = .ok type ∧
    line = Identifier.backquoted entry.1 ++ " " ++ type ++ commentText entry.2

/-- The text of a setting assigns its value to its name. -/
def IsAssignment (setting : Value × Value) (text : String) : Prop :=
  assignment setting.1 setting.2 = .ok text

/-- Whether the whole numbers in a setting can be written. -/
def SettingHasNumerals (setting : Value × Value) : Prop :=
  setting.1.isDisplayable = true ∧ setting.2.isDisplayable = true

/-- Options without columns to order by. An empty engine, partition or map of settings counts as
none. -/
def unordered (engine partitionBy : String) (ifNotExists : Bool) (settings : Entries) :
    CreateOptions :=
  { engine := .text engine, partitionBy := .text partitionBy, ifNotExists
    settings := .map settings }

/-- The column that a table is ordered by: the primary key, or else the first one. -/
def orderingColumn (table : Table) : String :=
  table.primaryKey?.getD (table.columnNames.headD "")

/-- The statement that creates a table from the lines of its columns and its settings. -/
def creation (table : Table) (engine partitionBy : String) (ifNotExists : Bool)
    (lines assignments : List String) : String :=
  let header := "CREATE TABLE " ++ (if ifNotExists then "IF NOT EXISTS " else "") ++
    Identifier.backquoted table.name ++ " (\n  " ++ ",\n  ".intercalate lines ++ "\n)"
  let engine := if engine = "" then defaultEngine else engine
  "\n".intercalate
    ([header, "ENGINE = " ++ engine, "ORDER BY " ++ Identifier.backquoted table.orderingColumn] ++
      (if partitionBy = "" then [] else ["PARTITION BY " ++ partitionBy]) ++
      if assignments = [] then [] else ["SETTINGS " ++ Value.commaSeparated assignments])

/-- A name is quoted between backticks. -/
theorem quoteText_eq_ok {name : String} (h : Identifier.isName name = true) :
    Identifier.quoteText name = .ok (Identifier.backquoted name) :=
  Identifier.quote_eq_ok.2 ⟨h, rfl⟩

/-- The column of a name has a line exactly if its type can be written. -/
theorem columnLine_eq_ok {name line : String} {column : Column}
    (hname : Identifier.isName name = true) :
    columnLine name column = .ok line ↔ IsLine (name, column) line := by
  simp only [columnLine, quoteText_eq_ok hname, bind_eq_ok, pure_eq_ok, Except.ok.injEq,
    exists_eq_left', IsLine, eq_comm (a := line)]

/-- Settings are written one by one, in their order; no settings have no line. -/
theorem settingsLine_eq_ok {settings : Entries} {shown : List String} :
    settingsLine (.map settings) = .ok shown ↔
      ∃ assignments, List.Forall₂ IsAssignment settings assignments ∧
        (if assignments = [] then [] else ["SETTINGS " ++ Value.commaSeparated assignments]) =
          shown := by
  cases settings with
  | nil => simp [settingsLine, Value.isTruthy]
  | cons setting rest =>
      have hstep : settingsLine (.map (setting :: rest)) = (do
          let assignments ← (setting :: rest).mapM fun entry => assignment entry.1 entry.2
          return ["SETTINGS " ++ Value.commaSeparated assignments]) := rfl
      rw [hstep, bind_eq_ok]
      simp only [mapM_eq_ok_iff, pure_eq_ok]
      refine exists_congr fun assignments => and_congr_right fun hassignments => ?_
      have hsome : assignments ≠ [] := by
        rintro rfl
        cases hassignments
      rw [if_neg hsome]

/-- A setting can be written exactly if the whole numbers in it can. -/
theorem exists_assignment_iff {setting : Value × Value} :
    (∃ text, IsAssignment setting text) ↔ SettingHasNumerals setting := by
  obtain ⟨key, value⟩ := setting
  have hvalue : (∃ text, settingText value = .ok text) ↔ value.isDisplayable = true := by
    rw [← Value.exists_displayed_iff]
    cases value with
    | bool flag => exact iff_of_true ⟨_, rfl⟩ ⟨_, rfl⟩
    | text chars => exact iff_of_true ⟨_, rfl⟩ ⟨_, rfl⟩
    | kind known => exact iff_of_true ⟨_, rfl⟩ ⟨_, rfl⟩
    | operator known => exact iff_of_true ⟨_, rfl⟩ ⟨_, rfl⟩
    | _ => exact Iff.rfl
  have hparts : (∃ text, IsAssignment (key, value) text) ↔
      (∃ text, key.displayed = .ok text) ∧ ∃ text, settingText value = .ok text := by
    simp only [IsAssignment, assignment, bind_eq_ok, pure_eq_ok]
    constructor
    · rintro ⟨_, shownKey, hkey, shownValue, hvalue, -⟩
      exact ⟨⟨shownKey, hkey⟩, ⟨shownValue, hvalue⟩⟩
    · rintro ⟨⟨shownKey, hkey⟩, ⟨shownValue, hvalue⟩⟩
      exact ⟨_, shownKey, hkey, shownValue, hvalue, rfl⟩
  rw [hparts, hvalue, Value.exists_displayed_iff, SettingHasNumerals]

/-- A text is displayed as it is. -/
theorem displayed_text (chars : String) : (Value.text chars).displayed = .ok chars :=
  Value.displayed_eq_ok.2 ⟨rfl, rfl⟩

/-- An engine that is given as a text stands as it is, if there is one. -/
theorem engineText_text (engine : String) :
    engineText (.text engine) = .ok (if engine = "" then defaultEngine else engine) := by
  rw [engineText, displayed_text]
  by_cases hempty : engine = "" <;> simp [Value.isTruthy, hempty]

/-- What a table is partitioned by stands as it is, if it is partitioned. -/
theorem partitionLine_text (partitionBy : String) :
    partitionLine (.text partitionBy) =
      .ok (if partitionBy = "" then [] else ["PARTITION BY " ++ partitionBy]) := by
  rw [partitionLine, displayed_text]
  by_cases hempty : partitionBy = "" <;> simp [Value.isTruthy, Except.map, hempty]

section Valid

variable {table : Table} {engine partitionBy : String} {ifNotExists : Bool} {settings : Entries}

/-- A valid table is ordered by one of its columns. -/
theorem Valid.orderingColumn_mem (h : table.Valid) : table.orderingColumn ∈ table.columnNames := by
  unfold orderingColumn
  cases hkey : table.primaryKey? with
  | some key =>
      obtain ⟨entry, hentry, rfl⟩ := Option.map_eq_some_iff.1 hkey
      exact List.mem_map_of_mem (List.mem_of_find?_eq_some hentry)
  | none =>
      obtain ⟨first, rest, hcolumns⟩ := List.exists_cons_of_ne_nil h.nonempty
      simp [columnNames, hcolumns]

/-- The lines of the columns of a valid table stand in the order of the columns. -/
theorem Valid.lines_eq_ok (h : table.Valid) {lines : List String} :
    (table.columns.mapM fun (name, column) => columnLine name column) = .ok lines ↔
      List.Forall₂ IsLine table.columns lines := by
  rw [mapM_eq_ok_iff]
  have hname : ∀ entry ∈ table.columns, Identifier.isName entry.1 = true := fun entry hentry =>
    h.names entry.1 (List.mem_map_of_mem hentry)
  have hnamed : ∀ relation : String × Column → String → Prop,
      List.Forall₂ relation table.columns lines ↔
        List.Forall₂ (fun entry line => Identifier.isName entry.1 = true ∧ relation entry line)
          table.columns lines := by
    intro relation
    rw [List.forall₂_and_left, and_iff_right hname]
  rw [hnamed, hnamed IsLine]
  have hline : ∀ (entry : String × Column) (line : String),
      (Identifier.isName entry.1 = true ∧ columnLine entry.1 entry.2 = .ok line) ↔
        (Identifier.isName entry.1 = true ∧ IsLine entry line) := fun entry line =>
    and_congr_right columnLine_eq_ok
  simp only [hline]

/-- The statement that creates a valid table is put together from the lines of its columns and its
settings. -/
theorem Valid.createText_eq_ok (h : table.Valid) {sql : String} :
    table.createText (unordered engine partitionBy ifNotExists settings) = .ok sql ↔
      ∃ lines, List.Forall₂ IsLine table.columns lines ∧
        ∃ assignments, List.Forall₂ IsAssignment settings assignments ∧
          sql = table.creation engine partitionBy ifNotExists lines assignments := by
  have horder : table.orderText .null = .ok (Identifier.backquoted table.orderingColumn) :=
    quoteText_eq_ok (h.names _ h.orderingColumn_mem)
  have hname := quoteText_eq_ok h.name
  unfold createText unordered
  simp only [hname, horder, engineText_text, partitionLine_text, bind_eq_ok, pure_eq_ok,
    Except.ok.injEq, exists_eq_left', h.lines_eq_ok, settingsLine_eq_ok, exists_exists_and_eq_and]
  exact exists_congr fun lines => and_congr_right fun _ => exists_congr fun assignments =>
    and_congr_right fun _ => eq_comm

/-- A valid table has such a statement exactly if the numbers in the types of its columns and in the
settings can be written. -/
theorem Valid.exists_createText_iff (h : table.Valid) :
    (∃ sql, table.createText (unordered engine partitionBy ifNotExists settings) = .ok sql) ↔
      (∀ entry ∈ table.columns, entry.2.HasNumerals) ∧
        ∀ setting ∈ settings, SettingHasNumerals setting := by
  have hlines : (∃ lines, List.Forall₂ IsLine table.columns lines) ↔
      ∀ entry ∈ table.columns, entry.2.HasNumerals := by
    simp only [← h.lines_eq_ok, exists_mapM_iff]
    refine forall₂_congr fun entry hentry => ?_
    have hname := h.names entry.1 (List.mem_map_of_mem hentry)
    rw [← Column.exists_typeText_iff (h.columns entry hentry)]
    simp only [columnLine_eq_ok hname, IsLine]
    exact ⟨fun ⟨_, type, htype, _⟩ => ⟨type, htype⟩, fun ⟨type, htype⟩ => ⟨_, type, htype, rfl⟩⟩
  have hassignments : (∃ assignments, List.Forall₂ IsAssignment settings assignments) ↔
      ∀ setting ∈ settings, SettingHasNumerals setting := by
    refine (exists_congr fun _ => mapM_eq_ok_iff.symm).trans (exists_mapM_iff.trans ?_)
    exact forall₂_congr fun setting _ => exists_assignment_iff
  rw [← hlines, ← hassignments]
  simp only [h.createText_eq_ok]
  constructor
  · rintro ⟨_, lines, hlines, assignments, hassignments, -⟩
    exact ⟨⟨lines, hlines⟩, ⟨assignments, hassignments⟩⟩
  · rintro ⟨⟨lines, hlines⟩, ⟨assignments, hassignments⟩⟩
    exact ⟨_, lines, hlines, assignments, hassignments, rfl⟩

end Valid

end TypedSql.Table
