import TypedSql.Proofs.Model.Statement
import TypedSql.Proofs.Statement.Capacity
import TypedSql.Proofs.Value.Keyed

/-!
# Insertions of rows

What an insertion is made of: its columns, a placeholder for each row and column, and a parameter
for each placeholder. `bound_insertion_eq_ok_iff` says which insertion is compiled from rows of
values, `read_insertionOf` that its rows can be read back, and `rowsFrom_eq` where its placeholders
stand.
-/

namespace TypedSql.Statement

open TypedSql.Sql TypedSql.Number TypedSql.Outcome

/-- An insertion of rows: the names of its table and its columns, the placeholders of each row, and
the parameters by name. -/
structure Insertion where
  table : String
  columns : List String
  rows : List (List Slot)
  parameters : List (String × Value)

namespace Insertion

/-- The statement of an insertion. -/
def statement (insertion : Insertion) : Bound where
  sql := " ".intercalate ["INSERT INTO " ++ Identifier.backquoted insertion.table,
    "(" ++ Value.commaSeparated (insertion.columns.map Identifier.backquoted) ++ ")",
    "VALUES " ++ Value.commaSeparated (insertion.rows.map Builder.rowText)]
  parameters := insertion.parameters

/-- The rows that an insertion writes: in each column the parameter that the placeholder names. -/
def read (insertion : Insertion) : List (List (String × Option Value)) :=
  insertion.rows.map fun row =>
    insertion.columns.zip (row.map fun slot => insertion.parameters.lookup slot.name)

end Insertion

section Grid

variable {types : List String}

/-- The placeholders of a row, numbered behind those of the rows before it. -/
def gridRow (types : List String) (row : Nat) : List Slot :=
  types.mapIdx fun column type =>
    { name := parameter ((row * types.length + column : Nat) : Int), type }

theorem slotsFrom_eq (index : Nat) (types : List String) :
    slotsFrom index types = types.mapIdx fun column type =>
      { name := parameter ((index + column : Nat) : Int), type } := by
  induction types generalizing index with
  | nil => rfl
  | cons type rest ih =>
      have hnext : (index : Int) + 1 = (index + 1 : Nat) := rfl
      rw [slotsFrom, hnext, ih, List.mapIdx_cons]
      simp only [Nat.add_assoc, Nat.add_comm 1]
      rfl

theorem map_type_slotsFrom (index : Int) (types : List String) :
    (slotsFrom index types).map Slot.type = types := by
  induction types generalizing index with
  | nil => rfl
  | cons type rest ih => rw [slotsFrom, List.map_cons, ih]

/-- The placeholders of rows are numbered by row and column. -/
theorem rowsFrom_eq (types : List String) (count : Nat) :
    rowsFrom types 0 count = (List.range count).map (gridRow types) := by
  have hgrid : ∀ before : Nat, rowsFrom types (before * types.length : Nat) count =
      (List.range count).map fun row => gridRow types (before + row) := by
    induction count with
    | zero => exact fun _ => rfl
    | succ count ih =>
        intro before
        have hnext : ((before * types.length : Nat) : Int) + types.length =
            ((before + 1) * types.length : Nat) := by
          rw [Nat.succ_mul]
          rfl
        rw [rowsFrom, hnext, ih, slotsFrom_eq, List.range_succ_eq_map, List.map_cons, List.map_map]
        refine congrArg₂ _ rfl (List.map_congr_left fun row _ => ?_)
        rw [Function.comp_apply, Nat.succ_add, Nat.add_succ]
  have hzero := hgrid 0
  simpa using hzero

/-- Each placeholder finds its value among as many values under the same numbers. -/
theorem lookup_numbered {values : List Value} (hlength : values.length = types.length)
    (index : Int) :
    (slotsFrom index types).map (fun slot => (numbered index values).lookup slot.name) =
      values.map some := by
  have hnames := map_fst_numbered hlength index
  have hnodup : ((numbered index values).map Prod.fst).Nodup :=
    hnames ▸ nodup_names_slotsFrom index types
  calc (slotsFrom index types).map (fun slot => (numbered index values).lookup slot.name)
      = ((slotsFrom index types).map Slot.name).map fun name =>
          (numbered index values).lookup name := by rw [List.map_map]; rfl
    _ = (numbered index values).map fun entry => (numbered index values).lookup entry.1 := by
        rw [← hnames, List.map_map]; rfl
    _ = (numbered index values).map fun entry => some entry.2 :=
        List.map_congr_left fun _ hentry => Keyed.lookup_of_mem hnodup hentry
    _ = ((numbered index values).map Prod.snd).map some := by rw [List.map_map]; rfl
    _ = values.map some := by rw [map_snd_numbered]

end Grid

section Rows

variable {table : String} {columns types : List String} {rows : List (List Value)}

/-- The insertion of rows of values into columns whose placeholders have some types. -/
def insertionOf (table : String) (columns types : List String) (rows : List (List Value)) :
    Insertion where
  table := table
  columns := columns
  rows := (List.range rows.length).map (gridRow types)
  parameters := numbered 0 rows.flatten

/-- Rows as wide as the columns have a value for each placeholder. -/
theorem length_flatten_rows (hlengths : ∀ items ∈ rows, items.length = types.length) :
    rows.flatten.length = rows.length * types.length := by
  induction rows with
  | nil => simp
  | cons items rest ih =>
      obtain ⟨hitems, hrest⟩ := List.forall_mem_cons.1 hlengths
      rw [List.flatten_cons, List.length_append, ih hrest, hitems, List.length_cons, Nat.succ_mul,
        Nat.add_comm]

/-- The rows of an insertion are read back. -/
theorem read_insertionOf (hlengths : ∀ items ∈ rows, items.length = types.length) :
    (insertionOf table columns types rows).read =
      rows.map fun items => columns.zip (items.map some) := by
  let parameterOf : Slot → Option Value := fun slot =>
    (numbered 0 rows.flatten).lookup slot.name
  have hcount : rows.flatten.length = (List.replicate rows.length types).flatten.length := by
    rw [length_flatten_rows hlengths]
    simp
  have hflatten : ((rowsFrom types 0 rows.length).map (List.map parameterOf)).flatten =
      (rows.map (List.map some)).flatten := by
    rw [← List.map_flatten, ← List.map_flatten, flatten_rowsFrom]
    exact lookup_numbered hcount 0
  have hwidths : ((rowsFrom types 0 rows.length).map (List.map parameterOf)).map List.length =
      (rows.map (List.map some)).map List.length := by
    simp only [rowsFrom_eq, List.map_map]
    refine List.ext_getElem (by simp) fun index hindex hrow => ?_
    simp only [List.length_map, List.length_range] at hindex hrow
    have hitems := hlengths rows[index] (List.getElem_mem _)
    simp [gridRow, hitems]
  -- both sides hold the same values in rows of the same widths
  have hrows : (rowsFrom types 0 rows.length).map (List.map parameterOf) =
      rows.map (List.map some) := List.eq_iff_flatten_eq.2 ⟨hflatten, hwidths⟩
  rw [rowsFrom_eq, List.map_map] at hrows
  calc (insertionOf table columns types rows).read
      = (((List.range rows.length).map (List.map parameterOf ∘ gridRow types)).map
          columns.zip) := by
        rw [Insertion.read, insertionOf, List.map_map, List.map_map]
        rfl
    _ = rows.map fun items => columns.zip (items.map some) := by
        rw [hrows, List.map_map]
        rfl

/-- An insertion into columns of a table, without rows. -/
def insertionInto (table : String) (columns : List String) : Builder where
  verb := some .insert
  table := some (Identifier.backquoted table)
  columns := quotedNames (columns.map .text)

/-- An insertion can be begun with names. -/
theorem runs_insertInto_of_isName (htable : Identifier.isName table = true)
    (hcolumns : ∀ name ∈ columns, Identifier.isName name = true) :
    Runs (Action.insertInto (.text table) (Value.ofNames columns)) {} ()
      (insertionInto table columns) := by
  refine runs_insertInto_iff.2 ⟨htable, columns.map .text, rfl, ?_, rfl⟩
  intro name hname
  obtain ⟨text, htext, rfl⟩ := List.mem_map.1 hname
  exact hcolumns text htext

/-- The builder of an insertion to which some rows are added is built into its statement. -/
theorem exists_build_insertion (hrows : rows ≠ []) :
    ∃ query, Builder.build { insertionInto table columns with
        rows := rowsFrom types 0 rows.length
        bound := rows.flatten } = .ok query ∧
      (insertionOf table columns types rows).statement =
        { sql := query.sql, parameters := numbered 0 query.parameters ++ [] } := by
  obtain ⟨items, rest, rfl⟩ := List.exists_cons_of_ne_nil hrows
  refine ⟨_, rfl, ?_⟩
  simp [insertionOf, Insertion.statement, insertionInto, quotedNames, rowsFrom_eq,
    Function.comp_def, Value.display]

/-- An insertion of some rows as wide as its columns is compiled exactly if all placeholders can be
numbered. -/
theorem bound_insertion_eq_ok_iff (htable : Identifier.isName table = true)
    (hcolumns : ∀ name ∈ columns, Identifier.isName name = true)
    (hnonempty : ∀ type ∈ types, type ≠ "") (hwidth : columns.length = types.length)
    (hlengths : ∀ items ∈ rows, items.length = types.length) (hrows : rows ≠ [])
    {statement : Bound} :
    Model.bound (do
      Action.insertInto (.text table) (Value.ofNames columns)
      Action.values (.list (rows.map .list)) (.list (types.map .text))
      return []) = .ok statement ↔
        rows.length * types.length ≤ mostValues ∧
          statement = (insertionOf table columns types rows).statement := by
  have hinsert := runs_insertInto_of_isName htable hcolumns
  have hcount : (insertionInto table columns).columns.length = types.length := by
    simp [insertionInto, quotedNames, hwidth]
  have hvalues := fun after => @runs_values_iff (insertionInto table columns) after 0 types rows rfl
    hnonempty hcount
  have hfits : (Start.number 0).checkNames rows.flatten.length = .ok () ↔
      rows.length * types.length ≤ mostValues := by
    rw [← length_flatten_rows hlengths]
    exact (@checkNames_natural_iff 0 rows.flatten.length).trans (by omega)
  obtain ⟨query, hquery, hstatement⟩ :=
    @exists_build_insertion table columns types rows hrows
  constructor
  · intro h
    obtain ⟨parameters, builder, known, hruns, hbuild, rfl⟩ := Model.bound_eq_ok.1 h
    obtain ⟨_, _, hbegun, hruns⟩ := Runs.bind_iff.1 hruns
    cases hbegun.symm.trans hinsert
    obtain ⟨_, _, hadded, hruns⟩ := Runs.bind_iff.1 hruns
    obtain ⟨-, hnames, rfl⟩ := (hvalues _).1 hadded
    obtain ⟨rfl, rfl⟩ := Runs.pure_iff.1 hruns
    cases hbuild.symm.trans hquery
    exact ⟨hfits.1 hnames, hstatement.symm⟩
  · rintro ⟨hless, rfl⟩
    have hadded := (hvalues _).2 ⟨hlengths, hfits.2 hless, rfl⟩
    exact Model.bound_eq_ok.2 ⟨[], _, query, Runs.bind_iff.2 ⟨(), _, hinsert,
      Runs.bind_iff.2 ⟨(), _, hadded, Runs.pure_iff.2 ⟨rfl, rfl⟩⟩⟩, hquery, hstatement⟩

end Rows

end TypedSql.Statement
