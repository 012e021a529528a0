import Mathlib.Data.List.TakeWhile
import TypedSql.Proofs.Statement.Rows
import TypedSql.Proofs.Statement.Script
import TypedSql.Proofs.Statement.Selection

/-!
# Statements of scripts

The statement that is built behind the last call of a script. The values that its calls accepted are
numbered through, whatever was refused between them, and the statement shows each of them at its own
placeholder: `numbered_through_refusals`.
-/

namespace TypedSql.Statement

open TypedSql.Sql TypedSql.Number TypedSql.Outcome

section Numbering

variable {start : Start} {index : Int}

/-- Named values with different names are put in one behind the other. -/
theorem foldl_putNamed {known added : List (String × Value)}
    (h : ((known ++ added).map Prod.fst).Nodup) :
    added.foldl Start.putNamed known = known ++ added := by
  induction added generalizing known with
  | nil => simp
  | cons entry rest ih =>
      have hnew : ∀ other ∈ known, other.1 ≠ entry.1 := by
        rw [List.map_append, List.nodup_append] at h
        exact fun other hother => h.2.2 _ (List.mem_map_of_mem hother) _ (by simp)
      have hany : (known.any fun other => other.1 = entry.1) = false := by
        rw [List.any_eq_false]
        simpa using hnew
      have hput : Start.putNamed known entry = known ++ [entry] := by
        rw [Start.putNamed, hany]
        rfl
      rw [List.foldl_cons, hput, ih (by simpa using h), List.append_assoc, List.singleton_append]

/-- The names of numbered values differ. -/
theorem nodup_names_numbered (index : Int) (values : List Value) :
    ((numbered index values).map Prod.fst).Nodup := by
  have hlength : values.length = (List.replicate values.length "").length := by simp
  rw [map_fst_numbered hlength]
  exact nodup_names_slotsFrom index _

/-- Values under names that count from a whole number are numbered. -/
theorem named_eq_numbered (h : start.whole? = some index) (values : List Value) :
    named start values = numbered index values := by
  have hnames : (values.zipIdx.map fun entry => ((start.plus entry.2).parameterName, entry.1)) =
      numbered index values := by
    have hmap := map_zipIdx_eq_numbered index 0 values
    rw [Int.natCast_zero, Int.add_zero] at hmap
    rw [← hmap]
    refine List.map_congr_left fun entry _ => ?_
    cases start <;> cases h <;> rfl
  show start.gather (values.zipIdx.map fun entry =>
    ((start.plus entry.2).parameterName, entry.1)) = _
  rw [hnames]
  cases start with
  | number => rfl
  | flag => exact foldl_putNamed (nodup_names_numbered index values)
  | _ => cases h

end Numbering

/-- An update: the names of its table and its columns, the placeholder of each column, the texts of
its conditions, and the parameters by name. -/
structure Modification where
  table : String
  assignments : List (String × Slot)
  conditions : List String
  parameters : List (String × Value)

namespace Modification

/-- The text of an update up to its conditions. -/
def setPart (modification : Modification) : String :=
  updateHead (Identifier.backquoted modification.table)
    (modification.assignments.map fun entry => (Identifier.backquoted entry.1, entry.2))

/-- The text of an update. -/
def sql (modification : Modification) : String :=
  " ".intercalate (modification.setPart :: Builder.clause "WHERE" " AND " modification.conditions)

/-- What an update assigns: to each column the parameter that the placeholder names. -/
def read (modification : Modification) : List (String × Option Value) :=
  modification.assignments.map fun entry =>
    (entry.1, modification.parameters.lookup entry.2.name)

end Modification

/-- The text of an insertion behind its columns. -/
def Insertion.valuesPart (insertion : Insertion) : String :=
  "VALUES " ++ Value.commaSeparated (insertion.rows.map Builder.rowText)

section Built

variable {start : Start} {index : Int} {query : Query}

/-- An update that is built has assignments and the name of a table; its conditions are texts. -/
theorem build_changed_eq_ok {table : Option String} {assignments : List (String × Slot)}
    {conditions bound : List Value}
    (h : ({ start, verb := some .update, table, assignments, conditions, bound } :
      Builder).build = .ok query) :
    ∃ name texts, table = some name ∧ query.parameters = bound ∧
      query.sql = " ".intercalate
        (updateHead name assignments :: Builder.clause "WHERE" " AND " texts) := by
  obtain ⟨parts, hparts, h⟩ := bind_eq_ok.1 h
  obtain rfl := pure_eq_ok.1 h
  cases assignments with
  | nil => cases hparts
  | cons assignment rest =>
      obtain ⟨name, htable, hparts⟩ := bind_eq_ok.1 hparts
      obtain ⟨tail, htail, hparts⟩ := bind_eq_ok.1 hparts
      obtain ⟨texts, -, htail⟩ := bind_eq_ok.1 htail
      obtain rfl := pure_eq_ok.1 hparts
      cases table with
      | none => cases htable
      | some known =>
          cases htable
          cases htail
          exact ⟨name, texts, rfl, rfl, by simp [Builder.clause, updateHead]⟩

theorem build_inserted_eq_ok {table : Option String} {columns : List String}
    {rows : List (List Slot)} {bound : List Value}
    (h : ({ start, verb := some .insert, table, columns, rows, bound } :
      Builder).build = .ok query) :
    ∃ name, table = some name ∧ query.parameters = bound ∧
      query.sql = " ".intercalate ["INSERT INTO " ++ name,
        "(" ++ Value.commaSeparated columns ++ ")",
        "VALUES " ++ Value.commaSeparated (rows.map Builder.rowText)] := by
  obtain ⟨parts, hparts, h⟩ := bind_eq_ok.1 h
  obtain rfl := pure_eq_ok.1 h
  cases rows with
  | nil => cases hparts
  | cons row rest =>
      obtain ⟨name, htable, hparts⟩ := bind_eq_ok.1 hparts
      obtain rfl := pure_eq_ok.1 hparts
      cases table with
      | none => cases htable
      | some known =>
          cases htable
          exact ⟨name, rfl, rfl, rfl⟩

end Built

section Written

variable {script : Script} {start : Start} {index : Int} {query : Query}

/-- `ShowsBound part slots cells parameters` says that the placeholders of a text are `slots` from
left to right, under the names of the parameters in order, and that they have the types and the
parameters the values of `cells`. -/
structure ShowsBound (part : String) (slots : List Slot) (cells : List Cell)
    (parameters : List (String × Value)) : Prop where
  slots_eq : placeholders part = slots
  names_eq : slots.map Slot.name = parameters.map Prod.fst
  types_eq : slots.map Slot.type = cells.map Cell.type
  values_eq : parameters.map Prod.snd = cells.map Cell.value

/-- `script.Writes start query` says that a statement shows what a script has bound: each assignment
and each cell of a row names the parameter that is its value, and each row has as many placeholders
as there are columns. -/
def Script.Writes (start : Start) (query : Query) (script : Script) : Prop :=
  match script with
  | update _ changes => ∃ written : Modification,
      query.sql = written.sql ∧ written.parameters = query.namedParameters start ∧
      ShowsBound written.setPart (written.assignments.map Prod.snd) script.cells
        written.parameters ∧
      written.read = (changes.flatMap Change.assigned).map fun entry =>
        (entry.1.display, some entry.2.value)
  | insertion table columns batches => ∃ written : Insertion,
      query.sql = written.statement.sql ∧ written.parameters = query.namedParameters start ∧
      ShowsBound written.valuesPart written.rows.flatten script.cells written.parameters ∧
      written.columns = (columnNames table columns).map Value.display ∧
      (∀ row ∈ written.rows, row.length = written.columns.length) ∧
      written.read = (rows table columns batches).map fun row =>
        written.columns.zip (row.map fun cell => some cell.value)

/-- A text that shows numbered placeholders shows the values that are numbered alike. -/
theorem showsBound_slotsFrom {part : String} {cells : List Cell}
    (h : Shows part (slotsFrom index (cells.map Cell.type)))
    (hplain : ∀ cell ∈ cells, IsPlain cell.type) :
    ShowsBound part (slotsFrom index (cells.map Cell.type)) cells
      (numbered index (cells.map Cell.value)) where
  slots_eq := h.placeholders_eq fun slot hslot =>
    isReadable_of_mem_slotsFrom (by simpa using fun cell hcell => (hplain cell hcell).2) hslot
  names_eq := (map_fst_numbered (by simp) index).symm
  types_eq := map_type_slotsFrom index _
  values_eq := map_snd_numbered index _

theorem isPlain_of_mem_assigned {change : Change} (h : change.IsProper) {entry : Value × Cell}
    (hentry : entry ∈ change.assigned) : IsPlain entry.2.type := by
  cases change with
  | condition => cases hentry
  | set entries types =>
      obtain ⟨known, -, rfl⟩ := List.mem_map.1 hentry
      exact isPlain_shownType (isTypeName_typeFor h known.1) known.2

theorem isPlain_of_mem_accepted {batch : Batch} {width : Nat} (h : batch.IsProper width)
    {row : List Cell} (hrow : row ∈ batch.accepted width) {cell : Cell} (hcell : cell ∈ row) :
    IsPlain cell.type := by
  obtain ⟨items, -, rfl⟩ := List.mem_map.1 hrow
  obtain ⟨entry, -, rfl⟩ := List.mem_map.1 hcell
  exact isPlain_shownType (isTypeName_typeFrom h.types entry.2) entry.1

/-- The types of what a script binds have no braces. -/
theorem isPlain_of_mem_cells (h : script.IsProper) {cell : Cell} (hcell : cell ∈ script.cells) :
    IsPlain cell.type := by
  cases script with
  | update table changes =>
      obtain ⟨entry, hentry, rfl⟩ := List.mem_map.1 hcell
      obtain ⟨change, hchange, hentry⟩ := List.mem_flatMap.1 hentry
      exact isPlain_of_mem_assigned (h change hchange) hentry
  | insertion table columns batches =>
      obtain ⟨row, hrow, hcell⟩ := List.mem_flatten.1 hcell
      obtain ⟨batch, hbatch, hrow⟩ := List.mem_flatMap.1 hrow
      exact isPlain_of_mem_accepted (h.2 batch hbatch) hrow hcell

/-- Rows that are accepted have the width of the statement. -/
theorem length_of_mem_rows {table columns : Value} {batches : List Batch} {row : List Cell}
    (hrow : row ∈ Script.rows table columns batches) :
    row.length = (Script.columnNames table columns).length := by
  obtain ⟨batch, -, hrow⟩ := List.mem_flatMap.1 hrow
  obtain ⟨items, hitems, rfl⟩ := List.mem_map.1 hrow
  rw [length_cellsFrom]
  simpa using List.mem_takeWhile_imp hitems

theorem tableOf?_eq_some {table : Value} {name : String} (h : tableOf? table = some name) :
    Identifier.isNameValue table = true ∧ name = Identifier.backquoted table.display := by
  unfold tableOf? at h
  split at h
  · next hname =>
      cases h
      exact ⟨hname, rfl⟩
  · cases h

/-- The columns that are assigned have names. -/
theorem isNameValue_of_mem_assigned {change : Change} {entry : Value × Cell}
    (hentry : entry ∈ change.assigned) : Identifier.isNameValue entry.1 = true := by
  cases change with
  | condition => cases hentry
  | set entries types =>
      obtain ⟨known, hknown, rfl⟩ := List.mem_map.1 hentry
      exact List.mem_takeWhile_imp
        (p := fun entry : Value × Value => Identifier.isNameValue entry.1) hknown

/-- The values of rows are found under the names of their placeholders. -/
theorem map_lookup_gridFrom (rows : List (List Cell)) :
    ((gridFrom index rows).map (List.map fun slot =>
        (numbered index (rows.flatten.map Cell.value)).lookup slot.name)) =
      rows.map (List.map fun cell => some cell.value) := by
  have hlength : (rows.flatten.map Cell.value).length = (rows.flatten.map Cell.type).length := by
    rw [List.length_map, List.length_map]
  have hlookup := lookup_numbered hlength index
  -- both sides hold the same values in rows of the same widths
  refine List.eq_iff_flatten_eq.2 ⟨?_, ?_⟩
  · rw [← List.map_flatten, ← List.map_flatten, flatten_gridFrom, hlookup, List.map_map]
    rfl
  · have hwidths := map_length_gridFrom index rows
    simp only [List.map_map, Function.comp_def, List.length_map] at hwidths ⊢
    exact hwidths

section Changed

variable {table : Value} {assigned : List (Value × Cell)} {conditions : List String}

/-- The update that assigns values, numbered from an index, under conditions. -/
def changed (table : Value) (index : Int) (assigned : List (Value × Cell))
    (conditions : List String) : Modification where
  table := table.display
  assignments := (assigned.map fun entry => entry.1.display).zip
    (slotsFrom index ((assigned.map Prod.snd).map Cell.type))
  conditions := conditions
  parameters := numbered index ((assigned.map Prod.snd).map Cell.value)

theorem setPart_changed :
    (changed table index assigned conditions).setPart =
      updateHead (Identifier.backquoted table.display) ((quotedNames (assigned.map Prod.fst)).zip
        (slotsFrom index ((assigned.map Prod.snd).map Cell.type))) := by
  have hnames : quotedNames (assigned.map Prod.fst) =
      (assigned.map fun entry => entry.1.display).map Identifier.backquoted := by
    rw [quotedNames, List.map_map, List.map_map]
    rfl
  rw [Modification.setPart, hnames, List.zip_map_left]
  rfl

theorem slots_changed :
    (changed table index assigned conditions).assignments.map Prod.snd =
      slotsFrom index ((assigned.map Prod.snd).map Cell.type) :=
  List.map_snd_zip (by simp [length_slotsFrom])

/-- Assigned values are found under the names of their placeholders. -/
theorem read_changed :
    (changed table index assigned conditions).read =
      assigned.map fun entry => (entry.1.display, some entry.2.value) := by
  have hlength : ((assigned.map Prod.snd).map Cell.value).length =
      ((assigned.map Prod.snd).map Cell.type).length := by simp
  have hlookup := lookup_numbered hlength index
  calc (changed table index assigned conditions).read
      = (assigned.map fun entry => entry.1.display).zip
          ((slotsFrom index ((assigned.map Prod.snd).map Cell.type)).map fun slot =>
            (numbered index ((assigned.map Prod.snd).map Cell.value)).lookup slot.name) := by
        rw [List.zip_map_right]
        rfl
    _ = assigned.map fun entry => (entry.1.display, some entry.2.value) := by
        rw [hlookup, List.map_map, List.map_map, List.zip_map']
        rfl

end Changed

/-- An update shows what its calls have bound. -/
theorem writes_update {table : Value} {changes : List Change}
    (hstart : start.whole? = some index) (hproper : (Script.update table changes).IsProper)
    (h : ((Script.update table changes).ended start index).build = .ok query) :
    (Script.update table changes).Writes start query := by
  obtain ⟨name, texts, hname, hparameters, hsql⟩ := build_changed_eq_ok h
  obtain ⟨htable, rfl⟩ := tableOf?_eq_some hname
  have hnames : ∀ name ∈ quotedNames ((changes.flatMap Change.assigned).map Prod.fst),
      IsPlain name := by
    refine fun _ => isPlain_of_mem_quotedNames fun name hname => ?_
    obtain ⟨entry, hentry, rfl⟩ := List.mem_map.1 hname
    obtain ⟨change, -, hentry⟩ := List.mem_flatMap.1 hentry
    exact isNameValue_of_mem_assigned hentry
  have hlength : (quotedNames ((changes.flatMap Change.assigned).map Prod.fst)).length =
      (slotsFrom index ((Script.update table changes).cells.map Cell.type)).length := by
    simp [quotedNames, length_slotsFrom, Script.cells]
  have hshows := shows_updateHead (isPlain_backquoted htable) hnames hlength
  refine ⟨changed table index (changes.flatMap Change.assigned) texts, ?_, ?_, ?_, read_changed⟩
  · rw [hsql, Modification.sql, setPart_changed]
    rfl
  · rw [Query.namedParameters, named_eq_numbered hstart, hparameters]
    rfl
  · rw [setPart_changed, slots_changed]
    exact showsBound_slotsFrom hshows fun cell hcell => isPlain_of_mem_cells hproper hcell

/-- An insertion shows what its calls have bound. -/
theorem writes_insertion {table columns : Value} {batches : List Batch}
    (hstart : start.whole? = some index)
    (hproper : (Script.insertion table columns batches).IsProper)
    (h : ((Script.insertion table columns batches).ended start index).build = .ok query) :
    (Script.insertion table columns batches).Writes start query := by
  obtain ⟨name, hname, hparameters, hsql⟩ := build_inserted_eq_ok h
  obtain ⟨-, rfl⟩ := tableOf?_eq_some hname
  let rows := Script.rows table columns batches
  let written : Insertion :=
    { table := table.display
      columns := (Script.columnNames table columns).map Value.display
      rows := gridFrom index rows
      parameters := numbered index (rows.flatten.map Cell.value) }
  have hshows : Shows written.valuesPart (gridFrom index rows).flatten :=
    (Shows.plain (show IsPlain "VALUES " by decide)).append
      ((showsEach_rows (gridFrom index rows)).intercalate (by decide))
  rw [flatten_gridFrom] at hshows
  refine ⟨written, ?_, ?_, ?_, rfl, ?_, ?_⟩
  · have hcolumns : (Script.columnNames table columns).map (fun name =>
        Identifier.backquoted name.display) = written.columns.map Identifier.backquoted := by
      rw [List.map_map]
      rfl
    rw [hsql, Insertion.statement, ← hcolumns]
    rfl
  · rw [Query.namedParameters, named_eq_numbered hstart, hparameters]
    rfl
  · rw [show written.rows.flatten = _ from flatten_gridFrom index rows]
    exact showsBound_slotsFrom hshows fun cell hcell => isPlain_of_mem_cells hproper hcell
  · intro row hrow
    have hwidth : row.length ∈ rows.map List.length := by
      rw [← map_length_gridFrom index rows]
      exact List.mem_map_of_mem hrow
    obtain ⟨cells, hcells, hlength⟩ := List.mem_map.1 hwidth
    rw [← hlength, length_of_mem_rows hcells, List.length_map]
  · have hread := congrArg (List.map written.columns.zip) (@map_lookup_gridFrom index rows)
    rwa [List.map_map, List.map_map] at hread

end Written

/-- A script numbers through refused calls: it can be run if the parameters of all values that its
calls accept have names, it binds just these values, the next parameter is as far behind the start
as values are bound, and the statement that is built from it shows each value where it belongs. -/
theorem numbered_through_refusals {script : Script} {start : Start} {index : Int}
    (hstart : start.whole? = some index) (hproper : script.IsProper) :
    ((∃ builder, TriedEach script.actions { start } builder) ↔
        (Start.number index).checkNames script.cells.length = .ok ()) ∧
      ∀ builder, TriedEach script.actions { start } builder →
        builder.bound = script.cells.map Cell.value ∧
        builder.next = .number (index + builder.bound.length) ∧
        ∀ query, builder.build = .ok query → script.Writes start query := by
  have hrun := fun builder => @triedEach_script_iff script start index builder hstart hproper
  refine ⟨?_, fun builder h => ?_⟩
  · simp only [hrun]
    exact ⟨fun ⟨_, hnames, _⟩ => hnames, fun hnames => ⟨_, hnames, rfl⟩⟩
  · obtain ⟨-, rfl⟩ := (hrun builder).1 h
    refine ⟨?_, next_ended hstart, fun query hbuild => ?_⟩
    · cases script <;> rfl
    · cases script with
      | update => exact writes_update hstart hproper hbuild
      | insertion => exact writes_insertion hstart hproper hbuild

/-- An update whose first assignments are refused at their second name. -/
def interrupted : Script :=
  .update (.text "t") [
    .set [(.text "a", .int 1), (.text "b c", .int 2), (.text "d", .int 3)] .null,
    .condition (.text "x"),
    .set [(.text "e", .text "v")] (.map [(.text "e", .text "String")])]

theorem isProper_interrupted : interrupted.IsProper := by
  intro change hchange
  simp only [List.mem_cons, List.not_mem_nil, or_false] at hchange
  rcases hchange with rfl | rfl | rfl
  · intro h
    cases h
  · trivial
  · refine fun _ => ⟨_, rfl, fun entry hentry _ => ?_⟩
    rw [List.mem_singleton.1 hentry]
    exact ⟨"String", rfl, by decide⟩

/-- The value in front of the refused name is kept; the next assignment is numbered behind it. -/
theorem numbered_through_refusals_interrupted :
    (Start.number 5).whole? = some 5 ∧ interrupted.IsProper ∧ ∃ builder query,
      TriedEach interrupted.actions { start := .number 5 } builder ∧
      builder.bound = [.int 1, .text "v"] ∧ builder.next = .number 7 ∧
      builder.build = .ok query ∧
      query.sql = "UPDATE \x60t\x60 SET \x60a\x60 = \x7bparam5:Int32\x7d, " ++
        "\x60e\x60 = \x7bparam6:String\x7d WHERE x" ∧
      interrupted.Writes (.number 5) query := by
  have hstart : (Start.number 5).whole? = some 5 := rfl
  have hnames : (Start.number 5).checkNames interrupted.cells.length = .ok () :=
    checkNames_natural_iff.2 (.inr (le_mostValues (by decide)))
  have hall := numbered_through_refusals hstart isProper_interrupted
  obtain ⟨builder, hrun⟩ := hall.1.2 hnames
  obtain ⟨hbound, hnext, hwrites⟩ := hall.2 builder hrun
  obtain ⟨-, rfl⟩ := (triedEach_script_iff hstart isProper_interrupted).1 hrun
  refine ⟨hstart, isProper_interrupted, _, _, hrun, hbound, hnext, rfl, ?_, hwrites _ rfl⟩
  decide +kernel

end TypedSql.Statement
