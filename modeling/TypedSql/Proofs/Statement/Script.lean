import TypedSql.Proofs.Statement.Acceptance

/-!
# Scripts of calls

A script is an update with its assignments and conditions, or an insertion with its rows, in calls
that may be refused one by one. A refused call keeps what it accepted, and the script goes on:
`triedEach_script_iff` says when a script can be run to its end and which builder it ends with.
-/

namespace TypedSql

/-- The whole number that a start is; a flag counts as one. -/
def Sql.Start.whole? : Sql.Start → Option Int
  | .number index => some index
  | .flag index => some index.toInt
  | _ => none

namespace Statement

open TypedSql.Sql TypedSql.Number

/-- `TriedEach actions before after` says that actions that are tried one after the other take a
builder `before` to a builder `after`. -/
def TriedEach : List (Action Unit) → Builder → Builder → Prop
  | [], before, after => before = after
  | action :: rest, before, after => ∃ between, Tried action before between ∧
      TriedEach rest between after

section Begin

variable {before after : Builder} {table columns : Value}

/-- The table with a name, if it is one. -/
def tableOf? (table : Value) : Option String :=
  if Identifier.isNameValue table then some (Identifier.backquoted table.display) else none

/-- The columns that an insertion names, if its table and all of them have names. -/
def columnsOf (table : Value) (names : List Value) : List Value :=
  if Identifier.isNameValue table && names.all Identifier.isNameValue then names else []

theorem tried_update_iff (hbefore : before.table = none) :
    Tried (Action.update table) before after ↔
      after = { before with verb := some .update, table := tableOf? table } := by
  unfold Action.update Action.setVerb
  simp only [Tried.bind_iff, not_refuses_modify, Runs.modify_iff, false_or, exists_const,
    exists_eq_left', tried_setTable_iff, tableOf?, hbefore]

/-- An insertion keeps what it has set when it is refused: its verb, and its table if that has a
name. -/
theorem tried_insertInto_iff {names : List Value} (hbefore : before.table = none)
    (hcolumns : before.columns = []) (hnames : columns.elements? = some names) :
    Tried (Action.insertInto table columns) before after ↔
      after = { before with
        verb := some .insert
        table := tableOf? table
        columns := quotedNames (columnsOf table names) } := by
  have helements : Action.elements columns = pure names := by simp [Action.elements, hnames]
  unfold Action.insertInto Action.setVerb Action.setTable
  rw [helements]
  simp only [Tried.bind_iff, not_refuses_modify, Runs.modify_iff, false_or, exists_const,
    exists_eq_left', tableOf?, columnsOf, Refuses.bind_iff, Runs.bind_iff, Runs.pure_iff,
    refuses_quote_iff, runs_quote_iff, not_refuses_pure, refuses_quotes_iff, runs_quotes_iff,
    Tried.modify_iff, or_false, and_false, exists_false]
  rw [eq_comm (a := after)]
  cases htable : Identifier.isNameValue table with
  | false => simp [hbefore, hcolumns, quotedNames]
  | true =>
      cases hall : names.all Identifier.isNameValue with
      | false => simp [hall, hcolumns, quotedNames]
      | true => simp [hall, quotedNames]

end Begin

section Changes

variable {before after : Builder} {index : Int}

/-- A call on an update: values of a map to assign, or a condition. -/
inductive Change where
  | set (entries : Entries) (types : Value)
  | condition (sql : Value)

namespace Change

def action : Change → Action Unit
  | set entries types => Action.set (.map entries) types
  | condition sql => Action.condition sql

/-- Whether the types of a call are left out or given by name. -/
def IsProper : Change → Prop
  | set _ types => TypesByName types
  | condition _ => True

/-- The values that a call assigns. -/
def assigned : Change → List (Value × Cell)
  | set entries types => assignedOf types entries
  | condition _ => []

/-- The conditions that a call adds. -/
def conditions : Change → List Value
  | set _ _ => []
  | condition sql => if sql.isTruthy then [sql] else []

end Change

/-- Conditions that are added behind others. -/
def Builder.require (builder : Builder) (conditions : List Value) : Builder :=
  { builder with conditions := builder.conditions ++ conditions }

theorem tried_change_iff {change : Change} (hnext : before.next = .number index)
    (h : change.IsProper) :
    Tried change.action before after ↔
      (Start.number index).checkNames change.assigned.length = .ok () ∧
        after = (before.assign index change.assigned).require change.conditions := by
  cases change with
  | set entries types =>
      have hrequire : ∀ builder : Builder, builder.require [] = builder := by
        simp [Builder.require]
      rw [Change.conditions, hrequire]
      exact tried_set_iff hnext h
  | condition sql =>
      rw [Change.action, Action.condition, Change.assigned, assign_nil, Change.conditions]
      refine Iff.trans ?_ (and_iff_right rfl).symm
      split
      · exact Tried.modify_iff.trans eq_comm
      · rw [Tried.pure_iff, Builder.require, List.append_nil]
        exact eq_comm

/-- Calls on an update assign what each of them accepts, numbered from call to call. -/
theorem triedEach_changes_iff {changes : List Change} (hnext : before.next = .number index)
    (h : ∀ change ∈ changes, change.IsProper) :
    TriedEach (changes.map Change.action) before after ↔
      (Start.number index).checkNames (changes.flatMap Change.assigned).length = .ok () ∧
        after = (before.assign index (changes.flatMap Change.assigned)).require
          (changes.flatMap Change.conditions) := by
  induction changes generalizing before index with
  | nil =>
      simp only [List.flatMap_nil, assign_nil, Builder.require, List.append_nil]
      exact eq_comm.trans (and_iff_right rfl).symm
  | cons change rest ih =>
      obtain ⟨hchange, hrest⟩ := List.forall_mem_cons.1 h
      have hnextChange : ((before.assign index change.assigned).require change.conditions).next =
          .number (index + change.assigned.length) := next_assign hnext
      have hboth : ((before.assign index change.assigned).require change.conditions).assign
          (index + change.assigned.length) (rest.flatMap Change.assigned) =
          (before.assign index ((change :: rest).flatMap Change.assigned)).require
            change.conditions := by
        rw [List.flatMap_cons, ← assign_assign]
        rfl
      have hconditions : ∀ builder : Builder, (builder.require change.conditions).require
          (rest.flatMap Change.conditions) =
          builder.require ((change :: rest).flatMap Change.conditions) := by
        simp [Builder.require]
      simp only [List.map_cons, TriedEach, tried_change_iff hnext hchange]
      rw [List.flatMap_cons, List.length_append, checkNames_add_iff, ← hconditions,
        ← List.flatMap_cons, ← hboth, and_assoc, ← ih hnextChange hrest]
      constructor
      · rintro ⟨_, ⟨hnames, rfl⟩, hothers⟩
        exact ⟨hnames, hothers⟩
      · rintro ⟨hnames, hothers⟩
        exact ⟨_, ⟨hnames, rfl⟩, hothers⟩

end Changes

section Batches

variable {before after : Builder} {index : Int}

/-- A call on an insertion: rows to add, with the types of their placeholders. -/
structure Batch where
  rows : Value
  types : Value

namespace Batch

def action (batch : Batch) : Action Unit := Action.values batch.rows batch.types

/-- Whether a call gives containers as rows, and types that are left out or enough for a width. -/
structure IsProper (batch : Batch) (width : Nat) : Prop where
  rows : ∃ rows, batch.rows.elements? = some rows ∧
    ∀ row ∈ rows, ∃ items, row.contents? = some items
  types : TypesByPosition batch.types width

/-- The rows that a call adds to a statement with columns. -/
def accepted (width : Nat) (batch : Batch) : List (List Cell) :=
  rowsOf batch.types width (batch.rows.elements?.getD [])

end Batch

/-- Calls on an insertion add the rows that each of them accepts, numbered from call to call. -/
theorem triedEach_batches_iff {batches : List Batch} {width : Nat}
    (hnext : before.next = .number index) (hwidth : before.columns.length = width)
    (h : ∀ batch ∈ batches, batch.IsProper width) :
    TriedEach (batches.map Batch.action) before after ↔
      (Start.number index).checkNames (batches.flatMap (Batch.accepted width)).flatten.length =
          .ok () ∧
        after = before.addRows index (batches.flatMap (Batch.accepted width)) := by
  subst hwidth
  induction batches generalizing before index with
  | nil =>
      simp only [List.flatMap_nil, addRows_nil]
      exact eq_comm.trans (and_iff_right rfl).symm
  | cons batch rest ih =>
      obtain ⟨⟨⟨rows, hrows, hitems⟩, htypes⟩, hrest⟩ := List.forall_mem_cons.1 h
      have haccepted : batch.accepted before.columns.length =
          rowsOf batch.types before.columns.length rows := by simp [Batch.accepted, hrows]
      have hbatch (between : Builder) : Tried batch.action before between ↔ _ :=
        haccepted ▸ tried_values_iff hnext htypes hrows hitems
      have hothers := @ih (before.addRows index (batch.accepted before.columns.length)) _
        (next_addRows hnext) hrest
      simp only [List.map_cons, TriedEach, hbatch]
      rw [List.flatMap_cons, List.flatten_append, List.length_append, checkNames_add_iff,
        ← addRows_addRows, and_assoc]
      constructor
      · rintro ⟨_, ⟨hnames, rfl⟩, hrun⟩
        exact ⟨hnames, hothers.1 hrun⟩
      · rintro ⟨hnames, hrun⟩
        exact ⟨_, ⟨hnames, rfl⟩, hothers.2 hrun⟩

end Batches

/-- The calls on one builder: an update with its changes, or an insertion with its batches. -/
inductive Script where
  | update (table : Value) (changes : List Change)
  | insertion (table columns : Value) (batches : List Batch)

namespace Script

/-- The calls of a script, from the first to the last. -/
def actions : Script → List (Action Unit)
  | update table changes => Action.update table :: changes.map Change.action
  | insertion table columns batches =>
    Action.insertInto table columns :: batches.map Batch.action

/-- The columns that an insertion has: none if it is refused. -/
def columnNames (table columns : Value) : List Value :=
  columnsOf table (columns.elements?.getD [])

/-- Whether the calls of a script are given what they are made for: columns and rows that can be
walked over, and types that are left out or enough type names. -/
def IsProper : Script → Prop
  | update _ changes => ∀ change ∈ changes, change.IsProper
  | insertion table columns batches => (∃ names, columns.elements? = some names) ∧
      ∀ batch ∈ batches, batch.IsProper (columnNames table columns).length

/-- The rows that an insertion adds. -/
def rows (table columns : Value) (batches : List Batch) : List (List Cell) :=
  batches.flatMap (Batch.accepted (columnNames table columns).length)

/-- The values that a script binds. -/
def cells : Script → List Cell
  | update _ changes => (changes.flatMap Change.assigned).map Prod.snd
  | insertion table columns batches => (rows table columns batches).flatten

/-- The builder behind the first call of a script. -/
def begun (start : Start) : Script → Builder
  | update table _ => { start, verb := some .update, table := tableOf? table }
  | insertion table columns _ =>
    let columns := quotedNames (columnNames table columns)
    { start, verb := some .insert, table := tableOf? table, columns }

/-- The builder behind the last call of a script. -/
def ended (start : Start) (index : Int) (script : Script) : Builder :=
  match script with
  | update _ changes =>
      ((script.begun start).assign index (changes.flatMap Change.assigned)).require
      (changes.flatMap Change.conditions)
  | insertion table columns batches =>
    (script.begun start).addRows index (rows table columns batches)

end Script

section Run

variable {script : Script} {start : Start} {index : Int} {builder : Builder}

theorem next_begun (h : start.whole? = some index) :
    (script.begun start).next = .number index := by
  cases script <;> cases start <;> cases h <;>
    simp [Script.begun, Builder.next, Start.plus]

/-- The next parameter is as far behind the start as values are bound. -/
theorem next_ended (h : start.whole? = some index) :
    (script.ended start index).next =
      .number (index + (script.ended start index).bound.length) := by
  have hbegun : (script.begun start).bound.length = 0 := by cases script <;> rfl
  refine next_behind (@next_begun script _ _ h) (by cases script <;> rfl) ?_
  rw [hbegun, Nat.zero_add]

/-- A script that is run to its end has bound what its calls accept. It can be run if the parameters
of all these values have names. -/
theorem triedEach_script_iff (hstart : start.whole? = some index) (hproper : script.IsProper) :
    TriedEach script.actions { start } builder ↔
      (Start.number index).checkNames script.cells.length = .ok () ∧
        builder = script.ended start index := by
  have hnext := @next_begun script _ _ hstart
  cases script with
  | update table changes =>
      have hrun := @triedEach_changes_iff _ builder _ _ hnext hproper
      simp only [Script.actions, TriedEach, tried_update_iff, exists_eq_left]
      rw [Script.cells, List.length_map]
      exact hrun
  | insertion table columns batches =>
      obtain ⟨⟨names, hnames⟩, hbatches⟩ := hproper
      have hcolumns : columnsOf table names = Script.columnNames table columns := by
        simp [Script.columnNames, hnames]
      have hrun := @triedEach_batches_iff _ builder _ _ _ hnext
        (by simp [Script.begun, quotedNames]) hbatches
      have hbegin := fun between =>
        @tried_insertInto_iff { start } between table columns names rfl rfl
        hnames
      simp only [Script.actions, TriedEach, hbegin, hcolumns, exists_eq_left]
      exact hrun

end Run

end Statement

end TypedSql
