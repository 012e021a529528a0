import TypedSql.Coercion
import TypedSql.Condition.Clause
import TypedSql.Statement.Query
import TypedSql.Table.Ddl
import TypedSql.Table.Record

/-!
# Query states

What a chain of calls on a model has gathered: conditions, selected fields, ordering, limits and
grouping. Every call checks its fields against the table and gives a new model; `reset` forgets
everything that was gathered. `change` replaces parts of a state by values, of which it checks the
shape alone. A call that goes on from a state copies it with everything in it, so that two models
never share a condition; what cannot be copied cannot be gathered.
-/

namespace TypedSql

/-- Which values can be copied with everything in them. Plain values and containers can; an object
of a caller inside of a condition decides for itself. -/
class Copying where
  copies : Value → Bool

/-- How a model is tied to a database: the name of the database, the engine of new tables, and
whether statements are logged. -/
structure Settings where
  database : Option String := none
  engine : String := Table.defaultEngine
  logStatements : Bool := true
deriving DecidableEq, Repr

/-- Everything that a chain of calls has gathered. -/
structure QueryState where
  conditions : List Value := []
  selected : Option (List String) := none
  ordering : List (String × String) := []
  limit : Option Int := none
  offset : Option Int := none
  grouping : Option (List String) := none

/-- A list of names as a value. -/
def Value.ofNames (names : List String) : Value := .list (names.map .text)

namespace QueryState

/-- The parts of a state as named values. -/
def entries (state : QueryState) : List (String × Value) :=
  [("where_conditions", .list state.conditions),
    ("select_fields", .ofOption Value.ofNames state.selected),
    ("order_by_fields", .list (state.ordering.map fun (field, direction) =>
      .tuple [.text field, .text direction])),
    ("limit_value", .ofOption .int state.limit),
    ("offset_value", .ofOption .int state.offset),
    ("group_by_fields", .ofOption Value.ofNames state.grouping)]

/-- Whether two states have gathered the same. -/
def same (left right : QueryState) : Bool :=
  Value.sameItems .shared (left.entries.map Prod.snd) (right.entries.map Prod.snd)

/-- A copy of a state. Only conditions may hold what cannot be copied. -/
def copy [Copying] (state : QueryState) : Except Fault QueryState :=
  if state.conditions.all Copying.copies then .ok state else .error (.breach .badType)

open Coercion

/-- The fields of an ordering, each with its direction. -/
def orderings [Coercion] (value : Value) : Except String (List (String × String)) := do
  (← items value).mapM fun item => do
    match ← texts item with
    | [field, direction] => return (field, direction)
    | _ => throw "Expected a field and a direction"

/-- A number of rows; null is none. -/
def count [Coercion] (value : Value) : Except String (Option Int) := do
  match ← dimension value with
  | .null => return none
  | .int number => return some number
  | _ => throw "Expected a number of rows"

/-- The part that a change names, or else the part there is. -/
def part {α : Type} (changes : Entries) (name : String) (read : Value → Except String α)
    (present : α) : Except Fault α :=
  match Keyed.get? changes (.text name) with
  | some value => (read value).mapError fun _ => .breach .rejectedArgument
  | none => .ok present

/-- A state with changed parts; names of no part are passed over. -/
def change [Coercion] [Copying] (state : QueryState) (changes : Entries) :
    Except Fault QueryState := do
  let state ← state.copy
  if !changes.all fun entry => Copying.copies entry.2 then throw (.breach .badType)
  return {
    conditions := ← part changes "where_conditions" items state.conditions
    selected := ← part changes "select_fields" (optional texts) state.selected
    ordering := ← part changes "order_by_fields" orderings state.ordering
    limit := ← part changes "limit_value" count state.limit
    offset := ← part changes "offset_value" count state.offset
    grouping := ← part changes "group_by_fields" (optional texts) state.grouping }

end QueryState

/-- A table with a query state; without settings it can compile statements but not run them. -/
structure Model where
  table : Table
  settings : Option Settings := none
  state : QueryState := {}

namespace Model

/-- The name of a model. -/
def name (model : Model) : String := model.table.name

/-- The number that an option of a query gives; null gives none. -/
def optionCount (option : QueryOption) (least : Int) (value : Value) : Except Fault (Option Int) :=
  match value with
  | .null => .ok none
  | .int number =>
    if least ≤ number then .ok (some number) else .error (.queryOptionInvalid option value)
  | _ => .error (.queryOptionInvalid option value)

/-- Checks the options of a query. -/
def checkOptions (limit offset timeout : Value) : Except Fault Unit := do
  let _ ← optionCount .limit 0 limit
  let _ ← optionCount .offset 0 offset
  let _ ← optionCount .timeout 1 timeout

/-- The name of a column that a field names. -/
def field (model : Model) (name : Value) : Except Fault String := do
  if ← model.table.hasColumn name then return name.asText?.getD ""
  else throw (.fieldUnknown model.name name)

/-- The model with a change made to a copy of its state; what is new in it is copied too. -/
def withState [Copying] (model : Model) (change : QueryState → QueryState) :
    Except Fault Model := do
  let state ← model.state.copy
  return { model with state := ← (change state).copy }

/-- The model with changed parts of its state. -/
def change [Coercion] [Copying] (model : Model) (changes : Entries) : Except Fault Model := do
  return { model with state := ← model.state.change changes }

/-- The conditions that a call adds: a condition that is not null, and the named values if any. -/
def newConditions (condition : Value) (named : Entries) : Except Fault (List Value) := do
  if !condition.isNull then Condition.checkKeys condition
  if !named.isEmpty then Condition.checkKeys (.map named)
  return (if condition.isNull then [] else [condition]) ++
    (if named.isEmpty then [] else [.map named])

/-- Adds a condition, and equalities with named values. -/
def filter [Copying] (model : Model) (condition : Value) (named : Entries) :
    Except Fault Model := do
  let added ← newConditions condition named
  model.withState fun state => { state with conditions := state.conditions ++ added }

/-- Selects fields; without any, all are selected. -/
def select [Copying] (model : Model) (fields : List Value) : Except Fault Model := do
  let names ← fields.mapM model.field
  let selected := if names.isEmpty then none else some names
  model.withState fun state => { state with selected }

/-- Adds a field to the ordering. -/
def orderBy [Copying] (model : Model) (field direction : Value) : Except Fault Model := do
  let direction ← Statement.Action.checkDirection direction
  let name ← model.field field
  model.withState fun state =>
    { state with ordering := state.ordering ++ [(name, direction)] }

/-- Sets how many rows are wanted. -/
def limit [Copying] (model : Model) (count : Value) : Except Fault Model := do
  let limit ← optionCount .limit 0 count
  model.withState fun state => { state with limit }

/-- Sets how many rows are skipped. -/
def offset [Copying] (model : Model) (count : Value) : Except Fault Model := do
  let offset ← optionCount .offset 0 count
  model.withState fun state => { state with offset }

/-- Sets the fields that rows are grouped by. -/
def groupBy [Copying] (model : Model) (fields : List Value) : Except Fault Model := do
  let names ← fields.mapM model.field
  model.withState fun state => { state with grouping := some names }

/-- The model with nothing gathered. -/
def reset (model : Model) : Model := { model with state := {} }

end Model

end TypedSql
