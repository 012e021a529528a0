import TypedSql.Identifier
import TypedSql.Sql.Piece
import TypedSql.Value.Upper
import TypedSql.Value.Whole

/-!
# Statements under construction

A builder collects the parts of one statement and the values bound in it. An action on a builder may
fail; what it did before it failed stays done. `next` is the number of the next placeholder: the
start and one for each bound value. Fragments are kept as they are given: one that is no text fails
only when the statement is written.
-/

namespace TypedSql.Statement

open TypedSql.Sql

/-- What a statement does. -/
inductive Verb where
  | select | insert | update | delete
deriving DecidableEq, Repr

/-- A placeholder in a statement, for a parameter with a name. -/
structure Slot where
  name : String
  type : String
deriving DecidableEq, Repr

/-- The text of a placeholder. -/
def Slot.render (slot : Slot) : String := placeholderOf slot.name slot.type

/-- A statement under construction. Names of tables and columns are quoted; what is selected, the
conditions and the endings are fragments. -/
structure Builder where
  start : Start := .zero
  verb : Option Verb := none
  table : Option String := none
  selected : List Value := []
  columns : List String := []
  rows : List (List Slot) := []
  assignments : List (String × Slot) := []
  conditions : List Value := []
  grouping : List String := []
  ordering : List String := []
  limit : Option Int := none
  offset : Option Int := none
  endings : List Value := []
  bound : List Value := []

/-- The number of the next placeholder. -/
def Builder.next (builder : Builder) : Start := builder.start.plus builder.bound.length

/-- An action on a builder. A failure keeps the changes made before it. -/
abbrev Action := ExceptT Fault (StateM Builder)

namespace Action

/-- The failure of a misused operation. -/
def breach {α : Type} (known : Breach) : Action α := throw (.breach known)

/-- What a walk over a value meets; other values cannot be walked. -/
def elements (value : Value) : Action (List Value) :=
  match value.elements? with
  | some items => pure items
  | none => breach .badType

/-- The elements of a container; only a container has a length. -/
def contents (value : Value) : Action (List Value) :=
  match value.contents? with
  | some items => pure items
  | none => breach .badType

/-- The text of a value that has to be text. -/
def textOf (value : Value) : Action String :=
  match value.asText? with
  | some chars => pure chars
  | none => breach .badType

/-- The quoted form of a name. -/
def quote (name : Value) : Action String := ofExcept (Identifier.quote name)

/-- Sets what the statement does. -/
def setVerb (verb : Verb) : Action Unit := modify fun builder => { builder with verb := some verb }

/-- Sets the table of the statement. -/
def setTable (table : Value) : Action Unit := do
  let table ← quote table
  modify fun builder => { builder with table := some table }

/-- A selected field; a star stands for itself. -/
def field (name : Value) : Action String :=
  if name.asText? = some "*" then pure "*" else quote name

/-- Selects fields; none given selects all. -/
def select (fields : Value) : Action Unit := do
  setVerb .select
  let fields ← if fields.isTruthy then elements fields else pure [.text "*"]
  let selected ← fields.mapM field
  modify fun builder => { builder with selected := selected.map .text }

/-- Selects expressions as they are. -/
def selectRaw (expressions : List Value) : Action Unit :=
  modify fun builder => { builder with verb := some .select, selected := expressions }

/-- Reads from a table. -/
def fromTable (table : Value) : Action Unit := setTable table

/-- Adds a fragment behind everything else. -/
def ending (sql : Value) : Action Unit :=
  modify fun builder => { builder with endings := builder.endings ++ [sql] }

/-- Adds a condition; one that counts as false adds nothing. -/
def condition (sql : Value) : Action Unit :=
  if sql.isTruthy then
    modify fun builder => { builder with conditions := builder.conditions ++ [sql] }
  else pure ()

/-- Adds one field to the grouping. -/
def groupByField (name : Value) : Action Unit := do
  let name ← quote name
  modify fun builder => { builder with grouping := builder.grouping ++ [name] }

/-- Adds fields to the grouping, one after the other. -/
def groupBy (fields : Value) : Action Unit := do
  (← elements fields).forM groupByField

/-- The directions of an ordering. -/
def directions : List String := ["ASC", "DESC"]

/-- Checks a direction, in any letter case. -/
def checkDirection (direction : Value) : Except Fault String :=
  match direction.upper? with
  | none => .error (.breach .missingAttribute)
  | some capitals =>
    match capitals.asText?.filter directions.contains with
    | some known => .ok known
    | none => .error (.directionInvalid capitals)

/-- Adds a field to the ordering. -/
def orderBy (name direction : Value) : Action Unit := do
  let direction ← ofExcept (checkDirection direction)
  let name ← quote name
  modify fun builder =>
    { builder with ordering := builder.ordering ++ [name ++ " " ++ direction] }

/-- Sets how many rows are wanted. -/
def limit (count : Value) : Action Unit := do
  let count ← ofExcept count.toWhole
  modify fun builder => { builder with limit := some count }

/-- Sets how many rows are skipped. -/
def offset (count : Value) : Action Unit := do
  let count ← ofExcept count.toWhole
  modify fun builder => { builder with offset := some count }

/-- Inserts into columns of a table. -/
def insertInto (table columns : Value) : Action Unit := do
  setVerb .insert
  setTable table
  let columns ← (← elements columns).mapM quote
  modify fun builder => { builder with columns }

/-- The text of a placeholder type; one that is left out is inferred from the value. -/
def slotType (type value : Value) : Action String :=
  if type.isTruthy then textOf type else pure (Wire.placeholderType value)

/-- Binds a value to the next placeholder. -/
def bind (value type : Value) : Action Slot := do
  let next := (← get).next
  ofExcept next.check
  modify fun builder => { builder with bound := builder.bound ++ [value] }
  ofExcept (next.checkNames 1)
  return { name := next.parameterName, type := ← slotType type value }

/-- The type at a position of a sequence of types; no types leave it out. -/
def typeAt (types : Value) (position : Nat) : Action Value :=
  if !types.isTruthy then pure .null
  else
    match types with
    | .map entries =>
      match Keyed.get? entries (.int position) with
      | some type => pure type
      | none => breach .missingKey
    | _ => do
      match (← contents types)[position]? with
      | some type => pure type
      | none => breach .badIndex

/-- Binds the values of a row from a position on. -/
def bindRow (types : Value) : Nat → List Value → Action (List Slot)
  | _, [] => pure []
  | position, value :: rest => do
    let slot ← bind value (← typeAt types position)
    return slot :: (← bindRow types (position + 1) rest)

/-- Adds one row of values. -/
def row (types values : Value) : Action Unit := do
  let items ← contents values
  let width := (← get).columns.length
  if items.length ≠ width then throw (.rowWidthMismatch width items.length values)
  let slots ← bindRow types 0 items
  modify fun builder => { builder with rows := builder.rows ++ [slots] }

/-- Adds rows of values; types of placeholders are given by column. -/
def values (rows types : Value) : Action Unit := do
  (← elements rows).forM (row types)

/-- Updates a table. -/
def update (table : Value) : Action Unit := do
  setVerb .update
  setTable table

/-- The type under a name in a map of types; no types leave it out. -/
def typeOf (types name : Value) : Action Value :=
  if !types.isTruthy then pure .null
  else
    match types with
    | .map entries => pure ((Keyed.get? entries name).getD .null)
    | _ => breach .missingAttribute

/-- Assigns a value to a column. -/
def assign (types name value : Value) : Action Unit := do
  let type ← typeOf types name
  let name ← quote name
  let slot ← bind value type
  modify fun builder => { builder with assignments := builder.assignments ++ [(name, slot)] }

/-- Assigns the values of a map; types of placeholders are given by name. -/
def set (data types : Value) : Action Unit :=
  match data with
  | .map entries => entries.forM fun (name, value) => assign types name value
  | _ => breach .missingAttribute

/-- Deletes from a table. -/
def deleteFrom (table : Value) : Action Unit := do
  setVerb .delete
  setTable table

end Action

end TypedSql.Statement
