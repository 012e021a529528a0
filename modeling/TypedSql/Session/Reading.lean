import TypedSql.Session.Run
import TypedSql.Wire.Decode

/-!
# Reading rows

Running the selecting statements of a model. Values of known columns are converted from their wire
form; other values of a row pass through.
-/

namespace TypedSql.Model

open Session

/-- The program form of one value of a row. -/
def fromWire [Json.Depth] (model : Model) (name value : Value) : Except Fault Value :=
  match model.table.column? name with
  | some column => Wire.decode value column.kind column.elementKind
  | none => .ok value

/-- The record of a row. -/
def recordOfRow [Json.Depth] (model : Model) (row : Value) : Except Fault Value :=
  match row with
  | .map entries => do
    let record ← entries.mapM fun (name, value) => do return (name, ← model.fromWire name value)
    return .map record
  | _ => .error (.breach .missingAttribute)

/-- The rows of the state, not yet converted. -/
def rows (model : Model) : Session (List Value) := do
  let statement ← ofExcept model.selectStatement
  model.runQuery statement

/-- The records of the state. -/
def iterate [Json.Depth] (model : Model) : Session (List Value) := do
  let rows ← model.rows
  ofExcept (rows.mapM model.recordOfRow)

/-- The records of the state, at most as many as a limit that is not null. -/
def all [Copying] [Json.Depth] (model : Model) (limit : Value) : Session (List Value) := do
  let model ← if limit.isNull then pure model else ofExcept (model.limit limit)
  model.iterate

/-- The first record of the state, or null; only its row is converted. -/
def first [Copying] [Json.Depth] (model : Model) : Session Value := do
  let model ← ofExcept (model.limit (.int 1))
  match ← model.rows with
  | [] => return .null
  | row :: _ => ofExcept (model.recordOfRow row)

/-- The records that meet a further condition. -/
def find [Copying] [Json.Depth] (model : Model) (condition : Value) (named : Entries) :
    Session (List Value) := do
  let model ← ofExcept (model.filter condition named)
  model.all .null

/-- The first record that meets a further condition. -/
def findOne [Copying] [Json.Depth] (model : Model) (condition : Value) (named : Entries) :
    Session Value := do
  let model ← ofExcept (model.filter condition named)
  model.first

/-- The record with a value of the primary key. -/
def findByPrimaryKey [Copying] [Json.Depth] (model : Model) (value : Value) : Session Value :=
  match model.table.primaryKey? with
  | some key => model.findOne (.map [(.text key, value)]) []
  | none => throw (.primaryKeyMissing model.name)

/-- The number under the name of the count in a row. -/
def countOfRow (row : Value) : Except Fault Int :=
  match row with
  | .map entries => ((Keyed.at? entries "count").getD (.int 0)).toWhole
  | _ => .error (.breach .missingAttribute)

/-- How many rows meet the state and a further condition. -/
def count [Copying] (model : Model) (condition : Value) : Session Int := do
  let model ← if condition.isNull then pure model else ofExcept (model.filter condition [])
  let statement ← ofExcept model.countStatement
  match ← model.runQuery statement with
  | [] => return 0
  | row :: _ => ofExcept (countOfRow row)

/-- Whether some row meets the state. -/
def hasRows [Copying] (model : Model) : Session Bool := do
  return 0 < (← model.count .null)

/-- Summaries of the rows of the state. -/
def aggregate (model : Model) (aggregates : Entries) : Session Value := do
  let statement ← ofExcept (model.aggregateStatement (.map aggregates))
  match ← model.runQuery statement with
  | [] => return .map []
  | row :: _ => return .map (← ofExcept (recordEntries row))

/-- The rows of arbitrary SQL, as they come. -/
def runRaw (model : Model) (sql parameters : Value) : Session (List Value) := do
  let settings ← model.requireSettings
  query settings sql parameters

end TypedSql.Model
