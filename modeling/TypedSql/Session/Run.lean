import TypedSql.Model.Compile
import TypedSql.Session.Journal
import TypedSql.Value.Order

/-!
# Running statements

Statements are logged, handed to the executor and their failures reported. An exception that already
is a report passes through; any other is wrapped in a report about the statement.
-/

namespace TypedSql.Session

/-- The insertion of a value into an ordered list, behind the values that are not larger. -/
def insertInOrder (value : Value) : List Value → Except Fault (List Value)
  | [] => .ok [value]
  | first :: rest => do
    if ← value.isLess first then return value :: first :: rest
    else return first :: (← insertInOrder value rest)

/-- Values in order; each has to be comparable with the others. -/
def inOrder (values : List Value) : Except Fault (List Value) :=
  values.foldlM (fun sorted value => insertInOrder value sorted) []

/-- The log line of a statement. -/
def statementLine (settings : Settings) (call : Call) (keys : List Value) : String :=
  (if call.isQuery then "QUERY" else "COMMAND") ++ " [" ++
    (match settings.database with
      | none | some "" => "-"
      | some database => database) ++
    "] " ++ call.sql.display ++ " params=" ++ (Value.list keys).inspect

/-- Logs a statement, if the settings ask for it. -/
def logStatement (settings : Settings) (call : Call) : Session Unit :=
  if settings.logStatements then do
    let keys ← ofExcept (inOrder (call.parameters.map Prod.fst))
    log .debug (statementLine settings call keys)
  else pure ()

/-- The failure of a statement that an exception stands for, after it has been logged. An exception
without a text is not reported, and neither is what has no line for the log. -/
def failed {α : Type} (call : Call) (error : Value) : Session α :=
  match error with
  | .report family message context => throw (.raised family message context)
  | _ => do
    let fault := Fault.statementFailed error call.sql call.parameters
    let line ← ofExcept ((fault.report.bind Report.format).mapError .breach)
    log .error line
    throw fault

/-- Runs a statement and gives the answer of the executor. -/
def execute (settings : Settings) (statement : Call) : Session Value := do
  logStatement settings statement
  match ← call statement with
  | .ok answer => return answer
  | .error error => failed statement error

/-- The rows of an answer; an answer that counts as false has none. -/
def rowsOf (answer : Value) : Session (List Value) :=
  if !answer.isTruthy then pure []
  else
    match answer.elements? with
    | some rows => pure rows
    | none => throw (.breach .badType)

/-- Optional parameters as entries. -/
def parameterEntries (parameters : Value) : Except Fault Entries :=
  if parameters.isTruthy then Model.recordEntries parameters else .ok []

/-- Runs a statement that answers with rows. -/
def query (settings : Settings) (sql parameters : Value) : Session (List Value) := do
  let parameters ← ofExcept (parameterEntries parameters)
  rowsOf (← execute settings { isQuery := true, sql, parameters })

/-- Runs a statement without an answer. -/
def command (settings : Settings) (sql parameters : Value) : Session Unit := do
  let parameters ← ofExcept (parameterEntries parameters)
  let _ ← execute settings { isQuery := false, sql, parameters }

end TypedSql.Session

namespace TypedSql.Model

open Session

/-- The settings of a model that is tied to a database. -/
def requireSettings (model : Model) : Session Settings :=
  match model.settings with
  | some settings => pure settings
  | none => throw (.unbound model.name)

/-- The parameters of a statement as a value. -/
def parametersOf (statement : Statement.Bound) : Value :=
  Condition.Clause.parameterMap statement.parameters

/-- The text of a statement and its parameters as a pair. -/
def pairOf (statement : Statement.Bound) : Value :=
  .tuple [.text statement.sql, parametersOf statement]

/-- Runs a compiled statement that answers with rows. -/
def runQuery (model : Model) (statement : Statement.Bound) : Session (List Value) := do
  let settings ← model.requireSettings
  query settings (.text statement.sql) (parametersOf statement)

/-- Runs a compiled statement without an answer. -/
def runCommand (model : Model) (statement : Statement.Bound) : Session Unit := do
  let settings ← model.requireSettings
  command settings (.text statement.sql) (parametersOf statement)

end TypedSql.Model
