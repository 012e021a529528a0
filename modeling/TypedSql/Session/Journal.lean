import TypedSql.Fault
import TypedSql.Column.Resolve

/-!
# Sessions

Running statements has three visible effects: calls to an executor, log lines, and questions to
generators. A journal keeps them; the executor answers each call from the calls before it. A session
may fail, and its journal keeps what happened before.
-/

namespace TypedSql

/-- A call to an executor; only a query answers with rows. -/
structure Call where
  isQuery : Bool
  sql : Value
  parameters : Entries

/-- How important a log line is. -/
inductive Level where
  | debug | info | warning | error
deriving DecidableEq, Repr

/-- The name of a level. -/
def Level.name : Level → String
  | debug => "DEBUG"
  | info => "INFO"
  | warning => "WARNING"
  | error => "ERROR"

/-- A log line. -/
structure LogLine where
  level : Level
  message : String
deriving DecidableEq, Repr

/-- What has happened in a session. -/
structure Journal where
  calls : List Call := []
  logs : List LogLine := []
  draws : Draws := []

/-- What runs statements: from the earlier calls and a call to an answer, or to an exception. -/
abbrev Executor := List Call → Call → Except Value Value

/-- A computation that runs statements. -/
abbrev Session := ReaderT Executor (ExceptT Fault (StateM Journal))

namespace Session

/-- Writes a log line. -/
def log (level : Level) (message : String) : Session Unit :=
  modify fun journal => { journal with logs := journal.logs ++ [{ level, message }] }

/-- A computation that only asks generators. -/
def drawing {α : Type} (action : StateM Draws α) : Session α := do
  let (result, draws) := action.run (← get).draws
  modify fun journal => { journal with draws }
  return result

/-- Hands a call to the executor. -/
def call (call : Call) : Session (Except Value Value) := do
  let executor ← read
  let earlier := (← get).calls
  modify fun journal => { journal with calls := journal.calls ++ [call] }
  return executor earlier call

/-- Runs a session on a journal. -/
def run {α : Type} (session : Session α) (executor : Executor) (journal : Journal) :
    Except Fault α × Journal :=
  StateT.run (ExceptT.run (ReaderT.run session executor)) journal

end Session

end TypedSql
