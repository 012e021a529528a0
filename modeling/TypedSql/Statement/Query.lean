import TypedSql.Coercion
import TypedSql.Statement.Builder

/-!
# Built statements

The text of a statement with its parameters by position. The parts of a statement stand in a fixed
order, whatever the order in which they were given.
-/

namespace TypedSql.Statement

open TypedSql.Sql

/-- A statement and the values of its parameters, by position. -/
structure Query where
  sql : String
  parameters : List Value

/-- Values under the names of parameters that count from a start. -/
def named (start : Start) (values : List Value) : List (String × Value) :=
  start.gather <|
    values.zipIdx.map fun (value, position) => ((start.plus position).parameterName, value)

/-- Values under the names of parameters that count from a value. -/
def namedFrom (start : Value) (values : List Value) : Except Fault (List (String × Value)) := do
  let start := Start.ofValue start
  (start.plus 0).checkNames values.length
  return named start values

namespace Query

/-- The parameters by name. -/
def namedParameters (query : Query) (start : Start) : List (String × Value) :=
  named start query.parameters

/-- A statement with given text and parameters. -/
def ofValues [Coercion] (sql parameters : Value) : Except Fault Query :=
  match Coercion.text sql, Coercion.items parameters with
  | .ok sql, .ok parameters => .ok { sql, parameters }
  | _, _ => .error (.breach .rejectedArgument)

/-- Whether two statements have the same text and the same parameters. -/
def same (left right : Query) : Bool :=
  left.sql = right.sql && Value.sameItems .shared left.parameters right.parameters

end Query

namespace Builder

/-- The texts of fragments; one that is no text is a breach. -/
def fragmentTexts (fragments : List Value) : Except Fault (List String) :=
  fragments.mapM fun fragment =>
    match fragment.asText? with
    | some chars => .ok chars
    | none => .error (.breach .badType)

/-- A clause of a statement; without parts it is left out. -/
def clause (keyword separator : String) (parts : List String) : List String :=
  if parts.isEmpty then [] else [keyword ++ " " ++ separator.intercalate parts]

/-- A clause with a number; without one it is left out. -/
def numberClause (keyword : String) : Option Int → Except Fault (List String)
  | none => .ok []
  | some count => do return [keyword ++ " " ++ (← (Value.int count).displayed)]

/-- The clauses behind the head of a statement. -/
def tail (builder : Builder) : Except Fault (List String) := do
  let conditions ← fragmentTexts builder.conditions
  let limit ← numberClause "LIMIT" builder.limit
  let offset ← numberClause "OFFSET" builder.offset
  let endings ← fragmentTexts builder.endings
  return clause "WHERE" " AND " conditions ++ clause "GROUP BY" ", " builder.grouping ++
    clause "ORDER BY" ", " builder.ordering ++ limit ++ offset ++ endings

/-- The text of a row. -/
def rowText (row : List Slot) : String :=
  "(" ++ Value.commaSeparated (row.map Slot.render) ++ ")"

/-- The text of an assignment. -/
def assignmentText (assignment : String × Slot) : String :=
  assignment.1 ++ " = " ++ assignment.2.render

/-- The selected fields; without any it is all of them. -/
def selection (builder : Builder) : Except Fault (List String) :=
  if builder.selected.isEmpty then .ok ["*"] else fragmentTexts builder.selected

/-- The table of a statement. -/
def tableText (builder : Builder) : Except Fault String :=
  match builder.table with
  | some table => .ok table
  | none => .error .tableNotSet

/-- The parts of a statement in writing order. -/
def parts (builder : Builder) : Except Fault (List String) :=
  match builder.verb with
  | some .insert =>
    if builder.rows.isEmpty then .error .rowsNotSet
    else do
      let table ← builder.tableText
      return ["INSERT INTO " ++ table, "(" ++ Value.commaSeparated builder.columns ++ ")",
        "VALUES " ++ Value.commaSeparated (builder.rows.map rowText)]
  | some .update =>
    if builder.assignments.isEmpty then .error .assignmentsNotSet
    else do
      let table ← builder.tableText
      return ("UPDATE " ++ table ++ " SET " ++
        Value.commaSeparated (builder.assignments.map assignmentText)) :: (← builder.tail)
  | some .delete => do
    let table ← builder.tableText
    return ("DELETE FROM " ++ table) :: (← builder.tail)
  | some .select | none => do
    let selection ← builder.selection
    let table ← builder.tableText
    return ("SELECT " ++ Value.commaSeparated selection) :: ("FROM " ++ table) ::
      (← builder.tail)

/-- The statement that a builder holds. -/
def build (builder : Builder) : Except Fault Query := do
  return { sql := " ".intercalate (← builder.parts), parameters := builder.bound }

end Builder

/-- The builder after an action, or the failure of the action. -/
def Action.run (action : Action Unit) (builder : Builder) : Except Fault Builder :=
  match ExceptT.run action builder with
  | (.ok _, after) => .ok after
  | (.error fault, _) => .error fault

end TypedSql.Statement
