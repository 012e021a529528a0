import TypedSql.Model.State
import TypedSql.Column.TypeText
import TypedSql.Table.Derive
import TypedSql.Wire.Encode

/-!
# Statements of models

Compiling the state of a model to statements with named parameters. Updates and deletions need a
condition that is not trivial; in an update the parameters of the condition follow those of the
assignments.
-/

namespace TypedSql

/-- A statement with named parameters. -/
structure Statement.Bound where
  sql : String
  parameters : List (String × Value)

namespace Model

open Statement Condition

/-- The condition in force: a given one, else the gathered ones. -/
def effective (model : Model) (given : Value) : Value :=
  if !given.isNull then given
  else
    match model.state.conditions with
    | [] => .null
    | [condition] => condition
    | conditions => .map [(.text "and", .list conditions)]

/-- The clause of the condition in force. -/
def clause (model : Model) (given : Value) (start : Sql.Start) : Except Fault Clause :=
  compile (model.effective given) start

/-- Adds the condition in force to a statement, unless it is trivial, and gives its parameters. -/
def applyCondition (model : Model) (given : Value) : Action (List (String × Value)) := do
  let next := (← get).next
  let clause ← ofExcept (model.clause given next)
  if !clause.isTrivial then Action.condition (.text clause.sql)
  return clause.parameters

/-- The result of actions on a new statement, with the statement. -/
def assemble {α : Type} (action : Action α) : Except Fault (α × Query) :=
  match (ExceptT.run action).run {} with
  | (.ok result, builder) => builder.build.map fun query => (result, query)
  | (.error fault, _) => .error fault

/-- The statement of actions that give the parameters of its condition. -/
def bound (action : Action (List (String × Value))) : Except Fault Bound := do
  let (parameters, query) ← assemble action
  return { sql := query.sql, parameters := query.namedParameters .zero ++ parameters }

/-- Groups the rows of a statement, if the state asks for it. -/
def applyGrouping (model : Model) : Action Unit :=
  match model.state.grouping with
  | none | some [] => pure ()
  | some fields => Action.groupBy (Value.ofNames fields)

/-- The statement that selects the rows of the state. -/
def selectStatement (model : Model) : Except Fault Bound :=
  bound do
    Action.select (.ofOption Value.ofNames model.state.selected)
    Action.fromTable (.text model.name)
    let parameters ← model.applyCondition .null
    model.applyGrouping
    model.state.ordering.forM fun (field, direction) =>
      Action.orderBy (.text field) (.text direction)
    (model.state.limit.map .int).forM Action.limit
    (model.state.offset.map .int).forM Action.offset
    return parameters

/-- The statement that counts the rows of the state. -/
def countStatement (model : Model) : Except Fault Bound :=
  bound do
    Action.selectRaw [.text ("COUNT(*) AS " ++ Identifier.backquoted "count")]
    Action.fromTable (.text model.name)
    model.applyCondition .null

/-- The functions that summarise rows. -/
def aggregateFunctions : List String := ["COUNT", "SUM", "AVG", "MIN", "MAX", "MEDIAN", "STDDEV"]

/-- The function and the field of a summary. -/
def aggregateParts (summary : Value) : Except Fault (Value × Value) :=
  match summary.elements? with
  | some [function, field] =>
    match function.upper? with
    | some capitals => .ok (capitals, field)
    | none => .error (.breach .missingAttribute)
  | some _ => .error (.breach .badValue)
  | none => .error (.breach .badType)

/-- The expression of a summary under an alias. -/
def aggregateText (model : Model) (label summary : Value) : Except Fault String := do
  let (capitals, field) ← aggregateParts summary
  let function ←
    match capitals.asText?.filter aggregateFunctions.contains with
    | some known => pure known
    | none => throw (.aggregateFunctionUnknown label capitals)
  let target ←
    if field.asText? = some "*" then pure "*"
    else do
      let _ ← model.field field
      Identifier.quote field
  return function ++ "(" ++ target ++ ") AS " ++ (← Identifier.quote label)

/-- The statement that summarises the rows of the state. -/
def aggregateStatement (model : Model) (aggregates : Value) : Except Fault Bound :=
  if !aggregates.isTruthy then .error .aggregatesEmpty
  else
    match aggregates with
    | .map entries => do
      let expressions ← entries.mapM fun (label, summary) => model.aggregateText label summary
      bound do
        Action.selectRaw (expressions.map .text)
        Action.fromTable (.text model.name)
        let parameters ← model.applyCondition .null
        model.applyGrouping
        return parameters
    | _ => .error (.breach .missingAttribute)

/-- The condition in force for an operation that must not touch every row. -/
def requireCondition (model : Model) (operation : String) (given : Value) : Except Fault Value := do
  let condition := model.effective given
  if condition.isNull then throw (.conditionRequired operation model.name)
  if (← model.clause condition .zero).isTrivial then
    throw (.conditionRequired operation model.name)
  return condition

/-- The wire form of a value for a column with a name. -/
def toWire (model : Model) (name value : Value) : Except Fault Value :=
  match model.table.column? name with
  | some column => Wire.encode value column.kind column.elementKind
  | none => .error (.breach .missingKey)

/-- The type of the placeholder for a column with a name. -/
def wireType (model : Model) (name : Value) : Except Fault Value :=
  match model.table.column? name with
  | some column => column.placeholderType.map .text
  | none => .error (.breach .missingKey)

/-- The names that a record mentions. -/
def mentioned (record : Value) : Except Fault (List Value) :=
  match record.elements? with
  | some names => .ok names
  | none => .error (.breach .badType)

/-- The names that a record mentions, each of which has to be a possible key. -/
def mentionedKeys (record : Value) : Except Fault (List Value) := do
  let names ← mentioned record
  if names.all Value.canBeKey then return names else throw (.breach .badType)

/-- Checks that names are those of columns. -/
def checkFields (model : Model) (names : List Value) : Except Fault Unit :=
  names.forM fun name => (model.field name).map fun _ => ()

/-- The statement that updates rows with data. -/
def updateStatement (model : Model) (data given : Value) : Except Fault Bound := do
  if !data.isTruthy then throw (.updateEmpty model.name)
  let condition ← model.requireCondition "UPDATE" given
  model.checkFields (← mentioned data)
  match data with
  | .map entries => do
    let values ← entries.mapM fun (name, value) => do return (name, ← model.toWire name value)
    let types ← entries.mapM fun (name, _) => do return (name, ← model.wireType name)
    bound do
      Action.update (.text model.name)
      Action.set (.map values) (.map types)
      model.applyCondition condition
  | _ => .error (.breach .missingAttribute)

/-- The statement that deletes rows. -/
def deleteStatement (model : Model) (given : Value) : Except Fault Bound := do
  let condition ← model.requireCondition "DELETE" given
  bound do
    Action.deleteFrom (.text model.name)
    model.applyCondition condition

/-- The entries of a record, given as a map or as pairs. -/
def recordEntries (data : Value) : Except Fault Entries :=
  match data with
  | .map entries => .ok entries
  | _ =>
    match data.elements? with
    | some items => do
      let pairs ← items.mapM fun item =>
        match item.elements? with
        | some [key, value] =>
          if key.canBeKey then .ok (key, value) else .error (.breach .badType)
        | some _ => .error (.breach .badValue)
        | none => .error (.breach .badType)
      return Keyed.ofPairs pairs
    | none => .error (.breach .badType)

/-- Puts the default of a column into a record that has no value for it. -/
def fillDefault (record : Entries) (name : String) (column : Column) : StateM Draws Entries :=
  if column.hasDefault && ((Keyed.get? record (.text name)).getD .null).isNull then do
    return Keyed.put record (.text name) (← column.resolveDefault)
  else pure record

/-- A record with defaults in place of absent values. -/
def prepare (model : Model) (record : Entries) : StateM Draws Entries :=
  model.table.columns.foldlM (fun record (name, column) => fillDefault record name column) record

/-- The columns that are among the names of some record, in declaration order. -/
def presentColumns (model : Model) (mentions : List (List Value)) : List String :=
  model.table.columnNames.filter fun name =>
    mentions.any fun names => names.any (Value.isKey (.text name))

/-- The entries of a record; only a record that is asked for no value need not be a map. -/
def entriesFor (isAsked : Bool) (record : Value) : Except Fault Entries :=
  match record with
  | .map entries => .ok entries
  | _ => if isAsked then .error (.breach .missingAttribute) else .ok []

/-- The wire values of a record for columns; missing values are null. -/
def rowOf (model : Model) (columns : List String) (record : Value) : Except Fault Value := do
  let entries ← entriesFor (!columns.isEmpty) record
  let values ← columns.mapM fun name =>
    model.toWire (.text name) ((Keyed.get? entries (.text name)).getD .null)
  return .list values

/-- The statement that inserts one or more records. -/
def insertRecords (model : Model) (records : List Value) : Except Fault Bound := do
  let mentions ← records.mapM mentionedKeys
  mentions.forM model.checkFields
  let columns := model.presentColumns mentions
  let rows ← records.mapM (model.rowOf columns)
  let types ← columns.mapM fun name => model.wireType (.text name)
  bound do
    Action.insertInto (.text model.name) (Value.ofNames columns)
    Action.values (.list rows) (.list types)
    return []

/-- The statement that inserts records given as a value. -/
def insertStatement (model : Model) (records : Value) : Except Fault Bound :=
  if !records.isTruthy then .error .insertEmpty
  else
    match records.elements? with
    | some items => model.insertRecords items
    | none => .error (.breach .badType)

end Model

end TypedSql
