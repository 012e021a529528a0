import TypedSql.Column.TypeText
import TypedSql.Table.Basic

/-!
# Statements about tables

The statements that create and drop a table, and the text of one column as it stands after
`ADD COLUMN`. Comments, text defaults and text settings are written as text literals.
-/

namespace TypedSql.Table

open TypedSql.Text

/-- The engine of tables that name none. -/
def defaultEngine : String := "MergeTree()"

/-- The comment of a column, if it is not empty. -/
def commentText (column : Column) : String :=
  match column.comment with
  | none | some "" => ""
  | some comment => " COMMENT " ++ quoteLiteral comment

/-- A column in the statement that creates a table. -/
def columnLine (name : String) (column : Column) : Except Fault String := do
  return (← Identifier.quoteText name) ++ " " ++ (← column.typeText) ++ commentText column

/-- The literal of a default value; values without a literal of their own are JSON in a text. -/
def defaultLiteral (value : Value) : Except Fault String :=
  match value with
  | .bool flag => .ok (Json.flagText flag)
  | .int _ | .float _ | .decimal _ => value.displayed
  | _ =>
    match value.asText? with
    | some chars => .ok (quoteLiteral chars)
    | none => value.jsonText.map quoteLiteral

/-- The value of an engine setting: texts are literals, flags are numbers. -/
def settingText (value : Value) : Except Fault String :=
  match value with
  | .bool flag => .ok (toString flag.toInt)
  | _ =>
    match value.asText? with
    | some chars => .ok (quoteLiteral chars)
    | none => value.displayed

/-- Options of the statement that creates a table; those that count as false are left out. -/
structure CreateOptions where
  engine : Value := .null
  orderBy : Value := .null
  partitionBy : Value := .null
  ifNotExists : Bool := false
  settings : Value := .null

/-- What a table is ordered by: the given columns, else the primary key, else the first column. -/
def orderText (table : Table) (orderBy : Value) : Except Fault String :=
  if orderBy.isTruthy then
    match orderBy.elements? with
    | some names => do
      return "(" ++ Value.commaSeparated (← names.mapM Identifier.quote) ++ ")"
    | none => .error (.breach .badType)
  else Identifier.quoteText (table.primaryKey?.getD (table.columnNames.headD ""))

/-- The assignment of a value to an engine setting. -/
def assignment (key value : Value) : Except Fault String := do
  return (← key.displayed) ++ " = " ++ (← settingText value)

/-- The engine settings, if there are any. -/
def settingsLine (settings : Value) : Except Fault (List String) :=
  if !settings.isTruthy then .ok []
  else
    match settings with
    | .map entries => do
      let assignments ← entries.mapM fun (key, value) => assignment key value
      return ["SETTINGS " ++ Value.commaSeparated assignments]
    | _ => .error (.breach .missingAttribute)

/-- The engine of a table. -/
def engineText (engine : Value) : Except Fault String :=
  if engine.isTruthy then engine.displayed else .ok defaultEngine

/-- What a table is partitioned by, if by anything. -/
def partitionLine (partitionBy : Value) : Except Fault (List String) :=
  if partitionBy.isTruthy then partitionBy.displayed.map fun chars => ["PARTITION BY " ++ chars]
  else .ok []

/-- The statement that creates a table. -/
def createText (table : Table) (options : CreateOptions) : Except Fault String := do
  let name ← Identifier.quoteText table.name
  let columns ← table.columns.mapM fun (name, column) => columnLine name column
  let engine ← engineText options.engine
  let order ← table.orderText options.orderBy
  let partition ← partitionLine options.partitionBy
  let settings ← settingsLine options.settings
  let header := "CREATE TABLE " ++ (if options.ifNotExists then "IF NOT EXISTS " else "") ++ name ++
    " (\n  " ++ ",\n  ".intercalate columns ++ "\n)"
  return "\n".intercalate
    ([header, "ENGINE = " ++ engine, "ORDER BY " ++ order] ++ partition ++ settings)

/-- The statement that drops a table. -/
def dropText (table : Table) (ifExists : Bool) : Except Fault String := do
  return "DROP TABLE " ++ (if ifExists then "IF EXISTS " else "") ++
    (← Identifier.quoteText table.name)

/-- The full text of one column, its default resolved. -/
def columnText (table : Table) (name : Value) : ExceptT Fault (StateM Draws) String := do
  let column ← ofExcept (table.requireColumn name)
  let quoted ← ofExcept (Identifier.quote name)
  let type ← ofExcept column.typeText
  let notNull := if column.nullable then "" else " NOT NULL"
  let default ←
    if column.hasDefault then do
      let value ← column.resolveDefault
      pure (" DEFAULT " ++ (← ofExcept (defaultLiteral value)))
    else pure ""
  return quoted ++ " " ++ type ++ notNull ++ default ++ commentText column

end TypedSql.Table
