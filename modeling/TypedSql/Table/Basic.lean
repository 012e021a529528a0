import TypedSql.Column.Check
import TypedSql.Column.Definition
import TypedSql.Column.Resolve

/-!
# Tables

A table has a name and columns in declaration order. Tables are made by `ofColumns` and
`ofDefinition` only after the name and every column have been checked.
-/

namespace TypedSql

/-- A table schema. -/
structure Table where
  name : String
  columns : List (String × Column)

namespace Table

/-- The names of the columns that are primary keys. -/
def primaryKeysOf (columns : Keyed Column) : List Value :=
  (columns.filter fun entry => entry.2.primaryKey).map Prod.fst

/-- The report of several primary keys; their names have to be texts. -/
def severalPrimaryKeys (names : List Value) : Fault :=
  if names.all Value.isText then .severalPrimaryKeys names else .breach .badType

/-- Checks the columns of a schema: there are some, one primary key at most, and all are valid. -/
def checkColumns (columns : Keyed Column) : Except Fault Unit :=
  let keys := primaryKeysOf columns
  if columns.isEmpty then .error .schemaEmpty
  else if 1 < keys.length then .error (severalPrimaryKeys keys)
  else columns.forM fun (name, column) => column.check name

/-- The columns that a map of definitions stands for. -/
def columnsOf [Coercion] (definition : Value) : Except Fault (Keyed Column) :=
  match definition with
  | .map entries => entries.mapM fun (name, column) => do
    return (name, ← Column.ofDefinition column name)
  | _ => .error (.schemaNotMapping definition)

/-- The columns under the texts of their names. -/
def withTextNames (columns : Keyed Column) : List (String × Column) :=
  columns.filterMap fun (name, column) => name.asText?.map fun text => (text, column)

/-- The table with a name and the columns of a definition. -/
def ofDefinition [Coercion] (name definition : Value) : Except Fault Table := do
  let name ← Identifier.checkTableName name
  let columns ← columnsOf definition
  checkColumns columns
  return { name, columns := withTextNames columns }

/-- Columns as a map of definitions. -/
def definitionOf (columns : Keyed Column) : Entries :=
  columns.map fun (name, column) => (name, column.toValue)

/-- The table with a name and given columns. -/
def ofColumns [Coercion] (name : Value) (columns : Keyed Column) : Except Fault Table :=
  ofDefinition name (.map (definitionOf columns))

/-- The columns under their names as keys. -/
def keyed (table : Table) : Keyed Column :=
  table.columns.map fun (name, column) => (.text name, column)

/-- The columns as a map of definitions. -/
def definition (table : Table) : Entries := definitionOf table.keyed

/-- The columns as pairs of a name and a column. -/
def columnPairs (table : Table) : Value :=
  .tuple (table.columns.map fun (name, column) => .tuple [.text name, column.toValue])

/-- The kinds of the columns under their names. -/
def columnKinds (table : Table) : Entries :=
  table.columns.map fun (name, column) => (.text name, .kind column.kind)

/-- The names of the columns. -/
def columnNames (table : Table) : List String := table.columns.map Prod.fst

/-- The column that is the primary key. -/
def primaryKey? (table : Table) : Option String :=
  (table.columns.find? fun entry => entry.2.primaryKey).map Prod.fst

/-- The column with a name. -/
def column? (table : Table) (name : Value) : Option Column := Keyed.get? table.keyed name

/-- The column with a text as its name. -/
def columnAt? (table : Table) (name : String) : Option Column := table.columns.lookup name

/-- The column with a name, if there is one; a name that cannot be a key is a breach. -/
def find (table : Table) (name : Value) : Except Fault (Option Column) :=
  if name.canBeKey then .ok (table.column? name) else .error (.breach .badType)

/-- Whether a table has a column. -/
def hasColumn (table : Table) (name : Value) : Except Fault Bool :=
  (table.find name).map Option.isSome

/-- The column with a name, or the report that there is none. -/
def requireColumn (table : Table) (name : Value) : Except Fault Column := do
  match ← table.find name with
  | some column => return column
  | none => throw (.columnMissing table.name name)

/-- Whether a record may leave a column out. -/
def isOptional (column : Column) : Bool :=
  column.nullable || column.hasDefault || column.autoIncrement

/-- The columns that a new record has to give. -/
def requiredColumns (table : Table) : List String :=
  (table.columns.filter fun entry => !isOptional entry.2 && !entry.2.primaryKey).map Prod.fst

/-- The columns that a new record may leave out. -/
def optionalColumns (table : Table) : List String :=
  (table.columns.filter fun entry => isOptional entry.2).map Prod.fst

/-- The value of the default of each column that has one. -/
def defaults (table : Table) : StateM Draws (List (String × Value)) :=
  (table.columns.filter fun entry => entry.2.hasDefault).mapM fun (name, column) => do
    return (name, ← column.resolveDefault)

/-- Whether two tables have the same name and the same columns in the same order. -/
def same (left right : Table) : Bool :=
  left.name = right.name && left.columns.length = right.columns.length &&
    (left.columns.zip right.columns).all fun (first, second) =>
      first.1 = second.1 && first.2.same second.2

end Table

end TypedSql
