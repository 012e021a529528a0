import TypedSql.Table.Basic

/-!
# Derived tables

Adding, removing and changing columns gives a new table, checked like any other. A table can be
written as a plain description and read back from it.
-/

namespace TypedSql.Table

/-- The entries of an optional map; anything else that counts as true is refused. -/
def optionalEntries (value : Value) : Except Fault Entries :=
  match value with
  | .map entries => .ok entries
  | _ => if value.isTruthy then .error (.breach .badType) else .ok []

/-- The table with one more column. -/
def addColumn [Coercion] (table : Table) (name definition : Value) : Except Fault Table := do
  if ← table.hasColumn name then throw (.columnExists table.name name)
  let column ← Column.ofDefinition definition name
  column.check name
  ofColumns (.text table.name) (table.keyed.put name column)

/-- The table without a column. -/
def removeColumn [Coercion] (table : Table) (name : Value) : Except Fault Table := do
  let _ ← table.requireColumn name
  ofColumns (.text table.name) (table.keyed.filter fun entry => !entry.1.isKey name)

/-- The table with some settings of a column changed; named changes count over those of a map. -/
def modifyColumn [Coercion] (table : Table) (name changes : Value) (named : Entries) :
    Except Fault Table := do
  let column ← table.requireColumn name
  let changes := Keyed.putAll (← optionalEntries changes) named
  let column ← column.merged changes name
  column.check name
  ofColumns (.text table.name) (table.keyed.put name column)

/-- The table with whole definitions replaced or added. -/
def clone [Coercion] (table : Table) (definitions : Entries) : Except Fault Table :=
  ofDefinition (.text table.name) (.map (Keyed.putAll table.definition definitions))

/-- The plain description of a table. -/
def describe (table : Table) : Entries :=
  [(.text "name", .text table.name),
    (.text "columns",
      .map (table.columns.map fun (name, column) => (.text name, .map column.toDefinition))),
    (.text "primary_key", .ofOption .text table.primaryKey?)]

/-- The value under a key of a map. -/
def require (description : Value) (key : String) : Except Fault Value :=
  match description with
  | .map entries =>
    match Keyed.at? entries key with
    | some value => .ok value
    | none => .error (.breach .missingKey)
  | _ => .error (.breach .badType)

/-- The table of a plain description. -/
def ofDescription [Coercion] (description : Value) : Except Fault Table := do
  let name ← require description "name"
  let columns ← require description "columns"
  ofDefinition name columns

end TypedSql.Table
