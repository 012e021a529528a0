import TypedSql.Table.Basic
import TypedSql.Wire.Accept

/-!
# Records

Checks of records against columns: a full record when it is created, a partial one when it is
updated. The first unknown field is reported first of all.
-/

namespace TypedSql.Record

/-- Checks that every field of a record is a column. -/
def checkKnown (record : Entries) (columns : Keyed Column) : Except Fault Unit :=
  record.forM fun (name, value) =>
    if columns.has name then .ok () else .error (.recordFieldUnknown name value)

/-- Checks a value of a record against its column. -/
def checkValue (name value : Value) (column : Column) : Except Fault Unit := do
  if ← Wire.check column value then return ()
  else throw (.recordValueInvalid name value column.kind)

/-- Checks the value of a full record for a column; null and absence are the same. -/
def checkField (record : Entries) (name : Value) (column : Column) : Except Fault Unit :=
  let value := (Keyed.get? record name).getD .null
  if value.isNull then
    if Table.isOptional column then .ok () else .error (.recordFieldRequired name)
  else checkValue name value column

/-- Checks a full record. -/
def check (record : Entries) (columns : Keyed Column) : Except Fault Unit := do
  checkKnown record columns
  columns.forM fun (name, column) => checkField record name column

/-- Checks a field of a partial record: it is no primary key, and its value is null or valid. -/
def checkChange (columns : Keyed Column) (name value : Value) : Except Fault Unit :=
  match columns.get? name with
  | none => .error (.breach .missingKey)
  | some column =>
    if column.primaryKey then .error (.primaryKeyUpdated name value)
    else if value.isNull then .ok ()
    else checkValue name value column

/-- Checks a partial record. -/
def checkPartial (record : Entries) (columns : Keyed Column) : Except Fault Unit := do
  checkKnown record columns
  record.forM fun (name, value) => checkChange columns name value

/-- What a position of a sequence holds. -/
def itemAt (sequence position : Value) : Except Fault Value :=
  match sequence.contents?, position.asInt? with
  | some items, some index =>
    let place := if index < 0 then index + items.length else index
    match if place < 0 then none else items[place.toNat]? with
    | some item => .ok item
    | none => .error (.breach .badIndex)
  | _, _ => .error (.breach .badType)

/-- Checks that every name that a value other than a map mentions is a column. -/
def checkMentioned (data : Value) (columns : Keyed Column) : Except Fault Unit :=
  match data.elements? with
  | some names => names.forM fun name => do
    if !name.canBeKey then throw (.breach .badType)
    else if columns.has name then return ()
    else throw (.recordFieldUnknown name (← itemAt data name))
  | none => .error (.breach .badType)

/-- Checks a full record given as a value. -/
def checkValues (data : Value) (columns : Keyed Column) : Except Fault Unit :=
  match data with
  | .map entries => check entries columns
  | _ => do
    checkMentioned data columns
    if !columns.isEmpty then throw (.breach .missingAttribute)

/-- Checks a partial record given as a value. -/
def checkPartialValues (data : Value) (columns : Keyed Column) : Except Fault Unit :=
  match data with
  | .map entries => checkPartial entries columns
  | _ => do
    checkMentioned data columns
    throw (.breach .missingAttribute)

/-- Checks a full record of a table. -/
def checkFor (table : Table) (record : Value) : Except Fault Unit :=
  match record with
  | .map entries => check entries table.keyed
  | _ => .error (.recordNotMapping table.name record)

end TypedSql.Record
