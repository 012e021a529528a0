import TypedSql.Session.Run

/-!
# Writing rows

Running the statements of a model that insert, update and delete. Records are prepared and checked
before the first statement is sent.
-/

namespace TypedSql.Model

open Session

/-- A record with defaults in place of absent values. -/
def prepareRecord (model : Model) (data : Value) : Session Entries := do
  let record ← ofExcept (recordEntries data)
  drawing (model.prepare record)

/-- Whether a run of octets occurs among others. -/
def holdsRun (run : List UInt8) : List UInt8 → Bool
  | [] => run.isEmpty
  | octet :: rest => run.isPrefixOf (octet :: rest) || holdsRun run rest

/-- Whether octets hold a value: an octet by its number, or a run of octets. -/
def isListedOctet (octets : List UInt8) (name : Value) : Except Fault Bool :=
  match name, name.asInt? with
  | .bytes run, _ => .ok (holdsRun run octets)
  | _, some number =>
    if 0 ≤ number && number < 256 then .ok (octets.any fun octet => octet.toNat = number.toNat)
    else .error (.breach .badValue)
  | _, none => .error (.breach .badType)

/-- Whether field names hold a name. Text holds its parts, and only text can be looked for in it. -/
def isListed (fields name : Value) : Except Fault Bool :=
  match fields.asText?, name.asText? with
  | some chars, some part => .ok ((chars.splitOn part).length ≠ 1 || part.isEmpty)
  | some _, none => .error (.breach .badType)
  | none, _ =>
    match fields, fields.elements? with
    | .bytes octets, _ => isListedOctet octets name
    | _, some names => .ok (names.any fun field => field.isKey name)
    | _, none => .error (.breach .badType)

/-- The fields of a record that are listed; null lists all. -/
def restrict (record : Entries) (fields : Value) : Except Fault Entries :=
  if fields.isNull then .ok record
  else record.filterM fun (name, _) => isListed fields name

/-- Checks records of the table, if that is asked for. -/
def checkPrepared (model : Model) (validate : Bool) (prepared : List Entries) : Except Fault Unit :=
  if validate then prepared.forM fun record => Record.checkFor model.table (.map record)
  else .ok ()

/-- Inserts the records of a batch by one statement. -/
def insertBatch (model : Model) (batch : List Entries) : Session Unit := do
  let statement ← ofExcept (model.insertRecords (batch.map .map))
  model.runCommand statement

/-- Inserts a record and gives it back with defaults. -/
def create (model : Model) (data : Value) (validate : Bool) (fields : Value) : Session Value := do
  let record ← model.prepareRecord data
  ofExcept (model.checkPrepared validate [record])
  let record ← ofExcept (restrict record fields)
  model.insertBatch [record]
  return .map record

/-- Lists of at most `size` items that follow one another; `size` is positive. -/
def batches {α : Type} (size : Nat) : Nat → List α → List (List α)
  | _, [] => []
  | 0, _ => []
  | fuel + 1, items => items.take size :: batches size fuel (items.drop size)

/-- The number of records in a batch. -/
def batchCount (size : Value) : Except Fault Nat :=
  match size.asInt? with
  | some count => .ok count.toNat
  | none => .error (.breach .badType)

/-- The records of a bulk insertion; there have to be some, and batches have a positive size. -/
def bulkItems (records batchSize : Value) : Except Fault (List Value) :=
  if !records.isTruthy then .error .bulkEmpty
  else do
    if ← batchSize.isAtMost (.int 0) then throw (.batchSizeInvalid batchSize)
    match records.elements? with
    | some items => return items
    | none => throw (.breach .badType)

/-- The records of a bulk insertion with defaults, and the number of them in a batch. -/
def prepareBulk (model : Model) (records : Value) (validate : Bool) (batchSize : Value) :
    Session (List Entries × Nat) := do
  let items ← ofExcept (bulkItems records batchSize)
  let prepared ← items.mapM model.prepareRecord
  ofExcept (model.checkPrepared validate prepared)
  return (prepared, ← ofExcept (batchCount batchSize))

/-- Inserts records in batches and gives them back with defaults. -/
def bulkCreate (model : Model) (records : Value) (validate : Bool) (batchSize : Value) :
    Session (List Value) := do
  let (prepared, size) ← model.prepareBulk records validate batchSize
  (batches size prepared.length prepared).forM model.insertBatch
  return prepared.map .map

/-- Whether an update writes a field: null only goes into nullable columns. -/
def isWritten (model : Model) (name value : Value) : Bool :=
  !value.isNull || (model.table.column? name).any fun column => column.nullable

/-- The fields of data that an update writes. -/
def writtenFields (model : Model) (data : Entries) : Entries :=
  data.filter fun entry => model.isWritten entry.1 entry.2

/-- Updates rows; null leaves a column that is not nullable as it is. -/
def update (model : Model) (data given : Value) : Session Unit := do
  ofExcept (Record.checkPartialValues data model.table.keyed)
  let written := model.writtenFields (data.asMap?.getD [])
  let statement ← ofExcept (model.updateStatement (.map written) given)
  model.runCommand statement

/-- Empties the table. -/
def truncate (model : Model) : Session Unit := do
  log .info ("TRUNCATE TABLE " ++ model.name)
  let settings ← model.requireSettings
  let name ← ofExcept (Identifier.quoteText model.name)
  command settings (.text ("TRUNCATE TABLE " ++ name)) (.map [])

/-- Deletes rows, or empties the table. -/
def destroy (model : Model) (given : Value) (truncates : Bool) : Session Unit :=
  if truncates then model.truncate
  else do
    let statement ← ofExcept (model.deleteStatement given)
    model.runCommand statement

end TypedSql.Model
