import TypedSql.Session.Run
import TypedSql.Table.Ddl

/-!
# Clients

A client has settings and a registry of models, one for each name, in the order in which the names
were first defined. It creates and drops the tables of all its models.
-/

namespace TypedSql

/-- A client and its models. -/
structure Client where
  settings : Settings := {}
  models : Keyed Model := []

/-- What a model is defined by: a table, or the definition of one. -/
inductive TableSource where
  | table (table : Table)
  | definition (definition : Value)

/-- Reads a setting of a client, or keeps its default. -/
def readOption {α : Type} (options : Entries) (name : String) (read : Value → Except String α)
    (default : α) : Except Fault α :=
  match Keyed.at? options name with
  | none => .ok default
  | some value => (read value).mapError fun _ => .breach .rejectedArgument

namespace Settings

/-- The settings that options describe; other options are ignored. -/
def ofOptions [Coercion] (options : Entries) : Except Fault Settings := do
  let database ← readOption options "database" (Coercion.optional Coercion.text) none
  let engine ← readOption options "default_engine" Coercion.text Table.defaultEngine
  let logStatements ← readOption options "log_queries" Coercion.flag true
  return { database, engine, logStatements }

end Settings

namespace Client

/-- The table that a model with a name is defined by. -/
def tableOf [Coercion] (name : Value) : TableSource → Except Fault Table
  | .table table =>
    if name.asText? = some table.name then .ok table else Table.ofColumns name table.keyed
  | .definition definition => Table.ofDefinition name definition

/-- Defines a model; a model of the same name is replaced. -/
def define [Coercion] (client : Client) (name : Value) (definition : TableSource) :
    Session (Client × Model) := do
  let table ← ofExcept (tableOf name definition)
  let model : Model := { table, settings := some client.settings }
  if client.models.has name then
    Session.log .warning ("Redefining model " ++ name.display)
  Session.log .info
    ("Defined model " ++ name.display ++ " (" ++ toString table.columns.length ++ " columns)")
  return ({ client with models := client.models.put name model }, model)

/-- The model with a name. -/
def model (client : Client) (name : Value) : Except Fault Model :=
  if !name.canBeKey then .error (.breach .badType)
  else
    match client.models.get? name with
    | some model => .ok model
    | none => .error (.modelUnknown name)

/-- Runs a statement that answers with rows. -/
def query (client : Client) (sql parameters : Value) : Session (List Value) :=
  Session.query client.settings sql parameters

/-- Runs a statement without an answer. -/
def command (client : Client) (sql parameters : Value) : Session Unit :=
  Session.command client.settings sql parameters

/-- Creates the tables of all models, in definition order. -/
def createTables (client : Client) (ifNotExists : Bool) (engine : Value) : Session Unit :=
  client.models.forM fun (name, model) => do
    Session.log .info ("CREATE TABLE " ++ name.display)
    let engine := if engine.isTruthy then engine else .text client.settings.engine
    let sql ← ofExcept (model.table.createText { engine, ifNotExists })
    client.command (.text sql) .null

/-- Drops the tables of all models, in definition order. -/
def dropTables (client : Client) (ifExists : Bool) : Session Unit :=
  client.models.forM fun (name, model) => do
    Session.log .info ("DROP TABLE " ++ name.display)
    let sql ← ofExcept (model.table.dropText ifExists)
    client.command (.text sql) .null

end Client

end TypedSql
