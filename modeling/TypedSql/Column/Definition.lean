import TypedSql.Coercion
import TypedSql.Fault

/-!
# Definitions of columns

A column is defined by itself, by a kind alone, or by a map of settings in either of two spellings.
`ofDefinition` reads such a definition; `toDefinition` writes the settings that differ from the
defaults; `merged` overrides some settings of a column and reads the result again.
-/

namespace TypedSql.Column

/-- The second spelling of a setting, if it has one. -/
def aliasOf? : String → Option String
  | "primary_key" => some "primaryKey"
  | "auto_increment" => some "autoIncrement"
  | "element_type" => some "elementType"
  | "enum_values" => some "enumValues"
  | _ => none

/-- The first spelling of a setting. -/
def settingOf (key : String) : String :=
  match key with
  | "primaryKey" => "primary_key"
  | "autoIncrement" => "auto_increment"
  | "elementType" => "element_type"
  | "enumValues" => "enum_values"
  | _ => key

/-- The value that a definition gives for a setting; the second spelling wins. -/
def given? (definition : Entries) (setting : String) : Option Value :=
  ((aliasOf? setting).bind (Keyed.at? definition)).or (Keyed.at? definition setting)

/-- Reads a setting, or takes its default. -/
def readSetting {α : Type} (definition : Entries) (setting : String)
    (read : Value → Except String α) (default : α) : Except String α :=
  match given? definition setting with
  | none => .ok default
  | some value => read value

/-- The default that a value in a definition stands for: null for none, a generator for itself. -/
def wrapDefault : Value → Option (Default Value)
  | .null => none
  | .columnDefault default => some default
  | .generator source => some (.generator source)
  | value => some (.literal value)

/-- The whole number that a dimension is. -/
def wholeDimension? : Value → Option Int
  | .int number => some number
  | _ => none

/-- The dimensions that are neither whole numbers nor null. -/
def looseDimensions (dimensions : List (Dimension × Value)) : List (Dimension × Value) :=
  dimensions.filter fun entry => !entry.2.isNull && (wholeDimension? entry.2).isNone

/-- The column that a map of settings defines; otherwise the first problem in declaration order. -/
def ofSettings [Coercion] (definition : Entries) : Except String Column := do
  let kind ← Coercion.kind ((given? definition "type").getD .null)
  let nullable ← readSetting definition "nullable" Coercion.flag false
  let primaryKey ← readSetting definition "primary_key" Coercion.flag false
  let unique ← readSetting definition "unique" Coercion.flag false
  let autoIncrement ← readSetting definition "auto_increment" Coercion.flag false
  let default := (given? definition "default").bind wrapDefault
  let comment ← readSetting definition "comment" (Coercion.optional Coercion.text) none
  let elementKind ← readSetting definition "element_type" (Coercion.optional Coercion.kind) none
  let precision ← readSetting definition "precision" Coercion.dimension .null
  let scale ← readSetting definition "scale" Coercion.dimension .null
  let length ← readSetting definition "length" Coercion.dimension .null
  let enumValues ← readSetting definition "enum_values" (Coercion.optional Coercion.texts) none
  return {
    kind, nullable, primaryKey, unique, autoIncrement, comment, elementKind, enumValues, default
    precision := wholeDimension? precision
    scale := wholeDimension? scale
    length := wholeDimension? length
    loose := looseDimensions [(.precision, precision), (.scale, scale), (.length, length)] }

/-- The column that a definition stands for, under a name. -/
def ofDefinition [Coercion] (definition name : Value) : Except Fault Column :=
  match definition with
  | .column settings default loose => .ok { settings with default, loose }
  | .kind kind => .ok { kind }
  | .map entries =>
    if (Keyed.at? entries "type").any Value.isTruthy then
      (ofSettings entries).mapError fun problem => .definitionInvalid name problem entries
    else .error (.definitionWithoutKind name)
  | _ => .error (.definitionNotMapping name definition)

/-- All settings of a column, in declaration order. -/
def allSettings (column : Column) : List (String × Value) :=
  Value.columnFields column.toColumnSettings column.default column.loose

/-- The settings that are flags. -/
def flagSettings : List String := ["nullable", "primary_key", "unique", "auto_increment"]

/-- Whether a setting has the value that it has when it is left out. -/
def isUnset (setting : String) (value : Value) : Bool :=
  match value with
  | .null => true
  | .bool false => flagSettings.contains setting
  | _ => false

/-- The value that a default has in a definition: a literal bare, a generator as itself. -/
def definedDefault : Default Value → Value
  | .literal value => value
  | .generator source => .generator source

/-- The settings of a column that are not left out, and its default behind them. -/
def toDefinition (column : Column) : Entries :=
  ((column.allSettings.filter fun entry =>
      entry.1 ≠ "default" && !isUnset entry.1 entry.2).map
    fun (setting, value) => (.text setting, value)) ++
    match column.default with
    | none => []
    | some default => [(.text "default", definedDefault default)]

/-- The setting that a key of changes names, in its first spelling. -/
def changedKey (key : Value) : Value :=
  match key.asText? with
  | some text => if settingOf text = text then key else .text (settingOf text)
  | none => key

/-- The column with some settings overridden. -/
def merged [Coercion] (column : Column) (changes : Entries) (name : Value) : Except Fault Column :=
  let settings : Entries := column.allSettings.map fun (setting, value) => (.text setting, value)
  let changed := changes.map fun (key, value) => (changedKey key, value)
  ofDefinition (.map (Keyed.putAll settings changed)) name

end TypedSql.Column
