import TypedSql.Column.Basic
import TypedSql.Json.Writer

/-!
# Faults

Everything that can go wrong, one constructor per cause. `Fault.report` gives the report of a cause:
its family, its message and its context. A breach is a misuse of a basic operation and has no report
of its own; neither has a cause whose message would show a value without a text form.
-/

namespace TypedSql

/-- A basic operation used outside of its domain. -/
inductive Breach where
  | badValue
  | badType
  | missingKey
  | badIndex
  | outOfRange
  | refusedBySystem
  | divisionByZero
  | malformedJson
  | malformedUtf8
  | tooDeep
  | invalidDecimal
  | malformedPattern
  | missingAttribute
  | rejectedArgument
deriving DecidableEq, Repr

/-- The breach of writing a value that has no JSON text. -/
def Breach.ofWriteFault : Json.WriteFault → Breach
  | .keyWithoutText => .badType
  | .numeralTooLong => .badValue

/-- The text form of a value, or the breach of showing one that has none. -/
def Value.requireText (value : Value) : Except Breach String :=
  match value.displayed? with
  | some chars => .ok chars
  | none => .error .badValue

/-- A requirement on a column of some kind. -/
inductive ColumnRule where
  | positiveLength
  | positivePrecision
  | scaleWithinPrecision
  | elementKind (kind : Kind)
  | enumValues
  | enumLimit (kind : Kind) (limit : Nat)
  | primaryKeyNotNullable
  | autoIncrementInteger (kind : Kind)
deriving DecidableEq, Repr

/-- What a conversion expects of a value. -/
inductive Expectation where
  | integer | number | decimal | moment | array | tuple | object | storedArray
deriving DecidableEq, Repr

/-- An option of a query. -/
inductive QueryOption where
  | limit | offset | timeout
deriving DecidableEq, Repr

/-- A cause of failure. -/
inductive Fault where
  | breach (breach : Breach)
  | raised (family : Family) (message context : Value)
  | definitionNotMapping (name given : Value)
  | definitionWithoutKind (name : Value)
  | definitionInvalid (name : Value) (problem : String) (definition : Entries)
  | incompleteType (column : Column)
  | unconvertible (expectation : Expectation) (value : Value) (kind : Kind)
  | nullNotAllowed (kind : Kind)
  | tableNameMissing (name : Value)
  | tableNameInvalid (name : Value)
  | tableNameTooLong (name : Value)
  | fieldNameInvalid (name : Value)
  | columnRuleBroken (name : Value) (rule : ColumnRule)
  | schemaEmpty
  | severalPrimaryKeys (names : List Value)
  | recordFieldUnknown (name value : Value)
  | recordValueInvalid (name value : Value) (kind : Kind)
  | recordFieldRequired (name : Value)
  | primaryKeyUpdated (name value : Value)
  | queryOptionInvalid (option : QueryOption) (value : Value)
  | conditionKeyInvalid (key condition : Value)
  | ruleBroken (message : String) (field value : Value)
  | outsideRange (low high field value : Value)
  | outsideLength (low high field value : Value)
  | patternUnmatched (pattern : String) (field value : Value)
  | conditionNotMapping (condition : Value)
  | groupNotList (key : Value) (children : Value)
  | membersNotList (operator : Operator) (field value : Value)
  | betweenNotPair (field value : Value)
  | operatorUnknown (key field : Value)
  | identifierInvalid (name : Value)
  | directionInvalid (direction : Value)
  | rowWidthMismatch (expected given : Nat) (row : Value)
  | tableNotSet
  | rowsNotSet
  | assignmentsNotSet
  | schemaNotMapping (given : Value)
  | columnMissing (table : String) (name : Value)
  | columnExists (table : String) (name : Value)
  | recordNotMapping (table : String) (given : Value)
  | fieldUnknown (table : String) (field : Value)
  | aggregatesEmpty
  | aggregateFunctionUnknown (label function : Value)
  | conditionRequired (operation table : String)
  | updateEmpty (table : String)
  | insertEmpty
  | unbound (table : String)
  | primaryKeyMissing (table : String)
  | bulkEmpty
  | batchSizeInvalid (size : Value)
  | modelUnknown (name : Value)
  | statementFailed (reason : Value) (sql : Value) (params : Entries)

/-- A reported failure. The context is a map, unless a general report was given something else. -/
structure Report where
  family : Family
  message : Value
  context : Value

namespace Report

/-- The code of a family of reports. -/
def codeOf : Family → String
  | .general => "ORMHOUSE_ERROR"
  | .validation => "VALIDATION_ERROR"
  | .typeMapping => "TYPE_MAPPING_ERROR"
  | .schema => "SCHEMA_ERROR"
  | .query => "QUERY_ERROR"
  | .model => "MODEL_ERROR"

/-- The code of a report. -/
def code (report : Report) : String := codeOf report.family

/-- The context fields that every report of a family has. -/
def ownFields : Family → List String
  | .general => []
  | .validation => ["field", "value", "constraint"]
  | .typeMapping => ["source_type", "target_type", "value"]
  | .schema => ["table_name", "column_name"]
  | .query => ["sql", "params"]
  | .model => ["model_name"]

/-- The context of a report: further entries, then its own fields; missing ones are null. -/
def contextOf (family : Family) (own : List Value) (further : Entries) : Value :=
  let names := ownFields family
  let fields := (names.zip (own ++ List.replicate names.length .null)).map fun (name, value) =>
    (Value.text name, value)
  .map (Keyed.putAll further fields)

/-- The report with a message and own fields. -/
def make (family : Family) (message : String) (own : List Value) : Report :=
  { family, message := .text message, context := contextOf family own [] }

/-- The report that a list of arguments describes: the message, the own fields, further context. -/
def ofArguments (family : Family) : List Value → Except Breach Report
  | [] => .error .badType
  | message :: rest =>
    let count := (ownFields family).length
    let own := rest.take count
    match rest.drop count with
    | [] => .ok { family, message, context := contextOf family own [] }
    | [.map entries] => .ok { family, message, context := contextOf family own entries }
    | [further] =>
      if !further.isTruthy then .ok { family, message, context := contextOf family own [] }
      else if family = .general then .ok { family, message, context := further }
      else .error .badType
    | _ => .error .badType

/-- A report as a value. -/
def toValue (report : Report) : Value := .report report.family report.message report.context

/-- The entries of the plain form of a report: name, message, code and context. -/
def entries (report : Report) : List (String × Value) :=
  [("name", .text (Value.familyName report.family)), ("message", report.message),
    ("code", .text report.code), ("context", report.context)]

/-- The line of a log for a report: code, message and the context in JSON. -/
def format (report : Report) : Except Breach String := do
  let context ← (Json.write Value.inspected? report.context).mapError Breach.ofWriteFault
  let message ← report.message.requireText
  return "[" ++ report.code ++ "] " ++ message ++ "\nContext: " ++ context

end Report

namespace ColumnRule

/-- What a broken requirement says about a column. -/
def message (rule : ColumnRule) (name : String) : String :=
  match rule with
  | positiveLength => "FixedString column '" ++ name ++ "' requires a positive length"
  | positivePrecision => "Decimal column '" ++ name ++ "' requires a positive precision"
  | scaleWithinPrecision =>
    "Decimal column '" ++ name ++ "' scale must be between 0 and precision"
  | elementKind kind => kind.name ++ " column '" ++ name ++ "' requires element_type"
  | enumValues => "Enum column '" ++ name ++ "' requires enum_values"
  | enumLimit kind limit =>
    kind.name ++ " column '" ++ name ++ "' cannot have more than " ++ toString limit ++ " values"
  | primaryKeyNotNullable => "Primary key column '" ++ name ++ "' cannot be nullable"
  | autoIncrementInteger kind =>
    "Auto increment is only supported for integer types, but column '" ++ name ++ "' is " ++
      kind.name

end ColumnRule

namespace Expectation

/-- What an unmet expectation says. -/
def message : Expectation → String
  | integer => "Expected integer value"
  | number => "Expected numeric value"
  | decimal => "Expected decimal value"
  | moment => "Invalid date/time value"
  | array => "Expected array value"
  | tuple => "Expected tuple value"
  | object => "Expected object value"
  | storedArray => "Expected array value from database"

end Expectation

namespace QueryOption

/-- The name of an option in contexts. -/
def field : QueryOption → String
  | limit => "limit"
  | offset => "offset"
  | timeout => "timeout"

/-- What an invalid option says. -/
def message : QueryOption → String
  | limit => "Limit must be a non-negative integer"
  | offset => "Offset must be a non-negative integer"
  | timeout => "Timeout must be a positive integer"

end QueryOption

namespace Fault

open Report

/-- The rule that names of tables and fields follow. -/
def nameRule (subject : String) : String :=
  subject ++ " names must start with a letter or underscore and contain only alphanumeric " ++
    "characters and underscores."

/-- What a type text needs but a column of the kind lacks. -/
def missingPart (kind : Kind) : String :=
  match kind with
  | .fixedString => "FixedString type requires length"
  | .decimal => "Decimal type requires precision"
  | .enum8 | .enum16 => "Enum type requires enum_values"
  | _ => kind.name ++ " type requires element_type"

/-- The keyword of a membership operator. -/
def membershipKeyword (operator : Operator) : String :=
  if operator = .oneOf then "IN" else "NOT IN"

/-- A validation report about a field. -/
def invalid (message : String) (field value constraint : Value) : Report :=
  make .validation message [field, value, constraint]

/-- The report of a cause. A breach has none, and the breach of showing a value without a text form
takes the place of a report whose message shows one. -/
def report : Fault → Except Breach Report
  | breach known => .error known
  | raised family message context => .ok { family, message, context }
  | definitionNotMapping name given => name.requireText.map fun shown =>
    invalid ("Column '" ++ shown ++ "' definition must be a mapping or ColumnDefinition, got " ++
      given.typeName) name given .null
  | definitionWithoutKind name => name.requireText.map fun shown =>
    invalid ("Column '" ++ shown ++ "' is missing type") name .null .null
  | definitionInvalid name problem definition => name.requireText.map fun shown =>
    invalid ("Invalid definition for column '" ++ shown ++ "': " ++ problem) name
      (.map definition) .null
  | incompleteType column => .ok <|
    make .typeMapping (missingPart column.kind) [.text column.kind.name, .null, column.toValue]
  | unconvertible expectation value kind =>
    let given := if expectation = .moment ∧ value.isText then "str" else value.typeName
    .ok <| make .typeMapping expectation.message [.text given, .text kind.name, value]
  | nullNotAllowed kind => .ok <|
    make .typeMapping "Value cannot be null for non-nullable column"
      [.text (Value.typeName .null), .text kind.name, .null]
  | tableNameMissing name => .ok <|
    invalid "Table name must be a non-empty string" (.text "table_name") name .null
  | tableNameInvalid name => name.requireText.map fun shown =>
    invalid ("Invalid table name '" ++ shown ++ "'. " ++ nameRule "Table") (.text "table_name") name
      .null
  | tableNameTooLong name => name.requireText.map fun shown =>
    invalid ("Table name '" ++ shown ++ "' is too long. Maximum length is 64 characters.")
      (.text "table_name") name .null
  | fieldNameInvalid name => name.requireText.map fun shown =>
    invalid ("Invalid field name '" ++ shown ++ "'. " ++ nameRule "Field") name .null .null
  | columnRuleBroken name rule => name.requireText.map fun shown =>
    invalid (rule.message shown) name .null .null
  | schemaEmpty => .ok <| invalid "Schema must have at least one field" .null .null .null
  | severalPrimaryKeys names => .ok <|
    invalid ("Multiple primary keys found: " ++
      Value.commaSeparated (names.filterMap Value.asText?) ++
      ". Only one primary key is allowed.") .null (.list names) (.text "primaryKey")
  | recordFieldUnknown name value => name.requireText.map fun shown =>
    invalid ("Unknown field '" ++ shown ++ "'") name value .null
  | recordValueInvalid name value kind => name.requireText.map fun shown =>
    invalid ("Invalid value for field '" ++ shown ++ "': expected " ++ kind.name) name value
      (.text "type")
  | recordFieldRequired name => name.requireText.map fun shown =>
    invalid ("Field '" ++ shown ++ "' is required") name .null (.text "required")
  | primaryKeyUpdated name value => name.requireText.map fun shown =>
    invalid ("Cannot update primary key field '" ++ shown ++ "'") name value (.text "primaryKey")
  | queryOptionInvalid option value => .ok <|
    invalid option.message (.text option.field) value .null
  | conditionKeyInvalid key condition => key.requireText.map fun shown =>
    invalid ("Invalid WHERE condition operator or field: '" ++ shown ++ "'") key condition .null
  | ruleBroken message field value => .ok <| invalid message field value (.text "custom")
  | outsideRange low high field value => do
    let least ← low.requireText
    let most ← high.requireText
    return invalid ("Value must be between " ++ least ++ " and " ++ most) field value
      (.text "range")
  | outsideLength low high field value => do
    let least ← low.requireText
    let most ← high.requireText
    return invalid ("Length must be between " ++ least ++ " and " ++ most ++ " characters") field
      value (.text "length")
  | patternUnmatched pattern field value => .ok <|
    invalid ("Value does not match required pattern: " ++ pattern) field value (.text "pattern")
  | conditionNotMapping condition => .ok <|
    invalid ("WHERE condition must be a mapping, got " ++ condition.typeName) .null condition .null
  | groupNotList key children => key.requireText.map fun shown =>
    invalid ("'" ++ shown ++ "' requires a list of conditions") key children .null
  | membersNotList operator field value => .ok <|
    invalid (membershipKeyword operator ++ " operator requires a list") field value
      (.text operator.key)
  | betweenNotPair field value => .ok <|
    invalid "BETWEEN operator requires exactly 2 values" field value (.text Operator.between.key)
  | operatorUnknown key field => key.requireText.map fun shown =>
    invalid ("Unknown operator: " ++ shown) field key (.text "operator")
  | identifierInvalid name => name.requireText.map fun shown =>
    invalid ("Invalid SQL identifier: " ++ shown) (.text "identifier") name .null
  | directionInvalid direction => direction.requireText.map fun shown =>
    invalid ("Invalid ORDER BY direction: " ++ shown) (.text "direction") direction .null
  | rowWidthMismatch expected given row => .ok <|
    invalid ("Expected " ++ toString expected ++ " values per row, got " ++ toString given)
      (.text "values") row .null
  | tableNotSet => .ok <| invalid "Statement has no table" (.text "table") .null .null
  | rowsNotSet => .ok <|
    invalid "INSERT requires at least one row of values" (.text "values") .null .null
  | assignmentsNotSet => .ok <|
    invalid "UPDATE requires at least one assignment" (.text "set") .null .null
  | schemaNotMapping given => .ok <|
    invalid ("Schema definition must be a mapping, got " ++ given.typeName) .null given .null
  | columnMissing table name => name.requireText.map fun shown =>
    make .schema ("Column '" ++ shown ++ "' does not exist in table '" ++ table ++ "'")
      [.text table, name]
  | columnExists table name => name.requireText.map fun shown =>
    make .schema ("Column '" ++ shown ++ "' already exists in table '" ++ table ++ "'")
      [.text table, name]
  | recordNotMapping table given => .ok <|
    make .schema ("Expected a mapping, got " ++ given.typeName) [.text table]
  | fieldUnknown table field => field.requireText.map fun shown =>
    invalid ("Unknown field '" ++ shown ++ "' for table '" ++ table ++ "'") field .null .null
  | aggregatesEmpty => .ok <|
    invalid "aggregate requires at least one aggregation" (.text "aggregates") .null .null
  | aggregateFunctionUnknown label function => function.requireText.map fun shown =>
    invalid ("Unknown aggregate function: " ++ shown) label function .null
  | conditionRequired operation table => .ok <|
    make .model (operation ++ " requires a WHERE condition; pass one or chain .where() first")
      [.text table]
  | updateEmpty table => .ok <|
    make .model "UPDATE requires at least one field to update" [.text table]
  | insertEmpty => .ok <|
    invalid "INSERT requires at least one record" (.text "records") .null .null
  | unbound table => .ok <|
    make .model ("Model '" ++ table ++ "' is not bound to a client") [.text table]
  | primaryKeyMissing table => .ok <|
    make .model ("No primary key defined for table " ++ table) [.text table]
  | bulkEmpty => .ok <|
    invalid "bulk_create requires at least one record" (.text "records") .null .null
  | batchSizeInvalid size => .ok <|
    invalid "batch_size must be positive" (.text "batch_size") size .null
  | modelUnknown name => name.requireText.map fun shown =>
    make .model ("No model defined with name " ++ "\x60" ++ shown ++ "\x60") [name]
  | statementFailed reason sql params => reason.requireText.map fun shown =>
    make .query ("Statement failed: " ++ shown) [sql, .map params]

/-- The report of a cause, if there is one. -/
def report? (fault : Fault) : Option Report := fault.report.toOption

end Fault

/-- The text form of a value; to ask for one that is not there is a fault. -/
def Value.displayed (value : Value) : Except Fault String := value.requireText.mapError .breach

/-- The text form of a value without its null characters. -/
def Value.displayedClean (value : Value) : Except Fault String :=
  value.displayed.map fun chars => String.ofList (chars.toList.filter (· ≠ '\x00'))

/-- The JSON text of a value; anything without a JSON form is written as its displayed text. -/
def Value.jsonText (value : Value) : Except Fault String :=
  (Json.write Value.displayed? value).mapError fun fault => .breach (.ofWriteFault fault)

/-- The log line for an exception of any sort; a report without JSON context has none. -/
def formatException : Value → Except Breach String
  | .report family message context => Report.format { family, message, context }
  | error => error.requireText.map fun shown => "[" ++ error.typeName ++ "] " ++ shown

end TypedSql
