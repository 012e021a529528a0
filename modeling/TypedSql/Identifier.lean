import TypedSql.Fault

/-!
# Identifiers

Names of tables, columns and aliases: an ASCII letter or underscore, then letters, digits and
underscores. One line break at the very end is tolerated. `quote` is the only way from a name into
SQL text.
-/

namespace TypedSql.Identifier

open TypedSql.Text

/-- Whether a character may start a name. -/
def isStart (c : Char) : Bool := isAsciiLetter c || c = '_'

/-- Whether a character may stand inside a name. -/
def isPart (c : Char) : Bool := isStart c || isAsciiDigit c

/-- The text without one line break at its end. -/
def dropFinalBreak (text : List Char) : List Char :=
  if text.getLast? = some '\n' then text.dropLast else text

/-- Whether a text is a name. -/
def isName (text : String) : Bool :=
  match text.toList with
  | [] => false
  | first :: rest => isStart first && (dropFinalBreak rest).all isPart

/-- Whether a value is the text of a name. -/
def isNameValue (value : Value) : Bool := value.asText?.any isName

/-- A text between backticks. -/
def backquoted (text : String) : String := "\x60" ++ text ++ "\x60"

/-- The quoted form of a name; anything else is refused. -/
def quote (name : Value) : Except Fault String :=
  if isNameValue name then .ok (backquoted name.display) else .error (.identifierInvalid name)

/-- The quoted form of a name that is a text. -/
def quoteText (name : String) : Except Fault String := quote (.text name)

/-- The longest name of a table. -/
def maxTableNameLength : Nat := 64

/-- Checks the name of a table and gives its text. -/
def checkTableName (name : Value) : Except Fault String :=
  match name.asText? with
  | none => .error (.tableNameMissing name)
  | some text =>
    if text.isEmpty then .error (.tableNameMissing name)
    else if !isName text then .error (.tableNameInvalid name)
    else if maxTableNameLength < text.length then .error (.tableNameTooLong name)
    else .ok text

end TypedSql.Identifier
