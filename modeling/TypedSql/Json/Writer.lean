import TypedSql.Value.Display

/-!
# Writing JSON

The JSON text of values: two-character separators, only quotes, backslashes and control characters
escaped. A value without a JSON form is written as the text that a fallback gives it; a map key
without one has no text, and neither has a whole number with too many digits.
-/

namespace TypedSql.Json

open TypedSql.Text TypedSql.Number

/-- Why a value has no JSON text. -/
inductive WriteFault where
  | keyWithoutText
  | numeralTooLong
deriving DecidableEq, Repr

/-- How one character is written inside quotes. -/
def escapeChar (c : Char) : List Char :=
  if c = '"' then ['\\', '"']
  else if c = '\\' then ['\\', '\\']
  else if c = '\n' then ['\\', 'n']
  else if c = '\r' then ['\\', 'r']
  else if c = '\t' then ['\\', 't']
  else if c = '\x0c' then ['\\', 'f']
  else if c = '\x08' then ['\\', 'b']
  else if c.toNat < 0x20 then '\\' :: 'u' :: hexFixed c.toNat 4
  else [c]

/-- A quoted text. -/
def quote (text : String) : String :=
  String.ofList ('"' :: text.toList.flatMap escapeChar ++ ['"'])

/-- The JSON text of a flag. -/
def flagText (flag : Bool) : String := if flag then "true" else "false"

/-- The JSON text of a binary number. -/
def floatText : Binary64 → String
  | .nan => "NaN"
  | .infinity negative => Decimal.signText negative ++ "Infinity"
  | number => number.render

/-- The JSON text of a whole number. -/
def wholeText (number : Int) : Except WriteFault String :=
  if hasNumeral number then .ok (toString number) else .error .numeralTooLong

/-- The text of a map key: texts, numbers, flags and null have one. -/
def keyText (key : Value) : Except WriteFault String :=
  match key with
  | .float number => .ok (floatText number)
  | .bool flag => .ok (flagText flag)
  | .null => .ok "null"
  | .int number => wholeText number
  | _ =>
    match key.asText? with
    | some chars => .ok chars
    | none => .error .keyWithoutText

mutual

/-- The JSON text of a value, or why the first part of it that has none has none. -/
def write (fallback : Value → Option String) : Value → Except WriteFault String
  | .null => .ok "null"
  | .bool flag => .ok (flagText flag)
  | .int number => wholeText number
  | .float number => .ok (floatText number)
  | .text chars => .ok (quote chars)
  | .kind known => .ok (quote known.name)
  | .operator known => .ok (quote known.key)
  | .list items => (writeItems fallback items).map fun parts =>
    "[" ++ Value.commaSeparated parts ++ "]"
  | .tuple items => (writeItems fallback items).map fun parts =>
    "[" ++ Value.commaSeparated parts ++ "]"
  | .map entries => (writeEntries fallback entries).map fun parts =>
    "\x7b" ++ Value.commaSeparated parts ++ "\x7d"
  | value =>
    match fallback value with
    | some chars => .ok (quote chars)
    | none => .error .numeralTooLong

/-- The JSON texts of the items of an array. -/
def writeItems (fallback : Value → Option String) : List Value → Except WriteFault (List String)
  | [] => .ok []
  | item :: rest => do return (← write fallback item) :: (← writeItems fallback rest)

/-- The JSON texts of the entries of an object. -/
def writeEntries (fallback : Value → Option String) :
    List (Value × Value) → Except WriteFault (List String)
  | [] => .ok []
  | (key, value) :: rest => do
    let key ← keyText key
    return (quote key ++ ": " ++ (← write fallback value)) :: (← writeEntries fallback rest)

end

end TypedSql.Json
