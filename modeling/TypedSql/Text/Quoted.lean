import TypedSql.Text.Classes

/-!
# Quoted text

The quoted form of a text shows it between quotes on one line: backslash escapes stand for the
quote, the backslash, line breaks and every character that is not printable. Bytes are quoted the
same way after a `b`.
-/

namespace TypedSql.Text.Quoted

/-- A text is quoted by apostrophes, or by double quotes where it holds apostrophes only. -/
def quoteFor (text : List Char) : Char :=
  if text.contains '\'' && !text.contains '"' then '"' else '\''

/-- The escape for a character that is not shown: two, four or eight hexadecimal digits. -/
def escapeCode (code : Nat) : List Char :=
  if code < 0x100 then '\\' :: 'x' :: hexFixed code 2
  else if code < 0x10000 then '\\' :: 'u' :: hexFixed code 4
  else '\\' :: 'U' :: hexFixed code 8

/-- How one character is shown inside quotes. -/
def showChar (quote c : Char) : List Char :=
  if c = quote ∨ c = '\\' then ['\\', c]
  else if c = '\n' then ['\\', 'n']
  else if c = '\r' then ['\\', 'r']
  else if c = '\t' then ['\\', 't']
  else if isPrintable c then [c]
  else escapeCode c.toNat

/-- The quoted form of a text. -/
def ofText (text : String) : String :=
  let chars := text.toList
  let quote := quoteFor chars
  String.ofList (quote :: chars.flatMap (showChar quote) ++ [quote])

/-- How one byte is shown inside quotes: printable ASCII as itself. -/
def showByte (quote : Char) (byte : UInt8) : List Char :=
  let c := Char.ofNat byte.toNat
  if byte.toNat < 0x7f then showChar quote c else escapeCode byte.toNat

/-- The quoted form of bytes. -/
def ofBytes (bytes : List UInt8) : String :=
  let quote := quoteFor (bytes.map fun byte => Char.ofNat byte.toNat)
  String.ofList ('b' :: quote :: bytes.flatMap (showByte quote) ++ [quote])

end TypedSql.Text.Quoted
