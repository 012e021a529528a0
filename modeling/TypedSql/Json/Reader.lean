import TypedSql.Text.Encoding
import TypedSql.Text.Hex
import TypedSql.Value.Key

/-!
# Reading JSON

The value that a JSON text denotes. Whole numbers stay whole, `NaN` and the infinities are read, and
of two entries with one key the later counts. Arrays and objects nest up to a depth; the fuel of the
readers bounds the length of the text.
-/

namespace TypedSql.Json

open TypedSql.Text TypedSql.Number

/-- Why a text denotes no value. -/
inductive ReadFault where
  | malformed
  | numeralTooLong
  | tooDeep
deriving DecidableEq, Repr

/-- Whether a character is JSON white space. -/
def isSpace (c : Char) : Bool := c = ' ' || c = '\t' || c = '\n' || c = '\r'

/-- The text without white space at its start. -/
def skipSpace (text : List Char) : List Char := text.dropWhile isSpace

/-- The number of four hexadecimal digits. -/
def readUnit? (text : List Char) : Option Nat :=
  let digits := text.take 4
  if digits.length = 4 then readHex? digits else none

/-- The character of an escape with code units, and the text after it. -/
def readEscapedCode? (text : List Char) : Option (Char × List Char) := do
  let first ← readUnit? text
  let rest := text.drop 4
  match isHighHalf first, rest with
  | true, '\\' :: 'u' :: more =>
    match readUnit? more with
    | some second =>
      if isLowHalf second then
        some (charOfCode (pairCode first second), more.drop 4)
      else some (charOfCode first, rest)
    | none => none
  | _, _ => some (charOfCode first, rest)

/-- The character of a one-letter escape. -/
def simpleEscape? : Char → Option Char
  | '"' => some '"'
  | '\\' => some '\\'
  | '/' => some '/'
  | 'b' => some '\x08'
  | 'f' => some '\x0c'
  | 'n' => some '\n'
  | 'r' => some '\r'
  | 't' => some '\t'
  | _ => none

/-- The characters up to the closing quote, and the text after it. -/
def readChars? : Nat → List Char → Option (List Char × List Char)
  | 0, _ => none
  | _, [] => none
  | _ + 1, '"' :: rest => some ([], rest)
  | fuel + 1, '\\' :: 'u' :: rest => do
    let (c, rest) ← readEscapedCode? rest
    let (chars, rest) ← readChars? fuel rest
    return (c :: chars, rest)
  | fuel + 1, '\\' :: escape :: rest => do
    let c ← simpleEscape? escape
    let (chars, rest) ← readChars? fuel rest
    return (c :: chars, rest)
  | fuel + 1, c :: rest => do
    if c.toNat < 0x20 ∨ c = '\\' then none
    let (chars, rest) ← readChars? fuel rest
    return (c :: chars, rest)

/-- The text after an opening quote, up to the closing one. -/
def readText (text : List Char) : Except ReadFault (String × List Char) :=
  match readChars? (text.length + 1) text with
  | some (chars, rest) => .ok (String.ofList chars, rest)
  | none => .error .malformed

/-- The digits of the whole part of a number: a zero alone, or digits without one in front. -/
def wholeDigits (text : List Char) : List Char :=
  match text with
  | '0' :: _ => ['0']
  | _ => text.takeWhile isAsciiDigit

/-- The digits after a point, the point included. -/
def placesOf : List Char → List Char
  | '.' :: rest =>
    let digits := rest.takeWhile isAsciiDigit
    if digits.isEmpty then [] else '.' :: digits
  | _ => []

/-- The sign of an exponent. -/
def signOf : List Char → List Char
  | '+' :: _ => ['+']
  | '-' :: _ => ['-']
  | _ => []

/-- An exponent with its mark. -/
def exponentOf : List Char → List Char
  | mark :: rest =>
    if mark = 'e' ∨ mark = 'E' then
      let sign := signOf rest
      let digits := (rest.drop sign.length).takeWhile isAsciiDigit
      if digits.isEmpty then [] else mark :: sign ++ digits
    else []
  | [] => []

/-- The number at the front of a text, after its sign. -/
def readNumber (negative : Bool) (text : List Char) : Except ReadFault (Value × List Char) :=
  let whole := wholeDigits text
  let rest := text.drop whole.length
  let places := placesOf rest
  let exponent := exponentOf (rest.drop places.length)
  if whole.isEmpty then .error .malformed
  else if places.isEmpty && exponent.isEmpty then
    if whole.length ≤ maxDigits then
      .ok (.int (signed negative (Decimal.ofAscii whole)), rest)
    else .error .numeralTooLong
  else
    let digits := whole ++ places ++ exponent
    match Decimal.readNumeral? digits with
    | some (coefficient, power) =>
      .ok (.float (Binary64.ofDecimalDigits negative coefficient power), text.drop digits.length)
    | none => .error .malformed

/-- The words that denote values, and the values. -/
def words : List (String × Value) :=
  [("null", .null), ("true", .bool true), ("false", .bool false), ("NaN", .float .nan),
    ("Infinity", .float (.infinity false)), ("-Infinity", .float (.infinity true))]

/-- The word at the front of a text. -/
def readWord? (text : List Char) : Option (Value × List Char) :=
  (words.find? fun word => word.1.toList.isPrefixOf text).map fun word =>
    (word.2, text.drop word.1.length)

/-- A word or a number. -/
def readScalar (text : List Char) : Except ReadFault (Value × List Char) :=
  match readWord? text with
  | some reading => .ok reading
  | none =>
    match text with
    | '-' :: rest => readNumber true rest
    | _ => readNumber false text

/-- How deep arrays and objects may nest in a text that is read. It is what the recursion around the
reading leaves of the stack, and so no matter of the text or of the reader. -/
class Depth where
  limit : Nat

mutual

/-- The value at the front of a text, inside of which so many arrays and objects may nest. -/
def readValue : (fuel depth : Nat) → List Char → Except ReadFault (Value × List Char)
  | 0, _, _ => .error .malformed
  | fuel + 1, depth, text =>
    match text with
    | '"' :: rest => (readText rest).map fun (chars, rest) => (.text chars, rest)
    | '[' :: rest =>
      if depth = 0 then .error .tooDeep
      else
        match skipSpace rest with
        | ']' :: rest => .ok (.list [], rest)
        | rest => (readItems fuel (depth - 1) rest).map fun (items, rest) => (.list items, rest)
    | '\x7b' :: rest =>
      if depth = 0 then .error .tooDeep
      else
        match skipSpace rest with
        | '\x7d' :: rest => .ok (.map [], rest)
        | rest =>
          (readEntries fuel (depth - 1) rest).map fun (entries, rest) =>
            (.map (Keyed.ofPairs entries), rest)
    | _ => readScalar text

/-- The items of an array from its first item to the closing bracket. -/
def readItems : (fuel depth : Nat) → List Char → Except ReadFault (List Value × List Char)
  | 0, _, _ => .error .malformed
  | fuel + 1, depth, text => do
    let (item, rest) ← readValue fuel depth text
    match skipSpace rest with
    | ',' :: rest => do
      let (items, rest) ← readItems fuel depth (skipSpace rest)
      return (item :: items, rest)
    | ']' :: rest => return ([item], rest)
    | _ => .error .malformed

/-- The entries of an object from its first key to the closing brace. -/
def readEntries :
    (fuel depth : Nat) → List Char → Except ReadFault (List (Value × Value) × List Char)
  | 0, _, _ => .error .malformed
  | fuel + 1, depth, text =>
    match text with
    | '"' :: rest => do
      let (key, rest) ← readText rest
      match skipSpace rest with
      | ':' :: rest => do
        let (value, rest) ← readValue fuel depth (skipSpace rest)
        match skipSpace rest with
        | ',' :: rest => do
          let (entries, rest) ← readEntries fuel depth (skipSpace rest)
          return ((.text key, value) :: entries, rest)
        | '\x7d' :: rest => return ([(.text key, value)], rest)
        | _ => .error .malformed
      | _ => .error .malformed
    | _ => .error .malformed

end

/-- The value that a text denotes. -/
def read [Depth] (text : String) : Except ReadFault Value := do
  let chars := text.toList
  let (value, rest) ← readValue (2 * chars.length + 2) Depth.limit (skipSpace chars)
  if (skipSpace rest).isEmpty then return value else .error .malformed

end TypedSql.Json
