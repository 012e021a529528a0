import TypedSql.Coercion
import TypedSql.Wire.Scalar

/-!
# Lenient reading of settings

The values that definitions may give for a setting: flags, whole numbers, texts and kinds are taken
from every value that plainly denotes one. A value that does not is answered with the text of the
problem.
-/

namespace TypedSql.Column.Lenient

open TypedSql.Number TypedSql.Text

/-- The problem of a value that is no flag. -/
def notFlag : String := "Input should be a valid boolean"

/-- The problem of a value that names no flag. -/
def unknownFlag : String := notFlag ++ ", unable to interpret input"

/-- The problem of a value that is no whole number. -/
def notWhole : String := "Input should be a valid integer"

/-- The problem of a text that denotes no whole number. -/
def unreadableWhole : String := notWhole ++ ", unable to parse string as an integer"

/-- The problem of a number with a fraction. -/
def fractional : String := notWhole ++ ", got a number with a fractional part"

/-- The problem of an infinity or a NaN. -/
def notFinite : String := "Input should be a finite number"

/-- The problem of a numeral with too many digits. -/
def tooLong : String :=
  "Unable to parse input string as an integer, exceeded maximum size"

/-- The problem of a value that is no text. -/
def notText : String := "Input should be a valid string"

/-- The problem of bytes that are no text. -/
def unreadableText : String := notText ++ ", unable to parse raw data as a unicode string"

/-- The problem of a value that is no tuple. -/
def notTuple : String := "Input should be a valid tuple"

/-- The problem of a value that is no list. -/
def notList : String := "Input should be a valid list"

/-- The problem of a value that is no kind: it lists them all. -/
def notKind : String :=
  let names := Kind.all.map fun kind => "'" ++ kind.name ++ "'"
  "Input should be " ++ Value.commaSeparated names.dropLast ++ " or " ++ names.getLastD ""

/-- A text, or the text that bytes encode. -/
def textOrBytes? : Value → Option (Option String)
  | .bytes octets => some (String.fromUTF8? (ByteArray.mk octets.toArray))
  | value => value.asText?.map some

/-- The text of a setting. -/
def text (value : Value) : Except String String :=
  match textOrBytes? value with
  | some (some chars) => .ok chars
  | some none => .error unreadableText
  | none =>
    match value with
    | .member _ inner => .ok inner.display
    | _ => .error notText

/-- The kind of a setting, given by itself or by its name. -/
def kind (value : Value) : Except String Kind :=
  match (text value).toOption.bind Kind.ofName? with
  | some known => .ok known
  | none => .error notKind

/-- The texts that name a flag, in any letter case. -/
def flagTexts : List (String × Bool) :=
  [("0", false), ("off", false), ("f", false), ("false", false), ("n", false), ("no", false),
    ("1", true), ("on", true), ("t", true), ("true", true), ("y", true), ("yes", true)]

/-- The flag that a number counts as: zero and one are flags, and numbers beyond 64 bits are not
even read. -/
def flagOfInt (number : Int) : Except String Bool :=
  if number = 0 then .ok false
  else if number = 1 then .ok true
  else if inRange (signedRange 64) number then .error unknownFlag
  else .error notFlag

/-- The whole number that a binary number is, strictly within 64 bits. -/
def wholeFloat (negative : Bool) (significand : Nat) (exponent : Int) : Except String Int :=
  let number := signed negative (Binary64.wholePart significand exponent)
  if !Binary64.isWhole significand exponent then .error fractional
  else if number.natAbs < twoTo 63 then .ok number
  else .error tooLong

/-- The flag that a binary number counts as. -/
def flagOfFloat : Binary64 → Except String Bool
  | .finite negative significand exponent =>
    match wholeFloat negative significand exponent with
    | .ok number => flagOfInt number
    | .error _ => .error notFlag
  | _ => .error notFlag

/-- The flag of a setting. -/
def flag (value : Value) : Except String Bool :=
  match value with
  | .bool known => .ok known
  | .int number => flagOfInt number
  | .float number => flagOfFloat number
  | .decimal number =>
    match Binary64.ofDecimal? number with
    | some nearest => flagOfFloat nearest
    | none => .error notFlag
  | _ =>
    match textOrBytes? value with
    | some (some chars) =>
      match flagTexts.lookup (String.ofList (chars.toList.map Char.toLower)) with
      | some known => .ok known
      | none => .error unknownFlag
    | some none => .error unknownFlag
    | none => .error notFlag

/-- The whole number of a plain numeral: a minus at most, and digits without a zero in front. -/
def plainWhole (chars : List Char) : Except String Int :=
  let negative := chars.head? == some '-'
  let body := if negative then chars.drop 1 else chars
  let digits := body.takeWhile isAsciiDigit
  let isPadded := digits.head? == some '0'
  if !isPadded && maxDigits < digits.length + negative.toNat then .error tooLong
  else if digits.isEmpty || digits.length < body.length || (isPadded && 1 < digits.length) then
    .error unreadableWhole
  else .ok (signed negative (Decimal.ofAscii digits))

/-- Whether a character may stand in a run of zeros behind the first. -/
def isPadding (c : Char) : Bool := c = '0' || c = '_'

/-- A numeral without the zeros in front of it. A zero before the places and the last character of
all are kept; anything but a digit, a minus or a point behind the zeros is no numeral. -/
def dropPadding? (chars : List Char) : Option (List Char) :=
  let kept := chars.dropWhile isPadding
  let padding := chars.takeWhile isPadding
  match chars.head?, kept.head? with
  | some '0', none => some (padding.drop (padding.length - 1))
  | some '0', some '.' => some (padding.drop (padding.length - 1) ++ kept)
  | some '0', some c => if isAsciiDigit c || c = '-' then some kept else none
  | some c, _ => if isAsciiDigit c || c = '-' then some chars else none
  | none, _ => none

/-- A numeral without a tail of zero places. -/
def dropZeroPlaces (chars : List Char) : List Char :=
  let places := (chars.dropWhile (· ≠ '.')).drop 1
  if !places.isEmpty && places.all (· = '0') then chars.takeWhile (· ≠ '.') else chars

/-- Whether two underscores follow one another. -/
def hasDoubleUnderscore : List Char → Bool
  | '_' :: '_' :: _ => true
  | _ :: rest => hasDoubleUnderscore rest
  | [] => false

/-- A numeral without its underscores, if each of them stands alone and inside. -/
def dropUnderscores (chars : List Char) : List Char :=
  if chars.head? = some '_' || chars.getLast? = some '_' || hasDoubleUnderscore chars then chars
  else chars.filter (· ≠ '_')

/-- A numeral without what may be left out: a plus, zeros in front, zero places and underscores. -/
def cleanNumeral? (chars : List Char) : Option (List Char) :=
  let strip (digits : List Char) : Option (List Char) :=
    (dropPadding? digits).map fun digits => dropUnderscores (dropZeroPlaces digits)
  match chars with
  | '+' :: '-' :: _ => none
  | '+' :: digits => strip digits
  | '-' :: digits => (strip digits).map ('-' :: ·)
  | digits => strip digits

/-- The whole number that a text denotes: as it stands, or as a numeral with optional parts. -/
def readWhole (chars : List Char) : Except String Int :=
  match plainWhole chars, cleanNumeral? (trimSpace chars) with
  | .ok number, _ => .ok number
  | .error problem, none => .error problem
  | .error problem, some digits => if problem = tooLong then .error problem else plainWhole digits

/-- The whole number of a setting. -/
def whole (value : Value) : Except String Int :=
  match value with
  | .bool known => .ok known.toInt
  | .int number => .ok number
  | .float (.finite negative significand exponent) => wholeFloat negative significand exponent
  | .float _ => .error notFinite
  | .decimal (.finite negative coefficient exponent) =>
    if Decimal.isWhole coefficient exponent then
      .ok (Decimal.truncate negative coefficient exponent)
    else .error fractional
  | .decimal _ => .error notFinite
  | _ =>
    match textOrBytes? value with
    | some (some chars) => readWhole chars.toList
    | some none => .error unreadableWhole
    | none => .error notWhole

/-- A dimension of a column: a whole number, null, or what a member of an enumeration holds. -/
def dimension (value : Value) : Except String Value :=
  match value with
  | .null => .ok .null
  | .member _ inner => .ok inner
  | _ => (whole value).map .int

/-- The texts of a setting with several; the fields of a record are none. -/
def texts (value : Value) : Except String (List String) :=
  match value.asItems?, value.fields? with
  | some items, _ => items.mapM text
  | none, some _ => .error notText
  | none, none => .error notTuple

/-- The items of a list or a tuple, or the fields of a record. -/
def items (value : Value) : Except String (List Value) :=
  match value.asItems?, value.fields? with
  | some items, _ => .ok items
  | none, some _ => .ok (value.elements?.getD [])
  | none, none => .error notList

/-- The readings together. -/
abbrev coercion : Coercion where
  kind := kind
  flag := flag
  text := text
  texts := texts
  items := items
  dimension := dimension

/-- The readings, but for dimensions that members of enumerations give: they are refused. -/
abbrev strictCoercion : Coercion :=
  { coercion with
    dimension := fun value => if value.isNull then .ok .null else (whole value).map .int }

end TypedSql.Column.Lenient
