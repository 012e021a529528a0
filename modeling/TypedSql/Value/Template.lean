import TypedSql.Text.Encoding
import TypedSql.Value.Whole

/-!
# Templates

A template is a text, or bytes, with places that values are put into. A place is a percent sign with
an optional key in parentheses, flags, a width, a number of places, a size mark and a conversion;
two percent signs are no place. `checkTemplate` takes the steps of a template in order and reports
the first that cannot be done: a malformed place, a missing or superfluous value, one of the wrong
sort.
-/

namespace TypedSql

open TypedSql.Text TypedSql.Number

/-- What a template is made of. -/
inductive TemplateForm where
  | text
  | bytes
deriving DecidableEq, Repr

/-- A step in filling a template. -/
inductive TemplateStep where
  | needKeys
  | key (name : List Char)
  | count (limit : Nat)
  | convert (mark : Char)
  | fail
deriving DecidableEq, Repr

namespace TemplateStep

/-- The characters of a key up to the closing parenthesis, and the text behind it. -/
def readKey? : (depth : Nat) → List Char → Option (List Char × List Char)
  | _, [] => none
  | 0, ')' :: rest => some ([], rest)
  | depth, c :: rest =>
    let inner := if c = '(' then depth + 1 else if c = ')' then depth - 1 else depth
    (readKey? inner rest).map fun (name, rest) => (c :: name, rest)

/-- The steps of an optional key, and the text behind it; none if the key has no end. -/
def ofKey (text : List Char) : List TemplateStep × Option (List Char) :=
  match text with
  | '(' :: rest =>
    match readKey? 0 rest with
    | some (name, rest) => ([needKeys, key name], some rest)
    | none => ([needKeys, fail], none)
  | _ => ([], some text)

/-- Whether a character is a flag of a place. -/
def isFlag (c : Char) : Bool := ['-', '+', ' ', '#', '0'].contains c

/-- Whether a character marks the size of a number. -/
def isSizeMark (c : Char) : Bool := ['h', 'l', 'L'].contains c

/-- The steps of an optional count below a limit, and the text behind it. -/
def ofCount (limit : Nat) (text : List Char) : List TemplateStep × Option (List Char) :=
  match text with
  | '*' :: rest => ([count limit], some rest)
  | _ =>
    let digits := text.takeWhile isAsciiDigit
    if Decimal.ofAscii digits < limit then ([], some (text.drop digits.length)) else ([fail], none)

/-- The steps of an optional number of places, and the text behind it. -/
def ofPlaces (text : List Char) : List TemplateStep × Option (List Char) :=
  match text with
  | '.' :: rest => ofCount (twoTo 31) rest
  | _ => ([], some text)

/-- The step of the conversion of a place, and the text behind it. -/
def ofMark (text : List Char) : List TemplateStep × Option (List Char) :=
  match if text.head?.any isSizeMark then text.drop 1 else text with
  | mark :: rest => ([convert mark], some rest)
  | [] => ([fail], none)

/-- The steps of one part of a place after those of the parts before it. -/
def followedBy (before : List TemplateStep × Option (List Char))
    (part : List Char → List TemplateStep × Option (List Char)) :
    List TemplateStep × Option (List Char) :=
  match before with
  | (steps, none) => (steps, none)
  | (steps, some rest) =>
    let (more, rest) := part rest
    (steps ++ more, rest)

/-- The steps of a place behind its percent sign, and the text behind the place. -/
def ofPlace (text : List Char) : List TemplateStep × Option (List Char) :=
  let flagged := followedBy (ofKey text) fun rest => ([], some (rest.dropWhile isFlag))
  followedBy (followedBy (followedBy flagged (ofCount (twoTo 63))) ofPlaces) ofMark

/-- The steps of a template. The fuel bounds the number of its characters. -/
def ofTemplate : (fuel : Nat) → List Char → List TemplateStep
  | 0, _ => []
  | _, [] => []
  | fuel + 1, '%' :: '%' :: rest => ofTemplate fuel rest
  | fuel + 1, '%' :: rest =>
    match ofPlace rest with
    | (steps, some rest) => steps ++ ofTemplate fuel rest
    | (steps, none) => steps
  | fuel + 1, _ :: rest => ofTemplate fuel rest

end TemplateStep

/-- The values that are left for the places of a template. -/
inductive Supply where
  | items (values : List Value)
  | whole (value : Value) (isTaken : Bool)

namespace Supply

/-- The values that a value supplies: the items of a tuple, else the value itself. -/
def ofValue : Value → Supply
  | .tuple values => items values
  | value => whole value false

/-- The next value, and what is left. -/
def next : Supply → Except Fault (Value × Supply)
  | items (value :: rest) => .ok (value, items rest)
  | whole value false => .ok (value, whole value true)
  | _ => .error (.breach .badType)

/-- Whether nothing is left. -/
def isUsedUp : Supply → Bool
  | items values => values.isEmpty
  | whole _ isTaken => isTaken

end Supply

namespace Value

/-- Whether the values of a template are looked up in a value. -/
def hasItems (form : TemplateForm) : Value → Bool
  | list _ => true
  | map _ => true
  | bytes _ => form = .text
  | _ => false

/-- A key in a template as a value. -/
def templateKey (form : TemplateForm) (name : List Char) : Value :=
  match form with
  | .text => text (String.ofList name)
  | .bytes => bytes (name.map fun c => c.toNat.toUInt8)

/-- The value under a key of a template. -/
def lookUp (form : TemplateForm) (name : List Char) : Value → Except Fault Value
  | map entries =>
    match Keyed.get? entries (templateKey form name) with
    | some value => .ok value
    | none => .error (.breach .missingKey)
  | _ => .error (.breach .badType)

/-- Checks a count that is given by a value. -/
def checkCount (limit : Nat) (value : Value) : Except Fault Unit :=
  match value.asInt? with
  | some number =>
    if -(limit : Int) ≤ number && number < limit then .ok () else .error (.breach .outOfRange)
  | none => .error (.breach .badType)

/-- Checks that a value can be written as a whole number. -/
def checkWhole (value : Value) : Except Fault Unit :=
  match value with
  | bool _ | int _ | float _ | decimal _ | uuid _ | ipv4 _ | ipv6 _ => do
    let _ ← (int (← value.toWhole)).displayed
  | _ => .error (.breach .badType)

/-- Checks that a value can be written as a binary number. -/
def checkBinary (value : Value) : Except Fault Unit :=
  match value with
  | bool _ => .ok ()
  | int number => (Wire.floatOfInt number).map fun _ => ()
  | float _ => .ok ()
  | decimal number =>
    if (Binary64.ofDecimal? number).isSome then .ok () else .error (.breach .badValue)
  | _ => .error (.breach .badType)

/-- Checks that a value can be written as one character below a limit, or one byte. -/
def checkCharacter (form : TemplateForm) (value : Value) : Except Fault Unit :=
  match form, value.asInt?, value.asText?, value with
  | .text, some code, _, _ =>
    if 0 ≤ code && code ≤ maxCode then .ok () else .error (.breach .outOfRange)
  | .bytes, some code, _, _ =>
    if 0 ≤ code && code < 256 then .ok () else .error (.breach .outOfRange)
  | .text, none, some chars, _ => if chars.length = 1 then .ok () else .error (.breach .badType)
  | .bytes, none, _, bytes [_] => .ok ()
  | _, _, _, _ => .error (.breach .badType)

/-- Checks that bytes are written as bytes. -/
def checkBytes : Value → Except Fault Unit
  | bytes _ => .ok ()
  | _ => .error (.breach .badType)

/-- The breach of a conversion that there is not. -/
def unknownConversion (form : TemplateForm) (mark : Char) : Breach :=
  if form = .bytes && 0x80 ≤ mark.toNat then .outOfRange else .badValue

/-- Checks that a value can be written by a conversion. -/
def checkConversion (form : TemplateForm) (mark : Char) (value : Value) : Except Fault Unit :=
  if ['d', 'i', 'u'].contains mark then value.checkWhole
  else if ['o', 'x', 'X'].contains mark then
    if value.asInt?.isSome then .ok () else .error (.breach .badType)
  else if ['e', 'E', 'f', 'F', 'g', 'G'].contains mark then
    if form = .bytes then value.checkBinary.mapError fun _ => .breach .badType
    else value.checkBinary
  else if mark = 'c' then value.checkCharacter form
  else if mark = 'r' || mark = 'a' || (mark = 's' && form = .text) then .ok ()
  else if mark = 's' || (mark = 'b' && form = .bytes) then value.checkBytes
  else .error (.breach (unknownConversion form mark))

/-- Takes the steps of a template with what is left of its values. -/
def checkSteps (form : TemplateForm) (values : Value) :
    List TemplateStep → Supply → Except Fault Supply
  | [], supply => .ok supply
  | .needKeys :: steps, supply =>
    if values.hasItems form then checkSteps form values steps supply
    else .error (.breach .badType)
  | .key name :: steps, _ => do
    checkSteps form values steps (.whole (← values.lookUp form name) false)
  | .count limit :: steps, supply => do
    let (value, supply) ← supply.next
    value.checkCount limit
    checkSteps form values steps supply
  | .convert mark :: steps, supply => do
    let (value, supply) ← supply.next
    value.checkConversion form mark
    checkSteps form values steps supply
  | .fail :: _, _ => .error (.breach .badValue)

/-- Checks that a template can be filled with values, each of them used. -/
def checkTemplate (form : TemplateForm) (template : List Char) (values : Value) :
    Except Fault Unit := do
  let steps := TemplateStep.ofTemplate (template.length + 1) template
  let supply ← checkSteps form values steps (.ofValue values)
  if !supply.isUsedUp && !values.hasItems form then throw (.breach .badType)

end Value

end TypedSql
