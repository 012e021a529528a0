import TypedSql.Text.Hex
import TypedSql.Text.Pattern

/-!
# Reading patterns

The written form of patterns: literal characters, `.`, bracketed sets, the classes after a
backslash, anchors, groups, alternation and the repetitions `*`, `+`, `?` and `\x7bm,n\x7d`. The
reader recurses on a fuel that the length of the text bounds.
-/

namespace TypedSql.Text.Pattern

/-- A pattern and the text after it. -/
abbrev Reading := Option (Pattern × List Char)

/-- The set member or the character that an escape denotes in a bracketed set and outside of one. -/
def escapeItem? : List Char → Option (CharItem × List Char)
  | 'd' :: rest => some (.digit false, rest)
  | 'D' :: rest => some (.digit true, rest)
  | 's' :: rest => some (.blank false, rest)
  | 'S' :: rest => some (.blank true, rest)
  | 'w' :: rest => some (.word false, rest)
  | 'W' :: rest => some (.word true, rest)
  | 'n' :: rest => some (.range '\n' '\n', rest)
  | 'r' :: rest => some (.range '\r' '\r', rest)
  | 't' :: rest => some (.range '\t' '\t', rest)
  | 'a' :: rest => some (.range '\x07' '\x07', rest)
  | 'f' :: rest => some (.range '\x0c' '\x0c', rest)
  | 'v' :: rest => some (.range '\x0b' '\x0b', rest)
  | '0' :: rest => some (.range '\x00' '\x00', rest)
  | 'x' :: rest => ofCode 2 rest
  | 'u' :: rest => ofCode 4 rest
  | 'U' :: rest => ofCode 8 rest
  | c :: rest => if isAsciiLetter c || isAsciiDigit c then none else some (.range c c, rest)
  | [] => none
where
  /-- The character with a hexadecimal code of a fixed width. -/
  ofCode (width : Nat) (rest : List Char) : Option (CharItem × List Char) := do
    let digits := rest.take width
    if digits.length ≠ width then none
    let code ← readHex? digits
    if code < 0x110000 then some (.range (Char.ofNat code) (Char.ofNat code), rest.drop width)
    else none

/-- One end of a range in a bracketed set. -/
def setItem? : List Char → Option (CharItem × List Char)
  | '\\' :: 'b' :: rest => some (.range '\x08' '\x08', rest)
  | '\\' :: rest => escapeItem? rest
  | c :: rest => some (.range c c, rest)
  | [] => none

/-- The members of a bracketed set up to its closing bracket. A bracket stands for itself at the
front. -/
def setItems? : Nat → Bool → List Char → Option (List CharItem × List Char)
  | 0, _, _ => none
  | fuel + 1, first, text =>
    match text with
    | ']' :: rest =>
      if first then member fuel text else some ([], rest)
    | _ => member fuel text
where
  /-- One member and those after it. -/
  member (fuel : Nat) (text : List Char) : Option (List CharItem × List Char) := do
    let (low, rest) ← setItem? text
    match rest with
    | '-' :: ']' :: _ => do
      let (items, rest) ← setItems? fuel false rest
      return (low :: items, rest)
    | '-' :: more => do
      let (high, rest) ← setItem? more
      match low, high with
      | .range low _, .range high _ =>
        if high < low then none
        else
          let (items, rest) ← setItems? fuel false rest
          return (.range low high :: items, rest)
      | _, _ => none
    | _ => do
      let (items, rest) ← setItems? fuel false rest
      return (low :: items, rest)

/-- The number that a run of digits denotes, if there is one. -/
def bound (digits : List Char) : Option Nat :=
  if digits.isEmpty then none
  else some (digits.foldl (fun total c => 10 * total + (c.toNat - '0'.toNat)) 0)

/-- A repetition: how often at least and at most, and the text after it. -/
def quantifier? : List Char → Option (Nat × Option Nat × List Char)
  | '*' :: rest => some (0, none, rest)
  | '+' :: rest => some (1, none, rest)
  | '?' :: rest => some (0, some 1, rest)
  | '\x7b' :: rest =>
    let low := rest.takeWhile isAsciiDigit
    match rest.dropWhile isAsciiDigit with
    | '\x7d' :: after => (bound low).map fun count => (count, some count, after)
    | ',' :: more =>
      let high := more.takeWhile isAsciiDigit
      match more.dropWhile isAsciiDigit with
      | '\x7d' :: after => some ((bound low).getD 0, bound high, after)
      | _ => none
    | _ => none
  | _ => none

/-- Whether a pattern holds at a position without a character of its own. -/
def isAnchor : Pattern → Bool
  | start | stop | last | boundary _ => true
  | _ => false

/-- An atom with the repetition after it; two repetitions in a row are refused. -/
def quantified? (atom : Pattern) (text : List Char) : Reading :=
  match quantifier? text with
  | none => some (atom, text)
  | some (least, most, rest) =>
    if isAnchor atom || most.any (· < least) then none
    else
      let rest := match rest with
        | '?' :: more => more
        | _ => rest
      if (quantifier? rest).isSome then none else some (repeated atom least most, rest)

/-- An escape outside of brackets. -/
def escape? : List Char → Reading
  | 'A' :: rest => some (start, rest)
  | 'Z' :: rest => some (last, rest)
  | 'b' :: rest => some (boundary false, rest)
  | 'B' :: rest => some (boundary true, rest)
  | rest => (escapeItem? rest).map fun (item, rest) => (char false [item], rest)

mutual

/-- Alternatives between bars. -/
def readEither? : Nat → List Char → Reading
  | 0, _ => none
  | fuel + 1, text => do
    let (first, rest) ← readBoth? fuel text
    match rest with
    | '|' :: more => do
      let (second, rest) ← readEither? fuel more
      return (either first second, rest)
    | _ => return (first, rest)

/-- Atoms one after the other, up to a bar, a closing bracket or the end. -/
def readBoth? : Nat → List Char → Reading
  | 0, _ => none
  | fuel + 1, text =>
    match text with
    | [] => some (nothing, [])
    | '|' :: _ => some (nothing, text)
    | ')' :: _ => some (nothing, text)
    | _ => do
      let (atom, rest) ← readAtom? fuel text
      let (atom, rest) ← quantified? atom rest
      let (following, rest) ← readBoth? fuel rest
      return (both atom following, rest)

/-- A character, a set, an escape, an anchor or a group. -/
def readAtom? : Nat → List Char → Reading
  | 0, _ => none
  | fuel + 1, text =>
    match text with
    | '.' :: rest => some (char true [.range '\n' '\n'], rest)
    | '^' :: rest => some (start, rest)
    | '$' :: rest => some (stop, rest)
    | '\\' :: rest => escape? rest
    | '[' :: '^' :: rest =>
      (setItems? (rest.length + 1) true rest).map fun (items, rest) => (char true items, rest)
    | '[' :: rest =>
      (setItems? (rest.length + 1) true rest).map fun (items, rest) => (char false items, rest)
    | '(' :: '?' :: ':' :: rest => readGroup? fuel rest
    | '(' :: '?' :: '=' :: rest =>
      (readGroup? fuel rest).map fun (inner, rest) => (ahead false inner, rest)
    | '(' :: '?' :: '!' :: rest =>
      (readGroup? fuel rest).map fun (inner, rest) => (ahead true inner, rest)
    | '(' :: '?' :: _ => none
    | '(' :: rest => readGroup? fuel rest
    | c :: rest => if (quantifier? text).isSome then none else some (single c, rest)
    | [] => none

/-- The inside of a group and its closing bracket. -/
def readGroup? : Nat → List Char → Reading
  | 0, _ => none
  | fuel + 1, text => do
    let (inner, rest) ← readEither? fuel text
    match rest with
    | ')' :: more => return (inner, more)
    | _ => none

end

/-- The pattern that a text describes. -/
def read? (text : List Char) : Option Pattern := do
  let (pattern, rest) ← readEither? (4 * text.length + 4) text
  if rest.isEmpty then some pattern else none

end TypedSql.Text.Pattern
