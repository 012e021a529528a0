import TypedSql.Identifier
import TypedSql.Sql.Piece

/-!
# Tokens of conditions

How a database splits the text of a condition: keywords, numbers and comparisons are the longest
runs of characters of one class, names stand between backticks and placeholders between braces.
`tokens` reads a whole text. `Scans text read` says that a text adds exactly the tokens `read`, and
`Scans.append` puts texts together at a character that is a token or a blank by itself.
-/

namespace TypedSql.Sql

open TypedSql.Number

/-- A word with a meaning of its own. -/
inductive Keyword where
  | and | or | not | is | null | isIn | between | like | ilike
deriving DecidableEq, Repr

/-- Every keyword. -/
def Keyword.all : List Keyword := [and, or, not, is, null, isIn, between, like, ilike]

/-- The spelling of a keyword. -/
def Keyword.text : Keyword → String
  | and => "AND"
  | or => "OR"
  | not => "NOT"
  | is => "IS"
  | null => "NULL"
  | isIn => "IN"
  | between => "BETWEEN"
  | like => "LIKE"
  | ilike => "ILIKE"

/-- The keyword with a spelling. -/
def Keyword.ofText? (text : String) : Option Keyword := all.find? fun word => word.text = text

/-- The symbols that compare a column with a value. -/
def comparisonSymbols : List String := ["=", "!=", ">", ">=", "<", "<="]

/-- A token of a condition. The name of a column keeps its backticks. -/
inductive Token where
  | keyword (word : Keyword)
  | number (value : Nat)
  | comparison (symbol : String)
  | name (quoted : String)
  | slot (parameter type : String)
  | opening
  | closing
  | comma
deriving DecidableEq, Repr

/-- The classes of characters that make up tokens by the run. -/
inductive Run where
  | word | number | sign
deriving DecidableEq, Repr

/-- The class of a character that belongs to a run. -/
def Run.of? (c : Char) : Option Run :=
  if Text.isAsciiLetter c then some .word
  else if Text.isAsciiDigit c then some .number
  else if c = '=' || c = '!' || c = '<' || c = '>' then some .sign
  else none

/-- The token that a run is. -/
def Run.token? (run : Run) (chars : List Char) : Option Token :=
  match run with
  | .word => (Keyword.ofText? (String.ofList chars)).map .keyword
  | .number => some (.number (Decimal.ofAscii chars))
  | .sign => some (String.ofList chars) |>.filter comparisonSymbols.contains |>.map .comparison

/-- The tokens of a character that never belongs to a run; a blank is none. -/
def symbolTokens? : Char → Option (List Token)
  | ' ' => some []
  | '(' => some [.opening]
  | ')' => some [.closing]
  | ',' => some [.comma]
  | _ => none

/-- The token of the text between braces: a parameter and its type, around a colon. -/
def slotToken (chars : List Char) : Token :=
  .slot (String.ofList (chars.takeWhile (· ≠ ':')))
    (String.ofList ((chars.dropWhile (· ≠ ':')).drop 1))

/-- What a reader of tokens is in the middle of. -/
inductive Pending where
  | nothing
  | run (run : Run) (chars : List Char)
  | name (chars : List Char)
  | slot (chars : List Char)
deriving DecidableEq, Repr

/-- The state of a reader of tokens. -/
structure Scan where
  read : List Token := []
  pending : Pending := .nothing
deriving DecidableEq, Repr

namespace Scan

/-- The state behind some more tokens. -/
def push (scan : Scan) (more : List Token) : Scan := { read := scan.read ++ more }

/-- Ends the run at hand; a name or a placeholder cannot end here. -/
def settle (scan : Scan) : Option Scan :=
  match scan.pending with
  | .nothing => some scan
  | .run run chars => (run.token? chars).map fun token => scan.push [token]
  | .name _ | .slot _ => none

/-- The state behind a character that begins a token. -/
def start (scan : Scan) (c : Char) : Option Scan :=
  match symbolTokens? c with
  | some more => some (scan.push more)
  | none =>
    if c = '\x60' then some { scan with pending := .name [] }
    else if c = '\x7b' then some { scan with pending := .slot [] }
    else (Run.of? c).map fun run => { scan with pending := .run run [c] }

/-- The state behind one more character. -/
def next (scan : Scan) (c : Char) : Option Scan :=
  match scan.pending with
  | .nothing => scan.start c
  | .run run chars =>
    if Run.of? c = some run then some { scan with pending := .run run (chars ++ [c]) }
    else scan.settle.bind (start · c)
  | .name chars =>
    if c = '\x60' then some (scan.push [.name (Identifier.backquoted (String.ofList chars))])
    else some { scan with pending := .name (chars ++ [c]) }
  | .slot chars =>
    if c = '\x7d' then some (scan.push [slotToken chars])
    else some { scan with pending := .slot (chars ++ [c]) }

/-- The state behind a text that follows a state, with its last run ended. -/
def through (scan : Scan) (text : String) : Option Scan :=
  (text.toList.foldlM next scan).bind settle

end Scan

/-- The tokens of a text. -/
def tokens (text : String) : Option (List Token) := (Scan.through {} text).map Scan.read

example : tokens "NOT (\x60a\x60 >= \x7bparam0:Int32\x7d AND 1=0)" =
    some [.keyword .not, .opening, .name "\x60a\x60", .comparison ">=", .slot "param0" "Int32",
      .keyword .and, .number 1, .comparison "=", .number 0, .closing] := by decide +kernel

namespace Scan

/-- A character outside of all runs ends the run at hand. -/
theorem next_of_settle {scan settled : Scan} {c : Char} (hsettle : scan.settle = some settled)
    (hc : Run.of? c = none) : scan.next c = settled.start c := by
  obtain ⟨read, pending⟩ := scan
  cases pending with
  | nothing =>
      cases hsettle
      rfl
  | run run chars => simp [next, hc, hsettle]
  | name chars => simp [settle] at hsettle
  | slot chars => simp [settle] at hsettle

/-- A state in the middle of a name goes on to the backtick behind it. -/
theorem foldlM_name (read : List Token) (chars rest : List Char) (hchars : '\x60' ∉ chars) :
    chars.foldlM next ⟨read, .name rest⟩ = some ⟨read, .name (rest ++ chars)⟩ := by
  induction chars generalizing rest with
  | nil => simp
  | cons c chars ih =>
      simp only [List.mem_cons, not_or] at hchars
      have hnext : next ⟨read, .name rest⟩ c = some ⟨read, .name (rest ++ [c])⟩ := by
        simp [next, Ne.symm hchars.1]
      rw [List.foldlM_cons, hnext]
      simpa using ih (rest ++ [c]) hchars.2

/-- A state in the middle of a placeholder goes on to the brace behind it. -/
theorem foldlM_slot (read : List Token) (chars rest : List Char) (hchars : '\x7d' ∉ chars) :
    chars.foldlM next ⟨read, .slot rest⟩ = some ⟨read, .slot (rest ++ chars)⟩ := by
  induction chars generalizing rest with
  | nil => simp
  | cons c chars ih =>
      simp only [List.mem_cons, not_or] at hchars
      have hnext : next ⟨read, .slot rest⟩ c = some ⟨read, .slot (rest ++ [c])⟩ := by
        simp [next, Ne.symm hchars.1]
      rw [List.foldlM_cons, hnext]
      simpa using ih (rest ++ [c]) hchars.2

end Scan

/-- Characters around a colon are cut at it, if it is the first one. -/
theorem cut_at_colon {front : List Char} (h : ':' ∉ front) (behind : List Char) :
    (front ++ ':' :: behind).takeWhile (· ≠ ':') = front ∧
      ((front ++ ':' :: behind).dropWhile (· ≠ ':')).drop 1 = behind := by
  have hfront : ∀ c ∈ front, decide (c ≠ ':') = true := by
    intro c hc
    simpa using ne_of_mem_of_not_mem hc h
  rw [List.takeWhile_append_of_pos hfront, List.dropWhile_append_of_pos hfront]
  simp

/-- `Scans text more` says that a reader between two tokens reads `text` as the tokens `more`. -/
def Scans (text : String) (more : List Token) : Prop :=
  ∀ read, Scan.through { read } text = some { read := read ++ more }

namespace Scans

variable {text other : String} {more others : List Token}

/-- A text that scans has the tokens that it scans as. -/
theorem tokens_eq (h : Scans text more) : tokens text = some more := by
  simp [tokens, h []]

/-- The empty text has no tokens. -/
theorem nil : Scans "" [] := by
  intro read
  simp [Scan.through, Scan.settle]

/-- Two texts are read one after the other where a character outside of all runs parts them. -/
theorem append {c : Char} {separator : String} {symbol : List Token}
    (hsymbol : symbolTokens? c = some symbol) (hseparator : separator = String.singleton c)
    (htext : Scans text more) (hother : Scans other others) :
    Scans (text ++ separator ++ other) (more ++ symbol ++ others) := by
  have hrun : Run.of? c = none := by
    unfold symbolTokens? at hsymbol
    split at hsymbol <;> first | rfl | cases hsymbol
  intro read
  obtain ⟨scan, hscan, hsettle⟩ := Option.bind_eq_some_iff.1 (htext read)
  -- a run at the end of `text` is still pending in `scan`; the separator is what settles it
  have hnext : scan.next c = some { read := read ++ more ++ symbol } := by
    rw [Scan.next_of_settle hsettle hrun]
    simp [Scan.start, hsymbol, Scan.push]
  have hrest := hother (read ++ more ++ symbol)
  simp only [Scan.through] at hrest ⊢
  rw [hseparator, String.toList_append, String.toList_append, String.toList_singleton,
    List.foldlM_append, List.foldlM_append, hscan]
  simpa [hnext] using hrest

/-- A blank parts two texts. -/
theorem blank (htext : Scans text more) (hother : Scans other others) :
    Scans (text ++ " " ++ other) (more ++ others) := by
  simpa using htext.append (c := ' ') rfl rfl hother

/-- An opening parenthesis stands before a text. -/
theorem opened (h : Scans text more) : Scans ("(" ++ text) (.opening :: more) := by
  simpa using nil.append (c := '(') rfl rfl h

/-- A closing parenthesis stands behind a text. -/
theorem closed (h : Scans text more) : Scans (text ++ ")") (more ++ [.closing]) := by
  simpa using h.append (c := ')') rfl rfl nil

/-- A comma and a blank part two texts. -/
theorem separated (htext : Scans text more) (hother : Scans other others) :
    Scans (text ++ ", " ++ other) (more ++ .comma :: others) := by
  have hblank : Scans (" " ++ other) others := by simpa using nil.blank hother
  have htogether : text ++ ", " ++ other = text ++ "," ++ (" " ++ other) := by
    rw [show ", " = "," ++ " " from rfl]
    simp only [String.append_assoc]
  rw [htogether]
  simpa only [List.append_assoc, List.singleton_append] using
    htext.append (c := ',') rfl (show "," = String.singleton ',' from rfl) hblank

/-- A name between backticks is one token. -/
theorem name {name : String} (hname : '\x60' ∉ name.toList) :
    Scans (Identifier.backquoted name) [.name (Identifier.backquoted name)] := by
  intro read
  have htext : (Identifier.backquoted name).toList = '\x60' :: (name.toList ++ ['\x60']) := by
    simp [Identifier.backquoted]
  have hopen : Scan.next { read } '\x60' = some ⟨read, .name []⟩ := rfl
  have hclose : Scan.next ⟨read, .name name.toList⟩ '\x60' =
      some { read := read ++ [.name (Identifier.backquoted name)] } := by
    simp [Scan.next, Scan.push]
  simp [Scan.through, htext, hopen, Scan.foldlM_name read name.toList [] hname, hclose,
    Scan.settle]

/-- A placeholder is one token. -/
theorem slot {parameter type : String} (hparameter : ':' ∉ parameter.toList)
    (hclosing : '\x7d' ∉ parameter.toList) (htype : '\x7d' ∉ type.toList) :
    Scans (placeholderOf parameter type) [.slot parameter type] := by
  intro read
  let inside := parameter.toList ++ ':' :: type.toList
  have htext : (placeholderOf parameter type).toList = '\x7b' :: (inside ++ ['\x7d']) := by
    simp [placeholderOf, inside]
  have hinside : '\x7d' ∉ inside := by simp [inside, hclosing, htype]
  have hslot : slotToken inside = .slot parameter type := by
    obtain ⟨hname, hbehind⟩ := cut_at_colon hparameter type.toList
    simp only [slotToken, inside, hname, hbehind, String.ofList_toList]
  have hopen : Scan.next { read } '\x7b' = some ⟨read, .slot []⟩ := rfl
  have hclose : Scan.next ⟨read, .slot inside⟩ '\x7d' =
      some { read := read ++ [.slot parameter type] } := by
    simp [Scan.next, Scan.push, hslot]
  simp [Scan.through, htext, hopen, Scan.foldlM_slot read inside [] hinside, hclose, Scan.settle]

/-- A keyword is one token. -/
theorem keyword (word : Keyword) : Scans word.text [.keyword word] := by
  intro read
  cases word <;> rfl

/-- A symbol of comparison is one token. -/
theorem comparison {symbol : String} (hsymbol : symbol ∈ comparisonSymbols) :
    Scans symbol [.comparison symbol] := by
  intro read
  simp only [comparisonSymbols, List.mem_cons, List.not_mem_nil, or_false] at hsymbol
  rcases hsymbol with rfl | rfl | rfl | rfl | rfl | rfl <;> rfl

end Scans

end TypedSql.Sql
