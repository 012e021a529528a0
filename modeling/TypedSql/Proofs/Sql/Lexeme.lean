import TypedSql.Proofs.Identifier
import TypedSql.Proofs.Sql.Token

/-!
# Lexemes of SQL

How a database splits any text of SQL: words, quoted texts with their escapes, placeholders,
brackets and symbols, with blanks and comments between them. `lexemes` reads a whole text, which has
to end outside of quotes and comments. `Lexes text more` says that a text adds exactly the lexemes
`more` wherever it stands, and `Lexes.append` puts texts together where the second one begins with a
character that ends every lexeme.
-/

namespace TypedSql.Sql

/-- The pairs of brackets. -/
inductive Bracket where
  | round
  | square
deriving DecidableEq, Repr

/-- A lexeme. Words and quoted texts are kept as they are written; a value stands where a
placeholder is filled. -/
inductive Lexeme where
  | word (text : String)
  | quoted (text : String)
  | slot (parameter type : String)
  | bound (type : String) (value : Value)
  | symbol (c : Char)
  | opening (bracket : Bracket)
  | closing (bracket : Bracket)

namespace Lexeme

/-- Whether a character is a mark that begins and ends a quoted text. -/
def isMark (c : Char) : Bool := c = '\x27' || c = '\x22' || c = '\x60'

/-- Whether a character belongs to words. -/
def isWordChar (c : Char) : Bool := c.isAlphanum || c = '_' || c = '.' || c = '$' || 128 ≤ c.toNat

/-- The bracket that a character is. -/
def ofBracket? : Char → Option Lexeme
  | '(' => some (opening .round)
  | ')' => some (closing .round)
  | '[' => some (opening .square)
  | ']' => some (closing .square)
  | _ => none

/-- The characters that no expression has outside of quotes and placeholders. -/
def isStray (c : Char) : Bool := c = '\x7d' || c = ';' || c = '#' || c = '?'

/-- The placeholder that a text between two braces is: a parameter and its type, around a colon. -/
def ofSlot (chars : List Char) : Lexeme :=
  slot (String.ofList (chars.takeWhile (· ≠ ':')))
    (String.ofList ((chars.dropWhile (· ≠ ':')).drop 1))

end Lexeme

open Lexeme

/-- What a reader of lexemes is in the middle of. A symbol is kept for one character, for two of
them can begin a comment. -/
inductive Unfinished where
  | nothing
  | word (chars : List Char)
  | symbol (c : Char)
  | quoted (mark : Char) (chars : List Char) (isEscaped : Bool)
  | slot (chars : List Char)
  | lineComment
  | blockComment (isEnding : Bool)

namespace Unfinished

/-- The lexeme that ends where the text ends; quotes, placeholders and comments cannot end there. -/
def settle : Unfinished → Option (List Lexeme)
  | nothing => some []
  | word chars => some [.word (String.ofList chars)]
  | symbol c => some [.symbol c]
  | _ => none

/-- What a character is between two lexemes: a lexeme by itself, or the beginning of one. -/
def start (c : Char) : Option (List Lexeme × Unfinished) :=
  if c.isWhitespace then some ([], nothing)
  else match ofBracket? c with
    | some bracket => some ([bracket], nothing)
    | none =>
      if isMark c then some ([], quoted c [c] false)
      else if c = '\x7b' then some ([], slot [])
      else if isWordChar c then some ([], word [c])
      else if isStray c then none
      else some ([], symbol c)

/-- The lexemes that end at a character that begins something new, and what it begins. -/
def restart (state : Unfinished) (c : Char) : Option (List Lexeme × Unfinished) := do
  let ended ← state.settle
  let (more, begun) ← start c
  return (ended ++ more, begun)

/-- The lexemes that end at one more character, and what the reader is in the middle of then. -/
def next (state : Unfinished) (c : Char) : Option (List Lexeme × Unfinished) :=
  match state with
  | nothing => start c
  | word chars => if isWordChar c then some ([], word (chars ++ [c])) else state.restart c
  | symbol first =>
    if first = '-' ∧ c = '-' then some ([], lineComment)
    else if first = '/' ∧ c = '*' then some ([], blockComment false)
    else state.restart c
  | quoted mark chars isEscaped =>
    if isEscaped then some ([], quoted mark (chars ++ [c]) false)
    else if c = mark then some ([.quoted (String.ofList (chars ++ [c]))], nothing)
    else some ([], quoted mark (chars ++ [c]) (c = '\\'))
  | slot chars =>
    if c = '\x7d' then some ([ofSlot chars], nothing) else some ([], slot (chars ++ [c]))
  | lineComment => some ([], if c = '\n' then nothing else lineComment)
  | blockComment isEnding =>
    some ([], if isEnding && c = '/' then nothing else blockComment (c = '*'))

/-- The lexemes of characters that follow what the reader is in the middle of. -/
def read : Unfinished → List Char → Option (List Lexeme)
  | state, [] => state.settle
  | state, c :: rest => do
    let (ended, begun) ← state.next c
    return ended ++ (← read begun rest)

end Unfinished

/-- The lexemes of a text. -/
def lexemes (text : String) : Option (List Lexeme) := Unfinished.nothing.read text.toList

/-- The characters that end every lexeme in front of them. -/
def endsLexeme (c : Char) : Bool := c.isWhitespace || c = ')' || c = ','

namespace Unfinished

/-- A character that ends every lexeme ends the one at hand. -/
theorem next_of_endsLexeme {state : Unfinished} {ended : List Lexeme} {c : Char}
    (hstate : state.settle = some ended) (hc : endsLexeme c = true) :
    state.next c = state.restart c := by
  have hplain : isWordChar c = false ∧ c ≠ '-' ∧ c ≠ '*' := by
    simp only [endsLexeme, Char.isWhitespace, Bool.or_eq_true, decide_eq_true_eq] at hc
    rcases hc with ((((rfl | rfl) | rfl) | rfl) | rfl) | rfl <;> decide
  cases state with
  | nothing =>
      simp only [next, restart, settle, Option.bind_eq_bind, Option.bind_some, List.nil_append]
      cases start c <;> rfl
  | word chars => simp [next, hplain]
  | symbol first => simp [next, hplain]
  | quoted | slot | lineComment | blockComment => cases hstate

/-- Characters are read one after the other where a character parts them that ends every lexeme. -/
theorem read_append {c : Char} (hc : endsLexeme c = true) {chars behind : List Char}
    {state : Unfinished} {more others : List Lexeme} (h : state.read chars = some more)
    (hbehind : nothing.read (c :: behind) = some others) :
    state.read (chars ++ c :: behind) = some (more ++ others) := by
  induction chars generalizing state more with
  | nil =>
      have hsettle : state.settle = some more := h
      simp only [read, Option.bind_eq_bind, Option.bind_eq_some_iff, next] at hbehind
      obtain ⟨⟨begun, rest⟩, hstart, lexemes, hrest, hothers⟩ := hbehind
      simp only [Option.pure_def, Option.some.injEq] at hothers
      simp [read, next_of_endsLexeme hsettle hc, restart, hsettle, hstart, hrest, ← hothers]
  | cons first rest ih =>
      simp only [read, Option.bind_eq_bind, Option.bind_eq_some_iff] at h
      obtain ⟨⟨ended, begun⟩, hnext, lexemes, hrest, hmore⟩ := h
      simp only [Option.pure_def, Option.some.injEq] at hmore
      simp [read, hnext, ih hrest, ← hmore]

/-- A reader in the middle of a quoted text goes on to the mark that ends it. -/
theorem read_quoted {mark : Char} {chars : List Char} (hchars : ∀ c ∈ chars, c ≠ mark ∧ c ≠ '\\')
    (before : List Char) :
    (quoted mark before false).read (chars ++ [mark]) =
      some [.quoted (String.ofList (before ++ chars ++ [mark]))] := by
  induction chars generalizing before with
  | nil => simp [read, next, settle]
  | cons c rest ih =>
      obtain ⟨hc, hrest⟩ := List.forall_mem_cons.1 hchars
      simp [read, next, hc, ih hrest (before ++ [c])]

/-- A reader in the middle of a placeholder goes on to the brace that ends it. -/
theorem read_slot {chars : List Char} (hchars : '\x7d' ∉ chars) (before : List Char) :
    (slot before).read (chars ++ ['\x7d']) = some [ofSlot (before ++ chars)] := by
  induction chars generalizing before with
  | nil => simp [read, next, settle]
  | cons c rest ih =>
      simp only [List.mem_cons, not_or] at hchars
      simp [read, next, Ne.symm hchars.1, ih hchars.2 (before ++ [c])]

end Unfinished

/-- `Lexes text more` says that a text has exactly the lexemes `more`. -/
def Lexes (text : String) (more : List Lexeme) : Prop := lexemes text = some more

namespace Lexes

variable {text other : String} {more others : List Lexeme}

/-- Two texts are read one after the other where the second one begins with a character that ends
every lexeme. -/
theorem append (hother : other.toList.head?.any endsLexeme = true) (h : Lexes text more)
    (hmore : Lexes other others) : Lexes (text ++ other) (more ++ others) := by
  unfold Lexes lexemes at hmore ⊢
  rw [String.toList_append]
  cases hchars : other.toList with
  | nil =>
      rw [hchars] at hother
      cases hother
  | cons c behind =>
      rw [hchars] at hmore hother
      exact Unfinished.read_append hother h hmore

/-- A blank parts two texts. -/
theorem blank (h : Lexes text more) (hmore : Lexes other others) :
    Lexes (text ++ " " ++ other) (more ++ others) := by
  have hbehind : Lexes (" " ++ other) others := by
    have hread : Unfinished.nothing.read (' ' :: other.toList) = some others := by
      simpa [Unfinished.read, Unfinished.next, Unfinished.start, Lexes, lexemes] using hmore
    simpa [Lexes, lexemes] using hread
  rw [String.append_assoc]
  exact h.append (by simp [endsLexeme]) hbehind

/-- An opening parenthesis stands before a text. -/
theorem opened (h : Lexes text more) : Lexes ("(" ++ text) (.opening .round :: more) := by
  have hread : Unfinished.nothing.read ('(' :: text.toList) = some (.opening .round :: more) := by
    have hrest : Unfinished.nothing.read text.toList = some more := h
    simp [Unfinished.read, Unfinished.next, Unfinished.start, ofBracket?, hrest]
  simpa [Lexes, lexemes] using hread

/-- A closing parenthesis stands behind a text. -/
theorem closed (h : Lexes text more) : Lexes (text ++ ")") (more ++ [.closing .round]) :=
  h.append (by decide) rfl

/-- A comma and a blank part two texts. -/
theorem separated (h : Lexes text more) (hmore : Lexes other others) :
    Lexes (text ++ ", " ++ other) (more ++ .symbol ',' :: others) := by
  have hcomma : Lexes "," [.symbol ','] := rfl
  have hbehind := (h.append (by decide) hcomma).blank hmore
  have htext : text ++ ", " ++ other = text ++ "," ++ " " ++ other := by
    rw [show ", " = "," ++ " " from rfl]
    simp only [String.append_assoc]
  rw [htext]
  simpa using hbehind

/-- A name between backticks is one lexeme. -/
theorem name {column : String} (h : Identifier.IsQuoted column) :
    Lexes column [.quoted column] := by
  obtain ⟨name, rfl, hname⟩ := h
  have hchars : ∀ c ∈ name.toList, c ≠ '\x60' ∧ c ≠ '\\' := by
    intro c hc
    have hshown := hname c hc
    constructor <;> rintro rfl <;> cases hshown
  have hread := Unfinished.read_quoted hchars ['\x60']
  have htext : (Identifier.backquoted name).toList = '\x60' :: (name.toList ++ ['\x60']) := by
    simp [Identifier.backquoted]
  have hchars :
      String.ofList ('\x60' :: (name.toList ++ ['\x60'])) = Identifier.backquoted name := by
    rw [← htext, String.ofList_toList]
  rw [Lexes, lexemes, htext, Unfinished.read]
  simpa [Unfinished.next, Unfinished.start, ofBracket?, isMark, hchars] using hread

/-- A placeholder is one lexeme. -/
theorem slot {parameter type : String} (hparameter : ':' ∉ parameter.toList)
    (hclosing : '\x7d' ∉ parameter.toList) (htype : '\x7d' ∉ type.toList) :
    Lexes (placeholderOf parameter type) [.slot parameter type] := by
  let inside := parameter.toList ++ ':' :: type.toList
  have htext : (placeholderOf parameter type).toList = '\x7b' :: (inside ++ ['\x7d']) := by
    simp [placeholderOf, inside]
  have hslot : ofSlot inside = .slot parameter type := by
    obtain ⟨hname, hbehind⟩ := cut_at_colon hparameter type.toList
    simp only [ofSlot, inside, hname, hbehind, String.ofList_toList]
  have hinside : '\x7d' ∉ inside := by simp [inside, hclosing, htype]
  have hread := Unfinished.read_slot hinside []
  rw [Lexes, lexemes, htext, Unfinished.read]
  simpa [Unfinished.next, Unfinished.start, ofBracket?, isMark, hslot] using hread

end Lexes

end TypedSql.Sql
