import TypedSql.Text.Classes

/-!
# Patterns

Regular patterns over text. A pattern takes a set of places in a text to the places where matches
that start there may end. A repetition spreads from place to place until it reaches no new one, so
it takes no more steps than the text has characters. `Pattern.isFoundIn` looks for a match anywhere.
-/

namespace TypedSql.Text

/-- One member of a character set. -/
inductive CharItem where
  | range (first last : Char)
  | digit (negated : Bool)
  | blank (negated : Bool)
  | word (negated : Bool)
deriving DecidableEq, Repr

namespace CharItem

/-- Whether a character belongs to a member of a set. -/
def contains (item : CharItem) (c : Char) : Bool :=
  match item with
  | range first last => first ≤ c && c ≤ last
  | digit negated => isDecimalDigit c != negated
  | blank negated => isBlank c != negated
  | word negated => isWordChar c != negated

end CharItem

/-- A regular pattern. -/
inductive Pattern where
  | nothing
  | char (negated : Bool) (items : List CharItem)
  | start
  | stop
  | last
  | boundary (negated : Bool)
  | ahead (negated : Bool) (pattern : Pattern)
  | both (first second : Pattern)
  | either (first second : Pattern)
  | repeated (pattern : Pattern) (least : Nat) (most : Option Nat)
deriving Repr

/-- A set of places in a text, each the number of characters before it; the furthest comes first. -/
abbrev Places := List Nat

namespace Places

/-- Every place of a text. -/
def all (text : Array Char) : Places := (List.range (text.size + 1)).reverse

/-- The places of two sets. -/
def union : Places → Places → Places
  | [], others => others
  | place :: places, others =>
    others.takeWhile (place < ·) ++ place :: union places (others.dropWhile (place ≤ ·))

/-- The places of a set that are not in another. -/
def without : Places → Places → Places
  | [], _ => []
  | place :: places, others =>
    let behind := others.dropWhile (place < ·)
    if behind.head? = some place then without places behind else place :: without places behind

/-- The places after exactly `count` steps. -/
def after (step : Places → Places) : (count : Nat) → Places → Places
  | 0, places => places
  | count + 1, places => if places.isEmpty then [] else after step count (step places)

/-- The places reached so far and those after at most `count` steps more from the latest ones. -/
def spread (step : Places → Places) : (count : Nat) → (reached latest : Places) → Places
  | 0, reached, _ => reached
  | count + 1, reached, latest =>
    match without (step latest) reached with
    | [] => reached
    | fresh => spread step count (union fresh reached) fresh

end Places

namespace Pattern

/-- Whether a word starts or ends at a place. -/
def isBoundary (text : Array Char) (place : Nat) : Bool :=
  (0 < place && text[place - 1]?.any isWordChar) != text[place]?.any isWordChar

/-- Whether a place is the end of a text, or before a line feed at its end. -/
def isStop (text : Array Char) (place : Nat) : Bool :=
  place = text.size || (place + 1 = text.size && text[place]? = some '\n')

/-- The places where matches may end that start at some places. An empty text has neither kind of
boundary. -/
def ends (text : Array Char) : Pattern → Places → Places
  | nothing, places => places
  | char negated items, places =>
    let matching := places.filter fun place =>
      text[place]?.any fun c => (items.any fun item => item.contains c) != negated
    matching.map (· + 1)
  | start, places => places.filter (· = 0)
  | stop, places => places.filter (isStop text)
  | last, places => places.filter (· = text.size)
  | boundary negated, places =>
    places.filter fun place => isBoundary text place != negated && !text.isEmpty
  | ahead negated pattern, places =>
    places.filter fun place => (ends text pattern [place]).isEmpty = negated
  | both first second, places => ends text second (ends text first places)
  | either first second, places => (ends text first places).union (ends text second places)
  | repeated pattern least most, places =>
    let more := match most with
      | some most => min (most - least) text.size
      | none => text.size
    let reached := Places.after (ends text pattern) least places
    Places.spread (ends text pattern) more reached reached

/-- Whether a match starts at the start of a text. -/
def startsIn (pattern : Pattern) (text : List Char) : Bool :=
  !(pattern.ends text.toArray [0]).isEmpty

/-- Whether a match starts anywhere in a text. -/
def isFoundIn (pattern : Pattern) (text : List Char) : Bool :=
  !(pattern.ends text.toArray (Places.all text.toArray)).isEmpty

/-- The least count that no repetition may have. -/
def countLimit : Nat := 4294967295

/-- Whether some repetition has a count that none may have. -/
def repeatsTooOften : Pattern → Bool
  | ahead _ pattern => pattern.repeatsTooOften
  | both first second | either first second => first.repeatsTooOften || second.repeatsTooOften
  | repeated pattern least most =>
    countLimit ≤ least || most.any (countLimit ≤ ·) || pattern.repeatsTooOften
  | _ => false

/-- The pattern of one character. -/
def single (c : Char) : Pattern := char false [.range c c]

/-- The pattern of the characters of a text, one after the other. -/
def literal (text : String) : Pattern :=
  text.toList.foldr (fun c rest => both (single c) rest) nothing

end Pattern

end TypedSql.Text
