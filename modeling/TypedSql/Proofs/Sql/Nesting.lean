import Mathlib.Data.List.Induction
import TypedSql.Proofs.Sql.Lexeme

/-!
# Nested lexemes

What stands between brackets, between `CASE` and `END` and between `BETWEEN` and its `AND` belongs
together. `nest` gathers it, so that a keyword on the outermost level is one that joins or negates
conditions. `Nests.append` and `Nests.round` say that lexemes which are complete by themselves are
gathered the same way wherever they stand.
-/

namespace TypedSql.Sql

/-- Whether a lexeme is a keyword, in capitals or not. -/
def Lexeme.isKeyword (keyword : String) : Lexeme → Bool
  | .word text => text.toList.map Char.toUpper = keyword.toList
  | _ => false

/-- What belongs together. -/
inductive Enclosure where
  | bracket (bracket : Bracket)
  | cases
  | range
deriving DecidableEq, Repr

/-- A lexeme, or what has been gathered. -/
inductive Item where
  | leaf (lexeme : Lexeme)
  | nested (enclosure : Enclosure) (items : List Item)

/-- What is on the way to be gathered: items, and the beginnings of what is not complete. -/
inductive Entry where
  | item (item : Item)
  | opened (enclosure : Enclosure)

namespace Nesting

/-- What a lexeme is the beginning of. -/
def opens? (lexeme : Lexeme) : Option Enclosure :=
  match lexeme with
  | .opening bracket => some (.bracket bracket)
  | _ =>
    if lexeme.isKeyword "CASE" then some .cases
    else if lexeme.isKeyword "BETWEEN" then some .range
    else none

/-- What a lexeme is the end of, inside of something. -/
def closes? (inside : Option Enclosure) (lexeme : Lexeme) : Option Enclosure :=
  match lexeme with
  | .closing bracket => some (.bracket bracket)
  | _ =>
    if inside = some .cases ∧ lexeme.isKeyword "END" then some .cases
    else if inside = some .range ∧ lexeme.isKeyword "AND" then some .range
    else none

/-- What is not complete, the latest first. -/
def inside? : List Entry → Option Enclosure
  | [] => none
  | .opened enclosure :: _ => some enclosure
  | .item _ :: rest => inside? rest

/-- Gathers the latest items up to the beginning of what is complete now. -/
def close (enclosure : Enclosure) : List Item → List Entry → Option (List Entry)
  | _, [] => none
  | gathered, .item item :: rest => close enclosure (item :: gathered) rest
  | gathered, .opened other :: rest =>
    if other = enclosure then some (.item (.nested enclosure gathered) :: rest) else none

/-- The entries behind one more lexeme, the latest first. -/
def step (entries : List Entry) (lexeme : Lexeme) : Option (List Entry) :=
  match opens? lexeme with
  | some enclosure => some (.opened enclosure :: entries)
  | none =>
    match closes? (inside? entries) lexeme with
    | some enclosure => close enclosure [] entries
    | none => some (.item (.leaf lexeme) :: entries)

/-- The items of entries without anything incomplete. -/
def complete : List Entry → Option (List Item)
  | [] => some []
  | .item item :: rest => (complete rest).map fun items => items ++ [item]
  | .opened _ :: _ => none

end Nesting

open Nesting

/-- The items that lexemes make up. -/
def nest (lexemes : List Lexeme) : Option (List Item) :=
  (lexemes.foldlM step []).bind complete

namespace Nesting

/-- The entries of items, the latest first. -/
def entriesOf (items : List Item) : List Entry := items.reverse.map Entry.item

theorem entriesOf_append (items more : List Item) :
    entriesOf (items ++ more) = entriesOf more ++ entriesOf items := by
  simp [entriesOf]

/-- The entries of items are complete. -/
theorem complete_entriesOf (items : List Item) : complete (entriesOf items) = some items := by
  induction items using List.reverseRecOn with
  | nil => rfl
  | append_singleton items item ih =>
      rw [entriesOf_append]
      simpa [entriesOf, complete] using ih

/-- Entries without anything incomplete are those of their items. -/
theorem eq_entriesOf_of_complete {entries : List Entry} {items : List Item}
    (h : complete entries = some items) : entries = entriesOf items := by
  induction entries generalizing items with
  | nil =>
      cases h
      rfl
  | cons entry rest ih =>
      cases entry with
      | item item =>
          obtain ⟨front, hfront, rfl⟩ := Option.map_eq_some_iff.1 h
          rw [entriesOf_append, ← ih hfront]
          rfl
      | opened enclosure => cases h

/-- What is not complete in some entries is so with others in front of them. -/
theorem inside?_append (entries others : List Entry) :
    inside? (entries ++ others) = (inside? entries).or (inside? others) := by
  induction entries with
  | nil => rfl
  | cons entry rest ih => cases entry <;> simp [inside?, ih]

/-- Nothing is incomplete in the entries of items. -/
theorem inside?_entriesOf (items : List Item) : inside? (entriesOf items) = none := by
  unfold entriesOf
  induction items.reverse with
  | nil => rfl
  | cons item rest ih => exact ih

theorem close_append {enclosure : Enclosure} {gathered : List Item} {entries after : List Entry}
    (h : close enclosure gathered entries = some after) (others : List Entry) :
    close enclosure gathered (entries ++ others) = some (after ++ others) := by
  induction entries generalizing gathered with
  | nil => cases h
  | cons entry rest ih =>
      cases entry with
      | item item => exact ih h
      | opened other =>
          simp only [close, List.cons_append] at h ⊢
          split at h
          · next hsame =>
              cases h
              rw [if_pos hsame]
              rfl
          · cases h

/-- All items behind a beginning are gathered. -/
theorem close_entriesOf (enclosure : Enclosure) (items gathered : List Item) (rest : List Entry) :
    close enclosure gathered (entriesOf items ++ .opened enclosure :: rest) =
      some (.item (.nested enclosure (items ++ gathered)) :: rest) := by
  induction items using List.reverseRecOn generalizing gathered with
  | nil => simp [entriesOf, close]
  | append_singleton items item ih =>
      rw [entriesOf_append]
      simpa [entriesOf, close] using ih (item :: gathered)

/-- Whether nothing but a bracket is incomplete, so that no keyword can be the end of it. -/
def IsNeutral (entries : List Entry) : Prop :=
  inside? entries ≠ some .cases ∧ inside? entries ≠ some .range

/-- Neutral entries in front do not change what a lexeme is the end of. -/
theorem closes?_append (entries : List Entry) {others : List Entry} (hothers : IsNeutral others)
    (lexeme : Lexeme) :
    closes? (inside? (entries ++ others)) lexeme = closes? (inside? entries) lexeme := by
  rw [inside?_append]
  cases inside? entries with
  | some enclosure => rfl
  | none =>
      obtain ⟨hcases, hrange⟩ := hothers
      simp [closes?, hcases, hrange]

/-- A lexeme is taken the same way with other entries in front. -/
theorem step_append {entries after others : List Entry} {lexeme : Lexeme}
    (hothers : IsNeutral others) (h : step entries lexeme = some after) :
    step (entries ++ others) lexeme = some (after ++ others) := by
  unfold step at h ⊢
  cases hopens : opens? lexeme with
  | some enclosure =>
      simp only [hopens, Option.some.injEq] at h ⊢
      rw [← h]
      rfl
  | none =>
      simp only [hopens] at h ⊢
      cases hcloses : closes? (inside? entries) lexeme with
      | some enclosure =>
          simp only [closes?_append entries hothers, hcloses] at h ⊢
          exact close_append h others
      | none =>
          simp only [closes?_append entries hothers, hcloses, Option.some.injEq] at h ⊢
          rw [← h]
          rfl

theorem foldlM_append {lexemes : List Lexeme} {entries after others : List Entry}
    (hothers : IsNeutral others) (h : lexemes.foldlM step entries = some after) :
    lexemes.foldlM step (entries ++ others) = some (after ++ others) := by
  induction lexemes generalizing entries with
  | nil =>
      cases h
      rfl
  | cons lexeme rest ih =>
      rw [List.foldlM_cons, Option.bind_eq_bind, Option.bind_eq_some_iff] at h
      obtain ⟨next, hnext, hrest⟩ := h
      rw [List.foldlM_cons, step_append hothers hnext]
      exact ih hrest

end Nesting

/-- `Nests lexemes items` says that lexemes are complete by themselves and make up `items`. -/
def Nests (lexemes : List Lexeme) (items : List Item) : Prop :=
  lexemes.foldlM step [] = some (entriesOf items)

namespace Nests

variable {lexemes others : List Lexeme} {items more : List Item}

theorem iff_nest : Nests lexemes items ↔ nest lexemes = some items := by
  unfold Nests nest
  rw [Option.bind_eq_some_iff]
  constructor
  · intro h
    exact ⟨_, h, complete_entriesOf items⟩
  · rintro ⟨entries, hentries, hcomplete⟩
    rw [hentries, eq_entriesOf_of_complete hcomplete]

/-- Complete lexemes behind complete ones make up the items of both. -/
theorem append (h : Nests lexemes items) (hmore : Nests others more) :
    Nests (lexemes ++ others) (items ++ more) := by
  have hneutral : IsNeutral (entriesOf items) := by
    simp [IsNeutral, inside?_entriesOf]
  have hothers := foldlM_append hneutral hmore
  rw [List.nil_append, ← entriesOf_append] at hothers
  unfold Nests at h ⊢
  rw [List.foldlM_append, h]
  exact hothers

/-- Complete lexemes in parentheses are one item. -/
theorem round (h : Nests lexemes items) :
    Nests (.opening .round :: lexemes ++ [.closing .round])
      [.nested (.bracket .round) items] := by
  have hneutral : IsNeutral [.opened (.bracket .round)] := by
    simp [IsNeutral, inside?]
  have hinner := foldlM_append hneutral h
  have hclose := close_entriesOf (.bracket .round) items [] []
  rw [List.append_nil] at hclose
  have hopened : step [] (.opening .round) = some [.opened (.bracket .round)] := rfl
  have hclosed : step (entriesOf items ++ [.opened (.bracket .round)]) (.closing .round) =
      some [.item (.nested (.bracket .round) items)] := hclose
  unfold Nests
  rw [List.cons_append, List.foldlM_cons, hopened, Option.bind_eq_bind, Option.bind_some,
    List.foldlM_append]
  rw [List.nil_append] at hinner
  rw [hinner, Option.bind_eq_bind, Option.bind_some, List.foldlM_cons, hclosed]
  rfl

end Nests

end TypedSql.Sql
