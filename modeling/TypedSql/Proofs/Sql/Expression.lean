import TypedSql.Proofs.Condition.Meaning
import TypedSql.Proofs.Sql.Nesting

/-!
# Expressions

How a database reads any boolean text: at the outermost level `OR` binds less tightly than `AND` and
`AND` less tightly than `NOT`, parentheses group, and whatever is left is an atom. An expression
knows nothing about its atoms but their lexemes, in which the values of parameters stand for the
placeholders. `Expression.ofText?` reads a text.
-/

namespace TypedSql.Sql

open TypedSql.Condition (Joiner joinTruths)

/-- A boolean expression over atoms. -/
inductive Expression where
  | constant (truth : Bool)
  | atom (items : List Item)
  | negation (inner : Expression)
  | joined (joiner : Joiner) (parts : List Expression)

/-- The truths of atoms. -/
abbrev Truth := List Item → Bool

namespace Expression

mutual

/-- The truth of an expression. -/
def holds (truth : Truth) : Expression → Bool
  | constant known => known
  | atom items => truth items
  | negation inner => !holds truth inner
  | joined joiner parts => joinTruths joiner (holdsEach truth parts)

/-- The truths of several expressions. -/
def holdsEach (truth : Truth) : List Expression → List Bool
  | [] => []
  | part :: rest => holds truth part :: holdsEach truth rest

end

theorem holdsEach_eq_map (truth : Truth) (parts : List Expression) :
    holdsEach truth parts = parts.map (holds truth) := by
  induction parts with
  | nil => rfl
  | cons part rest ih => simp [holdsEach, ih]

end Expression

open Expression

/-- An item, with the expression in it if it is a pair of parentheses around one. -/
structure Part where
  item : Item
  inner : Option Expression

namespace Part

/-- Whether a part is a keyword. -/
def isKeyword (keyword : String) (part : Part) : Bool :=
  match part.item with
  | .leaf lexeme => lexeme.isKeyword keyword
  | .nested .. => false

/-- The constants that are spelled as comparisons of two numbers. -/
def constant? : List Item → Option Bool
  | [.leaf (.word "1"), .leaf (.symbol '='), .leaf (.word "1")] => some true
  | [.leaf (.word "1"), .leaf (.symbol '='), .leaf (.word "0")] => some false
  | _ => none

/-- The expression of items without a joiner, a negation or parentheses around them. -/
def primary (items : List Item) : Expression :=
  match constant? items with
  | some truth => .constant truth
  | none => .atom items

/-- The expression of parts without a joiner. -/
def operand : List Part → Option Expression
  | [] => none
  | part :: rest =>
    if part.isKeyword "NOT" then (operand rest).map .negation
    else match part.item, rest with
      | .nested (.bracket .round) _, [] => part.inner
      | _, _ => some (primary (part.item :: rest.map Part.item))

/-- The expression of parts without `OR`: the conjunction of what stands between each `AND`. -/
def conjunction (parts : List Part) : Option Expression :=
  ((parts.splitOnP (isKeyword "AND")).mapM operand).map (.joined .and)

/-- The expressions that stand between each `OR`. -/
def disjuncts (parts : List Part) : Option (List Expression) :=
  (parts.splitOnP (isKeyword "OR")).mapM conjunction

mutual

/-- An item as a part. -/
def ofItem : Item → Part
  | .leaf lexeme => { item := .leaf lexeme, inner := none }
  | .nested enclosure items =>
    { item := .nested enclosure items, inner := (disjuncts (ofItems items)).map (.joined .or) }

/-- Items as parts. -/
def ofItems : List Item → List Part
  | [] => []
  | item :: rest => ofItem item :: ofItems rest

end

end Part

/-- The lexeme with the value of a parameter in the place of its placeholder. -/
def Lexeme.fill (parameters : Parameters) : Lexeme → Lexeme
  | .slot parameter type =>
    match parameters.lookup parameter with
    | some value => .bound type value
    | none => .slot parameter type
  | lexeme => lexeme

/-- The expressions that stand between each `OR` of a text, at its outermost level. -/
def Expression.disjunctsOfText? (parameters : Parameters) (text : String) :
    Option (List Expression) := do
  let items ← nest ((← lexemes text).map (Lexeme.fill parameters))
  Part.disjuncts (Part.ofItems items)

/-- The expression that a text is with the values of its parameters. -/
def Expression.ofText? (parameters : Parameters) (text : String) : Option Expression :=
  (disjunctsOfText? parameters text).map (.joined .or)

example : (Expression.disjunctsOfText? [] "a = \x27OR\x27 or b BETWEEN 2 AND 3 AND (c OR d)").map
    List.length = some 2 := by decide +kernel

namespace Part

theorem ofItems_eq_map (items : List Item) : ofItems items = items.map ofItem := by
  induction items with
  | nil => rfl
  | cons item rest ih => simp [ofItems, ih]

theorem item_ofItem (item : Item) : (ofItem item).item = item := by
  cases item <;> rfl

/-- Where the first of two lists ends in the middle of a run, the run goes on in the second one. -/
theorem splitOnP_append {α : Type} (separates : α → Bool) (items others : List α) :
    ∃ front last first rest, items.splitOnP separates = front ++ [last] ∧
      others.splitOnP separates = first :: rest ∧
        (items ++ others).splitOnP separates = front ++ (last ++ first) :: rest := by
  induction items with
  | nil =>
      obtain ⟨first, rest, hothers⟩ :=
        List.exists_cons_of_ne_nil (List.splitOnP_ne_nil separates others)
      exact ⟨[], [], first, rest, rfl, hothers, hothers⟩
  | cons item items ih =>
      obtain ⟨front, last, first, rest, hitems, hothers, hboth⟩ := ih
      rw [List.cons_append, List.splitOnP_cons_eq_if_modifyHead,
        List.splitOnP_cons_eq_if_modifyHead, hitems, hboth]
      by_cases hseparates : separates item = true
      · exact ⟨[] :: front, last, first, rest, by simp [hseparates], hothers, by simp [hseparates]⟩
      · cases front with
        | nil =>
            exact ⟨[], item :: last, first, rest, by simp [hseparates], hothers,
              by simp [hseparates]⟩
        | cons run front =>
            exact ⟨(item :: run) :: front, last, first, rest, by simp [hseparates], hothers,
              by simp [hseparates]⟩

variable {parts others : List Part} {part : Part}

/-- A conjunction behind `AND` is joined with the one in front. -/
theorem conjunction_and {left right : Expression} (hpart : part.isKeyword "AND" = true)
    (h : conjunction parts = some left) (hothers : conjunction others = some right) :
    ∃ both, conjunction (parts ++ part :: others) = some both ∧
      ∀ truth, both.holds truth = (left.holds truth && right.holds truth) := by
  obtain ⟨operands, hoperands, rfl⟩ := Option.map_eq_some_iff.1 h
  obtain ⟨more, hmore, rfl⟩ := Option.map_eq_some_iff.1 hothers
  refine ⟨.joined .and (operands ++ more), ?_, fun truth => ?_⟩
  · simp [conjunction, List.splitOnP_append_cons _ _ hpart, List.mapM_append, hoperands, hmore]
  · simp [holds, holdsEach_eq_map, joinTruths]

/-- Disjunctions with `OR` between them are one disjunction. -/
theorem disjuncts_or {expressions more : List Expression} (hpart : part.isKeyword "OR" = true)
    (h : disjuncts parts = some expressions) (hothers : disjuncts others = some more) :
    disjuncts (parts ++ part :: others) = some (expressions ++ more) := by
  unfold disjuncts at h hothers ⊢
  rw [List.splitOnP_append_cons _ _ hpart, List.mapM_append, h, hothers]
  rfl

end Part

/-- The truths of disjunctions with `AND` between them: the last disjunct of the first and the first
one of the second are joined. What is empty is not there to join. -/
def splice : List Bool → List Bool → List Bool
  | [], right => right
  | [last], first :: rest => (last && first) :: rest
  | [last], [] => [last]
  | truth :: other :: more, right => truth :: splice (other :: more) right

@[simp] theorem splice_nil (truths : List Bool) : splice truths [] = truths := by
  induction truths with
  | nil => rfl
  | cons truth rest ih =>
      cases rest with
      | nil => rfl
      | cons other more => simpa [splice] using ih

theorem splice_append (front rest : List Bool) (last first : Bool) :
    splice (front ++ [last]) (first :: rest) = front ++ (last && first) :: rest := by
  induction front with
  | nil => rfl
  | cons truth front ih =>
      cases front with
      | nil => rfl
      | cons other more => simpa [splice] using ih

namespace Part

variable {parts others : List Part} {part : Part}

/-- A part is one keyword only. -/
theorem isKeyword_unique {first second : String} (hfirst : part.isKeyword first = true)
    (hsecond : part.isKeyword second = true) : first = second := by
  obtain ⟨item, inner⟩ := part
  cases item with
  | nested enclosure items => cases hfirst
  | leaf lexeme =>
      cases lexeme with
      | word text =>
          simp only [isKeyword, Lexeme.isKeyword, decide_eq_true_eq] at hfirst hsecond
          rw [← String.toList_inj, ← hfirst, ← hsecond]
      | _ => cases hfirst

/-- Disjunctions with `AND` between them are spliced. -/
theorem disjuncts_and {expressions more : List Expression} (hpart : part.isKeyword "AND" = true)
    (h : disjuncts parts = some expressions) (hothers : disjuncts others = some more) :
    ∃ both, disjuncts (parts ++ part :: others) = some both ∧
      ∀ truth, both.map (holds truth) =
        splice (expressions.map (holds truth)) (more.map (holds truth)) := by
  have hor : part.isKeyword "OR" = false := by
    refine Bool.eq_false_iff.2 fun hor => ?_
    exact absurd (isKeyword_unique hpart hor) (by decide)
  obtain ⟨front, last, first, rest, hparts, hrest, hsplit⟩ :=
    splitOnP_append (isKeyword "OR") parts (part :: others)
  -- the part between is no `OR`, so that it begins the first run of what it is in front of
  obtain ⟨run, runs, hruns⟩ :=
    List.exists_cons_of_ne_nil (List.splitOnP_ne_nil (isKeyword "OR") others)
  rw [List.splitOnP_cons_eq_if_modifyHead, hor, hruns] at hrest
  obtain ⟨rfl, rfl⟩ : part :: run = first ∧ runs = rest := by simpa using hrest
  simp only [disjuncts, hparts, hruns, List.mapM_append, List.mapM_cons, List.mapM_nil,
    Option.bind_eq_bind, Option.bind_eq_some_iff, Option.pure_def, Option.some.injEq] at h hothers
  obtain ⟨earlier, hearlier, _, ⟨left, hleft, _, rfl, rfl⟩, rfl⟩ := h
  obtain ⟨right, hright, later, hlater, rfl⟩ := hothers
  obtain ⟨both, hboth, htruth⟩ := conjunction_and hpart hleft hright
  refine ⟨earlier ++ both :: later, ?_, fun truth => ?_⟩
  · simp [disjuncts, hsplit, List.mapM_append, hearlier, hboth, hlater]
  · simp [htruth, splice_append]

/-- An operand with neither joiner in it is the only disjunct. -/
theorem disjuncts_operand {expression : Expression} (h : operand parts = some expression)
    (hparts : ∀ part ∈ parts, part.isKeyword "AND" = false ∧ part.isKeyword "OR" = false) :
    disjuncts parts = some [.joined .and [expression]] := by
  have hand : parts.splitOnP (isKeyword "AND") = [parts] :=
    List.splitOnP_eq_singleton fun part hpart => by simp [(hparts part hpart).1]
  have hor : parts.splitOnP (isKeyword "OR") = [parts] :=
    List.splitOnP_eq_singleton fun part hpart => by simp [(hparts part hpart).2]
  simp [disjuncts, conjunction, hand, hor, h]

end Part

end TypedSql.Sql
