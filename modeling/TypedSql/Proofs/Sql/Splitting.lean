import TypedSql.Proofs.Sql.Expression
import TypedSql.Proofs.Sql.Piece

/-!
# Texts that are expressions

`Gathers parameters text items` says that a text is complete by itself and made up of `items`, and
`Splits parameters text truths` that it is expressions with `OR` between them, of the truths
`truths`. There is one lemma for every way to put such texts together: texts with `OR` between them
have the expressions of both, texts with `AND` between them are spliced, and in parentheses or
behind `NOT` a text is a single operand.
-/

namespace TypedSql.Sql

open TypedSql.Condition (Joiner withinKeyword nullKeyword alwaysTrue alwaysFalse)
open TypedSql.Identifier

/-- `Gathers parameters text items` says that a text is complete by itself and made up of `items`,
with the values of the parameters in the place of their placeholders. -/
def Gathers (parameters : Parameters) (text : String) (items : List Item) : Prop :=
  ∃ more, Lexes text more ∧ Nests (more.map (Lexeme.fill parameters)) items

/-- The items of a text without brackets. -/
def leavesOf (text : String) : List Item := ((lexemes text).getD []).map .leaf

/-- The texts that stand behind the column of a test, with no placeholder in them. -/
def testTexts : List String :=
  [nullKeyword false, nullKeyword true, withinKeyword false, withinKeyword true] ++ comparisons

/-- A value in the place of its placeholder. -/
def boundItem (value : Value) : Item := .leaf (.bound (Wire.placeholderType value) value)

/-- The atom that a test of a column is. -/
def atomOf : Test → List Item
  | .isNull column negated => .leaf (.quoted column) :: leavesOf (nullKeyword negated)
  | .compare column comparison value =>
    .leaf (.quoted column) :: leavesOf comparison ++ [boundItem value]
  | .within column negated members =>
    .leaf (.quoted column) :: leavesOf (withinKeyword negated) ++
      [.nested (.bracket .round) ((members.map boundItem).intersperse (.leaf (.symbol ',')))]
  | .between column low high =>
    [.leaf (.quoted column), .nested .range [boundItem low], boundItem high]

/-- `Fills parameters slot value` says that `slot` is the text of a placeholder for a value that the
parameters have. -/
def Fills (parameters : Parameters) (slot : String) (value : Value) : Prop :=
  ∃ more, Lexes slot more ∧
    more.map (Lexeme.fill parameters) = [.bound (Wire.placeholderType value) value]

/-- A placeholder is filled by the parameter of its name. -/
theorem Fills.placeholderOf {parameters : Parameters} {name : String} {value : Value}
    (hcolon : ':' ∉ name.toList) (hclosing : '\x7d' ∉ name.toList)
    (htype : '\x7d' ∉ (Wire.placeholderType value).toList)
    (hvalue : parameters.lookup name = some value) :
    Fills parameters (placeholderOf name (Wire.placeholderType value)) value := by
  refine ⟨_, Lexes.slot hcolon hclosing htype, ?_⟩
  rw [List.map_singleton, Lexeme.fill, hvalue]

namespace Gathers

variable {parameters : Parameters} {text other : String} {items more : List Item}

/-- A blank parts two texts. -/
theorem blank (h : Gathers parameters text items) (hother : Gathers parameters other more) :
    Gathers parameters (text ++ " " ++ other) (items ++ more) := by
  obtain ⟨lexemes, hlexes, hnests⟩ := h
  obtain ⟨others, hothers, hmore⟩ := hother
  refine ⟨_, hlexes.blank hothers, ?_⟩
  rw [List.map_append]
  exact hnests.append hmore

/-- A comma parts two texts. -/
theorem separated (h : Gathers parameters text items) (hother : Gathers parameters other more) :
    Gathers parameters (text ++ ", " ++ other) (items ++ .leaf (.symbol ',') :: more) := by
  obtain ⟨lexemes, hlexes, hnests⟩ := h
  obtain ⟨others, hothers, hmore⟩ := hother
  have hcomma : Nests [.symbol ','] [.leaf (.symbol ',')] := rfl
  refine ⟨_, hlexes.separated hothers, ?_⟩
  rw [List.map_append]
  exact hnests.append (hcomma.append hmore)

/-- A text in parentheses is one item. -/
theorem round (h : Gathers parameters text items) :
    Gathers parameters ("(" ++ text ++ ")") [.nested (.bracket .round) items] := by
  obtain ⟨lexemes, hlexes, hnests⟩ := h
  refine ⟨_, hlexes.opened.closed, ?_⟩
  rw [List.map_append, List.map_cons]
  exact hnests.round

/-- The keyword of a joiner parts two texts. -/
theorem joined (joiner : Joiner) (h : Gathers parameters text items)
    (hother : Gathers parameters other more) :
    Gathers parameters (text ++ joiner.separator ++ other)
      (items ++ .leaf (.word joiner.keyword) :: more) := by
  have hkeyword : Gathers parameters joiner.keyword [.leaf (.word joiner.keyword)] := by
    cases joiner <;> exact ⟨_, rfl, rfl⟩
  have htext : text ++ joiner.separator ++ other =
      text ++ " " ++ (joiner.keyword ++ " " ++ other) := by
    simp only [Joiner.separator, String.append_assoc]
  rw [htext]
  exact h.blank (hkeyword.blank hother)

/-- A name between backticks is one item. -/
theorem name {column : String} (h : IsQuoted column) :
    Gathers parameters column [.leaf (.quoted column)] :=
  ⟨_, Lexes.name h, rfl⟩

/-- The texts of tests have no brackets. -/
theorem leaves (h : text ∈ testTexts) : Gathers parameters text (leavesOf text) := by
  simp only [testTexts, nullKeyword, withinKeyword, comparisons, comparisonSymbols,
    List.cons_append, List.nil_append, List.mem_cons, List.not_mem_nil, or_false] at h
  rcases h with rfl | rfl | rfl | rfl | rfl | rfl | rfl | rfl | rfl | rfl | rfl | rfl | rfl <;>
    exact ⟨_, rfl, rfl⟩

/-- A test for null is its atom. -/
theorem isNull {column : String} (hcolumn : IsQuoted column) (negated : Bool) :
    Gathers parameters (column ++ " " ++ nullKeyword negated)
      (atomOf (.isNull column negated)) := by
  have hkeyword : nullKeyword negated ∈ testTexts := by cases negated <;> decide
  exact (name hcolumn).blank (leaves hkeyword)

/-- A placeholder with a value is one item. -/
theorem slot {slot : String} {value : Value} (h : Fills parameters slot value) :
    Gathers parameters slot [boundItem value] := by
  obtain ⟨more, hlexes, hfilled⟩ := h
  refine ⟨more, hlexes, ?_⟩
  rw [hfilled]
  rfl

/-- A comparison with a value is its atom. -/
theorem compare {column comparison slot : String} {value : Value} (hcolumn : IsQuoted column)
    (hcomparison : comparison ∈ comparisons) (hslot : Fills parameters slot value) :
    Gathers parameters (column ++ " " ++ comparison ++ " " ++ slot)
      (atomOf (.compare column comparison value)) :=
  ((name hcolumn).blank (leaves (List.mem_append_right _ hcomparison))).blank (.slot hslot)

/-- A membership test is its atom. -/
theorem within {column list : String} {members : List Value} (hcolumn : IsQuoted column)
    (negated : Bool) (hlist : Gathers parameters list
      ((members.map boundItem).intersperse (.leaf (.symbol ',')))) :
    Gathers parameters (column ++ " " ++ withinKeyword negated ++ " (" ++ list ++ ")")
      (atomOf (.within column negated members)) := by
  have hkeyword : withinKeyword negated ∈ testTexts := by cases negated <;> decide
  have htext : column ++ " " ++ withinKeyword negated ++ " (" ++ list ++ ")" =
      column ++ " " ++ withinKeyword negated ++ " " ++ ("(" ++ list ++ ")") := by
    rw [show " (" = " " ++ "(" from rfl]
    simp only [String.append_assoc]
  rw [htext]
  exact ((name hcolumn).blank (leaves hkeyword)).blank hlist.round

/-- A test for a range is its atom: the `AND` in it belongs to the range. -/
theorem between {column first last : String} {low high : Value} (hcolumn : IsQuoted column)
    (hfirst : Fills parameters first low) (hlast : Fills parameters last high) :
    Gathers parameters (column ++ " BETWEEN " ++ first ++ " AND " ++ last)
      (atomOf (.between column low high)) := by
  obtain ⟨lows, hlows, hlow⟩ := hfirst
  obtain ⟨highs, hhighs, hhigh⟩ := hlast
  have hbetween : Lexes "BETWEEN" [.word "BETWEEN"] := rfl
  have hand : Lexes "AND" [.word "AND"] := rfl
  have h := (Lexes.name hcolumn).blank (hbetween.blank (hlows.blank (hand.blank hhighs)))
  have htext : column ++ " BETWEEN " ++ first ++ " AND " ++ last =
      column ++ " " ++ ("BETWEEN" ++ " " ++ (first ++ " " ++ ("AND" ++ " " ++ last))) := by
    rw [show " BETWEEN " = " " ++ "BETWEEN" ++ " " from rfl,
      show " AND " = " " ++ "AND" ++ " " from rfl]
    simp only [String.append_assoc]
  rw [htext]
  refine ⟨_, h, ?_⟩
  simp only [List.map_append, hlow, hhigh]
  rfl

end Gathers

/-- Whether an item is no keyword that joins. -/
def Item.IsNoJoiner (item : Item) : Prop :=
  (Part.ofItem item).isKeyword "AND" = false ∧ (Part.ofItem item).isKeyword "OR" = false

instance (item : Item) : Decidable item.IsNoJoiner := inferInstanceAs (Decidable (_ ∧ _))

theorem isNoJoiner_boundItem (value : Value) : (boundItem value).IsNoJoiner := ⟨rfl, rfl⟩

theorem isNoJoiner_nested (enclosure : Enclosure) (items : List Item) :
    (Item.nested enclosure items).IsNoJoiner := ⟨rfl, rfl⟩

/-- No text of a test joins. -/
theorem isNoJoiner_leavesOf {text : String} (h : text ∈ testTexts) :
    ∀ item ∈ leavesOf text, item.IsNoJoiner := by
  have hall : ∀ known ∈ testTexts, ∀ item ∈ leavesOf known, item.IsNoJoiner := by decide +kernel
  exact hall text h

/-- The truths of two texts with a joiner between them, each given by those of its expressions with
`OR` between them. -/
def joinDisjuncts : Joiner → List Bool → List Bool → List Bool
  | .and => splice
  | .or => List.append

@[simp] theorem joinDisjuncts_nil (joiner : Joiner) (truths : List Bool) :
    joinDisjuncts joiner truths [] = truths := by
  cases joiner with
  | and => exact splice_nil truths
  | or => exact List.append_nil truths

/-- `Splits parameters text truths` says that a text is expressions with `OR` between them, and that
`truths` are their truths under each assignment of truths to atoms. -/
def Splits (parameters : Parameters) (text : String) (truths : Truth → List Bool) : Prop :=
  ∃ items expressions, Gathers parameters text items ∧
    Part.disjuncts (Part.ofItems items) = some expressions ∧
      ∀ truth, expressions.map (Expression.holds truth) = truths truth

namespace Splits

variable {parameters : Parameters} {text other : String} {truths others : Truth → List Bool}

/-- Texts with `OR` between them have the expressions of both, and texts with `AND` between them
are spliced. -/
theorem joined (joiner : Joiner) (h : Splits parameters text truths)
    (hother : Splits parameters other others) :
    Splits parameters (text ++ joiner.separator ++ other)
      fun truth => joinDisjuncts joiner (truths truth) (others truth) := by
  obtain ⟨items, expressions, hitems, hread, htruths⟩ := h
  obtain ⟨more, rest, hmore, hrest, hothers⟩ := hother
  have hboth := hitems.joined joiner hmore
  rw [Part.ofItems_eq_map] at hread hrest
  cases joiner with
  | and =>
      have hkeyword : (Part.ofItem (.leaf (.word "AND"))).isKeyword "AND" = true := rfl
      obtain ⟨both, hspliced, hjoined⟩ := Part.disjuncts_and hkeyword hread hrest
      refine ⟨_, both, hboth, ?_, fun truth => ?_⟩
      · rw [Part.ofItems_eq_map, List.map_append, List.map_cons]
        exact hspliced
      · rw [hjoined, htruths, hothers]
        rfl
  | or =>
      have hkeyword : (Part.ofItem (.leaf (.word "OR"))).isKeyword "OR" = true := rfl
      refine ⟨_, expressions ++ rest, hboth, ?_, fun truth => ?_⟩
      · rw [Part.ofItems_eq_map, List.map_append, List.map_cons]
        exact Part.disjuncts_or hkeyword hread hrest
      · rw [List.map_append, htruths, hothers]
        rfl

/-- An operand with neither joiner in it is a single one. -/
theorem operand {items : List Item} {expression : Expression}
    (hitems : Gathers parameters text items)
    (h : Part.operand (Part.ofItems items) = some expression)
    (hparts : ∀ part ∈ Part.ofItems items,
      part.isKeyword "AND" = false ∧ part.isKeyword "OR" = false) :
    Splits parameters text fun truth => [expression.holds truth] := by
  refine ⟨items, _, hitems, Part.disjuncts_operand h hparts, fun truth => ?_⟩
  simp [Expression.holds, Expression.holdsEach, Condition.joinTruths]

/-- A text in parentheses is a single operand. -/
theorem group (h : Splits parameters text truths) :
    Splits parameters ("(" ++ text ++ ")") fun truth => [(truths truth).any id] := by
  obtain ⟨items, expressions, hitems, hread, htruths⟩ := h
  have hoperand : Part.operand (Part.ofItems [.nested (.bracket .round) items]) =
      some (.joined .or expressions) := by
    simp [Part.ofItems, Part.ofItem, Part.operand, Part.isKeyword, hread]
  have h := operand hitems.round hoperand (by simp [Part.ofItems, Part.ofItem, Part.isKeyword])
  simpa [Expression.holds, Expression.holdsEach_eq_map, Condition.joinTruths, htruths] using h

/-- A text in parentheses behind `NOT` is the single operand that does not hold where the text
does. -/
theorem negation (h : Splits parameters text truths) :
    Splits parameters ("NOT (" ++ text ++ ")") fun truth => [!(truths truth).any id] := by
  obtain ⟨items, expressions, hitems, hread, htruths⟩ := h
  have hword : Gathers parameters "NOT" [.leaf (.word "NOT")] := ⟨_, rfl, rfl⟩
  have hnot : Lexeme.isKeyword "NOT" (.word "NOT") = true := rfl
  have hneither : Lexeme.isKeyword "AND" (.word "NOT") = false ∧
      Lexeme.isKeyword "OR" (.word "NOT") = false := by decide
  have hoperand : Part.operand (Part.ofItems
      ([.leaf (.word "NOT")] ++ [.nested (.bracket .round) items])) =
        some (.negation (.joined .or expressions)) := by
    simp [Part.ofItems, Part.ofItem, Part.operand, Part.isKeyword, hnot, hread]
  have h := operand (hword.blank hitems.round) hoperand
    (by simp [Part.ofItems, Part.ofItem, Part.isKeyword, hneither])
  have htext : "NOT (" ++ text ++ ")" = "NOT" ++ " " ++ ("(" ++ text ++ ")") := by
    rw [show "NOT (" = "NOT" ++ " " ++ "(" from rfl]
    simp only [String.append_assoc]
  rw [htext]
  simpa [Expression.holds, Expression.holdsEach_eq_map, Condition.joinTruths, htruths] using h

/-- A constant is a single operand. -/
theorem constant (known : Bool) :
    Splits parameters (if known then alwaysTrue else alwaysFalse) fun _ => [known] := by
  cases known with
  | false =>
      have hitems : Gathers parameters alwaysFalse
          [.leaf (.word "1"), .leaf (.symbol '='), .leaf (.word "0")] :=
        ⟨[.word "1", .symbol '=', .word "0"], rfl, rfl⟩
      have hread : Part.operand (Part.ofItems
          [.leaf (.word "1"), .leaf (.symbol '='), .leaf (.word "0")]) =
            some (.constant false) := rfl
      exact operand hitems hread (by decide)
  | true =>
      have hitems : Gathers parameters alwaysTrue
          [.leaf (.word "1"), .leaf (.symbol '='), .leaf (.word "1")] :=
        ⟨[.word "1", .symbol '=', .word "1"], rfl, rfl⟩
      have hread : Part.operand (Part.ofItems
          [.leaf (.word "1"), .leaf (.symbol '='), .leaf (.word "1")]) =
            some (.constant true) := rfl
      exact operand hitems hread (by decide)

/-- What begins with a column and has no joiner in it is an atom. -/
theorem atom {column : String} {items : List Item}
    (h : Gathers parameters text (.leaf (.quoted column) :: items))
    (hitems : ∀ item ∈ items, item.IsNoJoiner) :
    Splits parameters text fun truth => [truth (.leaf (.quoted column) :: items)] := by
  have hparts : (Part.ofItems items).map Part.item = items := by
    rw [Part.ofItems_eq_map, List.map_map]
    simp [Function.comp_def, Part.item_ofItem]
  have hoperand : Part.operand (Part.ofItems (.leaf (.quoted column) :: items)) =
      some (.atom (.leaf (.quoted column) :: items)) := by
    simp [Part.ofItems, Part.ofItem, Part.operand, Part.isKeyword, Lexeme.isKeyword, Part.primary,
      Part.constant?, hparts]
  refine operand h hoperand ?_
  rw [Part.ofItems_eq_map, List.map_cons, List.forall_mem_cons, List.forall_mem_map]
  exact ⟨⟨rfl, rfl⟩, hitems⟩

/-- A test for null is a single operand. -/
theorem isNull {column : String} (hcolumn : IsQuoted column) (negated : Bool) :
    Splits parameters (column ++ " " ++ nullKeyword negated)
      fun truth => [truth (atomOf (.isNull column negated))] := by
  have hkeyword : nullKeyword negated ∈ testTexts := by cases negated <;> decide
  exact atom (.isNull hcolumn negated) (isNoJoiner_leavesOf hkeyword)

/-- A comparison with a value is a single operand. -/
theorem compare {column comparison slot : String} {value : Value} (hcolumn : IsQuoted column)
    (hcomparison : comparison ∈ comparisons) (hslot : Fills parameters slot value) :
    Splits parameters (column ++ " " ++ comparison ++ " " ++ slot)
      fun truth => [truth (atomOf (.compare column comparison value))] := by
  refine atom (.compare hcolumn hcomparison hslot) fun item hitem => ?_
  rcases List.mem_append.1 hitem with hitem | hitem
  · exact isNoJoiner_leavesOf (List.mem_append_right _ hcomparison) item hitem
  · rw [List.mem_singleton.1 hitem]
    exact isNoJoiner_boundItem value

/-- A membership test is a single operand. -/
theorem within {column list : String} {members : List Value} (hcolumn : IsQuoted column)
    (negated : Bool) (hlist : Gathers parameters list
      ((members.map boundItem).intersperse (.leaf (.symbol ',')))) :
    Splits parameters (column ++ " " ++ withinKeyword negated ++ " (" ++ list ++ ")")
      fun truth => [truth (atomOf (.within column negated members))] := by
  have hkeyword : withinKeyword negated ∈ testTexts := by cases negated <;> decide
  refine atom (.within hcolumn negated hlist) fun item hitem => ?_
  rcases List.mem_append.1 hitem with hitem | hitem
  · exact isNoJoiner_leavesOf hkeyword item hitem
  · rw [List.mem_singleton.1 hitem]
    exact isNoJoiner_nested _ _

/-- A test for a range is a single operand. -/
theorem between {column first last : String} {low high : Value} (hcolumn : IsQuoted column)
    (hfirst : Fills parameters first low) (hlast : Fills parameters last high) :
    Splits parameters (column ++ " BETWEEN " ++ first ++ " AND " ++ last)
      fun truth => [truth (atomOf (.between column low high))] := by
  refine atom (.between hcolumn hfirst hlast) ?_
  simp only [List.forall_mem_cons]
  exact ⟨isNoJoiner_nested _ _, isNoJoiner_boundItem high,
    fun _ hnone => absurd hnone List.not_mem_nil⟩

/-- What stands between the outermost `OR`s of a text is what the text splits into. -/
theorem ofDisjuncts {expressions : List Expression}
    (h : Expression.disjunctsOfText? parameters text = some expressions) :
    Splits parameters text fun truth => expressions.map (Expression.holds truth) := by
  simp only [Expression.disjunctsOfText?, Option.bind_eq_bind, Option.bind_eq_some_iff] at h
  obtain ⟨more, hlexes, items, hnests, hread⟩ := h
  exact ⟨items, expressions, ⟨more, hlexes, Nests.iff_nest.2 hnests⟩, hread, fun _ => rfl⟩

/-- A text that splits is an expression, which holds where one of those with `OR` between them
does. -/
theorem ofText? (h : Splits parameters text truths) :
    ∃ expression, Expression.ofText? parameters text = some expression ∧
      ∀ truth, expression.holds truth = (truths truth).any id := by
  obtain ⟨items, expressions, ⟨more, hlexes, hnests⟩, hread, htruths⟩ := h
  refine ⟨.joined .or expressions, ?_, fun truth => ?_⟩
  · have hlexemes : lexemes text = some more := hlexes
    simp [Expression.ofText?, Expression.disjunctsOfText?, hlexemes, Nests.iff_nest.1 hnests, hread]
  · simp [Expression.holds, Expression.holdsEach_eq_map, Condition.joinTruths, ← htruths]

end Splits

end TypedSql.Sql
