import TypedSql.Proofs.Condition.Clause
import TypedSql.Proofs.Condition.Marks

/-!
# Conditions of one skeleton

Two conditions have the same skeleton if they differ in bound values only, and there only in values
with placeholders of the same type: `Alike`. `compile_alike` says that such conditions have clauses
of the same text, without a single quote in it, or none of them has a clause.
-/

namespace TypedSql.Condition

open TypedSql.Sql TypedSql.Outcome TypedSql.Identifier

/-- The types of the placeholders that bind the items of a value. -/
def itemTypes? (value : Value) : Option (List String) :=
  value.asItems?.map (List.map Wire.placeholderType)

/-- What has to be the same in two operands of an operator: the types of the items where the
operator takes several values, the polarity where it takes none, else the type. -/
def AlikeOperands (operator : Operator) (first second : Value) : Prop :=
  match operator with
  | .oneOf | .notOneOf | .between => itemTypes? first = itemTypes? second
  | .isNull | .notNull => first.isTruthy = second.isTruthy
  | _ => Wire.placeholderType first = Wire.placeholderType second

/-- Two operators with operands are the same operator with operands that are alike. -/
def AlikeOperators (first second : Operator × Value) : Prop :=
  first.1 = second.1 ∧ AlikeOperands first.1 first.2 second.2

/-- Two entries of maps of operators have the same key and, if it names an operator, operands that
are alike. -/
def AlikeNamed (first second : Value × Value) : Prop :=
  first.1 = second.1 ∧
    ∀ operator, operatorOfKey? first.1 = some operator → AlikeOperands operator first.2 second.2

/-- Whether a value stands for itself as the value of a field. -/
def IsBare : Value → Prop
  | .raw _ _ | .literal _ | .operators _ => False
  | value => looksLikeOperators value = false

/-- The values of a field that are alike. -/
inductive AlikeField : Value → Value → Prop
  | bare {first second : Value} (hfirst : IsBare first) (hsecond : IsBare second)
      (htype : Wire.placeholderType first = Wire.placeholderType second) : AlikeField first second
  | literal {first second : Value}
      (htype : Wire.placeholderType first = Wire.placeholderType second) :
      AlikeField (.literal first) (.literal second)
  | operators {first second : List (Operator × Value)}
      (h : List.Forall₂ AlikeOperators first second) :
      AlikeField (.operators first) (.operators second)
  | named {first second : Entries} (hlooks : looksLikeOperators (.map first) = true)
      (h : List.Forall₂ AlikeNamed first second) : AlikeField (.map first) (.map second)

mutual

/-- Conditions with the same skeleton. What is no condition is alike only in that. -/
inductive Alike : Value → Value → Prop
  | null : Alike .null .null
  | conjunction {first second : List Value} (h : AlikeAll first second) :
      Alike (.conjunction first) (.conjunction second)
  | disjunction {first second : List Value} (h : AlikeAll first second) :
      Alike (.disjunction first) (.disjunction second)
  | negation {first second : Value} (h : Alike first second) :
      Alike (.negation first) (.negation second)
  | map {first second : Entries} (h : AlikeEntries first second) :
      Alike (.map first) (.map second)
  | malformed {first second : Value} (hfirst : first ≠ .null ∧ isSingle first = false)
      (hsecond : second ≠ .null ∧ isSingle second = false) : Alike first second

/-- Lists of as many conditions with the same skeletons. -/
inductive AlikeAll : List Value → List Value → Prop
  | nil : AlikeAll [] []
  | cons {first second : Value} {rest others : List Value} (h : Alike first second)
      (hrest : AlikeAll rest others) : AlikeAll (first :: rest) (second :: others)

/-- Maps with the same keys whose values are alike under each key. -/
inductive AlikeEntries : List (Value × Value) → List (Value × Value) → Prop
  | nil : AlikeEntries [] []
  | cons {key first second : Value} {rest others : List (Value × Value)}
      (h : AlikeEntry key first second) (hrest : AlikeEntries rest others) :
      AlikeEntries ((key, first) :: rest) ((key, second) :: others)

/-- Values that are alike under a key, which is a connective or a field. -/
inductive AlikeEntry : Value → Value → Value → Prop
  | several {key first second : Value} {joiner : Joiner} {conditions others : List Value}
      (hkey : connective? key = some (.joining joiner)) (hfirst : first.asItems? = some conditions)
      (hsecond : second.asItems? = some others) (h : AlikeAll conditions others) :
      AlikeEntry key first second
  | single {key first second : Value} {joiner : Joiner}
      (hkey : connective? key = some (.joining joiner)) (hfirst : isSingle first = true)
      (hsecond : isSingle second = true) (h : Alike first second) : AlikeEntry key first second
  | malformed {key first second : Value} {joiner : Joiner}
      (hkey : connective? key = some (.joining joiner))
      (hfirst : first.asItems? = none ∧ isSingle first = false)
      (hsecond : second.asItems? = none ∧ isSingle second = false) : AlikeEntry key first second
  | negation {key first second : Value} (hkey : connective? key = some .negating)
      (h : Alike first second) : AlikeEntry key first second
  | field {key first second : Value} (hkey : connective? key = none)
      (h : AlikeField first second) : AlikeEntry key first second

end

/-- A piece without its value. -/
def erased : Piece → Piece
  | .text chars => .text chars
  | .bound type _ => .bound type .null

/-- The pieces of a predicate without their values. -/
def outline (predicate : Predicate) : List Piece := predicate.pieces.map erased

section Pieces

variable {name : Nat → String}

/-- The text of pieces does not depend on their values. -/
theorem render_erased (distance : Nat) (pieces : List Piece) :
    Piece.render name distance (pieces.map erased) = Piece.render name distance pieces := by
  have htexts : Piece.texts name distance (pieces.map erased) =
      Piece.texts name distance pieces := by
    induction pieces generalizing distance with
    | nil => rfl
    | cons piece rest ih => cases piece <;> simp [erased, Piece.texts, ih]
  rw [Piece.render, htexts, Piece.render]

/-- The names of the parameters of pieces do not depend on their values. -/
theorem names_erased (distance : Nat) (pieces : List Piece) :
    (Piece.parameters name distance (pieces.map erased)).map Prod.fst =
      (Piece.parameters name distance pieces).map Prod.fst := by
  induction pieces generalizing distance with
  | nil => rfl
  | cons piece rest ih => cases piece <;> simp [erased, Piece.parameters, ih]

/-- Joined pieces without values are the pieces without values joined. -/
theorem erased_join (separator : String) (lists : List (List Piece)) :
    (Piece.join separator lists).map erased =
      Piece.join separator (lists.map (List.map erased)) := by
  induction lists with
  | nil => rfl
  | cons pieces rest ih =>
      cases rest with
      | nil => rfl
      | cons other others =>
          simp only [Piece.join, List.map_append, List.map_cons] at ih ⊢
          rw [ih, erased]

end Pieces

section Outlines

open Predicate

theorem map_piecesOfAll (parts : List Predicate) :
    (piecesOfAll parts).map (List.map erased) = parts.map outline := by
  induction parts with
  | nil => rfl
  | cons part rest ih => simp [piecesOfAll, outline, ih]

theorem outline_all (parts : List Predicate) :
    outline (.all parts) = Piece.join Joiner.and.separator (parts.map outline) := by
  rw [outline, pieces, erased_join, map_piecesOfAll]

theorem outline_group (joiner : Joiner) (parts : List Predicate) :
    outline (.group joiner parts) =
      .text "(" :: Piece.join joiner.separator (parts.map outline) ++ [.text ")"] := by
  simp [outline, pieces, erased_join, map_piecesOfAll, erased]

theorem outline_negation (inner : Predicate) :
    outline (.negation inner) = .text "NOT (" :: outline inner ++ [.text ")"] := by
  simp [outline, pieces, erased]

variable {parts others : List Predicate} {first second : Option Predicate}

/-- Groups of parts with the same outlines have the same outline. -/
theorem outline_groupOf (joiner : Joiner) (h : parts.map outline = others.map outline) :
    (groupOf joiner parts).map outline = (groupOf joiner others).map outline := by
  cases parts with
  | nil => rw [List.map_eq_nil_iff.1 h.symm]
  | cons part rest =>
      obtain ⟨other, knowns, rfl, -, -⟩ := List.map_eq_cons_iff.1 h.symm
      simp only [groupOf, List.isEmpty_cons, Bool.false_eq_true, if_false, Option.map_some,
        outline_group, h]

/-- Conjunctions of parts with the same outlines have the same outline. -/
theorem outline_allOf (h : parts.map outline = others.map outline) :
    (allOf parts).map outline = (allOf others).map outline := by
  cases parts with
  | nil => rw [List.map_eq_nil_iff.1 h.symm]
  | cons part rest =>
      obtain ⟨other, knowns, rfl, -, -⟩ := List.map_eq_cons_iff.1 h.symm
      simp only [allOf, List.isEmpty_cons, Bool.false_eq_true, if_false, Option.map_some,
        outline_all, h]

/-- Negations of what has the same outline have the same outline. -/
theorem outline_negated (h : first.map outline = second.map outline) :
    (negated first).map outline = (negated second).map outline := by
  cases first <;> cases second <;> simp_all [negated, outline_negation]

/-- What may be absent has the same outlines as a list. -/
theorem outline_toList (h : first.map outline = second.map outline) :
    first.toList.map outline = second.toList.map outline := by
  cases first <;> cases second <;> simp_all

end Outlines

/-- Whether two predicates, either of which may be absent, have the same outline. -/
def SameOutline (first second : Option Predicate) : Prop :=
  first.map outline = second.map outline

/-- Whether two lists of predicates have the same outlines. -/
def SameOutlines (first second : List Predicate) : Prop :=
  first.map outline = second.map outline

/-- A part that may be absent in front of others keeps the outlines the same. -/
theorem sameOutlines_append {first second : Option Predicate} {rest others : List Predicate}
    (h : SameOutline first second) (hrest : SameOutlines rest others) :
    SameOutlines (first.toList ++ rest) (second.toList ++ others) := by
  unfold SameOutlines at hrest ⊢
  rw [List.map_append, List.map_append, outline_toList h, hrest]

section Fields

open Predicate

variable {field first second : Value} {name : String}

/-- A value has the type of null exactly if it is null. -/
theorem placeholderType_eq_null_iff {value : Value} :
    Wire.placeholderType value = Wire.placeholderType .null ↔ value.isNull = true := by
  cases value with
  | int number =>
      simp only [Wire.placeholderType, Value.isNull]
      split
      · simp
      · split <;> simp
  | _ => simp [Wire.placeholderType, Value.isNull]

/-- Values of the same type are null together. -/
theorem isNull_of_placeholderType (h : Wire.placeholderType first = Wire.placeholderType second) :
    first.isNull = second.isNull := by
  rw [Bool.eq_iff_iff, ← placeholderType_eq_null_iff, ← placeholderType_eq_null_iff, h]

/-- Comparisons with values of the same type have the same outline. -/
theorem outline_compare (comparison : String)
    (h : Wire.placeholderType first = Wire.placeholderType second) :
    outline (compare name comparison first) = outline (compare name comparison second) := by
  simp [outline, pieces, Piece.ofValue, erased, h]

/-- Tests of equality with values of the same type have the same outline. -/
theorem outline_equality (comparison : String) (negated : Bool)
    (h : Wire.placeholderType first = Wire.placeholderType second) :
    outline (if first.isNull then isNull name negated else compare name comparison first) =
      outline (if second.isNull then isNull name negated else compare name comparison second) := by
  rw [isNull_of_placeholderType h]
  cases second.isNull with
  | true => rfl
  | false => exact outline_compare comparison h

/-- A membership test shows nothing of its members but their types. -/
theorem outline_within (negated : Bool) (members : List Value) :
    outline (within name negated members) =
      .text (name ++ " " ++ withinKeyword negated ++ " (") ::
        Piece.join ", " ((members.map Wire.placeholderType).map fun type => [.bound type .null]) ++
          [.text ")"] := by
  have hmembers : (members.map fun member => [Piece.ofValue member]).map (List.map erased) =
      (members.map Wire.placeholderType).map fun type => [.bound type .null] := by
    simp [Piece.ofValue, erased, Function.comp_def]
  rw [outline, pieces, List.map_append, List.map_cons, erased_join, hmembers]
  rfl

/-- Membership tests with lists of the same types have the same outline. -/
theorem outline_membership (negated : Bool) {members others : List Value}
    (h : members.map Wire.placeholderType = others.map Wire.placeholderType) :
    outline (membership negated name members) = outline (membership negated name others) := by
  cases members with
  | nil => rw [List.map_eq_nil_iff.1 h.symm]
  | cons member rest =>
      obtain ⟨other, knowns, rfl, -, -⟩ := List.map_eq_cons_iff.1 h.symm
      simp only [membership, List.isEmpty_cons, Bool.false_eq_true, if_false, outline_within, h]

/-- Ranges between values of the same types have the same outline. -/
theorem outline_between {low high least greatest : Value}
    (hlow : Wire.placeholderType low = Wire.placeholderType least)
    (hhigh : Wire.placeholderType high = Wire.placeholderType greatest) :
    outline (.between name low high) = outline (.between name least greatest) := by
  simp [outline, pieces, Piece.ofValue, erased, hlow, hhigh]

/-- Operands whose items have the same types are no lists, or lists of the same types. -/
theorem items_of_itemTypes (h : itemTypes? first = itemTypes? second) :
    (first.asItems? = none ∧ second.asItems? = none) ∨
      ∃ members others, first.asItems? = some members ∧ second.asItems? = some others ∧
        members.map Wire.placeholderType = others.map Wire.placeholderType := by
  unfold itemTypes? at h
  cases hfirst : first.asItems? <;> cases hsecond : second.asItems? <;> simp_all

/-- A list that is no pair is no range. -/
theorem ofOperator_between_of_length {value : Value} {members : List Value}
    (hvalue : value.asItems? = some members) (hlength : members.length ≠ 2) :
    ofOperator field name .between value = .error (.betweenNotPair field value) := by
  simp only [ofOperator, hvalue]
  split
  · next low high hpair =>
      cases hpair
      exact absurd rfl hlength
  · rfl

/-- Lists of the same types give ranges of the same outline, or none of them is a pair. -/
theorem ofOperator_between_alike {members others : List Value}
    (hfirst : first.asItems? = some members) (hsecond : second.asItems? = some others)
    (h : members.map Wire.placeholderType = others.map Wire.placeholderType) :
    Parallel (fun predicate known => outline predicate = outline known)
      (ofOperator field name .between first) (ofOperator field name .between second) := by
  have hlengths : members.length = others.length := by
    simpa using congrArg List.length h
  by_cases hpair : members.length = 2
  · obtain ⟨low, high, rfl⟩ := List.length_eq_two.1 hpair
    obtain ⟨least, greatest, rfl⟩ := List.length_eq_two.1 (hlengths.symm.trans hpair)
    simp only [List.map_cons, List.map_nil, List.cons.injEq, and_true] at h
    simp only [ofOperator, hfirst, hsecond]
    exact .ok (outline_between h.1 h.2)
  · rw [ofOperator_between_of_length hfirst hpair,
      ofOperator_between_of_length hsecond (hlengths ▸ hpair)]
    exact .error trivial

/-- Alike operands of an operator give predicates of the same outline, or none of them one. -/
theorem ofOperator_alike {operator : Operator} (h : AlikeOperands operator first second) :
    Parallel (fun predicate known => outline predicate = outline known)
      (ofOperator field name operator first) (ofOperator field name operator second) := by
  cases operator with
  | eq | ne => exact .ok (outline_equality _ _ h)
  | gt | gte | lt | lte | like | notLike | ilike => exact .ok (outline_compare _ h)
  | oneOf | notOneOf =>
      rcases items_of_itemTypes h with
        ⟨hfirst, hsecond⟩ | ⟨members, others, hfirst, hsecond, htypes⟩
      · simp only [ofOperator, hfirst, hsecond]
        exact .error trivial
      · simp only [ofOperator, hfirst, hsecond]
        exact .ok (outline_membership _ htypes)
  | between =>
      rcases items_of_itemTypes h with
        ⟨hfirst, hsecond⟩ | ⟨members, others, hfirst, hsecond, htypes⟩
      · simp only [ofOperator, hfirst, hsecond]
        exact .error trivial
      · exact ofOperator_between_alike hfirst hsecond htypes
  | isNull | notNull =>
      have htruthy : first.isTruthy = second.isTruthy := h
      simp only [ofOperator, htruthy]
      exact .ok rfl

/-- Alike operators give predicates of the same outlines. -/
theorem mapM_ofOperator_alike {operators others : List (Operator × Value)}
    (h : List.Forall₂ AlikeOperators operators others) :
    Parallel (List.Forall₂ fun predicate known => outline predicate = outline known)
      (operators.mapM fun (operator, value) => ofOperator field name operator value)
      (others.mapM fun (operator, value) => ofOperator field name operator value) := by
  refine Matching.mapM (h.imp ?_)
  rintro ⟨operator, first⟩ ⟨known, second⟩ ⟨hoperator, hoperands⟩
  cases hoperator
  exact ofOperator_alike hoperands

/-- Alike operators give conjunctions of the same outline. -/
theorem ofOperators_alike {operators others : List (Operator × Value)}
    (h : List.Forall₂ AlikeOperators operators others) :
    Parallel SameOutline (ofOperators field name operators) (ofOperators field name others) := by
  refine (mapM_ofOperator_alike h).bind fun parts knowns hsame => .ok (outline_allOf ?_)
  exact List.forall₂_eq_eq_eq ▸ List.forall₂_map_left_iff.2 (List.forall₂_map_right_iff.2 hsame)

/-- Alike entries name the same operators with alike operands. -/
theorem operatorsOf_alike {entries others : Entries} (h : List.Forall₂ AlikeNamed entries others) :
    Parallel (List.Forall₂ AlikeOperators) (operatorsOf field entries)
      (operatorsOf field others) := by
  refine Matching.mapM (h.imp ?_)
  rintro ⟨key, first⟩ ⟨known, second⟩ ⟨hkey, hoperands⟩
  cases hkey
  cases hoperator : operatorOfKey? key with
  | none =>
      simp only [hoperator]
      exact .error trivial
  | some operator =>
      simp only [hoperator]
      exact .ok ⟨rfl, hoperands operator hoperator⟩

/-- Maps with the same keys look like operators together. -/
theorem looksLikeOperators_of_alike {entries others : Entries}
    (h : List.Forall₂ AlikeNamed entries others) :
    looksLikeOperators (.map entries) = looksLikeOperators (.map others) := by
  have hany : (entries.any fun entry => isOperatorKey entry.1) =
      others.any fun entry => isOperatorKey entry.1 := by
    induction h with
    | nil => rfl
    | cons hentry _ ih => rw [List.any_cons, List.any_cons, hentry.1, ih]
  exact hany

/-- A bare value is compared with the column of its field. -/
theorem ofField_bare (h : IsBare first) :
    ofField field first = do
      let name ← quote field
      return some (if first.isNull then isNull name false else compare name "=" first) := by
  cases first with
  | raw | literal | operators => exact h.elim
  | map entries =>
      have hlooks : looksLikeOperators (.map entries) = false := h
      simp only [ofField, hlooks]
      rfl
  | _ => rfl

/-- A literal value is compared with the column of its field, whatever it is. -/
theorem ofField_literal :
    ofField field (.literal first) = do
      let name ← quote field
      return some (if first.isNull then isNull name false else compare name "=" first) := by
  cases first <;> rfl

/-- Alike values of a field give predicates of the same outline, or none of them one. -/
theorem ofField_alike (h : AlikeField first second) :
    Parallel SameOutline (ofField field first) (ofField field second) := by
  -- the name is the same on both sides, so the outcomes differ behind it only
  have hquote : Parallel (fun name known => name = known) (quote field) (quote field) := by
    cases quote field with
    | ok name => exact .ok rfl
    | error fault => exact .error trivial
  have hequal {first second : Value}
      (htype : Wire.placeholderType first = Wire.placeholderType second) :
      Parallel SameOutline
        (do
          let name ← quote field
          return some (if first.isNull then isNull name false else compare name "=" first))
        (do
          let name ← quote field
          return some (if second.isNull then isNull name false else compare name "=" second)) := by
    refine hquote.bind ?_
    rintro name _ rfl
    exact .ok (congrArg some (outline_equality "=" false htype))
  cases h with
  | bare hfirst hsecond htype =>
      rw [ofField_bare hfirst, ofField_bare hsecond]
      exact hequal htype
  | literal htype =>
      rw [ofField_literal, ofField_literal]
      exact hequal htype
  | operators h =>
      refine hquote.bind ?_
      rintro name _ rfl
      exact ofOperators_alike h
  | named hlooks h =>
      simp only [ofField, hlooks, ← looksLikeOperators_of_alike h, if_true]
      refine hquote.bind ?_
      rintro name _ rfl
      exact (operatorsOf_alike h).bind fun operators others hsame => ofOperators_alike hsame

end Fields

/-- A single condition is no list. -/
theorem asItems?_of_isSingle {value : Value} (h : isSingle value = true) :
    value.asItems? = none := by
  cases value with
  | list | tuple => cases h
  | _ => rfl

/-- What an entry of a map elaborates to depends on the connective that its key is. -/
theorem elaborateEntry_eq (key value : Value) :
    elaborateEntry key value =
      match connective? key with
      | some (.joining joiner) =>
        match value.asItems? with
        | some conditions => (elaborateAll conditions).map (Predicate.groupOf joiner)
        | none =>
          if isSingle value then (elaborate value).map fun inner =>
            Predicate.groupOf joiner inner.toList
          else .error (.groupNotList key value)
      | some .negating => (elaborate value).map negated
      | none => ofField key value := by
  rw [connective?_eq, elaborateEntry]
  cases groupKey? key with
  | some joiner => cases value <;> rfl
  | none => cases isNegationKey key <;> rfl

/-- Nothing but null, maps and connectives elaborates. -/
theorem elaborate_of_malformed {value : Value} (h : value ≠ .null ∧ isSingle value = false) :
    elaborate value = .error (.conditionNotMapping value) := by
  cases value with
  | null => exact absurd rfl h.1
  | conjunction | disjunction | negation | map => cases h.2
  | _ => rfl

mutual

/-- Conditions of one skeleton elaborate to predicates of the same outline, or none of them does. -/
theorem elaborate_alike {first second : Value} (h : Alike first second) :
    Parallel SameOutline (elaborate first) (elaborate second) := by
  match h with
  | .null => exact .ok rfl
  | .conjunction h =>
      exact (elaborateAll_alike h).bind fun _ _ hsame => .ok (outline_groupOf .and hsame)
  | .disjunction h =>
      exact (elaborateAll_alike h).bind fun _ _ hsame => .ok (outline_groupOf .or hsame)
  | .negation h => exact (elaborate_alike h).bind fun _ _ hsame => .ok (outline_negated hsame)
  | .map h => exact (elaborateEntries_alike h).bind fun _ _ hsame => .ok (outline_allOf hsame)
  | .malformed hfirst hsecond =>
      rw [elaborate_of_malformed hfirst, elaborate_of_malformed hsecond]
      exact .error trivial

/-- Conditions of the same skeletons elaborate to predicates of the same outlines. -/
theorem elaborateAll_alike {first second : List Value} (h : AlikeAll first second) :
    Parallel SameOutlines (elaborateAll first) (elaborateAll second) := by
  match h with
  | .nil => exact .ok rfl
  | .cons h hrest =>
      refine (elaborate_alike h).bind fun part known hpart =>
        (elaborateAll_alike hrest).bind fun rest others hothers => .ok ?_
      exact sameOutlines_append hpart hothers

/-- Maps with entries that are alike elaborate to predicates of the same outlines. -/
theorem elaborateEntries_alike {first second : List (Value × Value)}
    (h : AlikeEntries first second) :
    Parallel SameOutlines (elaborateEntries first) (elaborateEntries second) := by
  match h with
  | .nil => exact .ok rfl
  | .cons h hrest =>
      rw [elaborateEntries_cons, elaborateEntries_cons]
      refine (elaborateEntry_alike h).bind fun part known hpart =>
        (elaborateEntries_alike hrest).bind fun rest others hothers => .ok ?_
      exact sameOutlines_append hpart hothers

/-- Values that are alike under a key elaborate to predicates of the same outline. -/
theorem elaborateEntry_alike {key first second : Value} (h : AlikeEntry key first second) :
    Parallel SameOutline (elaborateEntry key first) (elaborateEntry key second) := by
  rw [elaborateEntry_eq, elaborateEntry_eq]
  match h with
  | .several hkey hfirst hsecond h =>
      simp only [hkey, hfirst, hsecond]
      exact (elaborateAll_alike h).map fun _ _ hsame => outline_groupOf _ hsame
  | .single hkey hfirst hsecond h =>
      simp only [hkey, asItems?_of_isSingle hfirst, asItems?_of_isSingle hsecond, hfirst, hsecond,
        if_true]
      exact (elaborate_alike h).map fun _ _ hsame => outline_groupOf _ (outline_toList hsame)
  | .malformed hkey hfirst hsecond =>
      simp only [hkey, hfirst.1, hfirst.2, hsecond.1, hsecond.2]
      exact .error trivial
  | .negation hkey h =>
      simp only [hkey]
      exact (elaborate_alike h).map fun _ _ hsame => outline_negated hsame
  | .field hkey h =>
      simp only [hkey]
      exact ofField_alike h

end

/-- A condition that does not elaborate has no clause. -/
theorem compile_of_elaborate_error {condition : Value} {fault : Fault}
    (h : elaborate condition = .error fault) (start : Start) :
    ∃ known, compile condition start = .error known := by
  unfold compile
  rw [h]
  cases start.checkNames (progress condition).bound with
  | ok _ => exact ⟨fault, rfl⟩
  | error known => exact ⟨known, rfl⟩

/-- Pieces without a single quote have no single quote in their text. -/
theorem quote_not_mem_render {pieces : List Piece} (h : ∀ piece ∈ pieces, Lacks '\x27' piece)
    (index : Int) (distance : Nat) :
    '\x27' ∉ (Piece.render (Start.number index).name distance pieces).toList := by
  induction pieces generalizing distance with
  | nil => simp
  | cons piece rest ih =>
      have hrest := ih fun other hother => h other (List.mem_cons_of_mem piece hother)
      have hpiece := h piece List.mem_cons_self
      cases piece with
      | text chars =>
          rw [Piece.render_text]
          exact not_mem_append hpiece (hrest distance)
      | bound type value =>
          cases hpiece
          have htypes : ∀ type ∈ placeholderTypes, '\x27' ∉ type.toList := by decide
          have htype := htypes _ (placeholderType_mem value)
          have hname : '\x27' ∉ ((Start.number index).name distance).toList :=
            not_mem_parameter (by decide) (by decide) _
          have hopened : '\x27' ∉ ("\x7b" ++ (Start.number index).name distance ++ ":").toList :=
            not_mem_append (not_mem_append (by decide) hname) (by decide)
          have hslot : '\x27' ∉ (placeholderOf ((Start.number index).name distance)
              (Wire.placeholderType value)).toList :=
            not_mem_append (not_mem_append hopened htype) (by decide)
          rw [show Piece.bound (Wire.placeholderType value) value = .ofValue value from rfl,
            Piece.render_ofValue]
          exact not_mem_append hslot (hrest (distance + 1))

/-- Predicates with the same outline, either of which may be absent, have the same outline where the
constant stands for an absent one. -/
theorem outline_getD {first second : Option Predicate} (h : SameOutline first second) :
    outline (first.getD (.constant true)) = outline (second.getD (.constant true)) := by
  cases first <;> cases second <;> simp_all [SameOutline]

/-- Clauses of predicates with the same outline have the same text and the same names. -/
theorem ofPredicate_alike {first second : Option Predicate} (h : SameOutline first second)
    (index : Int) :
    (Clause.ofPredicate (.number index) first).sql =
        (Clause.ofPredicate (.number index) second).sql ∧
      (Clause.ofPredicate (.number index) first).parameters.map Prod.fst =
        (Clause.ofPredicate (.number index) second).parameters.map Prod.fst := by
  simp only [Clause.ofPredicate, Clause.ofPieces, Start.gather]
  rw [← render_erased, ← names_erased, ← outline, outline_getD h, outline, render_erased,
    names_erased]
  exact ⟨rfl, rfl⟩

/-- Conditions without raw SQL that have the same skeleton have clauses of the same text and the
same names, and no single quote is in the text; or none of them has a clause. -/
theorem compile_alike {first second : Value} (hraw : IsRawFree first) (h : Alike first second)
    (index : Int) :
    (∃ fault other, compile first (.number index) = .error fault ∧
        compile second (.number index) = .error other) ∨
      ∃ clause other, compile first (.number index) = .ok clause ∧
        compile second (.number index) = .ok other ∧ clause.sql = other.sql ∧
          clause.parameters.map Prod.fst = other.parameters.map Prod.fst ∧
            '\x27' ∉ clause.sql.toList := by
  have helaborated := elaborate_alike h
  generalize hfirst : elaborate first = predicate, hsecond : elaborate second = known at helaborated
  cases helaborated with
  | error _ =>
      obtain ⟨_, hfault⟩ := compile_of_elaborate_error hfirst (.number index)
      obtain ⟨_, hother⟩ := compile_of_elaborate_error hsecond (.number index)
      exact .inl ⟨_, _, hfault, hother⟩
  | @ok predicate known hsame =>
      obtain ⟨hsql, hnames⟩ := ofPredicate_alike hsame index
      have hcount := congrArg List.length hnames
      rw [List.length_map, List.length_map] at hcount
      have hproper := (elaborate_stands hraw hfirst).getD.1
      have hquote := quote_not_mem_render
        (lacks_pieces (by decide) (fun _ hsort => hsort.elim) hproper) index 0
      simp only [compile, hfirst, hsecond, ← hcount]
      cases (Start.number index).checkNames
          (Clause.ofPredicate (.number index) predicate).parameters.length with
      | error fault => exact .inl ⟨fault, fault, rfl, rfl⟩
      | ok _ => exact .inr ⟨_, _, rfl, rfl, hsql, hnames, hquote⟩

/-- A text that would end a literal is bound like any other. -/
theorem compile_alike_quoted :
    let first : Value := .map [(.text "name", .text "x\x27 OR \x271\x27=\x271"),
      (.text "id", .map [(.text "in", .list [.int 1, .int 2])]),
      (.text "$or", .list [.map [(.text "age", .operators [(.between, .tuple [.int 1, .int 5])])],
        .negation (.map [(.text "tag", .literal (.text "a")), (.text "note", .null)])])]
    let second : Value := .map [(.text "name", .text ""),
      (.text "id", .map [(.text "in", .tuple [.int 3, .int 3])]),
      (.text "$or", .list [.map [(.text "age", .operators [(.between, .list [.int 9, .int 7])])],
        .negation (.map [(.text "tag", .literal (.text "\x27")), (.text "note", .null)])])]
    IsRawFree first ∧ Alike first second ∧
      ∃ clause other, compile first (.number 3) = .ok clause ∧
        compile second (.number 3) = .ok other ∧ clause.sql = other.sql ∧
          clause.parameters.map Prod.fst = other.parameters.map Prod.fst ∧
            '\x27' ∉ clause.sql.toList := by
  intro first second
  have hraw : IsRawFree first := by
    simp [first, IsRawFree, EveryRaw, EachRaw, EntriesRaw]
  have hbetween : List.Forall₂ AlikeOperators [(.between, .tuple [.int 1, .int 5])]
      [(.between, .list [.int 9, .int 7])] := .cons ⟨rfl, rfl⟩ .nil
  have hmembers : List.Forall₂ AlikeNamed [(.text "in", .list [.int 1, .int 2])]
      [(.text "in", .tuple [.int 3, .int 3])] := by
    refine .cons ⟨rfl, fun operator hoperator => ?_⟩ .nil
    cases hoperator
    rfl
  have halike : Alike first second := by
    refine .map (.cons (.field rfl (.bare rfl rfl rfl)) (.cons (.field rfl (.named rfl hmembers))
      (.cons (.several rfl rfl rfl (.cons ?_ (.cons ?_ .nil))) .nil)))
    · exact .map (.cons (.field rfl (.operators hbetween)) .nil)
    · exact .negation (.map (.cons (.field rfl (.literal rfl))
        (.cons (.field rfl (.bare rfl rfl rfl)) .nil)))
  have helaborate : elaborate first = .ok (some (.all [
      .compare "\x60name\x60" "=" (.text "x\x27 OR \x271\x27=\x271"),
      .all [.within "\x60id\x60" false [.int 1, .int 2]],
      .group .or [.all [.all [.between "\x60age\x60" (.int 1) (.int 5)]],
        .negation (.all [.compare "\x60tag\x60" "=" (.text "a"),
          .isNull "\x60note\x60" false])]])) := by
    rfl
  have hclause : ∃ clause, compile first (.number 3) = .ok clause :=
    ⟨_, compile_eq_ok.2 ⟨_, helaborate, rfl, checkNames_number.2 (.inr (by decide +kernel))⟩⟩
  obtain ⟨clause, hclause⟩ := hclause
  rcases compile_alike hraw halike 3 with ⟨fault, other, hfault, -⟩ | hboth
  · rw [hclause] at hfault
    cases hfault
  · exact ⟨hraw, halike, hboth⟩

end TypedSql.Condition
