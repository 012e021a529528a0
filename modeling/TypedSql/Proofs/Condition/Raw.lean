import TypedSql.Proofs.Condition.Clause
import TypedSql.Proofs.Sql.Splitting

/-!
# Raw SQL among other conditions

Raw SQL is written as it is, without parentheses around it, and so are conjunctions of entries.
Where raw SQL has an `OR` of its own, an `AND` beside it takes the nearest of its disjuncts only.
`Predicate.disjuncts` gives the truths that a database reads off a predicate, and
`compile_splices_raw` says that it reads every clause so. Raw SQL is a single operand where nothing
with an `OR` of its own is beside an `AND`; `compile_keeps_operands` says so of all conditions whose
raw SQL has no `OR` on its outermost level.
-/

namespace TypedSql.Condition

open TypedSql.Sql

namespace Predicate

mutual

/-- The truths of the disjuncts that a database reads in the text of a predicate: raw SQL has those
of its own, and whatever is in parentheses is a single one. -/
def disjuncts (test : Test → Bool) (raw : String → List Bool) : Predicate → List Bool
  | verbatim sql => raw sql
  | constant truth => [truth]
  | isNull column negated => [test (.isNull column negated)]
  | compare column comparison value => [test (.compare column comparison value)]
  | within column negated members => [test (.within column negated members)]
  | between column low high => [test (.between column low high)]
  | all parts => (disjunctsEach test raw parts).foldr (joinDisjuncts .and) []
  | group joiner parts => [((disjunctsEach test raw parts).foldr (joinDisjuncts joiner) []).any id]
  | negation inner => [!(disjuncts test raw inner).any id]

/-- The disjuncts of several predicates. -/
def disjunctsEach (test : Test → Bool) (raw : String → List Bool) :
    List Predicate → List (List Bool)
  | [] => []
  | part :: rest => disjuncts test raw part :: disjunctsEach test raw rest

end

theorem disjunctsEach_eq_map (test : Test → Bool) (raw : String → List Bool)
    (parts : List Predicate) : disjunctsEach test raw parts = parts.map (disjuncts test raw) := by
  induction parts with
  | nil => rfl
  | cons part rest ih => simp [disjunctsEach, ih]

end Predicate

section Writing

variable {parameters : Parameters} {name : Nat → String} {distance : Nat}

/-- A value that is provided fills its placeholder. -/
theorem fills_of_provides (hname : Namable name) {value : Value} {values : List Value}
    (h : Provides parameters name distance (value :: values)) :
    Fills parameters (placeholderOf (name distance) (Wire.placeholderType value)) value :=
  Fills.placeholderOf (hname distance).1 (hname distance).2 (not_mem_placeholderType value) h.head

/-- A written list of members is made up of the members and commas. -/
theorem gathers_members (hname : Namable name) {members : List Value} (hmembers : members ≠ [])
    (h : Provides parameters name distance members) :
    Gathers parameters (Piece.render name distance
        (Piece.join ", " (members.map fun member => [.ofValue member])))
      ((members.map boundItem).intersperse (.leaf (.symbol ','))) := by
  induction members generalizing distance with
  | nil => exact absurd rfl hmembers
  | cons member rest ih =>
      have hslot := Gathers.slot (fills_of_provides hname h)
      cases rest with
      | nil => simpa [Piece.join] using hslot
      | cons other others =>
          have hrest := ih (List.cons_ne_nil other others) h.tail
          simp only [List.map_cons, Piece.join] at hrest ⊢
          simpa [String.append_assoc] using hslot.separated hrest

variable {sort : String → Prop} {raw : Truth → String → List Bool}

open Predicate

mutual

/-- The text of a proper predicate splits into the disjuncts of the predicate, given that raw SQL of
the sort does. -/
theorem splits_pieces (hname : Namable name)
    (hraw : ∀ sql, sort sql → Splits parameters sql fun truth => raw truth sql)
    {predicate : Predicate} {distance : Nat} (hproper : Proper sort predicate)
    (hvalues : Provides parameters name distance (Piece.values predicate.pieces)) :
    Splits parameters (Piece.render name distance predicate.pieces)
      fun truth => predicate.disjuncts (truth ∘ atomOf) (raw truth) := by
  cases predicate with
  | verbatim sql => simpa [pieces, disjuncts] using hraw sql hproper.2
  | constant truth => simpa [pieces, disjuncts] using Splits.constant truth
  | isNull column negated => simpa [pieces, disjuncts] using Splits.isNull hproper negated
  | compare column comparison value =>
      obtain ⟨hcolumn, hcomparison⟩ := hproper
      have h := Splits.compare hcolumn hcomparison (fills_of_provides hname hvalues)
      simpa [pieces, disjuncts] using h
  | within column negated members =>
      obtain ⟨hcolumn, hmembers⟩ := hproper
      rw [values_within] at hvalues
      have h := Splits.within hcolumn negated (gathers_members hname hmembers hvalues)
      simpa [pieces, disjuncts, String.append_assoc] using h
  | between column low high =>
      have hlow := fills_of_provides hname hvalues
      have hhigh := fills_of_provides hname hvalues.tail
      have h := Splits.between hproper hlow hhigh
      simpa [pieces, disjuncts, String.append_assoc] using h
  | all parts =>
      obtain ⟨hparts, hproper⟩ := hproper
      exact splits_join hname hraw .and hparts hproper hvalues
  | group joiner parts =>
      obtain ⟨hparts, hproper⟩ := hproper
      rw [values_group] at hvalues
      have h := (splits_join hname hraw joiner hparts hproper hvalues).group
      simpa [pieces, disjuncts, String.append_assoc] using h
  | negation inner =>
      rw [values_negation] at hvalues
      have hproper : Proper sort inner := hproper
      have h := (splits_pieces hname hraw hproper hvalues).negation
      simpa [pieces, disjuncts, String.append_assoc] using h

/-- Predicates written with a joiner between them split into their disjuncts joined. -/
theorem splits_join (hname : Namable name)
    (hraw : ∀ sql, sort sql → Splits parameters sql fun truth => raw truth sql)
    (joiner : Joiner) {parts : List Predicate} {distance : Nat} (hparts : parts ≠ [])
    (hproper : ProperEach sort parts)
    (hvalues : Provides parameters name distance
      (Piece.values (Piece.join joiner.separator (piecesOfAll parts)))) :
    Splits parameters (Piece.render name distance (Piece.join joiner.separator (piecesOfAll parts)))
      fun truth =>
        (disjunctsEach (truth ∘ atomOf) (raw truth) parts).foldr (joinDisjuncts joiner) [] := by
  match parts with
  | [] => exact absurd rfl hparts
  | [part] =>
      have h := splits_pieces hname hraw hproper.1 hvalues
      simpa [piecesOfAll, Piece.join, disjunctsEach] using h
  | part :: other :: others =>
      simp only [piecesOfAll, Piece.join, Piece.values_append, Piece.values] at hvalues
      have hfirst := splits_pieces hname hraw hproper.1 hvalues.left
      have hrest := splits_join hname hraw joiner (List.cons_ne_nil other others) hproper.2
        hvalues.right
      have h := hfirst.joined joiner hrest
      simpa [piecesOfAll, Piece.join, disjunctsEach, String.append_assoc] using h

end

end Writing

namespace Predicate

mutual

/-- Whether a predicate is written as a single operand of `AND`, given which raw SQL is one. -/
def IsConjunct (single : String → Prop) : Predicate → Prop
  | verbatim sql => single sql
  | all parts => EachConjunct single parts
  | _ => True

/-- Whether several predicates are each written as a single operand of `AND`. -/
def EachConjunct (single : String → Prop) : List Predicate → Prop
  | [] => True
  | part :: rest => IsConjunct single part ∧ EachConjunct single rest

end

/-- Whether a joiner keeps its members apart: `AND` does so if each is a single operand, or if there
is nothing to join. -/
def KeepsApart (single : String → Prop) (joiner : Joiner) (parts : List Predicate) : Prop :=
  joiner = .or ∨ parts.length = 1 ∨ EachConjunct single parts

mutual

/-- Whether a predicate keeps its parts apart at every depth. -/
def Shelters (single : String → Prop) : Predicate → Prop
  | all parts => KeepsApart single .and parts ∧ SheltersEach single parts
  | group joiner parts => KeepsApart single joiner parts ∧ SheltersEach single parts
  | negation inner => Shelters single inner
  | _ => True

/-- Whether several predicates keep their parts apart. -/
def SheltersEach (single : String → Prop) : List Predicate → Prop
  | [] => True
  | part :: rest => Shelters single part ∧ SheltersEach single rest

end

end Predicate

section Sheltered

/-- Single operands with `AND` between them are a single one, which holds where all of them do. -/
theorem foldr_splice {lists : List (List Bool)} (hlists : lists ≠ [])
    (h : ∀ truths ∈ lists, truths.length = 1) :
    lists.foldr splice [] = [(lists.map fun truths => truths.any id).all id] := by
  induction lists with
  | nil => exact absurd rfl hlists
  | cons first rest ih =>
      obtain ⟨hfirst, hrest⟩ := List.forall_mem_cons.1 h
      obtain ⟨truth, rfl⟩ := List.length_eq_one_iff.1 hfirst
      cases rest with
      | nil => simp
      | cons second others =>
          rw [List.foldr_cons, ih (List.cons_ne_nil second others) hrest]
          simp [splice]

/-- What is kept apart holds where its members, joined, do. -/
theorem any_foldr_joinDisjuncts {joiner : Joiner} {lists : List (List Bool)} (hlists : lists ≠ [])
    (h : joiner = .or ∨ lists.length = 1 ∨ ∀ truths ∈ lists, truths.length = 1) :
    (lists.foldr (joinDisjuncts joiner) []).any id =
      joinTruths joiner (lists.map fun truths => truths.any id) := by
  cases joiner with
  | or =>
      clear hlists h
      induction lists with
      | nil => rfl
      | cons first rest ih =>
          have hfirst : (first ++ rest.foldr (joinDisjuncts .or) []).any id =
              (first.any id || (rest.foldr (joinDisjuncts .or) []).any id) := List.any_append
          rw [ih] at hfirst
          exact hfirst
  | and =>
      obtain hlength | hsingle : lists.length = 1 ∨ ∀ truths ∈ lists, truths.length = 1 := by
        simpa using h
      · obtain ⟨truths, rfl⟩ := List.length_eq_one_iff.1 hlength
        simp [joinTruths_single]
      · simp [joinDisjuncts, foldr_splice hlists hsingle, joinTruths]

variable {sort single : String → Prop} {test : Test → Bool} {raw : String → List Bool}

open Predicate

mutual

/-- A predicate that is written as a single operand of `AND` has a single disjunct. -/
theorem length_disjuncts (hsingle : ∀ sql, single sql → (raw sql).length = 1)
    {predicate : Predicate} (hproper : Proper sort predicate)
    (h : IsConjunct single predicate) : (predicate.disjuncts test raw).length = 1 := by
  cases predicate with
  | verbatim sql => exact hsingle sql h
  | all parts =>
      obtain ⟨hparts, hproper⟩ := hproper
      have hlists : disjunctsEach test raw parts ≠ [] := by
        simpa [disjunctsEach_eq_map] using hparts
      rw [disjuncts, show joinDisjuncts .and = splice from rfl,
        foldr_splice hlists (length_disjunctsEach hsingle hproper h)]
      rfl
  | _ => rfl

/-- Predicates that are each written as a single operand of `AND` have a single disjunct each. -/
theorem length_disjunctsEach (hsingle : ∀ sql, single sql → (raw sql).length = 1)
    {parts : List Predicate} (hproper : ProperEach sort parts) (h : EachConjunct single parts) :
    ∀ truths ∈ disjunctsEach test raw parts, truths.length = 1 := by
  cases parts with
  | nil => exact fun _ hnone => nomatch hnone
  | cons part rest =>
      exact List.forall_mem_cons.2 ⟨length_disjuncts hsingle hproper.1 h.1,
        length_disjunctsEach hsingle hproper.2 h.2⟩

end

/-- Predicates that are kept apart hold where all of them, joined, do. -/
theorem any_foldr_of_keepsApart (hsingle : ∀ sql, single sql → (raw sql).length = 1)
    {joiner : Joiner} {parts : List Predicate} (hparts : parts ≠ [])
    (hproper : ProperEach sort parts) (h : KeepsApart single joiner parts) :
    ((disjunctsEach test raw parts).foldr (joinDisjuncts joiner) []).any id =
      joinTruths joiner ((disjunctsEach test raw parts).map fun truths => truths.any id) := by
  have hlists : disjunctsEach test raw parts ≠ [] := by simpa [disjunctsEach_eq_map] using hparts
  refine any_foldr_joinDisjuncts hlists ?_
  rcases h with hor | hlength | hconjuncts
  · exact .inl hor
  · exact .inr (.inl (by simpa [disjunctsEach_eq_map] using hlength))
  · exact .inr (.inr (length_disjunctsEach hsingle hproper hconjuncts))

mutual

/-- A predicate that keeps its parts apart holds, with raw SQL as single operands, where one of its
disjuncts does. -/
theorem any_disjuncts (hsingle : ∀ sql, single sql → (raw sql).length = 1)
    {predicate : Predicate} (hproper : Proper sort predicate) (h : Shelters single predicate) :
    (predicate.disjuncts test raw).any id =
      predicate.holds ⟨test, fun sql => (raw sql).any id⟩ := by
  cases predicate with
  | all parts =>
      obtain ⟨hparts, hproper⟩ := hproper
      obtain ⟨hapart, h⟩ := h
      rw [disjuncts, holds, any_foldr_of_keepsApart hsingle hparts hproper hapart,
        any_disjunctsEach hsingle hproper h]
  | group joiner parts =>
      obtain ⟨hparts, hproper⟩ := hproper
      obtain ⟨hapart, h⟩ := h
      rw [disjuncts, holds, any_foldr_of_keepsApart hsingle hparts hproper hapart,
        any_disjunctsEach hsingle hproper h]
      simp
  | negation inner =>
      have hproper : Proper sort inner := hproper
      rw [disjuncts, holds, any_disjuncts hsingle hproper h]
      simp
  | _ => simp [disjuncts, holds]

/-- Predicates that keep their parts apart hold where one of their disjuncts does. -/
theorem any_disjunctsEach (hsingle : ∀ sql, single sql → (raw sql).length = 1)
    {parts : List Predicate} (hproper : ProperEach sort parts) (h : SheltersEach single parts) :
    (disjunctsEach test raw parts).map (fun truths => truths.any id) =
      holdsEach ⟨test, fun sql => (raw sql).any id⟩ parts := by
  cases parts with
  | nil => rfl
  | cons part rest =>
      rw [disjunctsEach, List.map_cons, holdsEach, any_disjuncts hsingle hproper.1 h.1,
        any_disjunctsEach hsingle hproper.2 h.2]

end

mutual

/-- A predicate whose raw SQL is single operands is written as one. -/
theorem isConjunct_of_proper {predicate : Predicate} (h : Proper single predicate) :
    IsConjunct single predicate := by
  cases predicate with
  | verbatim sql => exact h.2
  | all parts => exact eachConjunct_of_proper h.2
  | _ => trivial

theorem eachConjunct_of_proper {parts : List Predicate} (h : ProperEach single parts) :
    EachConjunct single parts := by
  cases parts with
  | nil => trivial
  | cons part rest => exact ⟨isConjunct_of_proper h.1, eachConjunct_of_proper h.2⟩

end

mutual

/-- A predicate whose raw SQL is single operands keeps its parts apart. -/
theorem shelters_of_proper {predicate : Predicate} (h : Proper single predicate) :
    Shelters single predicate := by
  cases predicate with
  | all parts | group joiner parts =>
      exact ⟨.inr (.inr (eachConjunct_of_proper h.2)), sheltersEach_of_proper h.2⟩
  | negation inner =>
      have hproper : Proper single inner := h
      have hinner : Shelters single inner := shelters_of_proper hproper
      exact hinner
  | _ => trivial

theorem sheltersEach_of_proper {parts : List Predicate} (h : ProperEach single parts) :
    SheltersEach single parts := by
  cases parts with
  | nil => trivial
  | cons part rest => exact ⟨shelters_of_proper h.1, sheltersEach_of_proper h.2⟩

end

end Sheltered

/-- The truths of the expressions that raw SQL has between its outermost `OR`s. -/
def rawDisjuncts (parameters : Parameters) (truth : Truth) (sql : String) : List Bool :=
  ((Expression.disjunctsOfText? parameters sql).getD []).map (Expression.holds truth)

/-- Whether raw SQL is an expression. -/
def IsExpression (parameters : Parameters) (sql : String) : Prop :=
  (Expression.ofText? parameters sql).isSome

/-- Whether raw SQL is an expression without an `OR` on its outermost level. -/
def IsOperand (parameters : Parameters) (sql : String) : Prop :=
  (Expression.disjunctsOfText? parameters sql).map List.length = some 1

theorem IsOperand.isExpression {parameters : Parameters} {sql : String}
    (h : IsOperand parameters sql) : IsExpression parameters sql := by
  obtain ⟨expressions, hexpressions, -⟩ := Option.map_eq_some_iff.1 h
  simp [IsExpression, Expression.ofText?, hexpressions]

/-- The truths of tests are those of their atoms, and raw SQL is the expression that it is by
itself. -/
def assignmentOf (parameters : Parameters) (truth : Truth) : Assignment where
  test := truth ∘ atomOf
  raw sql := (Expression.ofText? parameters sql).any (Expression.holds truth)

/-- Raw SQL that is an expression splits into its disjuncts. -/
theorem splits_raw {parameters : Parameters} {sql : String} (h : IsExpression parameters sql) :
    Splits parameters sql fun truth => rawDisjuncts parameters truth sql := by
  obtain ⟨expression, hexpression⟩ := Option.isSome_iff_exists.1 h
  obtain ⟨expressions, hexpressions, -⟩ := Option.map_eq_some_iff.1 hexpression
  simpa [rawDisjuncts, hexpressions] using Splits.ofDisjuncts hexpressions

/-- Raw SQL holds by itself where one of its disjuncts does. -/
theorem any_rawDisjuncts (parameters : Parameters) (truth : Truth) (sql : String) :
    (rawDisjuncts parameters truth sql).any id = (assignmentOf parameters truth).raw sql := by
  simp only [rawDisjuncts, assignmentOf, Expression.ofText?]
  cases Expression.disjunctsOfText? parameters sql with
  | none => rfl
  | some expressions =>
      simp [Expression.holds, Expression.holdsEach_eq_map, joinTruths]

section Clauses

variable {sort : String → Prop} {condition : Value} {index : Int} {clause : Clause}

/-- The text of a condition whose raw SQL is expressions splits into the disjuncts of the predicate
that the condition stands for. -/
theorem splits_compile (hsort : ∀ sql, sort sql → IsExpression clause.parameters sql)
    (hraw : EveryRaw sort condition) (h : compile condition (.number index) = .ok clause) :
    ∃ predicate, elaborate condition = .ok predicate ∧
      Splits clause.parameters clause.sql fun truth =>
        (predicate.getD (.constant true)).disjuncts (truth ∘ atomOf)
          (rawDisjuncts clause.parameters truth) := by
  obtain ⟨predicate, helaborate, rfl, -⟩ := compile_eq_ok.1 h
  have hproper := (elaborate_stands hraw helaborate).getD.1
  exact ⟨predicate, helaborate, splits_pieces (namable_number index)
    (fun sql hsql => splits_raw (hsort sql hsql)) hproper (provides_ofPieces index _)⟩

/-- Where the predicate of a condition keeps its parts apart, one of its disjuncts holds exactly
where the condition does with each raw SQL as a single operand. -/
theorem any_disjuncts_eq_holdsUnder {parameters : Parameters} {predicate : Option Predicate}
    (hraw : EveryRaw sort condition) (helaborate : elaborate condition = .ok predicate)
    (h : (predicate.getD (.constant true)).Shelters (IsOperand parameters)) (truth : Truth) :
    ((predicate.getD (.constant true)).disjuncts (truth ∘ atomOf)
      (rawDisjuncts parameters truth)).any id =
        holdsUnder (assignmentOf parameters truth) condition := by
  obtain ⟨hproper, hholds⟩ := (elaborate_stands hraw helaborate).getD
  have hoperand : ∀ sql, IsOperand parameters sql →
      (rawDisjuncts parameters truth sql).length = 1 := by
    intro sql hsql
    obtain ⟨expressions, hexpressions, hlength⟩ := Option.map_eq_some_iff.1 hsql
    simpa [rawDisjuncts, hexpressions] using hlength
  have hassignment : (⟨truth ∘ atomOf, fun sql => (rawDisjuncts parameters truth sql).any id⟩ :
      Assignment) = assignmentOf parameters truth := by
    simp only [any_rawDisjuncts]
    rfl
  rw [any_disjuncts hoperand hproper h, hassignment, holdsUnder, hholds]

/-- Raw SQL without an `OR` on its outermost level is a single operand wherever it stands: a
database reads the text of a condition as an expression that holds exactly where the condition
does. -/
theorem compile_keeps_operands (hraw : EveryRaw (IsOperand clause.parameters) condition)
    (h : compile condition (.number index) = .ok clause) :
    ∃ expression, Expression.ofText? clause.parameters clause.sql = some expression ∧
      ∀ truth, expression.holds truth =
        holdsUnder (assignmentOf clause.parameters truth) condition := by
  obtain ⟨predicate, helaborate, hsplits⟩ :=
    splits_compile (fun _ hsql => hsql.isExpression) hraw h
  obtain ⟨expression, hexpression, htruth⟩ := hsplits.ofText?
  have hproper := (elaborate_stands hraw helaborate).getD.1
  refine ⟨expression, hexpression, fun truth => ?_⟩
  rw [htruth, any_disjuncts_eq_holdsUnder hraw helaborate (shelters_of_proper hproper) truth]

/-- The text of a condition whose raw SQL is expressions is read as an expression. It holds where
one of the disjuncts of the predicate does, in which raw SQL with an `OR` of its own is spliced into
its neighbours; and where the predicate keeps its parts apart, it holds exactly where the condition
does with each raw SQL as a single operand. -/
theorem compile_splices_raw (hraw : EveryRaw (IsExpression clause.parameters) condition)
    (h : compile condition (.number index) = .ok clause) :
    ∃ predicate expression, elaborate condition = .ok predicate ∧
      Expression.ofText? clause.parameters clause.sql = some expression ∧
      (∀ truth, expression.holds truth =
        ((predicate.getD (.constant true)).disjuncts (truth ∘ atomOf)
          (rawDisjuncts clause.parameters truth)).any id) ∧
      ((predicate.getD (.constant true)).Shelters (IsOperand clause.parameters) →
        ∀ truth, expression.holds truth =
          holdsUnder (assignmentOf clause.parameters truth) condition) := by
  obtain ⟨predicate, helaborate, hsplits⟩ := splits_compile (fun _ hsql => hsql) hraw h
  obtain ⟨expression, hexpression, htruth⟩ := hsplits.ofText?
  refine ⟨predicate, expression, helaborate, hexpression, htruth, fun hshelters truth => ?_⟩
  rw [htruth, any_disjuncts_eq_holdsUnder hraw helaborate hshelters truth]

end Clauses

/-- Raw SQL in a disjunction, under a negation or without an `OR` of its own is a single operand. -/
theorem compile_splices_raw_sheltered :
    let condition : Value := .conjunction [
      .disjunction [
        .map [(.text "name", .raw "\x60a\x60 = 1 OR b IN (2, 3) AND c BETWEEN 4 AND 5" [])],
        .map [(.text "id", .int 7)]],
      .negation (.map [(.text "note", .raw "f(\x60d\x60) = \x27OR\x27 OR (e)" [])]),
      .map [(.text "tag", .raw "NOT g AND h" [])]]
    let clause : Clause := {
      sql := "((\x60a\x60 = 1 OR b IN (2, 3) AND c BETWEEN 4 AND 5 OR \x60id\x60 = " ++
        "\x7bparam3:Int32\x7d) AND NOT (f(\x60d\x60) = \x27OR\x27 OR (e)) AND NOT g AND h)"
      parameters := [("param3", .int 7)] }
    EveryRaw (IsExpression clause.parameters) condition ∧
      compile condition (.number 3) = .ok clause ∧
        ∃ expression, Expression.ofText? clause.parameters clause.sql = some expression ∧
          ∀ truth, expression.holds truth =
            holdsUnder (assignmentOf clause.parameters truth) condition := by
  intro condition clause
  have hraw : EveryRaw (IsExpression clause.parameters) condition := by
    have hall : ∀ sql ∈ ["\x60a\x60 = 1 OR b IN (2, 3) AND c BETWEEN 4 AND 5",
        "f(\x60d\x60) = \x27OR\x27 OR (e)", "NOT g AND h"],
        (Expression.ofText? [("param3", .int 7)] sql).isSome = true := by decide +kernel
    simp only [List.forall_mem_cons] at hall
    obtain ⟨hfirst, hsecond, hthird, -⟩ := hall
    simp [condition, clause, EveryRaw, EachRaw, EntriesRaw, IsExpression, hfirst, hsecond, hthird]
  have helaborate : elaborate condition = .ok (some (.group .and [
      .group .or [.all [.verbatim "\x60a\x60 = 1 OR b IN (2, 3) AND c BETWEEN 4 AND 5"],
        .all [.compare "\x60id\x60" "=" (.int 7)]],
      .negation (.all [.verbatim "f(\x60d\x60) = \x27OR\x27 OR (e)"]),
      .all [.verbatim "NOT g AND h"]])) := by rfl
  have hclause : compile condition (.number 3) = .ok clause :=
    compile_eq_ok.2 ⟨_, helaborate, rfl, checkNames_number.2 (.inr (by decide +kernel))⟩
  obtain ⟨predicate, expression, hpredicate, htext, -, hholds⟩ := compile_splices_raw hraw hclause
  rw [helaborate] at hpredicate
  cases hpredicate
  have hsingle : IsOperand clause.parameters "NOT g AND h" := by
    have hlength : (Expression.disjunctsOfText? [("param3", .int 7)] "NOT g AND h").map
        List.length = some 1 := by decide +kernel
    exact hlength
  refine ⟨hraw, hclause, expression, htext, hholds ?_⟩
  simp [Predicate.Shelters, Predicate.SheltersEach, Predicate.KeepsApart, Predicate.EachConjunct,
    Predicate.IsConjunct, hsingle]

/-- Raw SQL with an `OR` of its own beside an `AND`: the condition of a row of another tenant does
not hold, but what a database reads does. -/
theorem compile_regroups_raw :
    let condition : Value := .conjunction [
      .map [(.text "name", .raw "\x60a\x60 = 1 OR \x60b\x60 = 2" [])],
      .map [(.text "tenant", .int 7)]]
    let clause : Clause := {
      sql := "(\x60a\x60 = 1 OR \x60b\x60 = 2 AND \x60tenant\x60 = \x7bparam0:Int32\x7d)"
      parameters := [("param0", .int 7)] }
    let truth : Truth := fun items =>
      match items with
      | .leaf (.quoted column) :: _ => column = "\x60a\x60"
      | _ => false
    EveryRaw (IsExpression clause.parameters) condition ∧
      compile condition (.number 0) = .ok clause ∧
        ∃ expression, Expression.ofText? clause.parameters clause.sql = some expression ∧
          expression.holds truth = true ∧
            holdsUnder (assignmentOf clause.parameters truth) condition = false := by
  intro condition clause truth
  have hraw : EveryRaw (IsExpression clause.parameters) condition := by
    have hexpression : (Expression.ofText? [("param0", .int 7)]
        "\x60a\x60 = 1 OR \x60b\x60 = 2").isSome = true := by decide +kernel
    simp [condition, clause, EveryRaw, EachRaw, EntriesRaw, IsExpression, hexpression]
  have helaborate : elaborate condition = .ok (some (.group .and [
      .all [.verbatim "\x60a\x60 = 1 OR \x60b\x60 = 2"],
      .all [.compare "\x60tenant\x60" "=" (.int 7)]])) := by rfl
  have hclause : compile condition (.number 0) = .ok clause :=
    compile_eq_ok.2 ⟨_, helaborate, rfl, checkNames_number.2 (.inr (by decide +kernel))⟩
  have hread : (Expression.ofText? clause.parameters clause.sql).map (Expression.holds truth) =
      some true := by decide +kernel
  obtain ⟨expression, hexpression, hholds⟩ := Option.map_eq_some_iff.1 hread
  have hcondition : holdsUnder (assignmentOf clause.parameters truth) condition = false := by
    decide +kernel
  exact ⟨hraw, hclause, expression, hexpression, hholds, hcondition⟩

end TypedSql.Condition
