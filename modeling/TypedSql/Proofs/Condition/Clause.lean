import TypedSql.Condition.Clause
import TypedSql.Proofs.Condition.Writing

/-!
# Clauses keep the meaning of conditions

`compile_keeps_meaning` is the main statement: a database that reads the clause of a condition by
the precedence of SQL reads a formula that holds exactly where the condition does.
-/

namespace TypedSql.Condition

open TypedSql.Sql TypedSql.Outcome

/-- A condition has a clause exactly if it elaborates and the parameters of the clause have
names. -/
theorem compile_eq_ok {condition : Value} {start : Start} {clause : Clause} :
    compile condition start = .ok clause ↔
      ∃ predicate, elaborate condition = .ok predicate ∧
        clause = Clause.ofPredicate start predicate ∧
        start.checkNames clause.parameters.length = .ok () := by
  unfold compile
  cases elaborate condition with
  | ok predicate =>
      simp only [bind_eq_ok, pure_eq_ok]
      constructor
      · rintro ⟨_, hnames, rfl⟩
        exact ⟨predicate, rfl, rfl, hnames⟩
      · rintro ⟨_, hpredicate, rfl, hnames⟩
        cases hpredicate
        exact ⟨(), hnames, rfl⟩
  | error fault =>
      simp only [bind_eq_ok, reduceCtorEq, false_and, exists_false, iff_false]
      rintro ⟨_, _, hfault⟩
      cases hfault

/-- The parameters of a clause that is numbered from a whole number provide its values. -/
theorem provides_ofPieces (index : Int) (pieces : List Piece) :
    Provides (Clause.ofPieces (.number index) pieces).parameters (Start.number index).name 0
      (Piece.values pieces) := by
  refine provides_parameters ?_ 0 pieces
  intro first second hsame
  have hindex := parameter_injective hsame
  omega

/-- What stands for a truth that may be absent has the truth, or else holds always. -/
theorem StandsFor.getD {sort : String → Prop} {truth : Assignment → Option Bool}
    {predicate : Option Predicate} (h : StandsFor sort truth predicate) :
    (predicate.getD (.constant true)).Proper sort ∧
      ∀ assignment, (truth assignment).getD true =
        (predicate.getD (.constant true)).holds assignment := by
  have htruth := h.map_holds
  cases predicate with
  | none => exact ⟨trivial, fun assignment => by rw [htruth]; rfl⟩
  | some inner => exact ⟨h.1.1, fun assignment => by rw [htruth]; rfl⟩

/-- The text of a condition without raw SQL is read, with its parameters, as a formula that holds
under an assignment of truths to the tests of columns exactly if the condition does. -/
theorem compile_keeps_meaning {condition : Value} {index : Int} {clause : Clause}
    (hraw : IsRawFree condition) (h : compile condition (.number index) = .ok clause) :
    ∃ formula, Formula.ofText? clause.parameters clause.sql = some formula ∧
      ∀ assignment : Assignment,
        formula.holds assignment.test = holdsUnder assignment condition := by
  obtain ⟨predicate, helaborate, rfl, -⟩ := compile_eq_ok.1 h
  obtain ⟨hproper, hholds⟩ := (elaborate_stands hraw helaborate).getD
  -- the formula depends on the text alone, so the truths of raw SQL do not matter
  have hreads : ∀ raw : String → Bool, ∃ formula,
      Formula.ofText? (Clause.ofPredicate (.number index) predicate).parameters
        (Clause.ofPredicate (.number index) predicate).sql = some formula ∧
      ∀ test, formula.holds test = holdsUnder ⟨test, raw⟩ condition := by
    intro raw
    have hnone : ∀ sql, False → Expresses (Clause.ofPredicate (.number index) predicate).parameters
        (.chain .and) sql fun _ => raw sql := fun _ hsort => hsort.elim
    have hexpresses :=
      expresses_pieces (namable_number index) hnone hproper (provides_ofPieces index _)
    obtain ⟨formula, hformula, htruth⟩ := hexpresses.toDisjunction.ofText?
    refine ⟨formula, hformula, fun test => ?_⟩
    rw [htruth, holdsUnder, hholds]
  obtain ⟨formula, hformula, -⟩ := hreads fun _ => true
  refine ⟨formula, hformula, ?_⟩
  rintro ⟨test, raw⟩
  obtain ⟨same, hsame, htruth⟩ := hreads raw
  rw [hformula] at hsame
  cases hsame
  exact htruth test

/-- The text of a condition without raw SQL is read as tokens. -/
theorem scans_compile {condition : Value} {index : Int} {clause : Clause}
    (hraw : IsRawFree condition) (h : compile condition (.number index) = .ok clause) :
    ∃ tokens, Scans clause.sql tokens := by
  obtain ⟨predicate, helaborate, rfl, -⟩ := compile_eq_ok.1 h
  obtain ⟨hproper, -⟩ := (elaborate_stands hraw helaborate).getD
  have hnone : ∀ sql, False → Expresses (Clause.ofPredicate (.number index) predicate).parameters
      (.chain .and) sql fun _ => true := fun _ hsort => hsort.elim
  obtain ⟨tokens, hscans, -⟩ :=
    expresses_pieces (namable_number index) hnone hproper (provides_ofPieces index _)
  exact ⟨tokens, hscans⟩

/-- Conjunctions without parentheses of their own, a range among them, under a disjunction and a
negation. -/
theorem compile_keeps_meaning_nested :
    let condition : Value := .map [
      (.text "$or", .list [
        .map [(.text "age", .operators [(.between, .tuple [.int 1, .int 5]), (.ne, .null)])],
        .negation (.map [(.text "id", .map [(.text "in", .list [])]), (.text "and", .map []),
          (.text "name", .literal (.text "x"))])]),
      (.text "tag", .map [(.text "notIn", .list [.text "a", .text "b"])])]
    let clause : Clause := {
      sql := "(\x60age\x60 BETWEEN \x7bparam3:Int32\x7d AND \x7bparam4:Int32\x7d AND " ++
        "\x60age\x60 IS NOT NULL OR NOT (1=0 AND \x60name\x60 = \x7bparam5:String\x7d)) AND " ++
        "\x60tag\x60 NOT IN (\x7bparam6:String\x7d, \x7bparam7:String\x7d)"
      parameters := [("param3", .int 1), ("param4", .int 5), ("param5", .text "x"),
        ("param6", .text "a"), ("param7", .text "b")] }
    IsRawFree condition ∧ compile condition (.number 3) = .ok clause ∧
      ∃ formula, Formula.ofText? clause.parameters clause.sql = some formula ∧
        ∀ assignment : Assignment,
          formula.holds assignment.test = holdsUnder assignment condition := by
  intro condition clause
  have hraw : IsRawFree condition := by
    simp [condition, IsRawFree, EveryRaw, EachRaw, EntriesRaw]
  have helaborate : elaborate condition = .ok (some (.all [
      .group .or [
        .all [.all [.between "\x60age\x60" (.int 1) (.int 5), .isNull "\x60age\x60" true]],
        .negation (.all [.all [.constant false],
          .compare "\x60name\x60" "=" (.text "x")])],
      .all [.within "\x60tag\x60" true [.text "a", .text "b"]]])) := by rfl
  have hclause : compile condition (.number 3) = .ok clause :=
    compile_eq_ok.2 ⟨_, helaborate, rfl, checkNames_number.2 (.inr (by decide +kernel))⟩
  exact ⟨hraw, hclause, compile_keeps_meaning hraw hclause⟩

end TypedSql.Condition
