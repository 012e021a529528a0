import TypedSql.Proofs.Condition.Trivial

/-!
# Constant conditions

Conditions without a test of a column: their leaves are memberships in an empty list, and parts that
are empty. Such a condition has one truth for all rows, but only two shapes of true ones have the
text that always holds: those that are wholly empty, and a single empty exclusion that stands alone
(`sql_eq_alwaysTrue_iff`).
-/

namespace TypedSql.Condition

open TypedSql.Sql TypedSql.Outcome

/-- The operators that a field of a condition applies. -/
def fieldOperators : Value → List (Operator × Value)
  | .operators operators => operators
  | .map entries => namedOperators entries
  | _ => []

/-- Whether a field applies operators rather than being compared with a value. -/
def appliesOperators : Value → Bool
  | .operators _ => true
  | value => looksLikeOperators value

/-- Whether an operator asks for membership in an empty list, or for its absence. -/
def isEmptyMembership (entry : Operator × Value) : Bool :=
  (entry.1 = .oneOf || entry.1 = .notOneOf) && entry.2.asItems?.any List.isEmpty

theorem isEmptyMembership_iff {operator : Operator} {operand : Value} :
    isEmptyMembership (operator, operand) = true ↔
      (operator = .oneOf ∨ operator = .notOneOf) ∧ operand.asItems? = some [] := by
  simp [isEmptyMembership, Option.any_eq_true]

/-- Whether a field asks for nothing but memberships in empty lists. -/
def isConstantField (value : Value) : Bool :=
  appliesOperators value && (fieldOperators value).all isEmptyMembership

mutual

/-- Whether a condition has neither raw SQL nor a test of a column. -/
def isConstant : Value → Bool
  | .null => true
  | .conjunction conditions => allConstant conditions
  | .disjunction conditions => allConstant conditions
  | .negation condition => isConstant condition
  | .map entries => entriesConstant entries
  | _ => false

/-- Whether several conditions have neither raw SQL nor a test of a column. -/
def allConstant : List Value → Bool
  | [] => true
  | condition :: rest => isConstant condition && allConstant rest

/-- Whether the entries of a map have neither raw SQL nor a test of a column. -/
def entriesConstant : List (Value × Value) → Bool
  | [] => true
  | (key, value) :: rest =>
    let first :=
      match connective? key with
      | some (.joining _) =>
        match value with
        | .list conditions => allConstant conditions
        | .tuple conditions => allConstant conditions
        | condition => isConstant condition
      | some .negating => isConstant value
      | none => isConstantField value
    first && entriesConstant rest

end

/-- Whether an entry of a map has neither raw SQL nor a test of a column. -/
def isConstantEntry (key value : Value) : Bool :=
  match connective? key with
  | some (.joining _) =>
    match value with
    | .list conditions => allConstant conditions
    | .tuple conditions => allConstant conditions
    | condition => isConstant condition
  | some .negating => isConstant value
  | none => isConstantField value

theorem entriesConstant_cons (key value : Value) (rest : List (Value × Value)) :
    entriesConstant ((key, value) :: rest) =
      (isConstantEntry key value && entriesConstant rest) := by
  -- which alternative is taken shows only once the value is known
  cases value <;> rfl

/-- A single condition under a connective that joins is constant if it is by itself. -/
theorem isConstantEntry_of_isSingle {key value : Value} {joiner : Joiner}
    (hkey : connective? key = some (.joining joiner)) (hsingle : isSingle value = true) :
    isConstantEntry key value = isConstant value := by
  cases value with
  | list | tuple => cases hsingle
  | _ => simp only [isConstantEntry, hkey]

namespace Predicate

mutual

/-- Whether a predicate is made of constants, without empty conjunctions. -/
def MadeOfConstants : Predicate → Prop
  | constant _ => True
  | all parts => parts ≠ [] ∧ EachOfConstants parts
  | group _ parts => EachOfConstants parts
  | negation inner => MadeOfConstants inner
  | _ => False

/-- Whether several predicates are made of constants. -/
def EachOfConstants : List Predicate → Prop
  | [] => True
  | part :: rest => MadeOfConstants part ∧ EachOfConstants rest

end

/-- The predicate that always holds, by itself or as the only part of conjunctions. -/
inductive IsBareTruth : Predicate → Prop
  | constant : IsBareTruth (constant true)
  | all {part : Predicate} (h : IsBareTruth part) : IsBareTruth (all [part])

theorem eachOfConstants_append {parts rest : List Predicate} :
    EachOfConstants (parts ++ rest) ↔ EachOfConstants parts ∧ EachOfConstants rest := by
  induction parts with
  | nil => simp [EachOfConstants]
  | cons part others ih => simp [EachOfConstants, ih, and_assoc]

/-- A predicate made of constants has the text that always holds exactly if it is a bare truth: a
second part brings a blank with it, a group its parenthesis and a negation its keyword. -/
theorem render_eq_alwaysTrue_iff_isBareTruth {name : Nat → String} (predicate : Predicate)
    (h : MadeOfConstants predicate) :
    Piece.render name 0 predicate.pieces = alwaysTrue ↔ IsBareTruth predicate := by
  constructor
  · intro htext
    match predicate with
    | constant truth =>
        cases truth with
        | true => exact .constant
        | false => exact absurd htext (by simp [pieces, alwaysTrue, alwaysFalse])
    | all [] => exact absurd rfl h.1
    | all [part] =>
        exact .all ((render_eq_alwaysTrue_iff_isBareTruth part h.2.1).1 htext)
    | all (part :: other :: others) =>
        have hblank :
            ' ' ∈ (Piece.render name 0 (all (part :: other :: others)).pieces).toList := by
          simp [pieces, piecesOfAll, Piece.join, Joiner.separator]
        rw [htext] at hblank
        exact absurd hblank (by decide)
    | group joiner parts =>
        have hopened : '(' ∈ (Piece.render name 0 (group joiner parts).pieces).toList := by
          simp [pieces]
        rw [htext] at hopened
        exact absurd hopened (by decide)
    | negation inner =>
        have hopened : '(' ∈ (Piece.render name 0 (negation inner).pieces).toList := by
          simp [pieces]
        rw [htext] at hopened
        exact absurd hopened (by decide)
  · intro htruth
    induction htruth with
    | constant => rfl
    | all htruth ih => exact ih h.2.1

theorem values_join {separator : String} {lists : List (List Piece)}
    (h : ∀ pieces ∈ lists, Piece.values pieces = []) :
    Piece.values (Piece.join separator lists) = [] := by
  induction lists with
  | nil => rfl
  | cons pieces rest ih =>
      have hpieces := h pieces List.mem_cons_self
      have hrest := ih fun others hothers => h others (List.mem_cons_of_mem pieces hothers)
      cases rest with
      | nil => exact hpieces
      | cons other others => simp [Piece.join, hpieces, hrest]

mutual

/-- A predicate made of constants binds no values. -/
theorem values_pieces {predicate : Predicate} (h : MadeOfConstants predicate) :
    Piece.values predicate.pieces = [] := by
  cases predicate with
  | constant truth => rfl
  | all parts => exact values_join (values_piecesOfAll h.2)
  | group joiner parts =>
      have hparts : EachOfConstants parts := h
      simp [pieces, values_join (values_piecesOfAll hparts), Piece.values]
  | negation inner =>
      have hinner : MadeOfConstants inner := h
      simp [pieces, values_pieces hinner, Piece.values]
  | _ => exact h.elim

theorem values_piecesOfAll {parts : List Predicate} (h : EachOfConstants parts) :
    ∀ pieces ∈ piecesOfAll parts, Piece.values pieces = [] := by
  cases parts with
  | nil => simp [piecesOfAll]
  | cons part rest =>
      have hpart := values_pieces h.1
      have hrest := values_piecesOfAll h.2
      simpa [piecesOfAll] using ⟨hpart, hrest⟩

end

end Predicate

open Predicate

section Fields

variable {field value : Value} {predicate : Option Predicate}

/-- The constants that memberships in empty lists stand for: nothing is a member. -/
def membershipConstants (operators : List (Operator × Value)) : List Predicate :=
  operators.map fun entry => constant (entry.1 = .notOneOf)

theorem eachOfConstants_membershipConstants (operators : List (Operator × Value)) :
    EachOfConstants (membershipConstants operators) := by
  induction operators with
  | nil => trivial
  | cons entry rest ih => exact ⟨trivial, ih⟩

/-- Memberships in empty lists elaborate to constants. -/
theorem ofOperators_eq (name : String) {operators : List (Operator × Value)}
    (h : ∀ entry ∈ operators, isEmptyMembership entry = true) :
    ofOperators field name operators = .ok (allOf (membershipConstants operators)) := by
  have hparts : (operators.mapM fun entry => ofOperator field name entry.1 entry.2) =
      .ok (membershipConstants operators) := by
    induction operators with
    | nil => rfl
    | cons entry rest ih =>
        obtain ⟨operator, operand⟩ := entry
        obtain ⟨hoperator, hempty⟩ := isEmptyMembership_iff.1 (h _ List.mem_cons_self)
        have hrest := ih fun other hother => h other (List.mem_cons_of_mem _ hother)
        refine mapM_cons_eq_ok.2 ⟨_, _, ?_, hrest, rfl⟩
        rcases hoperator with rfl | rfl <;> simp [ofOperator, hempty, membership]
  simp only [ofOperators, hparts]
  rfl

/-- A constant field elaborates to the constants of its operators. -/
theorem ofField_eq (hconstant : isConstantField value = true)
    (h : ofField field value = .ok predicate) :
    predicate = allOf (membershipConstants (fieldOperators value)) := by
  simp only [isConstantField, Bool.and_eq_true, List.all_eq_true] at hconstant
  obtain ⟨happlies, hoperators⟩ := hconstant
  obtain ⟨name, -, h⟩ := bind_eq_ok.1 h
  cases value with
  | operators operators =>
      exact (Except.ok.inj (h.symm.trans (ofOperators_eq name hoperators)))
  | map entries =>
      have hlooks : looksLikeOperators (.map entries) = true := happlies
      simp only [hlooks, if_true] at h
      obtain ⟨operators, hknown, h⟩ := bind_eq_ok.1 h
      rw [operatorsOf_eq hknown] at h
      exact (Except.ok.inj (h.symm.trans (ofOperators_eq name hoperators)))
  | _ => cases happlies

end Fields

/-- Groups and conjunctions of predicates made of constants are made of constants. -/
theorem eachOfConstants_groupOf (joiner : Joiner) {parts : List Predicate}
    (h : EachOfConstants parts) : EachOfConstants (groupOf joiner parts).toList := by
  cases parts with
  | nil => trivial
  | cons part rest => exact ⟨h, trivial⟩

theorem eachOfConstants_allOf {parts : List Predicate} (h : EachOfConstants parts) :
    EachOfConstants (allOf parts).toList := by
  cases parts with
  | nil => trivial
  | cons part rest => exact ⟨⟨List.cons_ne_nil part rest, h⟩, trivial⟩

theorem eachOfConstants_negated {inner : Option Predicate} (h : EachOfConstants inner.toList) :
    EachOfConstants (negated inner).toList := by
  cases inner with
  | none => trivial
  | some predicate => exact h

mutual

/-- A constant condition elaborates to constants. -/
theorem elaborate_ofConstants {condition : Value} {predicate : Option Predicate}
    (hconstant : isConstant condition = true) (h : elaborate condition = .ok predicate) :
    EachOfConstants predicate.toList := by
  cases condition with
  | null =>
      cases h
      trivial
  | conjunction conditions | disjunction conditions =>
      simp only [elaborate, bind_eq_ok, pure_eq_ok] at h
      obtain ⟨parts, hparts, rfl⟩ := h
      exact eachOfConstants_groupOf _ (elaborateAll_ofConstants hconstant hparts)
  | negation inner =>
      simp only [elaborate, bind_eq_ok, pure_eq_ok] at h
      obtain ⟨known, hknown, rfl⟩ := h
      have hinner : isConstant inner = true := hconstant
      exact eachOfConstants_negated (elaborate_ofConstants hinner hknown)
  | map entries =>
      simp only [elaborate, bind_eq_ok, pure_eq_ok] at h
      obtain ⟨parts, hparts, rfl⟩ := h
      exact eachOfConstants_allOf (elaborateEntries_ofConstants hconstant hparts)
  | _ => cases h

theorem elaborateAll_ofConstants {conditions : List Value} {parts : List Predicate}
    (hconstant : allConstant conditions = true) (h : elaborateAll conditions = .ok parts) :
    EachOfConstants parts := by
  cases conditions with
  | nil =>
      cases h
      trivial
  | cons condition rest =>
      simp only [elaborateAll, bind_eq_ok, pure_eq_ok] at h
      obtain ⟨first, hfirst, others, hothers, rfl⟩ := h
      rw [allConstant, Bool.and_eq_true] at hconstant
      obtain ⟨hcondition, hrest⟩ := hconstant
      exact eachOfConstants_append.2 ⟨elaborate_ofConstants hcondition hfirst,
        elaborateAll_ofConstants hrest hothers⟩

theorem elaborateEntries_ofConstants {entries : List (Value × Value)} {parts : List Predicate}
    (hconstant : entriesConstant entries = true) (h : elaborateEntries entries = .ok parts) :
    EachOfConstants parts := by
  match entries with
  | [] =>
      cases h
      trivial
  | (key, value) :: rest =>
      simp only [elaborateEntries_cons, bind_eq_ok, pure_eq_ok] at h
      obtain ⟨first, hfirst, others, hothers, rfl⟩ := h
      rw [entriesConstant_cons, Bool.and_eq_true] at hconstant
      obtain ⟨hentry, hrest⟩ := hconstant
      have hfirstConstant : EachOfConstants first.toList := by
        cases elaborates_of_elaborateEntry hfirst with
        | list hkey hparts | tuple hkey hparts =>
            simp only [isConstantEntry, hkey] at hentry
            exact eachOfConstants_groupOf _ (elaborateAll_ofConstants hentry hparts)
        | single hkey hsingle hinner =>
            rw [isConstantEntry_of_isSingle hkey hsingle] at hentry
            exact eachOfConstants_groupOf _ (elaborate_ofConstants hentry hinner)
        | negation hkey hinner =>
            simp only [isConstantEntry, hkey] at hentry
            exact eachOfConstants_negated (elaborate_ofConstants hentry hinner)
        | field hkey hfield =>
            simp only [isConstantEntry, hkey] at hentry
            rw [ofField_eq hentry hfield]
            exact eachOfConstants_allOf (eachOfConstants_membershipConstants _)
      exact eachOfConstants_append.2 ⟨hfirstConstant, elaborateEntries_ofConstants hrest hothers⟩

end

section Shapes

/-- Whether a condition is wholly empty, so that it has no truth of its own. -/
def IsEmpty (condition : Value) : Prop := ∀ assignment, meaning assignment condition = none

/-- Whether an entry of a map says something. -/
def isPresent (entry : Value × Value) : Bool :=
  (entryMeaning ⟨fun _ => true, fun _ => true⟩ entry.1 entry.2).isSome

/-- Whether an entry of a map says of a field that it is in none of no values, and no more. -/
def IsEmptyExclusion (key value : Value) : Prop :=
  connective? key = none ∧
    ∃ operand, fieldOperators value = [(.notOneOf, operand)] ∧ operand.asItems? = some []

/-- Whether all that a condition says is an empty exclusion that stands alone in its map. -/
def IsLoneExclusion (condition : Value) : Prop :=
  ∃ entries key value, condition = .map entries ∧ entries.filter isPresent = [(key, value)] ∧
    IsEmptyExclusion key value

/-- An entry of a map elaborates to a predicate of the same truth. -/
theorem elaborateEntry_stands {key value : Value} {first : Option Predicate}
    (h : elaborateEntry key value = .ok first) :
    StandsFor (fun _ => True) (fun assignment => entryMeaning assignment key value) first := by
  have helaborate : elaborateEntries [(key, value)] = .ok first.toList := by
    rw [elaborateEntries_cons, h]
    simp [elaborateEntries, bind, Except.bind, pure, Except.pure]
  have hstands := elaborateEntries_stands (entriesRaw_true [(key, value)]) helaborate
  have htruths : (fun assignment => entryMeanings assignment [(key, value)]) =
      fun assignment => (entryMeaning assignment key value).toList := by
    funext assignment
    rw [entryMeanings_cons, entryMeanings, List.append_nil]
  rw [htruths] at hstands
  exact hstands

theorem isPresent_eq_isSome {key value : Value} {first : Option Predicate}
    (h : elaborateEntry key value = .ok first) : isPresent (key, value) = first.isSome := by
  rw [isPresent, (elaborateEntry_stands h).map_holds]
  cases first <;> rfl

/-- The entries of a map that say something elaborate to one predicate each. -/
theorem elaborateEntries_present {entries : List (Value × Value)} {parts : List Predicate}
    (h : elaborateEntries entries = .ok parts) :
    ((entries.filter isPresent).mapM fun entry => elaborateEntry entry.1 entry.2) =
      .ok (parts.map some) := by
  induction entries generalizing parts with
  | nil =>
      cases h
      rfl
  | cons entry rest ih =>
      obtain ⟨key, value⟩ := entry
      simp only [elaborateEntries_cons, bind_eq_ok, pure_eq_ok] at h
      obtain ⟨first, hfirst, others, hothers, rfl⟩ := h
      have hpresent := isPresent_eq_isSome hfirst
      cases first with
      | none =>
          rw [List.filter_cons_of_neg (by simp [hpresent])]
          exact ih hothers
      | some part =>
          rw [List.filter_cons_of_pos (by simp [hpresent])]
          exact mapM_cons_eq_ok.2 ⟨_, _, hfirst, ih hothers, rfl⟩

/-- A conjunction is a bare truth exactly if its only part is. -/
theorem isBareTruth_all_iff {parts : List Predicate} :
    IsBareTruth (.all parts) ↔ ∃ part, parts = [part] ∧ IsBareTruth part := by
  constructor
  · rintro (_ | ⟨h⟩)
    exact ⟨_, rfl, h⟩
  · rintro ⟨part, rfl, h⟩
    exact .all h

/-- Memberships in empty lists are a bare truth together exactly if there is one and it is an
exclusion. -/
theorem isBareTruth_membershipConstants_iff {operators : List (Operator × Value)}
    (h : ∀ entry ∈ operators, isEmptyMembership entry = true) :
    IsBareTruth (.all (membershipConstants operators)) ↔
      ∃ operand, operators = [(.notOneOf, operand)] ∧ operand.asItems? = some [] := by
  rw [isBareTruth_all_iff]
  constructor
  · rintro ⟨part, hparts, htruth⟩
    match operators with
    | [] => cases hparts
    | [(operator, operand)] =>
        obtain ⟨hoperator, hempty⟩ := isEmptyMembership_iff.1 (h _ List.mem_cons_self)
        cases hparts
        rcases hoperator with rfl | rfl
        · cases htruth
        · exact ⟨operand, rfl, hempty⟩
    | _ :: _ :: _ => cases hparts
  · rintro ⟨operand, rfl, -⟩
    exact ⟨_, rfl, .constant⟩

theorem eq_all_of_allOf {parts : List Predicate} {part : Predicate}
    (h : allOf parts = some part) : part = .all parts := by
  unfold allOf at h
  split at h <;> cases h
  rfl

theorem not_isBareTruth_groupOf {joiner : Joiner} {parts : List Predicate} {part : Predicate}
    (h : groupOf joiner parts = some part) : ¬ IsBareTruth part := by
  intro htruth
  unfold groupOf at h
  split at h <;> cases h
  cases htruth

theorem not_isBareTruth_negated {inner : Option Predicate} {part : Predicate}
    (h : negated inner = some part) : ¬ IsBareTruth part := by
  intro htruth
  cases inner <;> cases h
  cases htruth

/-- A constant entry of a map is a bare truth exactly if it is an empty exclusion: groups and
negations never are. -/
theorem isBareTruth_elaborateEntry_iff {key value : Value} {part : Predicate}
    (hconstant : isConstantEntry key value = true)
    (h : elaborateEntry key value = .ok (some part)) :
    IsBareTruth part ↔ IsEmptyExclusion key value := by
  -- the ways of an entry give a predicate that may be empty, so the index is freed first
  generalize hfirst : some part = first at h
  cases elaborates_of_elaborateEntry h with
  | list hkey hparts | tuple hkey hparts =>
      refine iff_of_false (not_isBareTruth_groupOf hfirst.symm) ?_
      rintro ⟨hnone, -⟩
      cases hkey.symm.trans hnone
  | single hkey hsingle hinner =>
      refine iff_of_false (not_isBareTruth_groupOf hfirst.symm) ?_
      rintro ⟨hnone, -⟩
      cases hkey.symm.trans hnone
  | negation hkey hinner =>
      refine iff_of_false (not_isBareTruth_negated hfirst.symm) ?_
      rintro ⟨hnone, -⟩
      cases hkey.symm.trans hnone
  | field hkey hfield =>
      simp only [isConstantEntry, hkey] at hconstant
      have hoperators : ∀ entry ∈ fieldOperators value, isEmptyMembership entry = true := by
        simp only [isConstantField, Bool.and_eq_true, List.all_eq_true] at hconstant
        exact hconstant.2
      have hall := hfirst.trans (ofField_eq hconstant hfield)
      rw [eq_all_of_allOf hall.symm, isBareTruth_membershipConstants_iff hoperators,
        IsEmptyExclusion]
      simp [hkey]

theorem isConstantEntry_of_mem {entries : List (Value × Value)}
    (h : entriesConstant entries = true) {key value : Value} (hmem : (key, value) ∈ entries) :
    isConstantEntry key value = true := by
  induction entries with
  | nil => cases hmem
  | cons entry rest ih =>
      obtain ⟨first, other⟩ := entry
      rw [entriesConstant_cons, Bool.and_eq_true] at h
      rcases List.mem_cons.1 hmem with heq | hmem
      · cases heq
        exact h.1
      · exact ih h.2 hmem

theorem mapM_eq_ok_singleton {entries : List (Value × Value)} {first : Option Predicate}
    (h : (entries.mapM fun entry => elaborateEntry entry.1 entry.2) = .ok [first]) :
    ∃ key value, entries = [(key, value)] ∧ elaborateEntry key value = .ok first := by
  match entries with
  | [] => cases h
  | (key, value) :: rest =>
      obtain ⟨known, others, hentry, hrest, hcons⟩ := mapM_cons_eq_ok.1 h
      cases hcons
      have hlength := length_of_mapM hrest
      have hnil : rest = [] := List.length_eq_zero_iff.1 hlength.symm
      exact ⟨key, value, by rw [hnil], hentry⟩

/-- A constant condition is a bare truth exactly if it is an empty exclusion that stands alone. -/
theorem isBareTruth_elaborate_iff {condition : Value} {predicate : Predicate}
    (hconstant : isConstant condition = true)
    (h : elaborate condition = .ok (some predicate)) :
    IsBareTruth predicate ↔ IsLoneExclusion condition := by
  cases condition with
  | map entries =>
      simp only [elaborate, bind_eq_ok, pure_eq_ok] at h
      obtain ⟨parts, hparts, hall⟩ := h
      have hpresent := elaborateEntries_present hparts
      have hmem : ∀ {key value : Value}, entries.filter isPresent = [(key, value)] →
          (key, value) ∈ entries := by
        intro key value hfilter
        have hfound : (key, value) ∈ entries.filter isPresent := hfilter ▸ List.mem_cons_self
        exact (List.mem_filter.1 hfound).1
      -- entries that elaborate to nothing leave no part, so the parts are those of the present ones
      rw [eq_all_of_allOf hall, isBareTruth_all_iff]
      constructor
      · rintro ⟨part, rfl, htruth⟩
        obtain ⟨key, value, hfilter, hentry⟩ := mapM_eq_ok_singleton hpresent
        have hexclusion := isBareTruth_elaborateEntry_iff
          (isConstantEntry_of_mem hconstant (hmem hfilter)) hentry
        exact ⟨entries, key, value, rfl, hfilter, hexclusion.1 htruth⟩
      · rintro ⟨known, key, value, hknown, hfilter, hexclusion⟩
        cases hknown
        rw [hfilter] at hpresent
        obtain ⟨first, rest, hentry, hrest, hmap⟩ := mapM_cons_eq_ok.1 hpresent
        cases hrest
        obtain ⟨part, rfl, hpart⟩ := List.map_eq_singleton_iff.1 hmap
        subst hpart
        exact ⟨part, rfl, (isBareTruth_elaborateEntry_iff
          (isConstantEntry_of_mem hconstant (hmem hfilter)) hentry).2 hexclusion⟩
  | conjunction conditions | disjunction conditions =>
      simp only [elaborate, bind_eq_ok, pure_eq_ok] at h
      obtain ⟨parts, -, hparts⟩ := h
      refine iff_of_false (not_isBareTruth_groupOf hparts) ?_
      rintro ⟨entries, key, value, hmap, -⟩
      cases hmap
  | negation inner =>
      simp only [elaborate, bind_eq_ok, pure_eq_ok] at h
      obtain ⟨known, -, hknown⟩ := h
      refine iff_of_false (not_isBareTruth_negated hknown) ?_
      rintro ⟨entries, key, value, hmap, -⟩
      cases hmap
  | _ => cases h

/-- A constant condition has the text that always holds exactly if it is wholly empty or an empty
exclusion that stands alone. -/
theorem sql_eq_alwaysTrue_iff {condition : Value} {start : Start} {clause : Clause}
    (hconstant : isConstant condition = true) (h : compile condition start = .ok clause) :
    clause.sql = alwaysTrue ↔ IsEmpty condition ∨ IsLoneExclusion condition := by
  obtain ⟨predicate, helaborate, rfl, -⟩ := compile_eq_ok.1 h
  have hstands := elaborate_stands (everyRaw_true condition) helaborate
  cases predicate with
  | none =>
      refine iff_of_true rfl (.inl fun assignment => ?_)
      rw [hstands.map_holds]
      rfl
  | some predicate =>
      have hconstants := (elaborate_ofConstants hconstant helaborate).1
      have hpresent : ¬ IsEmpty condition := by
        intro hempty
        -- emptiness does not depend on the assignment, so any one will do
        have hnone := hempty ⟨fun _ => true, fun _ => true⟩
        rw [hstands.map_holds] at hnone
        cases hnone
      rw [or_iff_right hpresent, ← isBareTruth_elaborate_iff hconstant helaborate]
      exact render_eq_alwaysTrue_iff_isBareTruth predicate hconstants

/-- A bare truth holds. -/
theorem holds_of_isBareTruth {predicate : Predicate} (h : IsBareTruth predicate)
    (assignment : Assignment) : predicate.holds assignment = true := by
  induction h with
  | constant => rfl
  | all h ih => simp [holds, holdsEach, joinTruths, ih]

/-- A constant condition with the text that always holds does hold. -/
theorem holdsUnder_of_sql_eq_alwaysTrue {condition : Value} {start : Start} {clause : Clause}
    (hconstant : isConstant condition = true) (h : compile condition start = .ok clause)
    (hsql : clause.sql = alwaysTrue) (assignment : Assignment) :
    holdsUnder assignment condition = true := by
  obtain ⟨predicate, helaborate, rfl, -⟩ := compile_eq_ok.1 h
  have hstands := elaborate_stands (everyRaw_true condition) helaborate
  rw [holdsUnder, hstands.map_holds]
  cases predicate with
  | none => rfl
  | some predicate =>
      have hconstants := (elaborate_ofConstants hconstant helaborate).1
      exact holds_of_isBareTruth
        ((render_eq_alwaysTrue_iff_isBareTruth predicate hconstants).1 hsql) assignment

/-- The clause of a constant condition binds no values, and is the same one from every number. -/
theorem compile_ofConstants {condition : Value} {clause : Clause}
    (hconstant : isConstant condition = true) (h : compile condition .zero = .ok clause) :
    clause.parameters = [] ∧ ∀ index : Int, compile condition (.number index) = .ok clause := by
  obtain ⟨predicate, helaborate, rfl, -⟩ := compile_eq_ok.1 h
  have hvalues : Piece.values (predicate.getD (.constant true)).pieces = [] := by
    cases predicate with
    | none => rfl
    | some predicate => exact values_pieces (elaborate_ofConstants hconstant helaborate).1
  let sql := Piece.render (Start.number 0).name 0 (predicate.getD (.constant true)).pieces
  have hclause : ∀ index : Int,
      Clause.ofPredicate (.number index) predicate = { sql, parameters := [] } := by
    intro index
    have hsql : Piece.render (Start.number index).name 0 (predicate.getD (.constant true)).pieces =
        sql := render_eq_of_values hvalues 0 0
    have hparameters : Piece.parameters (Start.number index).name 0
        (predicate.getD (.constant true)).pieces = [] := by
      rw [Piece.parameters_eq, hvalues]
      rfl
    rw [← hsql, ← hparameters]
    rfl
  rw [show Clause.ofPredicate .zero predicate = _ from hclause 0]
  refine ⟨rfl, fun index => compile_eq_ok.2 ⟨predicate, helaborate, (hclause index).symm, ?_⟩⟩
  exact checkNames_number.2 (.inl rfl)

end Shapes

end TypedSql.Condition
