import TypedSql.Condition.Elaborate
import TypedSql.Proofs.Condition.Meaning
import TypedSql.Proofs.Identifier
import TypedSql.Proofs.Sql.Phrase

/-!
# Elaboration keeps the meaning

`Predicate.holds` is the truth of an elaborated condition. `elaborate_stands` says that a condition
elaborates to a predicate of the same truth, which is written with quoted columns and without empty
parts; `elaborateAll_stands` and `elaborateEntries_stands` say so of lists and of maps.
-/

namespace TypedSql.Condition

open TypedSql.Sql TypedSql.Outcome TypedSql.Identifier

namespace Predicate

mutual

/-- The truth of a predicate. -/
def holds (assignment : Assignment) : Predicate → Bool
  | verbatim sql => assignment.raw sql
  | constant truth => truth
  | isNull column negated => assignment.test (.isNull column negated)
  | compare column comparison value => assignment.test (.compare column comparison value)
  | within column negated members => assignment.test (.within column negated members)
  | between column low high => assignment.test (.between column low high)
  | all parts => joinTruths .and (holdsEach assignment parts)
  | group joiner parts => joinTruths joiner (holdsEach assignment parts)
  | negation inner => !holds assignment inner

/-- The truths of several predicates. -/
def holdsEach (assignment : Assignment) : List Predicate → List Bool
  | [] => []
  | part :: rest => holds assignment part :: holdsEach assignment rest

end

mutual

/-- Whether a predicate has quoted columns, comparisons that a database knows, raw SQL of a sort
only, and no empty parts or texts. -/
def Proper (sort : String → Prop) : Predicate → Prop
  | verbatim sql => sql ≠ "" ∧ sort sql
  | constant _ => True
  | isNull column _ => IsQuoted column
  | compare column comparison _ => IsQuoted column ∧ comparison ∈ comparisons
  | within column _ members => IsQuoted column ∧ members ≠ []
  | between column _ _ => IsQuoted column
  | all parts => parts ≠ [] ∧ ProperEach sort parts
  | group _ parts => parts ≠ [] ∧ ProperEach sort parts
  | negation inner => Proper sort inner

/-- Whether several predicates are proper. -/
def ProperEach (sort : String → Prop) : List Predicate → Prop
  | [] => True
  | part :: rest => Proper sort part ∧ ProperEach sort rest

end

theorem holdsEach_eq_map (assignment : Assignment) (parts : List Predicate) :
    holdsEach assignment parts = parts.map (holds assignment) := by
  induction parts with
  | nil => rfl
  | cons part rest ih => simp [holdsEach, ih]

theorem properEach_iff {sort : String → Prop} {parts : List Predicate} :
    ProperEach sort parts ↔ ∀ part ∈ parts, Proper sort part := by
  induction parts with
  | nil => simp [ProperEach]
  | cons part rest ih => simp [ProperEach, ih]

end Predicate

open Predicate

/-- `Stands sort truths parts` says that `parts` are proper predicates with the truths `truths`
under every assignment. -/
def Stands (sort : String → Prop) (truths : Assignment → List Bool) (parts : List Predicate) :
    Prop :=
  ProperEach sort parts ∧ ∀ assignment, truths assignment = holdsEach assignment parts

/-- `StandsFor sort truth predicate` says so of what may be empty. -/
def StandsFor (sort : String → Prop) (truth : Assignment → Option Bool)
    (predicate : Option Predicate) : Prop :=
  Stands sort (fun assignment => (truth assignment).toList) predicate.toList

section Parts

variable {sort : String → Prop} {truths others : Assignment → List Bool}
variable {truth : Assignment → Option Bool} {parts rest : List Predicate}
variable {predicate : Option Predicate}

theorem Stands.nil : Stands sort (fun _ => []) [] := ⟨trivial, fun _ => rfl⟩

theorem Stands.append (hparts : Stands sort truths parts) (hrest : Stands sort others rest) :
    Stands sort (fun assignment => truths assignment ++ others assignment) (parts ++ rest) := by
  refine ⟨?_, fun assignment => ?_⟩
  · rw [properEach_iff]
    intro part hpart
    rcases List.mem_append.1 hpart with hpart | hpart
    · exact properEach_iff.1 hparts.1 part hpart
    · exact properEach_iff.1 hrest.1 part hpart
  · simp [hparts.2 assignment, hrest.2 assignment, holdsEach_eq_map]

/-- The group of parts has the truths of the parts joined. -/
theorem Stands.groupOf (joiner : Joiner) (h : Stands sort truths parts) :
    StandsFor sort (fun assignment => joinPresent joiner (truths assignment))
      (groupOf joiner parts) := by
  obtain ⟨hproper, htruths⟩ := h
  cases parts with
  | nil => exact ⟨trivial, fun assignment => by simp [joinPresent, htruths, holdsEach, groupOf]⟩
  | cons part rest =>
      refine ⟨⟨⟨List.cons_ne_nil part rest, hproper⟩, trivial⟩, fun assignment => ?_⟩
      simp [joinPresent, htruths, holdsEach, holds, Predicate.groupOf]

/-- The conjunction of parts has the truth that all parts hold. -/
theorem Stands.allOf (h : Stands sort truths parts) :
    StandsFor sort (fun assignment => joinPresent .and (truths assignment)) (allOf parts) := by
  obtain ⟨hproper, htruths⟩ := h
  cases parts with
  | nil => exact ⟨trivial, fun assignment => by simp [joinPresent, htruths, holdsEach, allOf]⟩
  | cons part rest =>
      refine ⟨⟨⟨List.cons_ne_nil part rest, hproper⟩, trivial⟩, fun assignment => ?_⟩
      simp [joinPresent, htruths, holdsEach, holds, Predicate.allOf]

/-- A predicate that may be empty has the truth that goes with it. -/
theorem StandsFor.map_holds (h : StandsFor sort truth predicate) (assignment : Assignment) :
    truth assignment = predicate.map (holds assignment) := by
  have htruth := h.2 assignment
  cases predicate <;> cases hknown : truth assignment <;> simp_all [holdsEach]

/-- The negation of a predicate has the opposite truth. -/
theorem StandsFor.negated (h : StandsFor sort truth predicate) :
    StandsFor sort (fun assignment => (truth assignment).map not) (negated predicate) := by
  have hproper := h.1
  refine ⟨?_, fun assignment => ?_⟩
  · cases predicate with
    | none => trivial
    | some inner => exact hproper
  · simp only [h.map_holds assignment]
    cases predicate <;> simp [Condition.negated, holdsEach, holds]

/-- A group of a single member has the truth of the member. -/
theorem StandsFor.groupOf_single (joiner : Joiner) (h : StandsFor sort truth predicate) :
    StandsFor sort truth (groupOf joiner predicate.toList) := by
  have hgroup := Stands.groupOf joiner h
  refine ⟨hgroup.1, fun assignment => ?_⟩
  rw [← hgroup.2 assignment]
  show (truth assignment).toList = (joinPresent joiner (truth assignment).toList).toList
  cases truth assignment <;> cases joiner <;> simp [joinPresent, joinTruths]

end Parts

section Fields

variable {sort : String → Prop} {field value : Value} {name : String}

/-- A test of equality stands for a comparison, or for a test for null. -/
theorem equality_stands (hname : IsQuoted name) {comparison : String}
    (hcomparison : comparison ∈ comparisons) (negated : Bool) (operand : Value) :
    Stands sort (fun assignment =>
        [equalityMeaning assignment.test name comparison negated operand])
      [if operand.isNull then isNull name negated else compare name comparison operand] := by
  cases operand with
  | null => exact ⟨⟨hname, trivial⟩, fun _ => rfl⟩
  | _ => exact ⟨⟨⟨hname, hcomparison⟩, trivial⟩, fun _ => rfl⟩

/-- A membership test stands for one, or for a constant where the list is empty. -/
theorem membership_stands (hname : IsQuoted name) (negated : Bool) (members : List Value) :
    Stands sort (fun assignment => [membershipMeaning assignment.test name negated members])
      [membership negated name members] := by
  cases members with
  | nil => exact ⟨⟨trivial, trivial⟩, fun _ => rfl⟩
  | cons member rest =>
      exact ⟨⟨⟨hname, List.cons_ne_nil member rest⟩, trivial⟩, fun _ => rfl⟩

/-- An operator on a column elaborates to a predicate of the same truth. -/
theorem ofOperator_stands (hname : IsQuoted name) {operator : Operator} {operand : Value}
    {predicate : Predicate} (h : ofOperator field name operator operand = .ok predicate) :
    Stands sort (fun assignment => [operatorMeaning assignment.test name operator operand])
      [predicate] := by
  -- all plain comparisons differ in their symbol only
  have hcompare : ∀ comparison, comparison ∈ comparisons →
      Stands sort (fun assignment => [assignment.test (.compare name comparison operand)])
        [compare name comparison operand] :=
    fun _ hcomparison => ⟨⟨⟨hname, hcomparison⟩, trivial⟩, fun _ => rfl⟩
  cases operator with
  | eq =>
      cases h
      exact equality_stands hname (by decide) false operand
  | ne =>
      cases h
      exact equality_stands hname (by decide) true operand
  | gt | gte | lt | lte | like | notLike | ilike =>
      cases h
      exact hcompare _ (by decide)
  | oneOf =>
      simp only [ofOperator] at h
      split at h
      · next members hmembers =>
          cases h
          simpa [operatorMeaning, hmembers] using membership_stands hname false members
      · cases h
  | notOneOf =>
      simp only [ofOperator] at h
      split at h
      · next members hmembers =>
          cases h
          simpa [operatorMeaning, hmembers] using membership_stands hname true members
      · cases h
  | between =>
      simp only [ofOperator] at h
      split at h
      · next low high hpair =>
          cases h
          exact ⟨⟨hname, trivial⟩, fun _ => by simp [operatorMeaning, hpair, holdsEach, holds]⟩
      · cases h
  | isNull | notNull =>
      cases h
      exact ⟨⟨hname, trivial⟩, fun _ => rfl⟩

/-- The operators on a column elaborate to their conjunction. -/
theorem ofOperators_stands (hname : IsQuoted name) {operators : List (Operator × Value)}
    {predicate : Option Predicate} (h : ofOperators field name operators = .ok predicate) :
    StandsFor sort (fun assignment => operatorsMeaning assignment.test name operators)
      predicate := by
  simp only [ofOperators, bind_eq_ok, pure_eq_ok] at h
  obtain ⟨parts, hparts, rfl⟩ := h
  have hstands : Stands sort (fun assignment => operators.map fun entry =>
      operatorMeaning assignment.test name entry.1 entry.2) parts := by
    induction operators generalizing parts with
    | nil =>
        cases hparts
        exact Stands.nil
    | cons entry rest ih =>
        obtain ⟨part, others, hpart, hothers, rfl⟩ := mapM_cons_eq_ok.1 hparts
        exact (ofOperator_stands hname hpart).append (ih others hothers)
  exact hstands.allOf

/-- The operators that a map stands for are those that its entries name. -/
theorem operatorsOf_eq {entries : Entries} {operators : List (Operator × Value)}
    (h : operatorsOf field entries = .ok operators) : operators = namedOperators entries := by
  unfold operatorsOf at h
  induction entries generalizing operators with
  | nil =>
      cases h
      rfl
  | cons entry rest ih =>
      obtain ⟨known, others, hknown, hothers, rfl⟩ := mapM_cons_eq_ok.1 h
      simp only at hknown
      split at hknown
      · next operator hoperator =>
          cases hknown
          simp [namedOperators, hoperator, ih hothers]
      · cases hknown

/-- A field of a condition elaborates to a predicate of the same truth. -/
theorem ofField_stands (hraw : EveryRaw sort value) {predicate : Option Predicate}
    (h : ofField field value = .ok predicate) :
    StandsFor sort
      (fun assignment => fieldMeaning assignment (Identifier.backquoted field.display) value)
      predicate := by
  simp only [ofField, bind_eq_ok] at h
  obtain ⟨name, hname, h⟩ := h
  obtain ⟨rfl, hquoted⟩ := isQuoted_of_quote hname
  -- every bare operand, a map of no operators among them, is tested for equality
  have hequal : ∀ operand, StandsFor sort (fun assignment =>
        some (equalityMeaning assignment.test (Identifier.backquoted field.display) "=" false
          operand))
      (some (if operand.isNull then isNull (Identifier.backquoted field.display) false
        else compare (Identifier.backquoted field.display) "=" operand)) :=
    fun operand => equality_stands hquoted (by decide) false operand
  cases value with
  | raw sql values =>
      simp only [pure_eq_ok] at h
      subst h
      by_cases hsql : sql.isEmpty = true
      · simp only [fieldMeaning, hsql, if_true]
        exact Stands.nil
      · simp only [fieldMeaning, hsql]
        have htext : sql ≠ "" := by simpa using hsql
        exact ⟨⟨⟨htext, hraw⟩, trivial⟩, fun _ => rfl⟩
  | literal inner =>
      have hinner : predicate = some (if inner.isNull then
          isNull (Identifier.backquoted field.display) false
        else compare (Identifier.backquoted field.display) "=" inner) := by
        cases inner <;> exact (pure_eq_ok.1 h).symm
      rw [hinner]
      exact hequal inner
  | operators operators => exact ofOperators_stands hquoted h
  | map entries =>
      simp only at h
      split at h
      · next hlooks =>
          simp only [bind_eq_ok] at h
          obtain ⟨operators, hoperators, h⟩ := h
          rw [operatorsOf_eq hoperators] at h
          simp only [fieldMeaning, hlooks, if_true]
          exact ofOperators_stands hquoted h
      · next hlooks =>
          simp only [pure_eq_ok] at h
          subst h
          simp only [fieldMeaning, hlooks]
          exact hequal (.map entries)
  | _ =>
      simp only [pure_eq_ok] at h
      subst h
      exact hequal _

end Fields

/-- The model's two tests of a key agree with the table of connectives. -/
theorem connective?_eq (key : Value) :
    connective? key =
      match groupKey? key with
      | some joiner => some (.joining joiner)
      | none => if isNegationKey key then some .negating else none := by
  unfold connective? groupKey? isNegationKey
  cases key.asText? with
  | none => rfl
  | some text =>
      by_cases hknown : text ∈ connectiveKeys.map Prod.fst
      · simp only [connectiveKeys, List.map_cons, List.map_nil, List.mem_cons, List.not_mem_nil,
          or_false] at hknown
        rcases hknown with rfl | rfl | rfl | rfl | rfl | rfl <;> rfl
      · have hnone : connectiveKeys.lookup text = none := by
          rw [List.lookup_eq_none_iff]
          intro entry hentry
          simp only [bne_iff_ne]
          rintro rfl
          exact hknown (List.mem_map_of_mem hentry)
        simp only [connectiveKeys, List.map_cons, List.map_nil, List.mem_cons, List.not_mem_nil,
          or_false, not_or] at hknown
        simp [hnone, hknown]

/-- The predicate of one entry of a map. -/
def elaborateEntry (key value : Value) : Except Fault (Option Predicate) :=
  match groupKey? key with
  | some joiner =>
    match value with
    | .list conditions => (elaborateAll conditions).map (groupOf joiner)
    | .tuple conditions => (elaborateAll conditions).map (groupOf joiner)
    | other =>
      if isSingle other then (elaborate other).map fun inner => groupOf joiner inner.toList
      else .error (.groupNotList key other)
  | none => if isNegationKey key then (elaborate value).map negated else ofField key value

/-- The entries of a map elaborate one after the other. -/
theorem elaborateEntries_cons (key value : Value) (rest : List (Value × Value)) :
    elaborateEntries ((key, value) :: rest) = do
      let first ← elaborateEntry key value
      let others ← elaborateEntries rest
      return first.toList ++ others := by
  rw [elaborateEntries, elaborateEntry]
  cases groupKey? key with
  | some joiner =>
      cases value with
      | list | tuple => rfl
      | _ =>
          simp only
          split <;> rfl
  | none =>
      simp only
      split <;> rfl

/-- `EntryElaborates key value first` says what one entry of a map elaborates to: the group of
several conditions or of a single one, a negation, or what a field does. -/
inductive EntryElaborates (key : Value) : Value → Option Predicate → Prop
  | list {joiner : Joiner} {conditions : List Value} {parts : List Predicate}
      (hkey : connective? key = some (.joining joiner)) (h : elaborateAll conditions = .ok parts) :
      EntryElaborates key (.list conditions) (groupOf joiner parts)
  | tuple {joiner : Joiner} {conditions : List Value} {parts : List Predicate}
      (hkey : connective? key = some (.joining joiner)) (h : elaborateAll conditions = .ok parts) :
      EntryElaborates key (.tuple conditions) (groupOf joiner parts)
  | single {joiner : Joiner} {value : Value} {inner : Option Predicate}
      (hkey : connective? key = some (.joining joiner)) (hsingle : isSingle value = true)
      (h : elaborate value = .ok inner) :
      EntryElaborates key value (groupOf joiner inner.toList)
  | negation {value : Value} {inner : Option Predicate}
      (hkey : connective? key = some .negating) (h : elaborate value = .ok inner) :
      EntryElaborates key value (negated inner)
  | field {value : Value} {first : Option Predicate}
      (hkey : connective? key = none) (h : ofField key value = .ok first) :
      EntryElaborates key value first

/-- An entry that elaborates does so in one of these ways. -/
theorem elaborates_of_elaborateEntry {key value : Value} {first : Option Predicate}
    (h : elaborateEntry key value = .ok first) : EntryElaborates key value first := by
  have hconnective := connective?_eq key
  unfold elaborateEntry at h
  cases hgroup : groupKey? key with
  | some joiner =>
      simp only [hgroup] at h hconnective
      cases value with
      | list conditions =>
          obtain ⟨parts, hparts, rfl⟩ := map_eq_ok.1 h
          exact .list hconnective hparts
      | tuple conditions =>
          obtain ⟨parts, hparts, rfl⟩ := map_eq_ok.1 h
          exact .tuple hconnective hparts
      | _ =>
          simp only at h
          split at h
          · next hsingle =>
              obtain ⟨inner, hinner, rfl⟩ := map_eq_ok.1 h
              exact .single hconnective hsingle hinner
          · cases h
  | none =>
      simp only [hgroup] at h hconnective
      cases hnegation : isNegationKey key with
      | true =>
          simp only [hnegation, if_true] at h hconnective
          obtain ⟨inner, hinner, rfl⟩ := map_eq_ok.1 h
          exact .negation hconnective hinner
      | false =>
          simp only [hnegation, Bool.false_eq_true, if_false] at h hconnective
          exact .field hconnective h

/-- A single condition under a connective that joins has its own truth. -/
theorem entryMeaning_of_isSingle {assignment : Assignment} {key value : Value} {joiner : Joiner}
    (hkey : connective? key = some (.joining joiner)) (hsingle : isSingle value = true) :
    entryMeaning assignment key value = meaning assignment value := by
  rw [entryMeaning, hkey]
  cases value with
  | list | tuple => cases hsingle
  | _ => rfl

mutual

/-- A condition elaborates to a predicate of the same truth. -/
theorem elaborate_stands {sort : String → Prop} {condition : Value}
    {predicate : Option Predicate} (hraw : EveryRaw sort condition)
    (h : elaborate condition = .ok predicate) :
    StandsFor sort (fun assignment => meaning assignment condition) predicate := by
  cases condition with
  | null =>
      cases h
      exact Stands.nil
  | conjunction conditions =>
      simp only [elaborate, bind_eq_ok, pure_eq_ok] at h
      obtain ⟨parts, hparts, rfl⟩ := h
      exact (elaborateAll_stands hraw hparts).groupOf .and
  | disjunction conditions =>
      simp only [elaborate, bind_eq_ok, pure_eq_ok] at h
      obtain ⟨parts, hparts, rfl⟩ := h
      exact (elaborateAll_stands hraw hparts).groupOf .or
  | negation inner =>
      simp only [elaborate, bind_eq_ok, pure_eq_ok] at h
      obtain ⟨known, hknown, rfl⟩ := h
      have hinner : EveryRaw sort inner := hraw
      exact (elaborate_stands hinner hknown).negated
  | map entries =>
      simp only [elaborate, bind_eq_ok, pure_eq_ok] at h
      obtain ⟨parts, hparts, rfl⟩ := h
      exact (elaborateEntries_stands hraw hparts).allOf
  | _ => cases h

/-- Conditions elaborate to predicates of the same truths. -/
theorem elaborateAll_stands {sort : String → Prop} {conditions : List Value}
    {parts : List Predicate} (hraw : EachRaw sort conditions)
    (h : elaborateAll conditions = .ok parts) :
    Stands sort (fun assignment => meanings assignment conditions) parts := by
  cases conditions with
  | nil =>
      cases h
      exact Stands.nil
  | cons condition rest =>
      simp only [elaborateAll, bind_eq_ok, pure_eq_ok] at h
      obtain ⟨first, hfirst, others, hothers, rfl⟩ := h
      exact (elaborate_stands hraw.1 hfirst).append (elaborateAll_stands hraw.2 hothers)

/-- The entries of a map elaborate to predicates of the same truths. -/
theorem elaborateEntries_stands {sort : String → Prop} {entries : List (Value × Value)}
    {parts : List Predicate} (hraw : EntriesRaw sort entries)
    (h : elaborateEntries entries = .ok parts) :
    Stands sort (fun assignment => entryMeanings assignment entries) parts := by
  match entries with
  | [] =>
      cases h
      exact Stands.nil
  | (key, value) :: rest =>
      simp only [elaborateEntries_cons, bind_eq_ok, pure_eq_ok] at h
      obtain ⟨first, hfirst, others, hothers, rfl⟩ := h
      have hvalue : EveryRaw sort value := hraw.1
      have hentry : StandsFor sort (fun assignment => entryMeaning assignment key value) first := by
        cases elaborates_of_elaborateEntry hfirst with
        | list hkey hparts | tuple hkey hparts =>
            simp only [entryMeaning, hkey]
            exact (elaborateAll_stands hvalue hparts).groupOf _
        | single hkey hsingle hinner =>
            -- the parentheses of a group of one change nothing
            simp only [entryMeaning_of_isSingle hkey hsingle]
            exact (elaborate_stands hvalue hinner).groupOf_single _
        | negation hkey hinner =>
            simp only [entryMeaning, hkey]
            exact (elaborate_stands hvalue hinner).negated
        | field hkey hfield =>
            simp only [entryMeaning, hkey]
            exact ofField_stands hvalue hfield
      simp only [entryMeanings_cons]
      exact hentry.append (elaborateEntries_stands hraw.2 hothers)

end

end TypedSql.Condition
