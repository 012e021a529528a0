import TypedSql.Proofs.Condition.Progress

/-!
# Spellings of conditions

A condition can be written with nodes or with keys of maps, an operator by its key in either
spelling or by itself, and a bare value with or without a wrapper: `Respelled`. All spellings of a
condition stand for the same text with the same values and are read equally far, so they are
compiled alike wherever the parameters have names and faults can be shown: `compile_respelled_iff`.
-/

namespace TypedSql.Condition

open TypedSql.Sql TypedSql.Outcome TypedSql.Identifier TypedSql.Statement Progress

/-- Two entries of maps of operators have the same operand, and the same key or keys that name the
same operator. -/
def SameNamed (first second : Value × Value) : Prop :=
  first.2 = second.2 ∧ (first.1 = second.1 ∨
    ∃ operator, operatorOfKey? first.1 = some operator ∧ operatorOfKey? second.1 = some operator)

/-- An entry of a map gives an operator its operand. -/
def Names (operator : Operator × Value) (entry : Value × Value) : Prop :=
  operatorOfKey? entry.1 = some operator.1 ∧ entry.2 = operator.2

/-- Spellings of the value of a field: a bare value may go without its wrapper, and a set of
operators may be a map whose keys name them. -/
inductive RespelledField : Value → Value → Prop
  | same (value : Value) : RespelledField value value
  | bare {value : Value} (h : IsBare value) : RespelledField (.literal value) value
  | named {first second : Entries} (h : List.Forall₂ SameNamed first second) :
      RespelledField (.map first) (.map second)
  | operators {operators : List (Operator × Value)} {entries : Entries} (hsome : operators ≠ [])
      (h : List.Forall₂ Names operators entries) :
      RespelledField (.operators operators) (.map entries)

mutual

/-- Spellings of a condition: a connective node may be a map with a key for the connective. -/
inductive Respelled : Value → Value → Prop
  | same (condition : Value) : Respelled condition condition
  | conjunction {first second : List Value} (h : RespelledAll first second) :
      Respelled (.conjunction first) (.conjunction second)
  | disjunction {first second : List Value} (h : RespelledAll first second) :
      Respelled (.disjunction first) (.disjunction second)
  | negation {first second : Value} (h : Respelled first second) :
      Respelled (.negation first) (.negation second)
  | map {first second : Entries} (h : RespelledEntries first second) :
      Respelled (.map first) (.map second)
  | and {key : Value} {first second : List Value} (hkey : connective? key = some (.joining .and))
      (h : RespelledAll first second) : Respelled (.conjunction first) (.map [(key, .list second)])
  | or {key : Value} {first second : List Value} (hkey : connective? key = some (.joining .or))
      (h : RespelledAll first second) : Respelled (.disjunction first) (.map [(key, .list second)])
  | not {key first second : Value} (hkey : connective? key = some .negating)
      (h : Respelled first second) : Respelled (.negation first) (.map [(key, second)])

/-- Spellings of several conditions. -/
inductive RespelledAll : List Value → List Value → Prop
  | nil : RespelledAll [] []
  | cons {first second : Value} {rest others : List Value} (h : Respelled first second)
      (hrest : RespelledAll rest others) : RespelledAll (first :: rest) (second :: others)

/-- Spellings of the entries of a map. -/
inductive RespelledEntries : List (Value × Value) → List (Value × Value) → Prop
  | nil : RespelledEntries [] []
  | cons {key other first second : Value} {rest others : List (Value × Value)}
      (h : RespelledEntry key other first second) (hrest : RespelledEntries rest others) :
      RespelledEntries ((key, first) :: rest) ((other, second) :: others)

/-- Spellings of one entry of a map: a connective may have another key for itself. -/
inductive RespelledEntry : Value → Value → Value → Value → Prop
  | several {key other first second : Value} {joiner : Joiner} {conditions others : List Value}
      (hkey : connective? key = some (.joining joiner))
      (hother : connective? other = some (.joining joiner))
      (hfirst : first.asItems? = some conditions) (hsecond : second.asItems? = some others)
      (h : RespelledAll conditions others) : RespelledEntry key other first second
  | single {key other first second : Value} {joiner : Joiner}
      (hkey : connective? key = some (.joining joiner))
      (hother : connective? other = some (.joining joiner)) (hfirst : isSingle first = true)
      (h : Respelled first second) : RespelledEntry key other first second
  | malformed {key other value : Value} {joiner : Joiner}
      (hkey : connective? key = some (.joining joiner))
      (hother : connective? other = some (.joining joiner)) (hnone : value.asItems? = none)
      (hsingle : isSingle value = false) : RespelledEntry key other value value
  | negation {key other first second : Value} (hkey : connective? key = some .negating)
      (hother : connective? other = some .negating) (h : Respelled first second) :
      RespelledEntry key other first second
  | field {key first second : Value} (hkey : connective? key = none)
      (h : RespelledField first second) : RespelledEntry key key first second

end

section Fields

variable {field first second : Value} {entries others : Entries}

theorem isOperatorKey_of_operatorOfKey? {key : Value} {operator : Operator}
    (h : operatorOfKey? key = some operator) : isOperatorKey key = true := by
  cases key with
  | operator known => simp [isOperatorKey, Value.asText?, Operator.read?, Operator.ofKey?_key]
  | _ => exact (Option.isSome_iff_exists).2 ⟨operator, h⟩

/-- Keys that name the same operators stand for the same operators. -/
theorem operatorsOf_respelled (h : List.Forall₂ SameNamed entries others) :
    operatorsOf field entries = operatorsOf field others := by
  unfold operatorsOf
  induction h with
  | nil => rfl
  | @cons entry other rest more hentry _ ih =>
      obtain ⟨key, operand⟩ := entry
      obtain ⟨known, same⟩ := other
      obtain ⟨rfl, rfl | ⟨operator, hkey, hknown⟩⟩ := hentry
      · rw [List.mapM_cons, List.mapM_cons, ih]
      · rw [List.mapM_cons, List.mapM_cons, ih]
        simp only at hkey hknown
        simp only [hkey, hknown]

/-- Maps whose keys name the same operators look like operators together. -/
theorem looksLikeOperators_respelled (h : List.Forall₂ SameNamed entries others) :
    looksLikeOperators (.map entries) = looksLikeOperators (.map others) := by
  have hany : (entries.any fun entry => isOperatorKey entry.1) =
      others.any fun entry => isOperatorKey entry.1 := by
    induction h with
    | nil => rfl
    | cons hentry _ ih =>
        rw [List.any_cons, List.any_cons, ih]
        obtain ⟨-, hsame | ⟨operator, hkey, hknown⟩⟩ := hentry
        · rw [hsame]
        · rw [isOperatorKey_of_operatorOfKey? hkey, isOperatorKey_of_operatorOfKey? hknown]
  exact hany

/-- A map that does not look like operators has no other spelling. -/
theorem eq_of_respelled (h : List.Forall₂ SameNamed entries others)
    (hlooks : looksLikeOperators (.map entries) = false) : entries = others := by
  replace hlooks : (entries.any fun entry => isOperatorKey entry.1) = false := hlooks
  induction h with
  | nil => rfl
  | @cons entry other rest more hentry _ ih =>
      rw [List.any_cons, Bool.or_eq_false_iff] at hlooks
      obtain ⟨hoperand, hkey | ⟨operator, hkey, -⟩⟩ := hentry
      · rw [ih hlooks.2, Prod.ext hkey hoperand]
      · exact absurd (isOperatorKey_of_operatorOfKey? hkey) (by simp [hlooks.1])

/-- A map whose keys name operators stands for the operators. -/
theorem operatorsOf_names {operators : List (Operator × Value)}
    (h : List.Forall₂ Names operators entries) : operatorsOf field entries = .ok operators := by
  refine mapM_eq_ok_iff.2 (h.flip.imp ?_)
  rintro ⟨key, operand⟩ ⟨operator, same⟩ ⟨hkey, hoperand⟩
  simp only at hkey hoperand
  simp only [hkey, hoperand]

/-- A map whose keys name operators looks like operators, if it names any. -/
theorem looksLikeOperators_names {operators : List (Operator × Value)} (hsome : operators ≠ [])
    (h : List.Forall₂ Names operators entries) : looksLikeOperators (.map entries) = true := by
  cases h with
  | nil => exact absurd rfl hsome
  | cons hentry =>
      show List.any _ _ = true
      rw [List.any_cons, isOperatorKey_of_operatorOfKey? hentry.1, Bool.true_or]

/-- All spellings of the value of a field stand for the same predicate. -/
theorem ofField_respelled (h : RespelledField first second) :
    ofField field first = ofField field second := by
  cases h with
  | same => rfl
  | bare h => rw [ofField_literal, ofField_bare h]
  | @named entries others h =>
      cases hlooks : looksLikeOperators (.map entries) with
      | false => rw [eq_of_respelled h hlooks]
      | true =>
          have hothers := hlooks
          rw [looksLikeOperators_respelled h] at hothers
          simp only [ofField, hlooks, hothers, operatorsOf_respelled h, if_true]
  | operators hsome h =>
      simp only [ofField, looksLikeOperators_names hsome h, operatorsOf_names h, if_true]
      rfl

/-- Under what is no name nothing is read. -/
theorem ofEntry_of_not_name {value : Value} (h : isNameValue field = false) :
    ofEntry field value = stopped := by
  have hquote : quote field = .error (.identifierInvalid field) := by simp [quote, h]
  have hfield : ofField field value = .error (.identifierInvalid field) := by
    rw [ofField, hquote]
    rfl
  cases value <;> simp [ofEntry, hfield, hquote, h]

/-- Where a field has a fault, operators on it are read up to the fault whether they are a set or a
map. -/
theorem ofEntry_operators {operators : List (Operator × Value)} {fault other : Fault}
    (hfirst : ofField field (.operators operators) = .error fault)
    (hsecond : ofField field (.map entries) = .error other)
    (h : operatorsOf field entries = .ok operators) :
    ofEntry field (.operators operators) = ofEntry field (.map entries) := by
  cases hname : isNameValue field with
  | false => rw [ofEntry_of_not_name hname, ofEntry_of_not_name hname]
  | true =>
      have hquote : quote field = .ok (backquoted field.display) := by simp [quote, hname]
      simp only [ofEntry, hfirst, hsecond, hquote, h, hname, if_true]

/-- All spellings of the value of a field are read equally far. -/
theorem ofEntry_respelled (h : RespelledField first second) :
    ofEntry field first = ofEntry field second := by
  have hfield : ofField field first = ofField field second := ofField_respelled h
  cases hfirst : ofField field first with
  | ok predicate => rw [ofEntry_of_ofField hfirst, ofEntry_of_ofField (hfield ▸ hfirst)]
  | error fault =>
      have hsecond := hfirst
      rw [hfield] at hsecond
      cases h with
      | same => rfl
      | operators hsome h => exact ofEntry_operators hfirst hsecond (operatorsOf_names h)
      | named h => simp only [ofEntry, hfirst, hsecond, operatorsOf_respelled h]
      | bare h =>
          -- a bare value has no fault of its own, so the field is no name
          have hname : isNameValue field = false := by
            rw [ofField_bare h, quote] at hsecond
            cases hname : isNameValue field with
            | false => rfl
            | true =>
                rw [hname] at hsecond
                cases hsecond
          rw [ofEntry_of_not_name hname, ofEntry_of_not_name hname]

end Fields

/-- `SameReading first second` says that two predicates, either of which may be absent, have the
same text and bind the same values. -/
structure SameReading (first second : Option Predicate) : Prop where
  written : SameOutline first second
  bound : valuesOf first.toList = valuesOf second.toList

/-- `SameReadings first second` says so of lists of predicates. -/
structure SameReadings (first second : List Predicate) : Prop where
  written : SameOutlines first second
  bound : valuesOf first = valuesOf second

namespace SameReading

variable {first second : Option Predicate} {parts others : List Predicate}

theorem refl (predicate : Option Predicate) : SameReading predicate predicate := ⟨rfl, rfl⟩

theorem trans {third : Option Predicate} (h : SameReading first second)
    (hsecond : SameReading second third) : SameReading first third :=
  ⟨h.written.trans hsecond.written, h.bound.trans hsecond.bound⟩

theorem groupOf (joiner : Joiner) (h : SameReadings parts others) :
    SameReading (Predicate.groupOf joiner parts) (Predicate.groupOf joiner others) := by
  refine ⟨outline_groupOf joiner h.written, ?_⟩
  rw [valuesOf_groupOf, valuesOf_groupOf, h.bound]

theorem allOf (h : SameReadings parts others) :
    SameReading (Predicate.allOf parts) (Predicate.allOf others) := by
  refine ⟨outline_allOf h.written, ?_⟩
  rw [valuesOf_allOf, valuesOf_allOf, h.bound]

theorem negated (h : SameReading first second) :
    SameReading (Condition.negated first) (Condition.negated second) := by
  refine ⟨outline_negated h.written, ?_⟩
  rw [valuesOf_negated, valuesOf_negated, h.bound]

theorem toList (h : SameReading first second) : SameReadings first.toList second.toList :=
  ⟨outline_toList h.written, h.bound⟩

theorem append (h : SameReading first second) (hrest : SameReadings parts others) :
    SameReadings (first.toList ++ parts) (second.toList ++ others) := by
  refine ⟨sameOutlines_append h.written hrest.written, ?_⟩
  rw [valuesOf_append, valuesOf_append, h.bound, hrest.bound]

/-- The conjunction of a single entry is written like the entry. -/
theorem allOf_toList (predicate : Option Predicate) :
    SameReading predicate (Predicate.allOf predicate.toList) := by
  refine ⟨?_, (valuesOf_allOf _).symm⟩
  cases predicate with
  | none => rfl
  | some part =>
      refine congrArg some ?_
      rw [outline_all]
      rfl

/-- What is written alike and binds the same values is the same clause from every start. -/
theorem ofPredicate_eq (h : SameReading first second) (start : Start) :
    Clause.ofPredicate start first = Clause.ofPredicate start second := by
  have hvalues := h.bound
  rw [← values_getD, ← values_getD] at hvalues
  simp only [Clause.ofPredicate, Clause.ofPieces, Piece.parameters_eq, hvalues]
  rw [← render_erased, ← outline, outline_getD h.written, outline, render_erased]

end SameReading

/-- `SameFault fault other` says that two faults are the same, or are both reported as invalid. -/
def SameFault (fault other : Fault) : Prop :=
  fault = other ∨ IsRefusal fault ∧ IsRefusal other

theorem SameFault.refl (fault : Fault) : SameFault fault fault := .inl rfl

theorem isText_of_connective? {key : Value} {connective : Connective}
    (h : connective? key = some connective) : key.isText = true := by
  obtain ⟨text, htext, -⟩ := Option.bind_eq_some_iff.1 h
  exact Option.isSome_iff_exists.2 ⟨text, htext⟩

/-- A connective that is given no conditions is reported under any of its keys. -/
theorem sameFault_groupNotList {key other children : Value} {connective : Connective}
    (hkey : connective? key = some connective) (hother : connective? other = some connective) :
    SameFault (.groupNotList key children) (.groupNotList other children) := by
  have hrefusal {key : Value} (h : connective? key = some connective) :
      IsRefusal (.groupNotList key children) :=
    (isRefusal_iff_of_shown rfl fun _ => rfl).2
      (Value.isDisplayable_of_isText (isText_of_connective? h))
  exact .inr ⟨hrefusal hkey, hrefusal hother⟩

/-- A map of a single entry elaborates to the conjunction of what the entry does. -/
theorem elaborate_lone (key value : Value) :
    elaborate (.map [(key, value)]) =
      (elaborateEntry key value).map fun first => Predicate.allOf first.toList := by
  rw [elaborate, elaborateEntries_cons]
  cases elaborateEntry key value with
  | error fault => rfl
  | ok first => simp [elaborateEntries, Except.map, bind, Except.bind, pure, Except.pure]

/-- A map of a single entry is read as far as the entry. -/
theorem progress_lone (key value : Value) :
    progress (.map [(key, value)]) = progressInEntry key value := by
  rw [progress, progressInEntries_cons, progressInEntries, andThen_done]

/-- Another spelling of a single condition is a single condition. -/
theorem isSingle_respelled {first second : Value} (h : Respelled first second)
    (hfirst : isSingle first = true) : isSingle second = true := by
  cases h with
  | same => exact hfirst
  | _ => rfl

mutual

/-- All spellings of a condition elaborate to predicates that read the same, or none of them does,
and are read equally far. -/
theorem reads_respelled {first second : Value} (h : Respelled first second) :
    Matching SameFault SameReading (elaborate first) (elaborate second) ∧
      progress first = progress second := by
  match h with
  | .same condition => exact ⟨.refl .refl .refl _, rfl⟩
  | .conjunction h | .disjunction h =>
      obtain ⟨hparts, hprogress⟩ := reads_respelledAll h
      exact ⟨hparts.bind fun _ _ hsame => .ok (.groupOf _ hsame), hprogress⟩
  | .negation h =>
      obtain ⟨hinner, hprogress⟩ := reads_respelled h
      exact ⟨hinner.bind fun _ _ hsame => .ok hsame.negated, by rw [progress, progress, hprogress]⟩
  | .map h =>
      obtain ⟨hparts, hprogress⟩ := reads_respelledEntries h
      exact ⟨hparts.bind fun _ _ hsame => .ok (.allOf hsame), hprogress⟩
  -- a map of a single entry adds no parentheses to those of the entry
  | .and hkey h | .or hkey h =>
      obtain ⟨hparts, hprogress⟩ := reads_respelledAll h
      rw [elaborate, bind_pure_eq_map, elaborate_lone, elaborateEntry_eq, progress_lone]
      simp only [hkey, progressInEntry, Value.asItems?]
      have hgroup (joiner : Joiner) := hparts.map fun _ _ hsame => SameReading.groupOf joiner hsame
      exact ⟨(hgroup _).map_right fun _ known hsame => hsame.trans (.allOf_toList known), hprogress⟩
  | .not hkey h =>
      obtain ⟨hinner, hprogress⟩ := reads_respelled h
      rw [elaborate, bind_pure_eq_map, elaborate_lone, elaborateEntry_eq, progress_lone]
      simp only [hkey, progressInEntry]
      have hnegated := hinner.map fun _ _ hsame => hsame.negated
      refine ⟨hnegated.map_right fun _ known hsame => hsame.trans (.allOf_toList known), ?_⟩
      rw [progress, hprogress]

/-- All spellings of several conditions do so. -/
theorem reads_respelledAll {first second : List Value} (h : RespelledAll first second) :
    Matching SameFault SameReadings (elaborateAll first) (elaborateAll second) ∧
      progressInAll first = progressInAll second := by
  match h with
  | .nil => exact ⟨.ok ⟨rfl, rfl⟩, rfl⟩
  | .cons h hrest =>
      obtain ⟨hfirst, hprogress⟩ := reads_respelled h
      obtain ⟨hothers, hmore⟩ := reads_respelledAll hrest
      refine ⟨hfirst.bind fun _ _ hpart => hothers.bind fun _ _ hparts => .ok (hpart.append hparts),
        ?_⟩
      rw [progressInAll, progressInAll, hprogress, hmore]

/-- All spellings of the entries of a map do so. -/
theorem reads_respelledEntries {first second : List (Value × Value)}
    (h : RespelledEntries first second) :
    Matching SameFault SameReadings (elaborateEntries first) (elaborateEntries second) ∧
      progressInEntries first = progressInEntries second := by
  match h with
  | .nil => exact ⟨.ok ⟨rfl, rfl⟩, rfl⟩
  | .cons h hrest =>
      obtain ⟨hfirst, hprogress⟩ := reads_respelledEntry h
      obtain ⟨hothers, hmore⟩ := reads_respelledEntries hrest
      rw [elaborateEntries_cons, elaborateEntries_cons, progressInEntries_cons,
        progressInEntries_cons, hprogress, hmore]
      exact ⟨hfirst.bind fun _ _ hpart => hothers.bind fun _ _ hparts => .ok (hpart.append hparts),
        rfl⟩

/-- All spellings of one entry of a map do so. -/
theorem reads_respelledEntry {key other first second : Value}
    (h : RespelledEntry key other first second) :
    Matching SameFault SameReading (elaborateEntry key first) (elaborateEntry other second) ∧
      progressInEntry key first = progressInEntry other second := by
  rw [elaborateEntry_eq, elaborateEntry_eq]
  match h with
  | .several hkey hother hfirst hsecond h =>
      obtain ⟨hparts, hprogress⟩ := reads_respelledAll h
      simp only [progressInEntry, hkey, hother, hfirst, hsecond]
      exact ⟨hparts.map fun _ _ hsame => .groupOf _ hsame, hprogress⟩
  | .single hkey hother hfirst h =>
      obtain ⟨hinner, hprogress⟩ := reads_respelled h
      have hsecond := isSingle_respelled h hfirst
      simp only [progressInEntry, hkey, hother, asItems?_of_isSingle hfirst,
        asItems?_of_isSingle hsecond, hfirst, hsecond, if_true]
      exact ⟨hinner.map fun _ _ hsame => .groupOf _ hsame.toList, hprogress⟩
  | .malformed hkey hother hnone hsingle =>
      simp only [progressInEntry, hkey, hother, hnone, hsingle]
      exact ⟨.error (sameFault_groupNotList hkey hother), trivial⟩
  | .negation hkey hother h =>
      obtain ⟨hinner, hprogress⟩ := reads_respelled h
      simp only [progressInEntry, hkey, hother]
      exact ⟨hinner.map fun _ _ hsame => hsame.negated, hprogress⟩
  | .field hkey h =>
      simp only [progressInEntry, hkey, ofField_respelled h]
      exact ⟨.refl .refl .refl _, ofEntry_respelled h⟩

end

/-- `Interchangeable first second` says that two outcomes are the same result, or both are reported
as invalid. -/
inductive Interchangeable {α : Type} : Except Fault α → Except Fault α → Prop
  | ok (result : α) : Interchangeable (.ok result) (.ok result)
  | refused {fault other : Fault} (hfault : IsRefusal fault) (hother : IsRefusal other) :
      Interchangeable (.error fault) (.error other)

section Outcomes

variable {first second : Except Fault (Option Predicate)}

/-- Matching outcomes of reading are the same clause or reported as invalid, exactly if the fault of
the first, where it has one, is reported. -/
theorem interchangeable_iff (start : Start) (h : Matching SameFault SameReading first second) :
    Interchangeable (first.map (Clause.ofPredicate start)) (second.map (Clause.ofPredicate start)) ↔
      MayRefuse first := by
  cases h with
  | ok hsame =>
      simp only [Except.map, hsame.ofPredicate_eq start]
      exact iff_of_true (.ok _) fun _ hfault => nomatch hfault
  | @error fault other h =>
      constructor
      · intro hsame known hknown
        cases hknown
        cases hsame with
        | refused hfault _ => exact hfault
      · intro hrefuse
        have hfault := hrefuse fault rfl
        rcases h with rfl | ⟨-, hother⟩
        · exact .refused hfault hfault
        · exact .refused hfault hother

/-- Matching outcomes of reading that are not reported end in the same fault without a report. -/
theorem same_unreported (hreject : MayReject first)
    (h : Matching SameFault SameReading first second) (hrefuse : ¬MayRefuse first) :
    ∃ fault, first = .error fault ∧ second = .error fault ∧ fault.report = .error .badValue := by
  cases h with
  | ok => exact absurd (fun _ hfault => nomatch hfault) hrefuse
  | @error fault other h =>
      have hunreported : ¬IsRefusal fault := by
        intro hrefusal
        refine hrefuse fun known hknown => ?_
        cases hknown
        exact hrefusal
      rcases h with rfl | ⟨hrefusal, -⟩
      · exact ⟨fault, rfl, rfl, (hreject fault rfl).report_eq hunreported⟩
      · exact absurd hrefusal hunreported

end Outcomes

/-- Two spellings of a condition are compiled to the same clause, or both are reported as invalid,
exactly if as many parameters as the condition binds values have names, and what the condition is
rejected for can be shown. Otherwise both meet the fault of the names, or both the same fault that
has no report. -/
theorem compile_respelled_iff {first second : Value} (h : Respelled first second)
    (start : Start) :
    (Interchangeable (compile first start) (compile second start) ↔
        start.checkNames (progress first).bound = .ok () ∧ MayRefuse (elaborate first)) ∧
      (∀ fault, start.checkNames (progress first).bound = .error fault →
        compile first start = .error fault ∧ compile second start = .error fault) ∧
      (start.checkNames (progress first).bound = .ok () → ¬MayRefuse (elaborate first) →
        ∃ fault, compile first start = .error fault ∧ compile second start = .error fault ∧
          fault.report = .error .badValue) := by
  obtain ⟨hread, hprogress⟩ := reads_respelled h
  rw [compile_eq, compile_eq, ← hprogress]
  cases hnames : start.checkNames (progress first).bound with
  | ok _ =>
      have hsame := interchangeable_iff start hread
      refine ⟨hsame.trans ⟨fun hrefuse => ⟨rfl, hrefuse⟩, And.right⟩, ?_, fun _ hrefuse => ?_⟩
      · intro fault hfault
        cases hfault
      · obtain ⟨fault, hfirst, hsecond, hreport⟩ :=
          same_unreported (mayReject_elaborate first) hread hrefuse
        rw [hfirst, hsecond]
        exact ⟨fault, rfl, rfl, hreport⟩
  | error fault =>
      obtain ⟨breach, rfl⟩ := exists_breach_of_checkNames hnames
      refine ⟨iff_of_false ?_ ?_, ?_, ?_⟩
      · intro hsame
        cases hsame with
        | refused hfault _ => exact not_isRefusal_breach breach hfault
      · rintro ⟨hok, -⟩
        cases hok
      · intro known hknown
        cases hknown
        exact ⟨rfl, rfl⟩
      · intro hok
        cases hok

/-- Nodes, keys in both spellings, a set of operators and a wrapper, one inside the other. -/
theorem compile_respelled_nested :
    let first : Value := .conjunction [
      .map [(.text "age", .operators [(.gt, .int 1), (.ne, .null)]),
        (.text "$or", .list [.negation (.map [(.text "name", .literal (.text "x"))]),
          .map [(.text "id", .map [(.text "not_in", .list [.int 2, .int 3])])]])],
      .disjunction []]
    let second : Value := .map [(.text "and", .list [
      .map [(.text "age", .map [(.text "gt", .int 1), (.operator .ne, .null)]),
        (.text "or", .list [.map [(.text "not", .map [(.text "name", .text "x")])],
          .map [(.text "id", .map [(.text "notIn", .list [.int 2, .int 3])])]])],
      .map [(.text "or", .list [])]])]
    let clause : Clause := {
      sql := "(\x60age\x60 > \x7bparam3:Int32\x7d AND \x60age\x60 IS NOT NULL AND " ++
        "(NOT (\x60name\x60 = \x7bparam4:String\x7d) OR " ++
        "\x60id\x60 NOT IN (\x7bparam5:Int32\x7d, \x7bparam6:Int32\x7d)))"
      parameters := [("param3", .int 1), ("param4", .text "x"), ("param5", .int 2),
        ("param6", .int 3)] }
    Respelled first second ∧ compile first (.number 3) = .ok clause ∧
      compile second (.number 3) = .ok clause := by
  intro first second clause
  have hoperators : List.Forall₂ Names [(.gt, .int 1), (.ne, .null)]
      [(.text "gt", .int 1), (.operator .ne, .null)] := .cons ⟨rfl, rfl⟩ (.cons ⟨rfl, rfl⟩ .nil)
  have hmembers : List.Forall₂ SameNamed [(.text "not_in", .list [.int 2, .int 3])]
      [(.text "notIn", .list [.int 2, .int 3])] := .cons ⟨rfl, .inr ⟨.notOneOf, rfl, rfl⟩⟩ .nil
  have hname : Respelled (.negation (.map [(.text "name", .literal (.text "x"))]))
      (.map [(.text "not", .map [(.text "name", .text "x")])]) :=
    .not rfl (.map (.cons (.field rfl (.bare rfl)) .nil))
  have hid : Respelled (.map [(.text "id", .map [(.text "not_in", .list [.int 2, .int 3])])])
      (.map [(.text "id", .map [(.text "notIn", .list [.int 2, .int 3])])]) :=
    .map (.cons (.field rfl (.named hmembers)) .nil)
  have hspelled : Respelled first second := by
    refine .and rfl (.cons (.map (.cons ?_ (.cons ?_ .nil))) (.cons (.or rfl .nil) .nil))
    · exact .field rfl (.operators (List.cons_ne_nil _ _) hoperators)
    · exact .several rfl rfl rfl rfl (.cons hname (.cons hid .nil))
  have helaborate : elaborate first = .ok (some (.group .and [.all [
      .all [.compare "\x60age\x60" ">" (.int 1), .isNull "\x60age\x60" true],
      .group .or [.negation (.all [.compare "\x60name\x60" "=" (.text "x")]),
        .all [.all [.within "\x60id\x60" true [.int 2, .int 3]]]]]])) := by rfl
  have hclause : compile first (.number 3) = .ok clause :=
    compile_eq_ok.2 ⟨_, helaborate, rfl, checkNames_number.2 (.inr (by decide +kernel))⟩
  have hnames : (Start.number 3).checkNames (progress first).bound = .ok () :=
    checkNames_number.2 (.inr (by decide +kernel))
  have hrefuse : MayRefuse (elaborate first) := by
    rw [helaborate]
    exact fun _ hfault => nomatch hfault
  have hsame := (compile_respelled_iff hspelled (.number 3)).1.2 ⟨hnames, hrefuse⟩
  rw [hclause] at hsame
  refine ⟨hspelled, hclause, ?_⟩
  generalize compile second (.number 3) = outcome at hsame
  cases hsame
  rfl

/-- Where the numbers of the parameters get too long, no spelling is compiled, and none is reported
as invalid. -/
theorem compile_respelled_last :
    let first : Value := .conjunction [.map [(.text "a", .int 1)], .map [(.text "b", .int 2)]]
    let second : Value :=
      .map [(.text "and", .list [.map [(.text "a", .int 1)], .map [(.text "b", .int 2)]])]
    let start : Start := .number ((mostValues - 1 : Nat) : Int)
    Respelled first second ∧ compile first start = .error (.breach .badValue) ∧
      compile second start = .error (.breach .badValue) ∧
        ¬Interchangeable (compile first start) (compile second start) := by
  intro first second start
  have hspelled : Respelled first second :=
    .and rfl (.cons (.same _) (.cons (.same _) .nil))
  have hnames : start.checkNames 2 = .error (.breach .badValue) := by
    refine checkNames_number_of_ne_ok fun hok => ?_
    have hmost := mostValues_pos
    rcases checkNames_natural_iff.1 hok with hnone | hfits <;> omega
  have hfirst : compile first start = .error (.breach .badValue) := by
    rw [compile_eq, show (progress first).bound = 2 by rfl, hnames]
    rfl
  have hsecond : compile second start = .error (.breach .badValue) := by
    rw [compile_eq, show (progress second).bound = 2 by rfl, hnames]
    rfl
  refine ⟨hspelled, hfirst, hsecond, ?_⟩
  rw [hfirst, hsecond]
  intro hsame
  cases hsame with
  | refused hfault _ => exact not_isRefusal_breach _ hfault

end TypedSql.Condition
