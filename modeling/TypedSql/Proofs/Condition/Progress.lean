import TypedSql.Condition.Progress
import TypedSql.Proofs.Condition.Conjunction
import TypedSql.Proofs.Condition.Skeleton
import TypedSql.Proofs.Value.Display

/-!
# How far conditions are read

A condition that elaborates is read to its end, and all of its values are bound on the way:
`progress_of_elaborate`. So a condition is compiled in two steps, the names of as many parameters
as it binds values and the predicate that it stands for: `compile_eq`. What elaboration does not
take is invalid input: `mayReject_elaborate`.
-/

namespace TypedSql.Condition

open TypedSql.Sql TypedSql.Outcome TypedSql.Identifier

namespace Progress

/-- The progress to the end of what binds some values. -/
def through (values : List Value) : Progress := { bound := values.length, isDone := true }

theorem through_andThen (first second : List Value) :
    (through first).andThen (through second) = through (first ++ second) := by
  simp [through, andThen]

theorem andThen_done (first : Progress) : first.andThen done = first := by
  obtain ⟨bound, isDone⟩ := first
  cases isDone <;> rfl

end Progress

open Progress

section Values

theorem valuesOf_append (first second : List Predicate) :
    valuesOf (first ++ second) = valuesOf first ++ valuesOf second :=
  List.flatMap_append

theorem valuesOf_singleton (part : Predicate) : valuesOf [part] = Piece.values part.pieces :=
  List.flatMap_singleton ..

theorem valuesOf_groupOf (joiner : Joiner) (parts : List Predicate) :
    valuesOf (Predicate.groupOf joiner parts).toList = valuesOf parts := by
  cases parts with
  | nil => rfl
  | cons part rest =>
      exact (valuesOf_singleton _).trans
        ((Predicate.values_group joiner (part :: rest)).trans (values_join _ _))

theorem valuesOf_allOf (parts : List Predicate) :
    valuesOf (Predicate.allOf parts).toList = valuesOf parts := by
  cases parts with
  | nil => rfl
  | cons part rest => exact (valuesOf_singleton _).trans (values_join _ _)

theorem valuesOf_negated (inner : Option Predicate) :
    valuesOf (negated inner).toList = valuesOf inner.toList := by
  cases inner with
  | none => rfl
  | some part =>
      exact (valuesOf_singleton _).trans
        ((Predicate.values_negation part).trans (valuesOf_singleton part).symm)

end Values

/-- The progress in one entry of a map. -/
def progressInEntry (key value : Value) : Progress :=
  match connective? key with
  | some (.joining _) =>
    match value.asItems? with
    | some conditions => progressInAll conditions
    | none => if isSingle value then progress value else stopped
  | some .negating => progress value
  | none => ofEntry key value

/-- The entries of a map are read one after the other. -/
theorem progressInEntries_cons (key value : Value) (rest : List (Value × Value)) :
    progressInEntries ((key, value) :: rest) =
      (progressInEntry key value).andThen (progressInEntries rest) := by
  rw [progressInEntry, connective?_eq]
  cases hgroup : groupKey? key with
  | some joiner => cases value <;> simp [progressInEntries, hgroup, Value.asItems?]
  | none =>
      cases hnegation : isNegationKey key <;>
        cases value <;> simp [progressInEntries, hgroup, hnegation]

section Elaborated

/-- A field that elaborates is read to its end. -/
theorem ofEntry_of_ofField {field value : Value} {predicate : Option Predicate}
    (h : ofField field value = .ok predicate) :
    ofEntry field value = through (valuesOf predicate.toList) := by
  simp only [ofEntry, h]
  cases predicate with
  | none => rfl
  | some part =>
      rw [Option.toList_some, valuesOf_singleton]
      rfl

mutual

/-- A condition that elaborates is read to its end. -/
theorem progress_of_elaborate {condition : Value} {predicate : Option Predicate}
    (h : elaborate condition = .ok predicate) :
    progress condition = through (valuesOf predicate.toList) := by
  cases condition with
  | null =>
      cases h
      rfl
  | conjunction conditions | disjunction conditions =>
      simp only [elaborate, bind_eq_ok, pure_eq_ok] at h
      obtain ⟨parts, hparts, rfl⟩ := h
      rw [valuesOf_groupOf]
      exact progressInAll_of_elaborateAll hparts
  | negation inner =>
      simp only [elaborate, bind_eq_ok, pure_eq_ok] at h
      obtain ⟨known, hknown, rfl⟩ := h
      rw [progress, valuesOf_negated]
      exact progress_of_elaborate hknown
  | map entries =>
      simp only [elaborate, bind_eq_ok, pure_eq_ok] at h
      obtain ⟨parts, hparts, rfl⟩ := h
      rw [valuesOf_allOf]
      exact progressInEntries_of_elaborateEntries hparts
  | _ => cases h

/-- Conditions that elaborate are read to their end. -/
theorem progressInAll_of_elaborateAll {conditions : List Value} {parts : List Predicate}
    (h : elaborateAll conditions = .ok parts) :
    progressInAll conditions = through (valuesOf parts) := by
  cases conditions with
  | nil =>
      cases h
      rfl
  | cons condition rest =>
      simp only [elaborateAll, bind_eq_ok, pure_eq_ok] at h
      obtain ⟨first, hfirst, others, hothers, rfl⟩ := h
      rw [progressInAll, progress_of_elaborate hfirst, progressInAll_of_elaborateAll hothers,
        through_andThen, valuesOf_append]

/-- The entries of a map that elaborates are read to their end. -/
theorem progressInEntries_of_elaborateEntries {entries : List (Value × Value)}
    {parts : List Predicate} (h : elaborateEntries entries = .ok parts) :
    progressInEntries entries = through (valuesOf parts) := by
  match entries with
  | [] =>
      cases h
      rfl
  | (key, value) :: rest =>
      simp only [elaborateEntries_cons, bind_eq_ok, pure_eq_ok] at h
      obtain ⟨first, hfirst, others, hothers, rfl⟩ := h
      have hentry : progressInEntry key value = through (valuesOf first.toList) := by
        cases elaborates_of_elaborateEntry hfirst with
        | list hkey hparts | tuple hkey hparts =>
            simp only [progressInEntry, hkey, Value.asItems?, valuesOf_groupOf]
            exact progressInAll_of_elaborateAll hparts
        | single hkey hsingle hinner =>
            have hnone := asItems?_of_isSingle hsingle
            simp only [progressInEntry, hkey, hnone, hsingle, if_true, valuesOf_groupOf]
            exact progress_of_elaborate hinner
        | negation hkey hinner =>
            simp only [progressInEntry, hkey, valuesOf_negated]
            exact progress_of_elaborate hinner
        | field hkey hfield =>
            simp only [progressInEntry, hkey]
            exact ofEntry_of_ofField hfield
      rw [progressInEntries_cons, hentry, progressInEntries_of_elaborateEntries hothers,
        through_andThen, valuesOf_append]

end

end Elaborated

section Compiled

/-- Putting a named value behind others leaves something. -/
theorem foldl_putNamed_ne_nil {known named : List (String × Value)} (h : known ≠ []) :
    named.foldl Start.putNamed known ≠ [] := by
  induction named generalizing known with
  | nil => exact h
  | cons entry rest ih =>
      refine ih ?_
      unfold Start.putNamed
      split
      · simpa using h
      · simp

/-- Some named values are gathered exactly if there are any. -/
theorem gather_eq_nil_iff {start : Start} {named : List (String × Value)} :
    start.gather named = [] ↔ named = [] := by
  cases named with
  | nil => cases start <;> simp [Start.gather]
  | cons entry rest =>
      have hfirst : Start.putNamed [] entry ≠ [] := by simp [Start.putNamed]
      cases start with
      | number => simp [Start.gather]
      | _ => simpa [Start.gather] using foldl_putNamed_ne_nil hfirst

/-- The parameters of a clause have names exactly if as many parameters as it binds values have. -/
theorem checkNames_ofPieces (start : Start) (pieces : List Piece) :
    start.checkNames (Clause.ofPieces start pieces).parameters.length =
      start.checkNames (Piece.values pieces).length := by
  have hempty : (Clause.ofPieces start pieces).parameters.length = 0 ↔
      (Piece.values pieces).length = 0 := by
    rw [List.length_eq_zero_iff, List.length_eq_zero_iff, Clause.ofPieces, gather_eq_nil_iff,
      Piece.parameters_eq, List.map_eq_nil_iff, List.zipIdx_eq_nil_iff]
  cases start with
  | number index => rw [length_parameters_ofPieces]
  | _ => simp only [Start.checkNames, hempty]

/-- What stands for no predicate binds no value. -/
theorem values_getD (predicate : Option Predicate) :
    Piece.values (predicate.getD (.constant true)).pieces = valuesOf predicate.toList := by
  cases predicate with
  | none => rfl
  | some part => exact (valuesOf_singleton part).symm

/-- A condition is compiled by checking the names of as many parameters as it binds values, and
writing the predicate that it stands for. -/
theorem compile_eq (condition : Value) (start : Start) :
    compile condition start = (start.checkNames (progress condition).bound >>= fun _ =>
      (elaborate condition).map (Clause.ofPredicate start)) := by
  unfold compile
  cases helaborate : elaborate condition with
  | error fault => rfl
  | ok predicate =>
      have hnames := checkNames_ofPieces start (predicate.getD (.constant true)).pieces
      rw [values_getD] at hnames
      simp only [progress_of_elaborate helaborate, through, Clause.ofPredicate, hnames]
      rfl

/-- Parameters that are numbered from a whole number and have no names have numbers that are too
long. -/
theorem checkNames_number_of_ne_ok {index : Int} {count : Nat}
    (h : (Start.number index).checkNames count ≠ .ok ()) :
    (Start.number index).checkNames count = .error (.breach .badValue) := by
  simp only [Start.checkNames] at h ⊢
  split
  · next hnames => exact absurd (if_pos hnames) h
  · rfl

end Compiled

/-- Whether a fault is reported as invalid input. -/
def IsRefusal (fault : Fault) : Prop :=
  ∃ report, fault.report? = some report ∧ report.family = .validation

/-- Whether an outcome, where it is a fault, is reported as invalid input. -/
def MayRefuse {α : Type} (outcome : Except Fault α) : Prop :=
  ∀ fault, outcome = .error fault → IsRefusal fault

/-- Whether a fault stands for invalid input. It is reported as such, unless its message would show
a value without a text form. -/
def IsRejection (fault : Fault) : Prop :=
  (∀ breach, fault ≠ .breach breach) ∧ (IsRefusal fault ∨ fault.report = .error .badValue)

/-- Whether an outcome, where it is a fault, stands for invalid input. -/
def MayReject {α : Type} (outcome : Except Fault α) : Prop :=
  ∀ fault, outcome = .error fault → IsRejection fault

section Shown

variable {fault : Fault} {shown : Value} {message : String → Report}

/-- A fault whose message shows a value is reported as invalid exactly if the value has a text
form. -/
theorem isRefusal_iff_of_shown (hreport : fault.report = shown.requireText.map message)
    (hfamily : ∀ chars, (message chars).family = .validation) :
    IsRefusal fault ↔ shown.isDisplayable = true := by
  rw [IsRefusal, Fault.report?, hreport, Value.requireText_eq]
  cases shown.isDisplayable with
  | true => exact iff_of_true ⟨_, rfl, hfamily _⟩ rfl
  | false => exact iff_of_false (fun ⟨_, h, _⟩ => nomatch h) (by simp)

theorem IsRejection.of_shown (hbreach : ∀ breach, fault ≠ .breach breach)
    (hreport : fault.report = shown.requireText.map message)
    (hfamily : ∀ chars, (message chars).family = .validation) : IsRejection fault := by
  refine ⟨hbreach, ?_⟩
  rw [isRefusal_iff_of_shown hreport hfamily, hreport, Value.requireText_eq]
  cases shown.isDisplayable with
  | true => exact .inl rfl
  | false => exact .inr rfl

theorem IsRejection.of_refusal (hbreach : ∀ breach, fault ≠ .breach breach) (h : IsRefusal fault) :
    IsRejection fault := ⟨hbreach, .inl h⟩

/-- What stands for invalid input and is not reported as such ends without a report. -/
theorem IsRejection.report_eq (h : IsRejection fault) (hrefusal : ¬IsRefusal fault) :
    fault.report = .error .badValue := h.2.resolve_left hrefusal

/-- A misuse of a basic operation is not reported as invalid. -/
theorem not_isRefusal_breach (breach : Breach) : ¬IsRefusal (.breach breach) := by
  rintro ⟨report, hreport, -⟩
  cases hreport

theorem not_isRejection_breach (breach : Breach) : ¬IsRejection (.breach breach) :=
  fun h => h.1 breach rfl

end Shown

namespace MayReject

variable {α β : Type} {outcome : Except Fault α}

theorem ok (result : α) : MayReject (.ok result) := by
  intro fault h
  cases h

theorem error {fault : Fault} (h : IsRejection fault) :
    MayReject (.error fault : Except Fault α) := by
  intro known hknown
  cases hknown
  exact h

/-- Steps that may reject their input do so one after the other. -/
theorem bind {next : α → Except Fault β} (h : MayReject outcome)
    (hnext : ∀ result, MayReject (next result)) : MayReject (outcome >>= next) := by
  cases outcome with
  | ok result => exact hnext result
  | error fault => exact error (h fault rfl)

theorem map {change : α → β} (h : MayReject outcome) : MayReject (outcome.map change) := by
  cases outcome with
  | ok result => exact ok _
  | error fault => exact error (h fault rfl)

theorem mapM {step : α → Except Fault β} (h : ∀ item, MayReject (step item)) (items : List α) :
    MayReject (items.mapM step) := by
  induction items with
  | nil => exact ok []
  | cons item rest ih =>
      rw [List.mapM_cons]
      exact (h item).bind fun result => ih.bind fun results => ok _

end MayReject

section Rejections

variable (field : Value)

theorem isRejection_identifierInvalid : IsRejection (.identifierInvalid field) :=
  .of_shown nofun rfl fun _ => rfl

theorem mayReject_quote : MayReject (quote field) := by
  unfold quote
  split
  · exact .ok _
  · exact .error (isRejection_identifierInvalid field)

/-- An operator rejects an operand that is no list, or no pair. -/
theorem mayReject_ofOperator (name : String) (operator : Operator) (value : Value) :
    MayReject (ofOperator field name operator value) := by
  cases operator with
  | oneOf | notOneOf | between =>
      simp only [ofOperator]
      split
      · exact .ok _
      · exact .error (.of_refusal (fun _ h => by cases h) ⟨_, rfl, rfl⟩)
  | _ => exact .ok _

theorem mayReject_ofOperators (name : String) (operators : List (Operator × Value)) :
    MayReject (ofOperators field name operators) := by
  have hparts := MayReject.mapM (fun entry : Operator × Value =>
    mayReject_ofOperator field name entry.1 entry.2) operators
  exact hparts.bind fun parts => .ok _

/-- A map of operators rejects a key that names none. -/
theorem mayReject_operatorsOf (entries : Entries) : MayReject (operatorsOf field entries) := by
  refine MayReject.mapM ?_ entries
  rintro ⟨key, value⟩
  cases hoperator : operatorOfKey? key with
  | none =>
      simp only [hoperator]
      exact .error (.of_shown nofun rfl fun _ => rfl)
  | some operator =>
      simp only [hoperator]
      exact .ok _

theorem mayReject_ofField (value : Value) : MayReject (ofField field value) := by
  refine (mayReject_quote field).bind fun name => ?_
  cases value with
  | operators operators => exact mayReject_ofOperators field name operators
  | map entries =>
      simp only
      split
      · exact (mayReject_operatorsOf field entries).bind fun operators =>
          mayReject_ofOperators field name operators
      · exact .ok _
  | literal inner => cases inner <;> exact .ok _
  | _ => exact .ok _

mutual

/-- What a condition cannot be elaborated for is invalid input. -/
theorem mayReject_elaborate (condition : Value) : MayReject (elaborate condition) := by
  cases condition with
  | null => exact .ok none
  | conjunction conditions | disjunction conditions =>
      exact (mayReject_elaborateAll conditions).bind fun parts => .ok _
  | negation inner => exact (mayReject_elaborate inner).bind fun predicate => .ok _
  | map entries => exact (mayReject_elaborateEntries entries).bind fun parts => .ok _
  | _ => exact .error (.of_refusal nofun ⟨_, rfl, rfl⟩)

theorem mayReject_elaborateAll (conditions : List Value) :
    MayReject (elaborateAll conditions) := by
  cases conditions with
  | nil => exact .ok []
  | cons condition rest =>
      exact (mayReject_elaborate condition).bind fun first =>
        (mayReject_elaborateAll rest).bind fun others => .ok _

theorem mayReject_elaborateEntries (entries : List (Value × Value)) :
    MayReject (elaborateEntries entries) := by
  match entries with
  | [] => exact .ok []
  | (key, value) :: rest =>
      have hentry : MayReject (elaborateEntry key value) := by
        unfold elaborateEntry
        split
        · split
          · exact (mayReject_elaborateAll _).map
          · exact (mayReject_elaborateAll _).map
          · split
            · exact (mayReject_elaborate value).map
            · exact .error (.of_shown nofun rfl fun _ => rfl)
        · split
          · exact (mayReject_elaborate value).map
          · exact mayReject_ofField key value
      rw [elaborateEntries_cons]
      exact hentry.bind fun first => (mayReject_elaborateEntries rest).bind fun others => .ok _

end

end Rejections

/-- That parameters have no names is a breach. -/
theorem exists_breach_of_checkNames {start : Start} {count : Nat} {fault : Fault}
    (h : start.checkNames count = .error fault) : ∃ breach, fault = .breach breach := by
  cases start with
  | number index =>
      rw [checkNames_number_of_ne_ok (by simp [h])] at h
      exact ⟨_, (Except.error.inj h).symm⟩
  | invalid breach =>
      simp only [Start.checkNames, Start.check] at h
      split at h
      · cases h
      · exact ⟨breach, (Except.error.inj h).symm⟩
  | _ =>
      simp only [Start.checkNames, Start.check, ite_self] at h
      cases h

end TypedSql.Condition
