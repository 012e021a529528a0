import Mathlib.Data.List.DropRight
import TypedSql.Runtime
import TypedSql.Proofs.Model.Statement
import TypedSql.Proofs.Statement.Selection

/-!
# Chains of calls

Every call on a model gives a model with another state. `run_eq_ok_iff` says when a call goes
through, which depends on the table alone as long as everything that has been gathered can be
copied, and what it changes; `chain_eq_ok_iff` says so of chains. What a chain has gathered in the
end is what the calls after the last reset add, each kind of call by itself, so that calls of
different kinds may change places: `chain_in_any_order`.
-/

namespace TypedSql

/-- Whether everything that a state has gathered can be copied. -/
def QueryState.Copies [Copying] (state : QueryState) : Prop :=
  ∀ condition ∈ state.conditions, Copying.copies condition = true

namespace Model

open TypedSql.Outcome TypedSql.Statement

instance {ε α : Type} [DecidableEq α] (outcome : Except ε α) (result : α) :
    Decidable (outcome = .ok result) :=
  decidable_of_iff _ toOption_eq_some

/-- A call that adds to what a model has gathered, or forgets it. -/
inductive Step where
  | filter (condition : Value) (named : Entries)
  | select (fields : List Value)
  | orderBy (field direction : Value)
  | limit (count : Value)
  | offset (count : Value)
  | groupBy (fields : List Value)
  | reset

namespace Step

/-- The parts of a state. -/
inductive Part where
  | conditions | selected | ordering | limit | offset | grouping
deriving DecidableEq

/-- The part of the state that a call changes; a reset is about all of them. -/
def part : Step → Option Part
  | .filter .. => some .conditions
  | .select .. => some .selected
  | .orderBy .. => some .ordering
  | .limit .. => some .limit
  | .offset .. => some .offset
  | .groupBy .. => some .grouping
  | .reset => none

/-- The model that a call gives. -/
def run [Copying] (model : Model) : Step → Except Fault Model
  | .filter condition named => model.filter condition named
  | .select fields => model.select fields
  | .orderBy field direction => model.orderBy field direction
  | .limit count => model.limit count
  | .offset count => model.offset count
  | .groupBy fields => model.groupBy fields
  | .reset => .ok model.reset

/-- The names that fields stand for. -/
def names (fields : List Value) : List String := fields.map fun field => field.asText?.getD ""

/-- A direction in capitals. -/
def capitals (direction : Value) : Option String := direction.upper?.bind Value.asText?

/-- The conditions that a call adds: the condition before the named values, and nothing for null. -/
def conditions : Step → List Value
  | .filter condition named =>
      (if condition.isNull then [] else [condition]) ++ if named.isEmpty then [] else [.map named]
  | _ => []

/-- The fields that a call adds to the ordering, with their directions. -/
def ordering : Step → List (String × String)
  | .orderBy field direction => [(field.asText?.getD "", (capitals direction).getD "")]
  | _ => []

/-- The fields that a call selects instead of those before; none stand for all. -/
def selected : Step → Option (Option (List String))
  | .select fields => some (if (names fields).isEmpty then none else some (names fields))
  | _ => none

/-- The limit that a call sets instead of the one before. -/
def limited : Step → Option (Option Int)
  | .limit count => some count.asInt?
  | _ => none

/-- The offset that a call sets instead of the one before. -/
def skipped : Step → Option (Option Int)
  | .offset count => some count.asInt?
  | _ => none

/-- The grouping that a call sets instead of the one before. -/
def grouping : Step → Option (Option (List String))
  | .groupBy fields => some (some (names fields))
  | _ => none

/-- The state that a call makes of a state. -/
def change (step : Step) (state : QueryState) : QueryState :=
  match step with
  | .filter .. => { state with conditions := state.conditions ++ step.conditions }
  | .select fields =>
      { state with selected := if (names fields).isEmpty then none else some (names fields) }
  | .orderBy .. => { state with ordering := state.ordering ++ step.ordering }
  | .limit count => { state with limit := count.asInt? }
  | .offset count => { state with offset := count.asInt? }
  | .groupBy fields => { state with grouping := some (names fields) }
  | .reset => {}

/-- Whether a value is a number of rows or null. -/
def isCount : Value → Bool
  | .null => true
  | .int number => 0 ≤ number
  | _ => false

/-- Whether a value is a direction, in any letter case. -/
def IsDirection (direction : Value) : Prop :=
  ∃ known ∈ Action.directions, capitals direction = some known

/-- Whether a call goes through on the models of a table, where the state can be copied. -/
def Passes [Copying] (table : Table) : Step → Prop
  | .filter condition named =>
      ((condition.isNull = false → Condition.checkKeys condition = .ok ()) ∧
        (named.isEmpty = false → Condition.checkKeys (.map named) = .ok ())) ∧
        ∀ added ∈ (filter condition named).conditions, Copying.copies added = true
  | .select fields | .groupBy fields => ∀ field ∈ fields, table.hasColumn field = .ok true
  | .orderBy field direction => IsDirection direction ∧ table.hasColumn field = .ok true
  | .limit count | .offset count => isCount count = true
  | .reset => True

instance [Copying] (table : Table) : DecidablePred (Passes table)
  | .filter condition named =>
      inferInstanceAs (Decidable (((_ → _) ∧ (_ → _)) ∧
        ∀ added ∈ (filter condition named).conditions, Copying.copies added = true))
  | .select fields | .groupBy fields =>
      inferInstanceAs (Decidable (∀ field ∈ fields, table.hasColumn field = .ok true))
  | .orderBy .. => inferInstanceAs (Decidable ((∃ known ∈ Action.directions, _) ∧ _))
  | .limit _ | .offset _ => inferInstanceAs (Decidable (_ = true))
  | .reset => inferInstanceAs (Decidable True)

end Step

/-- The model that a chain of calls gives. -/
def chain [Copying] (model : Model) (steps : List Step) : Except Fault Model :=
  steps.foldlM Step.run model

/-- What the last of the calls that set something has set. -/
def last {α : Type} (read : Step → Option (Option α)) (steps : List Step) : Option α :=
  (steps.filterMap read).getLast?.join

/-- What calls gather: the conditions and orderings of all, the rest of the last that sets it. -/
def gathered (steps : List Step) : QueryState where
  conditions := steps.flatMap Step.conditions
  selected := last Step.selected steps
  ordering := steps.flatMap Step.ordering
  limit := last Step.limited steps
  offset := last Step.skipped steps
  grouping := last Step.grouping steps

/-- The calls after the last reset. -/
def sinceReset (steps : List Step) : List Step := steps.rtakeWhile fun step => step.part.isSome

/-- Whether calls are others in a new order, which keeps the order of those that change one part. -/
structure Reorders (steps others : List Step) : Prop where
  perm : others.Perm steps
  kept : ∀ part : Step.Part,
    others.filter (fun step => step.part = some part) =
      steps.filter fun step => step.part = some part

section Step

variable {model next : Model} {field : Value} {fields : List Value}

/-- A field passes exactly if it is that of a column. -/
theorem field_eq_ok {name : String} :
    model.field field = .ok name ↔
      model.table.hasColumn field = .ok true ∧ name = field.asText?.getD "" := by
  rw [Model.field, bind_eq_ok]
  constructor
  · rintro ⟨known, hknown, h⟩
    cases known with
    | true => exact ⟨hknown, (pure_eq_ok.1 h).symm⟩
    | false => cases h
  · rintro ⟨hknown, rfl⟩
    exact ⟨true, hknown, rfl⟩

/-- Fields pass exactly if each is that of a column. -/
theorem fields_eq_ok {names : List String} :
    fields.mapM model.field = .ok names ↔
      (∀ field ∈ fields, model.table.hasColumn field = .ok true) ∧ names = Step.names fields := by
  rw [mapM_eq_ok_iff]
  constructor
  · intro h
    induction h with
    | nil => exact ⟨List.forall_mem_nil _, rfl⟩
    | cons hfield _ ih =>
        obtain ⟨hknown, rfl⟩ := field_eq_ok.1 hfield
        exact ⟨List.forall_mem_cons.2 ⟨hknown, ih.1⟩, by rw [ih.2]; rfl⟩
  · rintro ⟨hknown, rfl⟩
    rw [Step.names, List.forall₂_map_right_iff]
    exact List.forall₂_same.2 fun field hmem => field_eq_ok.2 ⟨hknown field hmem, rfl⟩

/-- A number of rows passes exactly if it is one. -/
theorem optionCount_eq_ok {option : QueryOption} {count : Value} {result : Option Int} :
    optionCount option 0 count = .ok result ↔
      Step.isCount count = true ∧ result = count.asInt? := by
  unfold optionCount Step.isCount
  cases count with
  | int number => by_cases hnatural : 0 ≤ number <;> simp [Value.asInt?, hnatural, eq_comm]
  | _ => simp [Value.asInt?, eq_comm]

/-- A direction passes exactly if it is one. -/
theorem checkDirection_eq_ok {direction : Value} {known : String} :
    Action.checkDirection direction = .ok known ↔
      Step.IsDirection direction ∧ known = (Step.capitals direction).getD "" := by
  unfold Action.checkDirection Step.IsDirection Step.capitals
  cases direction.upper? with
  | none => simp
  | some capitals =>
      rw [Option.bind_some]
      cases htext : capitals.asText? with
      | none => simp [htext]
      | some chars =>
          by_cases hknown : chars ∈ Action.directions <;>
            simp [htext, Option.filter, hknown, eq_comm]

/-- The conditions of a call pass exactly if the keys of each do. -/
theorem newConditions_eq_ok {condition : Value} {named : Entries} {added : List Value} :
    newConditions condition named = .ok added ↔
      ((condition.isNull = false → Condition.checkKeys condition = .ok ()) ∧
        (named.isEmpty = false → Condition.checkKeys (.map named) = .ok ())) ∧
        added = (Step.filter condition named).conditions := by
  have hcheck (check : Except Fault Unit) (next : Except Fault (List Value)) :
      (check >>= fun _ => next) = .ok added ↔ check = .ok () ∧ next = .ok added :=
    bind_eq_ok.trans ⟨fun ⟨_, h⟩ => h, fun h => ⟨(), h⟩⟩
  simp only [newConditions, Step.conditions, eq_comm (a := added)]
  cases condition.isNull <;> cases List.isEmpty named <;>
    simp only [hcheck, pure_eq_ok, Bool.not_true, Bool.not_false, Bool.false_eq_true, if_true,
      if_false, reduceCtorEq, false_implies, true_implies, true_and, and_true, and_assoc,
      List.nil_append]

end Step

section Run

variable [Copying] {model next : Model}

/-- A state is copied as it is, if everything in it can be. -/
theorem copy_eq_ok {state other : QueryState} :
    state.copy = .ok other ↔ state.Copies ∧ other = state := by
  rw [QueryState.copy, QueryState.Copies, ← List.all_eq_true]
  cases state.conditions.all Copying.copies <;> simp [eq_comm]

/-- What is read under a condition goes through under the same condition, if what it makes of the
state can be copied. -/
theorem withState_eq_ok {α : Type} {first : Except Fault α} {passes : Prop} {read : α}
    (hcopies : model.state.Copies) (h : ∀ {result}, first = .ok result ↔ passes ∧ result = read)
    (update : α → QueryState → QueryState) :
    (do model.withState (update (← first))) = .ok next ↔
      (passes ∧ (update read model.state).Copies) ∧
        next = { model with state := update read model.state } := by
  simp only [withState, bind_eq_ok, pure_eq_ok, h, copy_eq_ok]
  constructor
  · rintro ⟨_, ⟨hpasses, rfl⟩, _, ⟨-, rfl⟩, _, ⟨hnew, rfl⟩, rfl⟩
    exact ⟨⟨hpasses, hnew⟩, rfl⟩
  · rintro ⟨⟨hpasses, hnew⟩, rfl⟩
    exact ⟨_, ⟨hpasses, rfl⟩, _, ⟨hcopies, rfl⟩, _, ⟨hnew, rfl⟩, rfl⟩

/-- A call that adds no conditions leaves a state that can be copied. -/
theorem withState_eq_ok_of_kept {α : Type} {first : Except Fault α} {passes : Prop} {read : α}
    (hcopies : model.state.Copies) (h : ∀ {result}, first = .ok result ↔ passes ∧ result = read)
    {update : α → QueryState → QueryState}
    (hkept : ∀ state, (update read state).conditions = state.conditions) :
    (do model.withState (update (← first))) = .ok next ↔
      passes ∧ next = { model with state := update read model.state } := by
  have hnew : (update read model.state).Copies := by
    rw [QueryState.Copies, hkept]
    exact hcopies
  rw [withState_eq_ok hcopies h, and_iff_left hnew]

/-- A call goes through exactly if it passes for the table, and changes nothing but the state. -/
theorem run_eq_ok_iff {step : Step} (hcopies : model.state.Copies) :
    step.run model = .ok next ↔
      step.Passes model.table ∧ next = { model with state := step.change model.state } := by
  cases step with
  | filter condition named =>
      refine (withState_eq_ok hcopies newConditions_eq_ok
        fun added state => { state with conditions := state.conditions ++ added }).trans ?_
      refine and_congr_left fun _ => and_congr_right fun _ => ?_
      exact List.forall_mem_append.trans (and_iff_right hcopies)
  | select fields => exact withState_eq_ok_of_kept hcopies fields_eq_ok fun _ => rfl
  | orderBy field direction =>
      rw [Step.run, Model.orderBy, bind_eq_ok]
      constructor
      · rintro ⟨known, hknown, h⟩
        obtain ⟨hdirection, rfl⟩ := checkDirection_eq_ok.1 hknown
        obtain ⟨hfield, rfl⟩ := (withState_eq_ok_of_kept hcopies field_eq_ok fun _ => rfl).1 h
        exact ⟨⟨hdirection, hfield⟩, rfl⟩
      · rintro ⟨⟨hdirection, hfield⟩, rfl⟩
        exact ⟨_, checkDirection_eq_ok.2 ⟨hdirection, rfl⟩,
          (withState_eq_ok_of_kept hcopies field_eq_ok fun _ => rfl).2 ⟨hfield, rfl⟩⟩
  | limit count => exact withState_eq_ok_of_kept hcopies optionCount_eq_ok fun _ => rfl
  | offset count => exact withState_eq_ok_of_kept hcopies optionCount_eq_ok fun _ => rfl
  | groupBy fields => exact withState_eq_ok_of_kept hcopies fields_eq_ok fun _ => rfl
  | reset =>
      exact ⟨fun h => ⟨trivial, (Except.ok.inj h).symm⟩, fun h => congrArg Except.ok h.2.symm⟩

/-- A call that passes leaves a state that can be copied. -/
theorem Step.Passes.copies_change {table : Table} {step : Step} (h : step.Passes table)
    {state : QueryState} (hcopies : state.Copies) : (step.change state).Copies := by
  cases step with
  | filter condition named => exact List.forall_mem_append.2 ⟨hcopies, h.2⟩
  | reset => exact List.forall_mem_nil _
  | _ => exact hcopies

/-- A chain goes through exactly if every call in it passes, and the calls change the state one
after the other. -/
theorem chain_eq_ok_iff {steps : List Step} (hcopies : model.state.Copies) :
    model.chain steps = .ok next ↔ (∀ step ∈ steps, step.Passes model.table) ∧
      next =
        { model with state := steps.foldl (fun state step => step.change state) model.state } := by
  unfold chain
  induction steps generalizing model with
  | nil =>
      rw [List.foldlM_nil, pure_eq_ok]
      exact ⟨fun h => ⟨List.forall_mem_nil _, h.symm⟩, fun h => h.2.symm⟩
  | cons step rest ih =>
      rw [List.foldlM_cons, bind_eq_ok, List.forall_mem_cons]
      constructor
      · rintro ⟨_, hstep, hrest⟩
        obtain ⟨hpasses, rfl⟩ := (run_eq_ok_iff hcopies).1 hstep
        obtain ⟨hothers, rfl⟩ := (ih (hpasses.copies_change hcopies)).1 hrest
        exact ⟨⟨hpasses, hothers⟩, rfl⟩
      · rintro ⟨⟨hpasses, hothers⟩, rfl⟩
        exact ⟨_, (run_eq_ok_iff hcopies).2 ⟨hpasses, rfl⟩,
          (ih (hpasses.copies_change hcopies)).2 ⟨hothers, rfl⟩⟩

/-- A fresh model can be copied. -/
theorem copies_of_fresh (hfresh : model.state = {}) : model.state.Copies := by
  rw [hfresh]
  exact List.forall_mem_nil _

end Run

section Gathered

variable {steps others : List Step}

/-- A call behind others changes what they have gathered, if it is no reset. -/
theorem gathered_concat {step : Step} (h : step.part.isSome = true) :
    gathered (steps ++ [step]) = step.change (gathered steps) := by
  cases step with
  | reset => cases h
  | _ =>
      simp [gathered, last, Step.change, Step.conditions, Step.ordering, Step.selected,
        Step.limited, Step.skipped, Step.grouping, List.filterMap_append]

/-- Calls from nothing on make what those after the last reset gather. -/
theorem foldl_change (steps : List Step) :
    steps.foldl (fun state step => step.change state) {} = gathered (sinceReset steps) := by
  induction steps using List.reverseRecOn with
  | nil => rfl
  | append_singleton steps step ih =>
      rw [List.foldl_append, ih, List.foldl_cons, List.foldl_nil]
      unfold sinceReset
      rw [List.rtakeWhile_concat]
      cases step with
      | reset => rfl
      | _ => exact (gathered_concat rfl).symm

/-- A call adds nothing to a part that it does not change, and sets nothing there. -/
theorem Step.eq_nil_or_none (step : Step) :
    ((step.part ≠ some .conditions → step.conditions = []) ∧
      (step.part ≠ some .ordering → step.ordering = [])) ∧
    (step.part ≠ some .selected → step.selected = none) ∧
      (step.part ≠ some .limit → step.limited = none) ∧
      (step.part ≠ some .offset → step.skipped = none) ∧
      (step.part ≠ some .grouping → step.grouping = none) := by
  cases step <;>
    simp [Step.part, Step.conditions, Step.ordering, Step.selected, Step.limited, Step.skipped,
      Step.grouping]

/-- What one part of the state gets does not depend on where the calls for other parts stand. -/
theorem Reorders.flatMap_eq {α : Type} (h : Reorders steps others) {read : Step → List α}
    (part : Step.Part) (hread : ∀ step : Step, step.part ≠ some part → read step = []) :
    others.flatMap read = steps.flatMap read := by
  have hfilter (steps : List Step) :
      (steps.filter fun step => step.part = some part).flatMap read = steps.flatMap read := by
    induction steps with
    | nil => rfl
    | cons step rest ih =>
        rw [List.filter_cons, List.flatMap_cons]
        split
        · rw [List.flatMap_cons, ih]
        · next hother => rw [ih, hread step (by simpa using hother), List.nil_append]
  rw [← hfilter others, h.kept part, hfilter steps]

/-- What was set last does not depend on where the calls for other parts stand. -/
theorem Reorders.last_eq {α : Type} (h : Reorders steps others) {read : Step → Option (Option α)}
    (part : Step.Part) (hread : ∀ step : Step, step.part ≠ some part → read step = none) :
    last read others = last read steps := by
  have hfilter (steps : List Step) :
      (steps.filter fun step => step.part = some part).filterMap read = steps.filterMap read := by
    rw [List.filterMap_filter]
    refine List.filterMap_congr fun step _ => ?_
    by_cases hpart : step.part = some part
    · simp [hpart]
    · simp [hpart, hread step hpart]
  rw [last, last, ← hfilter others, h.kept part, hfilter steps]

/-- In a new order that keeps that of the calls for each part, calls gather the same. -/
theorem Reorders.gathered_eq (h : Reorders steps others) : gathered others = gathered steps := by
  simp only [gathered, QueryState.mk.injEq]
  exact ⟨h.flatMap_eq .conditions fun step => step.eq_nil_or_none.1.1,
    h.last_eq .selected fun step => step.eq_nil_or_none.2.1,
    h.flatMap_eq .ordering fun step => step.eq_nil_or_none.1.2,
    h.last_eq .limit fun step => step.eq_nil_or_none.2.2.1,
    h.last_eq .offset fun step => step.eq_nil_or_none.2.2.2.1,
    h.last_eq .grouping fun step => step.eq_nil_or_none.2.2.2.2⟩

/-- Calls without a reset come to those after the last reset before them. -/
theorem sinceReset_append (before : List Step) {latest : List Step}
    (h : ∀ step ∈ latest, step.part.isSome = true) :
    sinceReset (before ++ latest) = sinceReset before ++ latest := by
  induction latest using List.reverseRecOn with
  | nil => simp only [List.append_nil]
  | append_singleton latest step ih =>
      obtain ⟨hlatest, hstep⟩ := List.forall_mem_append.1 h
      have hkept : sinceReset (before ++ latest ++ [step]) =
          sinceReset (before ++ latest) ++ [step] :=
        List.rtakeWhile_concat_pos _ _ _ (hstep step (List.mem_singleton_self step))
      rw [← List.append_assoc, hkept, ih hlatest, List.append_assoc]

/-- Calls keep their order behind calls that stay. -/
theorem Reorders.append_left (h : Reorders steps others) (before : List Step) :
    Reorders (before ++ steps) (before ++ others) where
  perm := h.perm.append_left before
  kept part := by simp only [List.filter_append, h.kept part]

end Gathered

/-- Of a chain of calls on a fresh model the last model has gathered what the calls after the last
reset gather. The chain gives the same model if calls without a reset among them are put in another
order, which keeps the order of those that change one part of the state. -/
theorem chain_in_any_order [Copying] {model final : Model} {steps : List Step}
    (hfresh : model.state = {}) (h : model.chain steps = .ok final) :
    final = { model with state := gathered (sinceReset steps) } ∧
      ∀ before latest others, steps = before ++ latest →
        (∀ step ∈ latest, step.part.isSome = true) → Reorders latest others →
          model.chain (before ++ others) = .ok final := by
  have hcopies := copies_of_fresh hfresh
  have hstate (steps : List Step) :
      ({ model with state := steps.foldl (fun state step => step.change state) model.state } :
          Model) = { model with state := gathered (sinceReset steps) } := by
    rw [hfresh, foldl_change]
  obtain ⟨hpasses, rfl⟩ := (chain_eq_ok_iff hcopies).1 h
  refine ⟨hstate steps, ?_⟩
  rintro before latest others rfl hlatest hothers
  obtain ⟨hbefore, hlatestPasses⟩ := List.forall_mem_append.1 hpasses
  have hothersPass : ∀ step ∈ others, step.Passes model.table := fun step hmem =>
    hlatestPasses step (hothers.perm.mem_iff.1 hmem)
  have hothersLatest : ∀ step ∈ others, step.part.isSome = true := fun step hmem =>
    hlatest step (hothers.perm.mem_iff.1 hmem)
  refine (chain_eq_ok_iff hcopies).2 ⟨List.forall_mem_append.2 ⟨hbefore, hothersPass⟩, ?_⟩
  rw [hstate, hstate, sinceReset_append before hlatest, sinceReset_append before hothersLatest,
    (hothers.append_left (sinceReset before)).gathered_eq]

/-- The last calls of a chain on the accounts change places. -/
theorem accounts_in_any_order :
    let before : List Step := [.limit (.int 9), .filter (.map [(.text "id", .int 1)]) [], .reset]
    let latest : List Step :=
      [.orderBy (.text "name") (.text "desc"), .filter (.map [(.text "id", .int 2)]) [],
        .limit (.int 3)]
    ∃ final, accounts.state = {} ∧ accounts.chain (before ++ latest) = .ok final ∧
      (∀ step ∈ latest, step.part.isSome = true) ∧ Reorders latest latest.reverse ∧
      accounts.chain (before ++ latest.reverse) = .ok final ∧
      ∃ statement, final.selectStatement = .ok statement ∧
        statement.sql = "SELECT * FROM `accounts` WHERE `id` = {param0:Int32} " ++
          "ORDER BY `name` DESC LIMIT 3" := by
  intro before latest
  have hpasses : ∀ step ∈ before ++ latest, step.Passes accounts.table := by decide +kernel
  have hchain := (chain_eq_ok_iff (copies_of_fresh rfl)).2 ⟨hpasses, rfl⟩
  have hlatest : ∀ step ∈ latest, step.part.isSome = true := by decide
  have hreorders : Reorders latest latest.reverse :=
    ⟨List.reverse_perm latest, fun part => by cases part <;> rfl⟩
  exact ⟨_, rfl, hchain, hlatest, hreorders,
    (chain_in_any_order rfl hchain).2 before latest latest.reverse rfl hlatest hreorders,
    toOption_map_eq_some.1 (by decide +kernel)⟩

end Model

end TypedSql
