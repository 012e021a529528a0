import TypedSql.Proofs.Identifier
import TypedSql.Statement.Query

/-!
# Actions that succeed

What an action does to a builder where it does not fail. `Runs` relates the builder before an action
to the result and the builder after it; there is one lemma for every action that the statements of
models are made of. `Runs.bind_iff` and its companions take an action apart into its steps.
-/

namespace TypedSql.Statement

open TypedSql.Sql TypedSql.Outcome

/-- `Runs action before result after` says that an action takes a builder `before` to a builder
`after` and gives `result`. -/
def Runs {α : Type} (action : Action α) (before : Builder) (result : α) (after : Builder) : Prop :=
  (ExceptT.run action).run before = (.ok result, after)

namespace Runs

variable {α β : Type} {before after : Builder}

/-- Two actions succeed exactly if the first one does and the second one does from there. -/
theorem bind_iff {action : Action α} {next : α → Action β} {result : β} :
    Runs (action >>= next) before result after ↔ ∃ value between,
      Runs action before value between ∧ Runs (next value) between result after := by
  unfold Runs
  rw [ExceptT.run_bind, StateT.run_bind]
  cases hrun : (ExceptT.run action).run before with
  | mk outcome between =>
      cases outcome with
      | ok value =>
          constructor
          · intro h
            exact ⟨value, between, rfl, h⟩
          · rintro ⟨_, _, hfirst, h⟩
            cases hfirst
            exact h
      | error fault =>
          constructor
          · intro h
            cases h
          · rintro ⟨_, _, hfirst, -⟩
            cases hfirst

theorem pure_iff {value result : α} :
    Runs (pure value) before result after ↔ value = result ∧ before = after := by
  show (Except.ok value, before) = _ ↔ _
  simp

theorem modify_iff {change : Builder → Builder} {result : Unit} :
    Runs (modify change) before result after ↔ change before = after := by
  show (Except.ok (), change before) = _ ↔ _
  simp

theorem get_iff {result : Builder} :
    Runs get before result after ↔ before = result ∧ before = after := by
  show (Except.ok before, before) = _ ↔ _
  simp

theorem ofExcept_iff {outcome : Except Fault α} {result : α} :
    Runs (ofExcept outcome) before result after ↔ outcome = .ok result ∧ before = after := by
  cases outcome with
  | ok value =>
      show (Except.ok value, before) = _ ↔ _
      simp
  | error fault =>
      show (Except.error fault, before) = _ ↔ _
      simp

theorem not_throw {fault : Fault} {result : α} :
    ¬ Runs (throw fault) before result after := by
  intro h
  cases h

/-- An action for every member of a list runs from the first member to the last. -/
theorem forM_cons_iff {action : α → Action Unit} {item : α} {items : List α} {result : Unit} :
    Runs ((item :: items).forM action) before result after ↔
      ∃ between, Runs (action item) before () between ∧
        Runs (items.forM action) between () after := by
  rw [show (item :: items).forM action = (action item >>= fun _ => items.forM action) from rfl,
    bind_iff]
  constructor
  · rintro ⟨_, between, hitem, hitems⟩
    exact ⟨between, hitem, hitems⟩
  · rintro ⟨between, hitem, hitems⟩
    exact ⟨(), between, hitem, hitems⟩

theorem forM_nil_iff {action : α → Action Unit} {result : Unit} :
    Runs (([] : List α).forM action) before result after ↔ before = after := by
  rw [show ([] : List α).forM action = pure () from rfl, pure_iff]
  simp

/-- An action for every member of a list gives one result for each. -/
theorem mapM_cons_iff {action : α → Action β} {item : α} {items : List α} {results : List β} :
    Runs ((item :: items).mapM action) before results after ↔
      ∃ result between rest, Runs (action item) before result between ∧
        Runs (items.mapM action) between rest after ∧ results = result :: rest := by
  rw [List.mapM_cons, bind_iff]
  constructor
  · rintro ⟨result, between, hitem, h⟩
    obtain ⟨rest, last, hrest, h⟩ := bind_iff.1 h
    obtain ⟨rfl, rfl⟩ := pure_iff.1 h
    exact ⟨result, between, rest, hitem, hrest, rfl⟩
  · rintro ⟨result, between, rest, hitem, hrest, rfl⟩
    exact ⟨result, between, hitem, bind_iff.2 ⟨rest, after, hrest, pure_iff.2 ⟨rfl, rfl⟩⟩⟩

end Runs

section Names

variable {before after : Builder} {name : Value}

/-- Several names, each in backticks. -/
def quotedNames (names : List Value) : List String :=
  names.map fun name => Identifier.backquoted name.display

theorem runs_elements_iff {value : Value} {items : List Value} :
    Runs (Action.elements value) before items after ↔
      value.elements? = some items ∧ before = after := by
  unfold Action.elements
  cases value.elements? with
  | none => exact iff_of_false Runs.not_throw (by simp)
  | some known => rw [Runs.pure_iff, Option.some_inj]

/-- What is quoted is a name. -/
theorem runs_quote_iff {text : String} :
    Runs (Action.quote name) before text after ↔
      Identifier.isNameValue name = true ∧ text = Identifier.backquoted name.display ∧
        before = after :=
  Runs.ofExcept_iff.trans (by rw [Identifier.quote_eq_ok, and_assoc])

theorem runs_setTable (h : Runs (Action.setTable name) before () after) :
    Identifier.isNameValue name = true ∧
      after = { before with table := some (Identifier.backquoted name.display) } := by
  obtain ⟨text, between, hquote, hmodify⟩ := Runs.bind_iff.1 h
  obtain ⟨hname, rfl, rfl⟩ := runs_quote_iff.1 hquote
  exact ⟨hname, (Runs.modify_iff.1 hmodify).symm⟩

/-- A table with a name can be set. -/
theorem runs_setTable_of_isName (h : Identifier.isNameValue name = true) :
    Runs (Action.setTable name) before ()
      { before with table := some (Identifier.backquoted name.display) } :=
  Runs.bind_iff.2 ⟨_, before, runs_quote_iff.2 ⟨h, rfl, rfl⟩, Runs.modify_iff.2 rfl⟩

theorem runs_setVerb {verb : Verb} (h : Runs (Action.setVerb verb) before () after) :
    after = { before with verb := some verb } :=
  (Runs.modify_iff.1 h).symm

/-- Names are quoted one after the other, which leaves the builder as it is. -/
theorem runs_quotes_iff {names : List Value} {texts : List String} :
    Runs (names.mapM Action.quote) before texts after ↔
      names.all Identifier.isNameValue = true ∧ texts = quotedNames names ∧ before = after := by
  induction names generalizing before texts with
  | nil =>
      rw [List.mapM_nil, Runs.pure_iff]
      simp [quotedNames, eq_comm]
  | cons name rest ih =>
      simp only [Runs.mapM_cons_iff, runs_quote_iff, ih, List.all_cons, Bool.and_eq_true]
      constructor
      · rintro ⟨_, _, _, ⟨hname, rfl, rfl⟩, ⟨hnames, rfl, rfl⟩, rfl⟩
        exact ⟨⟨hname, hnames⟩, rfl, rfl⟩
      · rintro ⟨⟨hname, hnames⟩, rfl, rfl⟩
        exact ⟨_, _, _, ⟨hname, rfl, rfl⟩, ⟨hnames, rfl, rfl⟩, rfl⟩

/-- An insertion names its table and its columns. -/
theorem runs_insertInto_iff {columns : Value} :
    Runs (Action.insertInto name columns) before () after ↔
      Identifier.isNameValue name = true ∧ ∃ names, columns.elements? = some names ∧
        (∀ name ∈ names, Identifier.isNameValue name = true) ∧
        after = { before with
          verb := some .insert
          table := some (Identifier.backquoted name.display)
          columns := quotedNames names } := by
  unfold Action.insertInto
  constructor
  · intro h
    obtain ⟨_, _, hverb, h⟩ := Runs.bind_iff.1 h
    obtain rfl := runs_setVerb hverb
    obtain ⟨_, _, htable, h⟩ := Runs.bind_iff.1 h
    obtain ⟨hname, rfl⟩ := runs_setTable htable
    obtain ⟨names, _, hrun, h⟩ := Runs.bind_iff.1 h
    obtain ⟨helements, rfl⟩ := runs_elements_iff.1 hrun
    obtain ⟨_, _, hquotes, h⟩ := Runs.bind_iff.1 h
    obtain ⟨hnames, rfl, rfl⟩ := runs_quotes_iff.1 hquotes
    exact ⟨hname, names, helements, List.all_eq_true.1 hnames, (Runs.modify_iff.1 h).symm⟩
  · rintro ⟨hname, names, helements, hnames, rfl⟩
    refine Runs.bind_iff.2 ⟨(), _, Runs.modify_iff.2 rfl, ?_⟩
    refine Runs.bind_iff.2 ⟨(), _, runs_setTable_of_isName hname, ?_⟩
    refine Runs.bind_iff.2 ⟨names, _, runs_elements_iff.2 ⟨helements, rfl⟩, ?_⟩
    exact Runs.bind_iff.2 ⟨_, _, runs_quotes_iff.2 ⟨List.all_eq_true.2 hnames, rfl, rfl⟩,
      Runs.modify_iff.2 rfl⟩

end Names

end TypedSql.Statement
