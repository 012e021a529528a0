import TypedSql.Proofs.Condition.Progress
import TypedSql.Proofs.Statement.Binding
import TypedSql.Proofs.Statement.Query

/-!
# Actions that may be refused

What an action leaves behind where it is tried and the fault of invalid input is put aside, whether
or not its message can be written. `Tried` relates the builders before and after it, whether the
action succeeded or was refused. A value that
is bound is never refused, with a type or without: `not_refuses_bind`.
-/

namespace TypedSql.Statement

open TypedSql.Sql TypedSql.Number TypedSql.Condition

/-- `Refuses action before after` says that an action on the builder `before` ends in a fault
of invalid input and leaves the builder `after`. -/
def Refuses {α : Type} (action : Action α) (before after : Builder) : Prop :=
  ∃ fault, (ExceptT.run action).run before = (.error fault, after) ∧ IsRejection fault

/-- `Tried action before after` says that an action takes a builder `before` to a builder `after`,
by success or by being refused. -/
def Tried (action : Action Unit) (before after : Builder) : Prop :=
  Runs action before () after ∨ Refuses action before after

section Steps

variable {α β : Type} {before after : Builder}

/-- Two actions are refused if the first one is, or the second one from where the first one ends. -/
theorem Refuses.bind_iff {action : Action α} {next : α → Action β} :
    Refuses (action >>= next) before after ↔ Refuses action before after ∨
      ∃ value between, Runs action before value between ∧ Refuses (next value) between after := by
  unfold Refuses Runs
  rw [ExceptT.run_bind, StateT.run_bind]
  cases hrun : (ExceptT.run action).run before with
  | mk outcome between =>
      cases outcome with
      | ok value =>
          constructor
          · intro h
            exact .inr ⟨value, between, rfl, h⟩
          · rintro (⟨_, hfirst, -⟩ | ⟨_, _, hfirst, h⟩)
            · cases hfirst
            · cases hfirst
              exact h
      | error fault =>
          constructor
          · rintro ⟨_, hfirst, hrefusal⟩
            cases hfirst
            exact .inl ⟨fault, rfl, hrefusal⟩
          · rintro (⟨_, hfirst, hrefusal⟩ | ⟨_, _, hfirst, -⟩)
            · cases hfirst
              exact ⟨fault, rfl, hrefusal⟩
            · cases hfirst

theorem not_refuses_pure {value : α} : ¬Refuses (pure value) before after := by
  rintro ⟨_, h, -⟩
  cases h

theorem not_refuses_modify {change : Builder → Builder} :
    ¬Refuses (modify change) before after := by
  rintro ⟨_, h, -⟩
  cases h

theorem not_refuses_get : ¬Refuses (get : Action Builder) before after := by
  rintro ⟨_, h, -⟩
  cases h

theorem refuses_ofExcept_iff {outcome : Except Fault α} :
    Refuses (ofExcept outcome) before after ↔
      (∃ fault, outcome = .error fault ∧ IsRejection fault) ∧ before = after := by
  cases outcome with
  | ok value =>
      refine iff_of_false not_refuses_pure ?_
      rintro ⟨⟨_, h, -⟩, -⟩
      cases h
  | error fault =>
      constructor
      · rintro ⟨_, h, hrefusal⟩
        cases h
        exact ⟨⟨fault, rfl, hrefusal⟩, rfl⟩
      · rintro ⟨⟨_, h, hrefusal⟩, rfl⟩
        cases h
        exact ⟨fault, rfl, hrefusal⟩

/-- Two actions are tried up to where they are refused. -/
theorem Tried.bind_iff {action : Action α} {next : α → Action Unit} :
    Tried (action >>= next) before after ↔ Refuses action before after ∨
      ∃ value between, Runs action before value between ∧ Tried (next value) between after := by
  unfold Tried
  rw [Runs.bind_iff, Refuses.bind_iff]
  constructor
  · rintro (⟨value, between, hfirst, h⟩ | hfirst | ⟨value, between, hfirst, h⟩)
    · exact .inr ⟨value, between, hfirst, .inl h⟩
    · exact .inl hfirst
    · exact .inr ⟨value, between, hfirst, .inr h⟩
  · rintro (hfirst | ⟨value, between, hfirst, h | h⟩)
    · exact .inr (.inl hfirst)
    · exact .inl ⟨value, between, hfirst, h⟩
    · exact .inr (.inr ⟨value, between, hfirst, h⟩)

theorem Tried.pure_iff : Tried (pure ()) before after ↔ before = after := by
  simp [Tried, Runs.pure_iff, not_refuses_pure]

theorem Tried.modify_iff {change : Builder → Builder} :
    Tried (modify change) before after ↔ change before = after := by
  simp [Tried, Runs.modify_iff, not_refuses_modify]

/-- Tried for the members of a list, an action stops at the first one for which it is refused. -/
theorem Tried.forM_cons_iff {action : α → Action Unit} {item : α} {items : List α} :
    Tried ((item :: items).forM action) before after ↔ Refuses (action item) before after ∨
      ∃ between, Runs (action item) before () between ∧
        Tried (items.forM action) between after := by
  rw [show (item :: items).forM action = (action item >>= fun _ => items.forM action) from rfl,
    Tried.bind_iff]
  exact or_congr_right ⟨fun ⟨_, h⟩ => h, fun h => ⟨(), h⟩⟩

end Steps

section Names

variable {before after : Builder} {name : Value}

/-- What is no name is refused as a name. -/
theorem refuses_quote_iff :
    Refuses (Action.quote name) before after ↔
      Identifier.isNameValue name = false ∧ before = after := by
  refine refuses_ofExcept_iff.trans (and_congr_left fun _ => ?_)
  cases hname : Identifier.isNameValue name with
  | true =>
      refine iff_of_false ?_ (by simp)
      rintro ⟨_, h, -⟩
      simp [Identifier.quote, hname] at h
  | false =>
      have hquote : Identifier.quote name = .error (.identifierInvalid name) := by
        simp [Identifier.quote, hname]
      exact iff_of_true ⟨_, hquote, isRejection_identifierInvalid name⟩ rfl

/-- Names that are quoted one after the other are refused at the first one that is none. -/
theorem refuses_quotes_iff {names : List Value} :
    Refuses (names.mapM Action.quote) before after ↔
      names.all Identifier.isNameValue = false ∧ before = after := by
  induction names generalizing before with
  | nil => exact iff_of_false not_refuses_pure (by simp)
  | cons name rest ih =>
      rw [List.mapM_cons, Refuses.bind_iff, refuses_quote_iff]
      simp only [Refuses.bind_iff, runs_quote_iff, ih, not_refuses_pure, and_false, exists_false,
        or_false, List.all_cons]
      cases Identifier.isNameValue name <;> simp

/-- A table is set if it has a name, and else refused. -/
theorem tried_setTable_iff :
    Tried (Action.setTable name) before after ↔ after = { before with
      table := if Identifier.isNameValue name then some (Identifier.backquoted name.display)
        else before.table } := by
  unfold Action.setTable
  simp only [Tried.bind_iff, Tried.modify_iff, refuses_quote_iff, runs_quote_iff]
  cases Identifier.isNameValue name with
  | true => simp [eq_comm]
  | false =>
      simp only [Bool.false_eq_true, true_and, false_and, exists_false, or_false, if_false]
      exact eq_comm

end Names

/-- A value to be bound, with the type of its placeholder. -/
structure Cell where
  value : Value
  type : String

/-- Whether a type of a placeholder is left out or a text without braces. -/
def IsTypeName (type : Value) : Prop :=
  type.isTruthy = true → ∃ text, type.asText? = some text ∧ IsPlain text

/-- The type that a placeholder shows: the given one, or else the one that is inferred. -/
def shownType (type value : Value) : String :=
  if type.isTruthy then type.asText?.getD "" else Wire.placeholderType value

/-- The type that is inferred for a placeholder has no braces. -/
theorem isPlain_placeholderType (value : Value) : IsPlain (Wire.placeholderType value) := by
  unfold Wire.placeholderType
  split <;> try decide
  split
  · decide
  · split <;> decide

theorem isPlain_shownType {type : Value} (h : IsTypeName type) (value : Value) :
    IsPlain (shownType type value) := by
  unfold shownType
  split
  · next htruthy =>
      obtain ⟨text, htext, hplain⟩ := h htruthy
      rwa [htext]
  · exact isPlain_placeholderType value

theorem slotType_eq {type : Value} (h : IsTypeName type) (value : Value) :
    Action.slotType type value = pure (shownType type value) := by
  unfold Action.slotType shownType
  split
  · next htruthy =>
      obtain ⟨text, htext, -⟩ := h htruthy
      simp [Action.textOf, htext]
  · rfl

section Bind

variable {before after : Builder} {index : Int} {value : Value}

/-- A value is not refused as it is bound: a parameter without a name is a breach. -/
theorem not_refuses_bind {type : Value} {shown : String} (hnext : before.next = .number index)
    (hshown : Action.slotType type value = pure shown) :
    ¬Refuses (Action.bind value type) before after := by
  unfold Action.bind
  rw [hshown]
  simp only [Refuses.bind_iff, Runs.get_iff, Runs.modify_iff, Runs.ofExcept_iff, Runs.pure_iff,
    refuses_ofExcept_iff, not_refuses_get, not_refuses_modify, not_refuses_pure, false_or, or_false,
    and_false, exists_false]
  rintro ⟨_, _, ⟨rfl, rfl⟩, ⟨⟨_, hcheck, -⟩, -⟩ | ⟨_, _, ⟨-, rfl⟩, _, _, rfl,
    ⟨_, hnames, hrefusal⟩, -⟩⟩
  · rw [hnext] at hcheck
    cases hcheck
  · obtain ⟨breach, rfl⟩ := exists_breach_of_checkNames hnames
    exact not_isRejection_breach breach hrefusal

/-- No row is refused once its values are bound. -/
theorem not_refuses_bindRow {types : Value} {position : Nat} {items : List Value}
    {texts : List String} (hnext : before.next = .number index)
    (htypes : RowTypes types position items texts) :
    ¬Refuses (Action.bindRow types position items) before after := by
  induction htypes generalizing before index with
  | nil => exact not_refuses_pure
  | cons htype hshown _ ih =>
      rw [Action.bindRow, htype]
      simp only [Refuses.bind_iff, Runs.pure_iff, not_refuses_pure, false_or, or_false, and_false,
        exists_false]
      rintro ⟨_, _, ⟨rfl, rfl⟩, hrun⟩
      obtain ⟨slot, _, hbind, hrest⟩ := hrun.resolve_left (not_refuses_bind hnext hshown)
      obtain ⟨-, -, rfl⟩ := (runs_bind_iff hnext hshown).1 hbind
      exact ih (next_succ hnext) hrest

end Bind

end TypedSql.Statement
