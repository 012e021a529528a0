import TypedSql.Proofs.Statement.Action
import TypedSql.Proofs.Statement.Placeholder
import TypedSql.Proofs.Value.Key

/-!
# Values bound to placeholders

How the values of assignments and of rows are bound: one after the other, each to the placeholder
with the next number and with the type that is given for it, as long as the numbers have names.
`runs_set` and `runs_values_iff` are the statements to read first.
-/

namespace TypedSql.Statement

open TypedSql.Sql TypedSql.Number TypedSql.Outcome

section Bind

variable {before after : Builder} {index : Int} {value : Value}

/-- The parameter behind some more values is numbered behind them. -/
theorem next_behind {later : Builder} {count : Nat} (hnext : before.next = .number index)
    (hstart : later.start = before.start)
    (hbound : later.bound.length = before.bound.length + count) :
    later.next = .number (index + count) := by
  unfold Builder.next at hnext ⊢
  rw [hstart, hbound]
  cases hfirst : before.start with
  | number first | flag first =>
      rw [hfirst] at hnext
      cases hnext
      simp only [Start.plus, Int.natCast_add, Int.add_assoc]
  | binary | decimal | invalid =>
      rw [hfirst] at hnext
      cases hnext

theorem next_succ (hnext : before.next = .number index) :
    Builder.next { before with bound := before.bound ++ [value] } = .number (index + 1) :=
  next_behind hnext rfl List.length_append

theorem next_eq_number (hstart : before.start = .zero) :
    before.next = .number before.bound.length := by
  simp [Builder.next, hstart, Start.zero, Start.plus]

/-- A value is bound to the parameter that is next, if that has a name. -/
theorem runs_bind_iff {type : Value} {shown : String} {slot : Slot}
    (hnext : before.next = .number index) (hshown : Action.slotType type value = pure shown) :
    Runs (Action.bind value type) before slot after ↔ hasNumeral index = true ∧
      slot = { name := parameter index, type := shown } ∧
      after = { before with bound := before.bound ++ [value] } := by
  have hname : (Start.number index).checkNames 1 = .ok () ↔ hasNumeral index = true := by
    simp [checkNames_number]
  unfold Action.bind
  rw [hshown]
  simp only [Runs.bind_iff, Runs.get_iff, Runs.modify_iff, Runs.ofExcept_iff, Runs.pure_iff]
  constructor
  · rintro ⟨_, _, ⟨rfl, rfl⟩, _, _, ⟨-, rfl⟩, _, _, rfl, _, _, ⟨hnumeral, rfl⟩, _, _, ⟨rfl, rfl⟩,
      rfl, rfl⟩
    rw [hnext] at hnumeral ⊢
    exact ⟨hname.1 hnumeral, rfl, rfl⟩
  · rintro ⟨hnumeral, rfl, rfl⟩
    refine ⟨_, _, ⟨rfl, rfl⟩, (), _, ⟨by rw [hnext]; rfl, rfl⟩, (), _, rfl, (), _, ⟨?_, rfl⟩, _, _,
      ⟨rfl, rfl⟩, ?_, rfl⟩
    · rw [hnext]
      exact hname.2 hnumeral
    · rw [hnext]
      rfl

/-- A type that is given is the type of the placeholder. -/
theorem slotType_text {type : String} (htype : type ≠ "") (value : Value) :
    Action.slotType (.text type) value = pure type := by
  simp [Action.slotType, Value.isTruthy, htype, Action.textOf, Value.asText?]

end Bind

section Set

variable {before after : Builder} {types entries : Entries}

/-- An assignment binds its value to the parameter that is next, if the column has a name and the
parameter has one. -/
theorem runs_assign_iff {types type name value : Value} {shown : String} {index : Int}
    (hnext : before.next = .number index) (htype : Action.typeOf types name = pure type)
    (hshown : Action.slotType type value = pure shown) :
    Runs (Action.assign types name value) before () after ↔
      Identifier.isNameValue name = true ∧ hasNumeral index = true ∧
        after = { before with
          assignments := before.assignments ++
            [(Identifier.backquoted name.display, { name := parameter index, type := shown })]
          bound := before.bound ++ [value] } := by
  unfold Action.assign
  rw [htype]
  simp only [Runs.bind_iff, Runs.pure_iff, Runs.modify_iff, runs_quote_iff]
  constructor
  · rintro ⟨_, _, ⟨rfl, rfl⟩, _, _, ⟨hname, rfl, rfl⟩, slot, _, hbind, rfl⟩
    obtain ⟨hnumeral, rfl, rfl⟩ := (runs_bind_iff hnext hshown).1 hbind
    exact ⟨hname, hnumeral, rfl⟩
  · rintro ⟨hname, hnumeral, rfl⟩
    exact ⟨_, _, ⟨rfl, rfl⟩, _, _, ⟨hname, rfl, rfl⟩, _, _,
      (runs_bind_iff hnext hshown).2 ⟨hnumeral, rfl, rfl⟩, rfl⟩

/-- A type under a name in a map is the type for that name. -/
theorem typeOf_map {name type : Value} (hfound : Keyed.get? types name = some type) :
    Action.typeOf (.map types) name = pure type := by
  have hnonempty : types ≠ [] := by
    rintro rfl
    cases hfound
  simp [Action.typeOf, Value.isTruthy, hnonempty, hfound]

/-- Assignments bind their values in order, each to a placeholder of the type under its name. -/
theorem runs_set {typeFor : Value → String} (hstart : before.start = .zero)
    (hfound : ∀ entry ∈ entries, Keyed.get? types entry.1 = some (.text (typeFor entry.1)))
    (htype : ∀ entry ∈ entries, typeFor entry.1 ≠ "")
    (h : Runs (Action.set (.map entries) (.map types)) before () after) :
    (∀ entry ∈ entries, Identifier.isNameValue entry.1 = true) ∧
      after = { before with
        assignments := before.assignments ++ (quotedNames (entries.map Prod.fst)).zip
          (slotsFrom before.bound.length ((entries.map Prod.fst).map typeFor))
        bound := before.bound ++ entries.map Prod.snd } := by
  replace h : Runs (entries.forM fun entry => Action.assign (.map types) entry.1 entry.2) before ()
    after := h
  induction entries generalizing before with
  | nil =>
      obtain rfl := Runs.forM_nil_iff.1 h
      simp [quotedNames]
  | cons entry rest ih =>
      obtain ⟨between, hassign, hrest⟩ := Runs.forM_cons_iff.1 h
      obtain ⟨hname, -, rfl⟩ := (runs_assign_iff (next_eq_number hstart)
        (typeOf_map (hfound entry List.mem_cons_self))
        (slotType_text (htype entry List.mem_cons_self) entry.2)).1 hassign
      obtain ⟨hnames, rfl⟩ := ih (by exact hstart)
        (fun other hother => hfound other (List.mem_cons_of_mem entry hother))
        (fun other hother => htype other (List.mem_cons_of_mem entry hother)) hrest
      refine ⟨List.forall_mem_cons.2 ⟨hname, hnames⟩, ?_⟩
      simp [quotedNames, slotsFrom]

end Set

section Row

variable {before after : Builder} {index : Int} {types : Value}

/-- `RowTypes types position items texts` says that the placeholders of `items`, which stand in a
row from `position` on, get the types `texts`. -/
inductive RowTypes (types : Value) : Nat → List Value → List String → Prop
  | nil {position : Nat} : RowTypes types position [] []
  | cons {position : Nat} {type item : Value} {shown : String} {items : List Value}
      {texts : List String} (htype : Action.typeAt types position = pure type)
      (hshown : Action.slotType type item = pure shown)
      (hrest : RowTypes types (position + 1) items texts) :
      RowTypes types position (item :: items) (shown :: texts)

/-- The values of a row are bound one after the other, if all of their parameters have names. -/
theorem runs_bindRow_iff {position : Nat} {items : List Value} {texts : List String}
    {slots : List Slot} (hnext : before.next = .number index)
    (htypes : RowTypes types position items texts) :
    Runs (Action.bindRow types position items) before slots after ↔
      (Start.number index).checkNames items.length = .ok () ∧ slots = slotsFrom index texts ∧
      after = { before with bound := before.bound ++ items } := by
  induction htypes generalizing before index slots with
  | nil =>
      rw [Action.bindRow, Runs.pure_iff]
      constructor
      · rintro ⟨rfl, rfl⟩
        exact ⟨rfl, rfl, by simp⟩
      · rintro ⟨-, rfl, rfl⟩
        exact ⟨rfl, by simp⟩
  | @cons position type item shown items texts htype hshown hothers ih =>
      have hrest := fun slots =>
        @ih { before with bound := before.bound ++ [item] } (index + 1) slots (next_succ hnext)
      rw [Action.bindRow, htype, List.length_cons, checkNames_succ_iff]
      simp only [Runs.bind_iff, Runs.pure_iff]
      constructor
      · rintro ⟨_, _, ⟨rfl, rfl⟩, _, _, hbind, others, _, hothers, rfl, rfl⟩
        obtain ⟨hnumeral, rfl, rfl⟩ := (runs_bind_iff hnext hshown).1 hbind
        obtain ⟨hnames, rfl, rfl⟩ := (hrest others).1 hothers
        exact ⟨⟨hnumeral, hnames⟩, rfl, by simp⟩
      · rintro ⟨⟨hnumeral, hnames⟩, rfl, rfl⟩
        refine ⟨_, _, ⟨rfl, rfl⟩, _, _, (runs_bind_iff hnext hshown).2 ⟨hnumeral, rfl, rfl⟩, _, _,
          (hrest _).2 ⟨hnames, rfl, ?_⟩, rfl, rfl⟩
        simp

/-- A row is bound if it is as wide as the statement has columns, and else refused. -/
theorem row_eq {values : Value} {items : List Value} (hitems : values.contents? = some items) :
    Action.row types values = (do
      let builder ← get
      if items.length = builder.columns.length then
        let slots ← Action.bindRow types 0 items
        modify fun builder => { builder with rows := builder.rows ++ [slots] }
      else throw (.rowWidthMismatch builder.columns.length items.length values)) := by
  have hcontents : Action.contents values = pure items := by simp [Action.contents, hitems]
  unfold Action.row
  rw [hcontents, pure_bind]
  refine bind_congr fun builder => ?_
  by_cases hlength : items.length = builder.columns.length <;> simp [hlength]

/-- A row is added if it is as wide as the statement has columns and its parameters have names. -/
theorem runs_row_iff {values : Value} {items : List Value} {texts : List String}
    (hnext : before.next = .number index) (hitems : values.contents? = some items)
    (htypes : items.length = before.columns.length → RowTypes types 0 items texts) :
    Runs (Action.row types values) before () after ↔ items.length = before.columns.length ∧
      (Start.number index).checkNames items.length = .ok () ∧
      after = { before with
        rows := before.rows ++ [slotsFrom index texts]
        bound := before.bound ++ items } := by
  rw [row_eq hitems, Runs.bind_iff]
  simp only [Runs.get_iff]
  by_cases hlength : items.length = before.columns.length
  · constructor
    · rintro ⟨_, _, ⟨rfl, rfl⟩, h⟩
      rw [if_pos hlength] at h
      obtain ⟨slots, between, hbind, hmodify⟩ := Runs.bind_iff.1 h
      obtain ⟨hnames, rfl, rfl⟩ := (runs_bindRow_iff hnext (htypes hlength)).1 hbind
      exact ⟨hlength, hnames, (Runs.modify_iff.1 hmodify).symm⟩
    · rintro ⟨-, hnames, rfl⟩
      refine ⟨before, before, ⟨rfl, rfl⟩, ?_⟩
      rw [if_pos hlength]
      exact Runs.bind_iff.2 ⟨_, _, (runs_bindRow_iff hnext (htypes hlength)).2 ⟨hnames, rfl, rfl⟩,
        Runs.modify_iff.2 rfl⟩
  · refine iff_of_false ?_ fun h => hlength h.1
    rintro ⟨_, _, ⟨rfl, rfl⟩, h⟩
    rw [if_neg hlength] at h
    exact Runs.not_throw h

end Row

section Rows

variable {before after : Builder} {index : Int} {types : List String}

/-- Values as many as types in a list have these as the types of their placeholders. -/
theorem rowTypes_texts {earlier current : List String} {items : List Value}
    (htypes : earlier ++ current = types) (hnonempty : ∀ type ∈ types, type ≠ "")
    (hlength : items.length = current.length) :
    RowTypes (.list (types.map .text)) earlier.length items current := by
  -- `earlier` are the types of the values in front, so its length is the next position
  induction items generalizing earlier current with
  | nil =>
      cases current with
      | nil => exact .nil
      | cons => cases hlength
  | cons item rest ih =>
      cases current with
      | nil => cases hlength
      | cons type others =>
          have htype : type ≠ "" :=
            hnonempty type (htypes ▸ List.mem_append_right _ List.mem_cons_self)
          have hat :
              Action.typeAt (.list (types.map .text)) earlier.length = pure (.text type) := by
            subst htypes
            simp [Action.typeAt, Value.isTruthy, Action.contents, Value.contents?]
          have hrest := @ih (earlier ++ [type]) others (by simpa using htypes)
            (Nat.succ_inj.1 hlength)
          rw [List.length_append] at hrest
          exact .cons hat (slotType_text htype item) hrest

/-- The placeholders of so many rows, numbered from row to row. -/
def rowsFrom (types : List String) : Int → Nat → List (List Slot)
  | _, 0 => []
  | index, count + 1 => slotsFrom index types :: rowsFrom types (index + types.length) count

/-- The placeholders of rows are numbered through, one row behind the other. -/
theorem flatten_rowsFrom (types : List String) (index : Int) (count : Nat) :
    (rowsFrom types index count).flatten =
      slotsFrom index (List.replicate count types).flatten := by
  induction count generalizing index with
  | zero => rfl
  | succ count ih => simp [rowsFrom, List.replicate_succ, slotsFrom_append, ih]

/-- Rows bind their values in order, row by row, if they are as wide as the statement has columns
and all of their parameters have names. -/
theorem runs_values_iff {rows : List (List Value)} (hnext : before.next = .number index)
    (hnonempty : ∀ type ∈ types, type ≠ "") (hcolumns : before.columns.length = types.length) :
    Runs (Action.values (.list (rows.map .list)) (.list (types.map .text))) before () after ↔
      (∀ items ∈ rows, items.length = types.length) ∧
      (Start.number index).checkNames rows.flatten.length = .ok () ∧
      after = { before with
        rows := before.rows ++ rowsFrom types index rows.length
        bound := before.bound ++ rows.flatten } := by
  rw [show Action.values (.list (rows.map .list)) (.list (types.map .text)) =
    (rows.map .list).forM (Action.row (.list (types.map .text))) from rfl]
  induction rows generalizing before index with
  | nil =>
      rw [List.map_nil, Runs.forM_nil_iff]
      constructor
      · rintro rfl
        exact ⟨List.forall_mem_nil _, rfl, by simp [rowsFrom]⟩
      · rintro ⟨-, -, rfl⟩
        simp [rowsFrom]
  | cons items rest ih =>
      have hrow := fun between => @runs_row_iff before between index (.list (types.map .text))
        (.list items) items types hnext rfl fun hlength =>
          rowTypes_texts (List.nil_append types) hnonempty (hlength.trans hcolumns)
      rw [hcolumns] at hrow
      have hrest := fun slots => @ih
        { before with rows := before.rows ++ [slots], bound := before.bound ++ items }
        (index + items.length) (next_behind hnext rfl List.length_append) hcolumns
      rw [List.map_cons, Runs.forM_cons_iff, List.forall_mem_cons, List.flatten_cons,
        List.length_append, checkNames_add_iff]
      constructor
      · rintro ⟨between, hitems, hothers⟩
        obtain ⟨hlength, hnames, rfl⟩ := (hrow between).1 hitems
        obtain ⟨hlengths, hlater, rfl⟩ := (hrest _).1 hothers
        exact ⟨⟨hlength, hlengths⟩, ⟨hnames, hlater⟩, by simp [rowsFrom, hlength]⟩
      · rintro ⟨⟨hlength, hlengths⟩, ⟨hnames, hlater⟩, rfl⟩
        refine ⟨_, (hrow _).2 ⟨hlength, hnames, rfl⟩, (hrest _).2 ⟨hlengths, hlater, ?_⟩⟩
        simp [rowsFrom, hlength]

end Rows

end TypedSql.Statement
