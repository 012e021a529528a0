import TypedSql.Proofs.Statement.Attempt

/-!
# What a refused action keeps

Values are bound one by one, so an action that is refused for one of them keeps those in front of
it. `tried_set_iff` says which assignments are kept, `tried_values_iff` which rows, and both how the
placeholders of these are numbered.
-/

namespace TypedSql.Statement

open TypedSql.Sql TypedSql.Number TypedSql.Condition

section Set

variable {before after : Builder} {index : Int} {types name value : Value} {entries : Entries}

/-- The type under a name, as a value; types that are left out have none. -/
def typeFor (types name : Value) : Value :=
  match types with
  | .map entries => (Keyed.get? entries name).getD .null
  | _ => .null

/-- The types of placeholders by name: left out, or a map to type names. -/
def TypesByName (types : Value) : Prop :=
  types.isTruthy = true → ∃ entries, types = .map entries ∧ ∀ entry ∈ entries, IsTypeName entry.2

theorem isTypeName_null : IsTypeName .null := by
  intro h
  cases h

theorem isTypeName_typeFor (h : TypesByName types) (name : Value) :
    IsTypeName (typeFor types name) := by
  unfold typeFor
  split
  · next entries =>
      cases hfound : Keyed.get? entries name with
      | none => exact isTypeName_null
      | some type =>
          obtain ⟨entry, hentry, rfl⟩ := Option.map_eq_some_iff.1 hfound
          have hmem := List.mem_of_find?_eq_some hentry
          have htruthy : (Value.map entries).isTruthy = true := by
            cases entries with
            | nil => cases hmem
            | cons => rfl
          obtain ⟨_, hmap, hnames⟩ := h htruthy
          cases hmap
          exact hnames entry hmem
  · exact isTypeName_null

theorem typeOf_eq (h : TypesByName types) (name : Value) :
    Action.typeOf types name = pure (typeFor types name) := by
  unfold Action.typeOf
  cases htruthy : types.isTruthy with
  | true =>
      obtain ⟨entries, rfl, -⟩ := h htruthy
      rfl
  | false =>
      have hnull : typeFor types name = .null := by
        cases types with
        | map entries =>
            cases entries with
            | nil => rfl
            | cons => cases htruthy
        | _ => rfl
      rw [hnull]
      rfl

/-- Values that are assigned to columns by name, bound to placeholders that count from an index. -/
def Builder.assign (builder : Builder) (index : Int) (assigned : List (Value × Cell)) : Builder :=
  { builder with
    assignments := builder.assignments ++ (quotedNames (assigned.map Prod.fst)).zip
      (slotsFrom index ((assigned.map Prod.snd).map Cell.type))
    bound := builder.bound ++ (assigned.map Prod.snd).map Cell.value }

theorem assign_nil (builder : Builder) (index : Int) : builder.assign index [] = builder := by
  simp [Builder.assign, quotedNames]

/-- Assigning values behind others is assigning them all. -/
theorem assign_assign (builder : Builder) (index : Int) (assigned others : List (Value × Cell)) :
    (builder.assign index assigned).assign (index + assigned.length) others =
      builder.assign index (assigned ++ others) := by
  have hlength : (quotedNames (assigned.map Prod.fst)).length =
      (slotsFrom index ((assigned.map Prod.snd).map Cell.type)).length := by
    simp [quotedNames, length_slotsFrom]
  have hnames : quotedNames ((assigned ++ others).map Prod.fst) =
      quotedNames (assigned.map Prod.fst) ++ quotedNames (others.map Prod.fst) := by
    simp [quotedNames]
  unfold Builder.assign
  rw [hnames, List.map_append, List.map_append, slotsFrom_append, List.zip_append hlength,
    List.map_append, List.length_map, List.length_map, List.append_assoc, List.append_assoc]

theorem next_assign {assigned : List (Value × Cell)} (hnext : before.next = .number index) :
    (before.assign index assigned).next = .number (index + assigned.length) :=
  next_behind hnext rfl (by simp [Builder.assign])

/-- A value that is assigned is bound with the type that its placeholder shows. -/
theorem runs_assign_typed_iff (hnext : before.next = .number index) (htypes : TypesByName types) :
    Runs (Action.assign types name value) before () after ↔
      Identifier.isNameValue name = true ∧ hasNumeral index = true ∧
        after = before.assign index [(name, ⟨value, shownType (typeFor types name) value⟩)] :=
  runs_assign_iff hnext (typeOf_eq htypes name) (slotType_eq (isTypeName_typeFor htypes name) value)

/-- An assignment is refused for its name, before anything is bound. -/
theorem refuses_assign_iff (hnext : before.next = .number index) (htypes : TypesByName types) :
    Refuses (Action.assign types name value) before after ↔
      Identifier.isNameValue name = false ∧ before = after := by
  have hshown := slotType_eq (isTypeName_typeFor htypes name) value
  unfold Action.assign
  rw [typeOf_eq htypes]
  simp only [Refuses.bind_iff, Runs.pure_iff, not_refuses_pure, not_refuses_modify, runs_quote_iff,
    refuses_quote_iff, false_or, or_false, and_false, exists_false]
  constructor
  · rintro ⟨_, _, ⟨rfl, rfl⟩, h | ⟨_, _, ⟨-, rfl, rfl⟩, hbind⟩⟩
    · exact h
    · exact absurd hbind (not_refuses_bind hnext hshown)
  · intro h
    exact ⟨_, _, ⟨rfl, rfl⟩, .inl h⟩

/-- The values of a map that are assigned: those in front of the first key that is no name. -/
def assignedOf (types : Value) (entries : Entries) : List (Value × Cell) :=
  (entries.takeWhile fun entry => Identifier.isNameValue entry.1).map fun entry =>
    (entry.1, ⟨entry.2, shownType (typeFor types entry.1) entry.2⟩)

/-- Assignments that are tried keep those in front of the first one that is refused. -/
theorem tried_set_iff (hnext : before.next = .number index) (htypes : TypesByName types) :
    Tried (Action.set (.map entries) types) before after ↔
      (Start.number index).checkNames (assignedOf types entries).length = .ok () ∧
        after = before.assign index (assignedOf types entries) := by
  rw [show Action.set (.map entries) types =
    entries.forM fun entry => Action.assign types entry.1 entry.2 from rfl]
  induction entries generalizing before index with
  | nil =>
      rw [assignedOf, List.takeWhile_nil, List.map_nil, assign_nil]
      exact Tried.pure_iff.trans (eq_comm.trans (and_iff_right rfl).symm)
  | cons entry rest ih =>
      rw [Tried.forM_cons_iff, refuses_assign_iff hnext htypes]
      simp only [runs_assign_typed_iff hnext htypes]
      cases hname : Identifier.isNameValue entry.1 with
      | false =>
          have hnone : assignedOf types (entry :: rest) = [] := by simp [assignedOf, hname]
          rw [hnone, assign_nil]
          constructor
          · rintro (⟨-, rfl⟩ | ⟨_, ⟨h, -⟩, -⟩)
            · exact ⟨rfl, rfl⟩
            · cases h
          · rintro ⟨-, rfl⟩
            exact .inl ⟨rfl, rfl⟩
      | true =>
          have hone : assignedOf types (entry :: rest) =
              [(entry.1, ⟨entry.2, shownType (typeFor types entry.1) entry.2⟩)] ++
                assignedOf types rest := by
            simp [assignedOf, hname]
          rw [hone, ← assign_assign, List.singleton_append, List.length_cons, checkNames_succ_iff]
          constructor
          · rintro (⟨h, -⟩ | ⟨_, ⟨-, hnumeral, rfl⟩, hrest⟩)
            · cases h
            · obtain ⟨hnames, hafter⟩ := (ih (next_assign hnext)).1 hrest
              exact ⟨⟨hnumeral, hnames⟩, hafter⟩
          · rintro ⟨⟨hnumeral, hnames⟩, hafter⟩
            exact .inr ⟨_, ⟨rfl, hnumeral, rfl⟩, (ih (next_assign hnext)).2 ⟨hnames, hafter⟩⟩

end Set

section Rows

variable {before after : Builder} {index : Int} {types values : Value}

/-- The type at a position, as a value; types that are left out have none. -/
def typeFrom (types : Value) (position : Nat) : Value :=
  ((types.contents?.getD [])[position]?).getD .null

/-- The types of placeholders by position: left out, or at least so many type names in a row. -/
def TypesByPosition (types : Value) (width : Nat) : Prop :=
  types.isTruthy = true → ∃ names, types.asMap? = none ∧ types.contents? = some names ∧
    width ≤ names.length ∧ ∀ name ∈ names, IsTypeName name

/-- Types that are left out are types of nothing. -/
theorem typeFrom_of_isTruthy_eq_false (h : types.isTruthy = false) (position : Nat) :
    typeFrom types position = .null := by
  have hempty : types.contents?.getD [] = [] := by
    cases types with
    | list items | tuple items | map items | bytes items =>
        cases items with
        | nil => rfl
        | cons => cases h
    | text chars => simpa [Value.isTruthy, Value.contents?, Value.asText?] using h
    | _ => first | rfl | cases h
  simp [typeFrom, hempty]

theorem isTypeName_typeFrom {width : Nat} (h : TypesByPosition types width) (position : Nat) :
    IsTypeName (typeFrom types position) := by
  cases htruthy : types.isTruthy with
  | false =>
      rw [typeFrom_of_isTruthy_eq_false htruthy]
      exact isTypeName_null
  | true =>
      obtain ⟨names, -, hnames, -, hall⟩ := h htruthy
      unfold typeFrom
      cases hname : names[position]? with
      | none =>
          rw [hnames, Option.getD_some, hname]
          exact isTypeName_null
      | some name =>
          rw [hnames, Option.getD_some, hname]
          exact hall name (List.mem_of_getElem? hname)

theorem typeAt_eq {width position : Nat} (h : TypesByPosition types width)
    (hposition : position < width) :
    Action.typeAt types position = pure (typeFrom types position) := by
  unfold Action.typeAt
  cases htruthy : types.isTruthy with
  | false =>
      rw [typeFrom_of_isTruthy_eq_false htruthy]
      rfl
  | true =>
      obtain ⟨names, hmap, hnames, hwidth, -⟩ := h htruthy
      have hname : names[position]? = some names[position] :=
        List.getElem?_eq_getElem (Nat.lt_of_lt_of_le hposition hwidth)
      cases types with
      | map => cases hmap
      | _ =>
          simp only [Bool.not_true, Bool.false_eq_true, if_false, Action.contents, hnames,
            pure_bind, hname, typeFrom, Option.getD_some]

/-- The values of a row from a position on, each with the type of its placeholder. -/
def cellsFrom (types : Value) (position : Nat) (items : List Value) : List Cell :=
  (items.zipIdx position).map fun entry => ⟨entry.1, shownType (typeFrom types entry.2) entry.1⟩

theorem map_value_cellsFrom (types : Value) (position : Nat) (items : List Value) :
    (cellsFrom types position items).map Cell.value = items := by
  simp [cellsFrom, Function.comp_def]

theorem length_cellsFrom (types : Value) (position : Nat) (items : List Value) :
    (cellsFrom types position items).length = items.length := by
  simp [cellsFrom]

theorem rowTypes_cellsFrom {width position : Nat} {items : List Value}
    (htypes : TypesByPosition types width) (hwidth : position + items.length ≤ width) :
    RowTypes types position items ((cellsFrom types position items).map Cell.type) := by
  induction items generalizing position with
  | nil => exact .nil
  | cons item rest ih =>
      rw [List.length_cons] at hwidth
      exact .cons (typeAt_eq htypes (by omega))
        (slotType_eq (isTypeName_typeFrom htypes position) item) (ih (by omega))

/-- The placeholders of rows, numbered from row to row. -/
def gridFrom : Int → List (List Cell) → List (List Slot)
  | _, [] => []
  | index, row :: rest =>
    slotsFrom index (row.map Cell.type) :: gridFrom (index + row.length) rest

theorem gridFrom_append (index : Int) (rows others : List (List Cell)) :
    gridFrom index (rows ++ others) =
      gridFrom index rows ++ gridFrom (index + rows.flatten.length) others := by
  induction rows generalizing index with
  | nil => simp [gridFrom]
  | cons row rest ih =>
      simp only [List.cons_append, gridFrom, ih, List.flatten_cons, List.length_append,
        Int.natCast_add, Int.add_assoc]

/-- The placeholders of rows are numbered through, one row behind the other. -/
theorem flatten_gridFrom (index : Int) (rows : List (List Cell)) :
    (gridFrom index rows).flatten = slotsFrom index (rows.flatten.map Cell.type) := by
  induction rows generalizing index with
  | nil => rfl
  | cons row rest ih => simp [gridFrom, slotsFrom_append, ih]

/-- Each row has as many placeholders as values. -/
theorem map_length_gridFrom (index : Int) (rows : List (List Cell)) :
    (gridFrom index rows).map List.length = rows.map List.length := by
  induction rows generalizing index with
  | nil => rfl
  | cons row rest ih => simp [gridFrom, length_slotsFrom, ih]

/-- Rows that are added, bound to placeholders that count from an index. -/
def Builder.addRows (builder : Builder) (index : Int) (rows : List (List Cell)) : Builder :=
  { builder with
    rows := builder.rows ++ gridFrom index rows
    bound := builder.bound ++ rows.flatten.map Cell.value }

theorem addRows_nil (builder : Builder) (index : Int) : builder.addRows index [] = builder := by
  simp [Builder.addRows, gridFrom]

/-- Adding rows behind others is adding them all. -/
theorem addRows_addRows (builder : Builder) (index : Int) (rows others : List (List Cell)) :
    (builder.addRows index rows).addRows (index + rows.flatten.length) others =
      builder.addRows index (rows ++ others) := by
  unfold Builder.addRows
  rw [gridFrom_append, List.flatten_append, List.map_append, List.append_assoc, List.append_assoc]

theorem next_addRows {rows : List (List Cell)} (hnext : before.next = .number index) :
    (before.addRows index rows).next = .number (index + rows.flatten.length) :=
  next_behind hnext rfl (by simp only [Builder.addRows, List.length_append, List.length_map])

/-- A row that is added is bound with the types that its placeholders show. -/
theorem runs_row_typed_iff {items : List Value} (hnext : before.next = .number index)
    (htypes : TypesByPosition types before.columns.length)
    (hitems : values.contents? = some items) :
    Runs (Action.row types values) before () after ↔ items.length = before.columns.length ∧
      (Start.number index).checkNames items.length = .ok () ∧
      after = before.addRows index [cellsFrom types 0 items] := by
  have hadded : before.addRows index [cellsFrom types 0 items] = { before with
      rows := before.rows ++ [slotsFrom index ((cellsFrom types 0 items).map Cell.type)]
      bound := before.bound ++ items } := by
    simp [Builder.addRows, gridFrom, map_value_cellsFrom]
  rw [hadded]
  exact runs_row_iff hnext hitems fun hlength => rowTypes_cellsFrom htypes (by omega)

/-- A row is refused for its width, before anything is bound. -/
theorem refuses_row_iff {items : List Value} (hnext : before.next = .number index)
    (htypes : TypesByPosition types before.columns.length)
    (hitems : values.contents? = some items) :
    Refuses (Action.row types values) before after ↔
      items.length ≠ before.columns.length ∧ before = after := by
  rw [row_eq hitems, Refuses.bind_iff]
  simp only [Runs.get_iff, not_refuses_get, false_or]
  by_cases hlength : items.length = before.columns.length
  · refine iff_of_false ?_ fun h => h.1 hlength
    rintro ⟨_, _, ⟨rfl, rfl⟩, h⟩
    rw [if_pos hlength] at h
    obtain h | ⟨_, _, -, h⟩ := Refuses.bind_iff.1 h
    · exact not_refuses_bindRow hnext (rowTypes_cellsFrom htypes (by omega)) h
    · exact not_refuses_modify h
  · constructor
    · rintro ⟨_, _, ⟨rfl, rfl⟩, h⟩
      rw [if_neg hlength] at h
      obtain ⟨_, h, -⟩ := h
      cases h
      exact ⟨hlength, rfl⟩
    · rintro ⟨-, rfl⟩
      refine ⟨before, before, ⟨rfl, rfl⟩, ?_⟩
      rw [if_neg hlength]
      exact ⟨_, rfl, .of_refusal nofun ⟨_, rfl, rfl⟩⟩

/-- The rows that are added: those in front of the first one of another width. -/
def rowsOf (types : Value) (width : Nat) (rows : List Value) : List (List Cell) :=
  ((rows.map fun row => row.contents?.getD []).takeWhile fun items => items.length = width).map
    (cellsFrom types 0)

/-- Rows that are tried keep those in front of the first one that is refused. -/
theorem tried_values_iff {rows : List Value} (hnext : before.next = .number index)
    (htypes : TypesByPosition types before.columns.length) (hvalues : values.elements? = some rows)
    (hrows : ∀ row ∈ rows, ∃ items, row.contents? = some items) :
    Tried (Action.values values types) before after ↔
      (Start.number index).checkNames (rowsOf types before.columns.length rows).flatten.length =
          .ok () ∧
        after = before.addRows index (rowsOf types before.columns.length rows) := by
  have hloop : Action.values values types = rows.forM (Action.row types) := by
    simp [Action.values, Action.elements, hvalues]
  rw [hloop]
  clear hloop hvalues
  induction rows generalizing before index with
  | nil =>
      rw [rowsOf, List.map_nil, List.takeWhile_nil, List.map_nil, addRows_nil]
      exact Tried.pure_iff.trans (eq_comm.trans (and_iff_right rfl).symm)
  | cons row rest ih =>
      obtain ⟨⟨items, hitems⟩, hrest⟩ := List.forall_mem_cons.1 hrows
      rw [Tried.forM_cons_iff, refuses_row_iff hnext htypes hitems]
      simp only [runs_row_typed_iff hnext htypes hitems]
      by_cases hlength : items.length = before.columns.length
      · have hone : rowsOf types before.columns.length (row :: rest) =
            [cellsFrom types 0 items] ++ rowsOf types before.columns.length rest := by
          simp [rowsOf, hitems, hlength]
        have hflat : ([cellsFrom types 0 items] : List (List Cell)).flatten.length =
            items.length := by simp [length_cellsFrom]
        have hother := @ih (before.addRows index [cellsFrom types 0 items]) _
          (next_addRows hnext) htypes hrest
        rw [hflat] at hother
        rw [hone, ← addRows_addRows, List.flatten_append, List.length_append, checkNames_add_iff,
          hflat]
        constructor
        · rintro (⟨h, -⟩ | ⟨_, ⟨-, hnames, rfl⟩, h⟩)
          · exact absurd hlength h
          · obtain ⟨hothers, hafter⟩ := hother.1 h
            exact ⟨⟨hnames, hothers⟩, hafter⟩
        · rintro ⟨⟨hnames, hothers⟩, hafter⟩
          exact .inr ⟨_, ⟨hlength, hnames, rfl⟩, hother.2 ⟨hothers, hafter⟩⟩
      · have hnone : rowsOf types before.columns.length (row :: rest) = [] := by
          simp [rowsOf, hitems, hlength]
        rw [hnone, addRows_nil]
        constructor
        · rintro (⟨-, rfl⟩ | ⟨_, ⟨h, -⟩, -⟩)
          · exact ⟨rfl, rfl⟩
          · exact absurd h hlength
        · rintro ⟨-, rfl⟩
          exact .inl ⟨hlength, rfl⟩

end Rows

end TypedSql.Statement
