import TypedSql.Proofs.Statement.Binding
import TypedSql.Proofs.Statement.Query
import TypedSql.Proofs.Value.Display

/-!
# Selections

What the actions of a selection do to a builder, and which placeholders the selection shows once it
is written: those of its conditions and no others, for everything else is made of quoted names,
numbers and keywords.
-/

namespace TypedSql.Statement

open TypedSql.Sql TypedSql.Outcome

section Names

variable {before after : Builder}

theorem isPlain_backquoted {name : Value} (h : Identifier.isNameValue name = true) :
    IsPlain (Identifier.backquoted name.display) :=
  isPlain_of_isQuoted (Identifier.isQuoted_backquoted h)

/-- Quoted names have no braces. -/
theorem isPlain_of_mem_quotedNames {names : List Value}
    (h : ∀ name ∈ names, Identifier.isNameValue name = true) {text : String}
    (htext : text ∈ quotedNames names) : IsPlain text := by
  obtain ⟨name, hname, rfl⟩ := List.mem_map.1 htext
  exact isPlain_backquoted (h name hname)

/-- The text of a selected field; a star stands for itself. -/
def fieldText (name : Value) : String :=
  if name.asText? = some "*" then "*" else Identifier.backquoted name.display

theorem runs_field {name : Value} {text : String}
    (h : Runs (Action.field name) before text after) :
    text = fieldText name ∧ IsPlain text ∧ before = after := by
  unfold Action.field at h
  unfold fieldText
  split at h
  · next hstar =>
      obtain ⟨rfl, rfl⟩ := Runs.pure_iff.1 h
      exact ⟨(if_pos hstar).symm, by decide, rfl⟩
  · next hstar =>
      obtain ⟨hname, rfl, rfl⟩ := runs_quote_iff.1 h
      exact ⟨(if_neg hstar).symm, isPlain_backquoted hname, rfl⟩

theorem runs_fields {names : List Value} {texts : List String}
    (h : Runs (names.mapM Action.field) before texts after) :
    texts = names.map fieldText ∧ (∀ text ∈ texts, IsPlain text) ∧ before = after := by
  induction names generalizing before texts with
  | nil =>
      obtain ⟨rfl, rfl⟩ := Runs.pure_iff.1 h
      simp
  | cons name rest ih =>
      obtain ⟨text, between, others, hname, hrest, rfl⟩ := Runs.mapM_cons_iff.1 h
      obtain ⟨rfl, hplain, rfl⟩ := runs_field hname
      obtain ⟨rfl, hplains, rfl⟩ := ih hrest
      exact ⟨rfl, List.forall_mem_cons.2 ⟨hplain, hplains⟩, rfl⟩

/-- The names that a selection of fields selects; without any it is all of them. -/
def selectedNames (fields : Value) : Option (List Value) :=
  if fields.isTruthy then fields.elements? else some [.text "*"]

/-- A selection shows its fields in order. -/
theorem runs_select {fields : Value} (h : Runs (Action.select fields) before () after) :
    ∃ names, selectedNames fields = some names ∧ (∀ text ∈ names.map fieldText, IsPlain text) ∧
      after = { before with
        verb := some .select
        selected := (names.map fieldText).map .text } := by
  obtain ⟨_, _, hverb, h⟩ := Runs.bind_iff.1 h
  obtain rfl := runs_setVerb hverb
  unfold selectedNames
  cases htruthy : fields.isTruthy with
  | false =>
      simp only [htruthy, Bool.false_eq_true, if_false] at h
      obtain ⟨_, _, hpure, h⟩ := Runs.bind_iff.1 h
      obtain ⟨rfl, rfl⟩ := Runs.pure_iff.1 hpure
      obtain ⟨_, _, hfields, h⟩ := Runs.bind_iff.1 h
      obtain ⟨rfl, hplain, rfl⟩ := runs_fields hfields
      exact ⟨_, rfl, hplain, (Runs.modify_iff.1 h).symm⟩
  | true =>
      simp only [htruthy, if_true] at h
      obtain ⟨_, _, hrun, h⟩ := Runs.bind_iff.1 h
      obtain ⟨helements, rfl⟩ := runs_elements_iff.1 hrun
      obtain ⟨_, _, hfields, h⟩ := Runs.bind_iff.1 h
      obtain ⟨rfl, hplain, rfl⟩ := runs_fields hfields
      exact ⟨_, by simpa using helements, hplain, (Runs.modify_iff.1 h).symm⟩

theorem runs_selectRaw {expressions : List Value}
    (h : Runs (Action.selectRaw expressions) before () after) :
    after = { before with verb := some .select, selected := expressions } :=
  (Runs.modify_iff.1 h).symm

theorem runs_groupByFields {names : List Value}
    (h : Runs (names.forM Action.groupByField) before () after) :
    (∀ name ∈ names, Identifier.isNameValue name = true) ∧
      after = { before with grouping := before.grouping ++ quotedNames names } := by
  induction names generalizing before with
  | nil =>
      obtain rfl := Runs.forM_nil_iff.1 h
      simp [quotedNames]
  | cons name rest ih =>
      obtain ⟨between, hfield, hrest⟩ := Runs.forM_cons_iff.1 h
      obtain ⟨_, _, hquote, hmodify⟩ := Runs.bind_iff.1 hfield
      obtain ⟨hname, rfl, rfl⟩ := runs_quote_iff.1 hquote
      obtain rfl := Runs.modify_iff.1 hmodify
      obtain ⟨hnames, rfl⟩ := ih hrest
      exact ⟨List.forall_mem_cons.2 ⟨hname, hnames⟩, by simp [quotedNames]⟩

/-- The fields of a grouping are added in order. -/
theorem runs_groupBy {fields : Value} (h : Runs (Action.groupBy fields) before () after) :
    ∃ names, fields.elements? = some names ∧
      (∀ name ∈ names, Identifier.isNameValue name = true) ∧
      after = { before with grouping := before.grouping ++ quotedNames names } := by
  obtain ⟨names, _, hrun, h⟩ := Runs.bind_iff.1 h
  obtain ⟨helements, rfl⟩ := runs_elements_iff.1 hrun
  exact ⟨names, helements, runs_groupByFields h⟩

/-- A direction that passes the check is one of the two. -/
theorem checkDirection_mem {direction : Value} {known : String}
    (h : Action.checkDirection direction = .ok known) : known ∈ Action.directions := by
  unfold Action.checkDirection at h
  split at h
  · cases h
  · split at h
    · next hfilter =>
        cases h
        simpa using (Option.filter_eq_some_iff.1 hfilter).2
    · cases h

/-- A field of an ordering is added with its direction. -/
theorem runs_orderBy {name direction : Value}
    (h : Runs (Action.orderBy name direction) before () after) :
    ∃ known ∈ Action.directions, Action.checkDirection direction = .ok known ∧
      Identifier.isNameValue name = true ∧
      after = { before with
        ordering := before.ordering ++ [Identifier.backquoted name.display ++ " " ++ known] } := by
  obtain ⟨known, _, hrun, h⟩ := Runs.bind_iff.1 h
  obtain ⟨hcheck, rfl⟩ := Runs.ofExcept_iff.1 hrun
  obtain ⟨_, _, hquote, h⟩ := Runs.bind_iff.1 h
  obtain ⟨hname, rfl, rfl⟩ := runs_quote_iff.1 hquote
  exact ⟨known, checkDirection_mem hcheck, hcheck, hname, (Runs.modify_iff.1 h).symm⟩

/-- A number of rows that is there replaces the one before. -/
theorem runs_limit {count : Option Int}
    (h : Runs ((count.map Value.int).forM Action.limit) before () after) :
    after = { before with limit := count.orElse fun _ => before.limit } := by
  cases count with
  | none => exact (Runs.pure_iff.1 h).2.symm
  | some number =>
      obtain ⟨_, _, hrun, h⟩ := Runs.bind_iff.1 h
      obtain ⟨hwhole, rfl⟩ := Runs.ofExcept_iff.1 hrun
      cases hwhole
      exact (Runs.modify_iff.1 h).symm

theorem runs_offset {count : Option Int}
    (h : Runs ((count.map Value.int).forM Action.offset) before () after) :
    after = { before with offset := count.orElse fun _ => before.offset } := by
  cases count with
  | none => exact (Runs.pure_iff.1 h).2.symm
  | some number =>
      obtain ⟨_, _, hrun, h⟩ := Runs.bind_iff.1 h
      obtain ⟨hwhole, rfl⟩ := Runs.ofExcept_iff.1 hrun
      cases hwhole
      exact (Runs.modify_iff.1 h).symm

end Names

section Written

theorem fragmentTexts_map_text (texts : List String) :
    Builder.fragmentTexts (texts.map .text) = .ok texts := by
  induction texts with
  | nil => rfl
  | cons text rest ih =>
      rw [List.map_cons, Builder.fragmentTexts, mapM_cons_eq_ok]
      exact ⟨text, rest, rfl, ih, rfl⟩

/-- The selection that a builder shows: the given expressions, or all fields without any. -/
theorem selection_map_text {builder : Builder} {expressions : List String}
    (hselected : builder.selected = expressions.map .text) (h : expressions ≠ []) :
    builder.selection = .ok expressions := by
  unfold Builder.selection
  rw [hselected, fragmentTexts_map_text]
  cases expressions with
  | nil => exact absurd rfl h
  | cons => rfl

theorem selectionHead_all (table : String) :
    selectionHead ["*"] table = "SELECT * FROM " ++ table := by
  rw [selectionHead, Value.commaSeparated_singleton]
  rfl

/-- A selection with conditions is its head and the conditions. -/
theorem build_selection {table : String} {expressions : List String} (h : expressions ≠ [])
    (conditions : List String) :
    ({ verb := some .select, table := some table, selected := expressions.map .text
       conditions := conditions.map .text } : Builder).build =
      .ok { sql := " ".intercalate
              (selectionHead expressions table :: Builder.clause "WHERE" " AND " conditions)
            parameters := [] } := by
  have hparts : ({ verb := some .select, table := some table, selected := expressions.map .text
                   conditions := conditions.map .text } : Builder).parts =
      .ok (("SELECT " ++ Value.commaSeparated expressions) :: ("FROM " ++ table) ::
        Builder.clause "WHERE" " AND " conditions) := by
    rw [Builder.parts, selection_map_text rfl h]
    simp only [Builder.tail, fragmentTexts_map_text]
    show Except.ok (_ :: _ :: (_ ++ [] ++ [] ++ [] ++ [] ++ [])) = _
    simp only [List.append_nil]
  have hhead : selectionHead expressions table =
      ("SELECT " ++ Value.commaSeparated expressions ++ " ") ++ ("FROM " ++ table) := by
    rw [selectionHead, show " FROM " = " " ++ "FROM " from rfl]
    simp only [String.append_assoc]
  rw [Builder.build, hparts, hhead, String.intercalate_cons_append]
  show Except.ok _ = _
  rw [String.intercalate_cons_cons]

/-- A selection that is built without a limit is built with one behind all else. -/
theorem build_limited {builder : Builder} {query : Query}
    (hverb : builder.verb = some .select) (hlimit : builder.limit = none)
    (hoffset : builder.offset = none) (hendings : builder.endings = [])
    (h : builder.build = .ok query) :
    ({ builder with limit := some 1 } : Builder).build =
      .ok { query with sql := query.sql ++ " LIMIT 1" } := by
  have hone : Builder.numberClause "LIMIT" (some 1) = .ok ["LIMIT 1"] := by
    have hnumeral : (Value.int 1).displayed = .ok "1" :=
      Value.displayed_eq_ok.2 ⟨by decide +kernel, rfl⟩
    rw [Builder.numberClause, hnumeral]
    rfl
  have hnone : ∀ keyword, Builder.numberClause keyword none = .ok [] := fun _ => rfl
  have htexts : Builder.fragmentTexts [] = .ok [] := rfl
  simp only [Builder.build, Builder.parts, Builder.tail, hverb, hlimit, hoffset, hendings, hnone,
    htexts, hone, bind_eq_ok, pure_eq_ok, Except.ok.injEq, exists_eq_left', List.append_nil]
    at h ⊢
  obtain ⟨texts, ⟨selection, hselection, table, htable, tail, ⟨conditions, hconditions, rfl⟩, rfl⟩,
    rfl⟩ := h
  refine ⟨_, ⟨selection, hselection, table, htable, _, ⟨conditions, hconditions, rfl⟩, rfl⟩, ?_⟩
  rw [← List.cons_append, ← List.cons_append, String.intercalate_append_of_ne_nil
    (List.cons_ne_nil _ _) (List.cons_ne_nil _ _), String.intercalate_singleton,
    show " LIMIT 1" = " " ++ "LIMIT 1" from rfl, String.append_assoc]

/-- A clause shows what its parts show. -/
theorem showsEach_clause {keyword separator : String} (hkeyword : IsPlain keyword)
    (hseparator : IsPlain separator) {parts : List String} {slots : List Slot}
    (h : ShowsEach parts slots) : ShowsEach (Builder.clause keyword separator parts) slots := by
  unfold Builder.clause
  split
  · next hempty =>
      obtain rfl := List.isEmpty_iff.1 hempty
      exact h
  · have hfirst : Shows (keyword ++ " ") [] := Shows.plain (hkeyword.append (by decide))
    exact ShowsEach.single (hfirst.append (h.intercalate hseparator))

/-- A clause with a number is one whose only item is the numeral. -/
theorem numberClause_eq_ok {keyword : String} {count : Option Int} {texts : List String}
    (h : Builder.numberClause keyword count = .ok texts) :
    texts = Builder.clause keyword "" (count.toList.map toString) := by
  cases count with
  | none =>
      cases h
      rfl
  | some number =>
      obtain ⟨numeral, hnumeral, h⟩ := bind_eq_ok.1 h
      obtain rfl := pure_eq_ok.1 h
      rw [← (Value.displayed_eq_ok.1 hnumeral).2]
      rfl

/-- A number of rows shows no placeholder. -/
theorem showsEach_numberClause {keyword : String} (hkeyword : IsPlain keyword)
    {count : Option Int} {texts : List String}
    (h : Builder.numberClause keyword count = .ok texts) :
    ShowsEach texts [] := by
  rw [numberClause_eq_ok h]
  refine showsEach_clause hkeyword (by decide) (ShowsEach.plain ?_)
  refine List.forall_mem_map.2 fun number _ => ?_
  exact ⟨not_mem_numeral (by decide) (by decide) number,
    not_mem_numeral (by decide) (by decide) number⟩

/-- A selection all of whose fixed parts are plain, with some conditions. -/
structure IsSelection (builder : Builder) (conditions : List String) : Prop where
  verb : builder.verb = some .select
  table : ∀ table, builder.table = some table → IsPlain table
  selected : ∃ texts : List String, builder.selected = texts.map .text ∧
    ∀ text ∈ texts, IsPlain text
  conditions : builder.conditions = conditions.map .text
  grouping : ∀ text ∈ builder.grouping, IsPlain text
  ordering : ∀ text ∈ builder.ordering, IsPlain text
  endings : builder.endings = []

variable {builder : Builder} {conditions : List String} {slots : List Slot}

/-- What stands behind the head of a selection shows what its conditions show. -/
theorem IsSelection.showsEach_tail (hselection : IsSelection builder conditions)
    (hconditions : ShowsEach conditions slots) {texts : List String}
    (h : builder.tail = .ok texts) : ShowsEach texts slots := by
  obtain ⟨known, hknown, h⟩ := bind_eq_ok.1 h
  obtain ⟨limit, hlimit, h⟩ := bind_eq_ok.1 h
  obtain ⟨offset, hoffset, h⟩ := bind_eq_ok.1 h
  obtain ⟨endings, hendings, h⟩ := bind_eq_ok.1 h
  obtain rfl := pure_eq_ok.1 h
  -- only the conditions show placeholders; every other clause is plain
  rw [hselection.conditions, fragmentTexts_map_text] at hknown
  rw [hselection.endings] at hendings
  cases hknown
  cases hendings
  have hwhere : ShowsEach (Builder.clause "WHERE" " AND " conditions) slots :=
    showsEach_clause (by decide) (by decide) hconditions
  have hgrouping : ShowsEach (Builder.clause "GROUP BY" ", " builder.grouping) [] :=
    showsEach_clause (by decide) (by decide) (ShowsEach.plain hselection.grouping)
  have hordering : ShowsEach (Builder.clause "ORDER BY" ", " builder.ordering) [] :=
    showsEach_clause (by decide) (by decide) (ShowsEach.plain hselection.ordering)
  have hlimits := showsEach_numberClause (by decide) hlimit
  have hoffsets := showsEach_numberClause (by decide) hoffset
  simpa using ((((hwhere.append hgrouping).append hordering).append hlimits).append
    hoffsets).append ShowsEach.nil

/-- A selection shows what its conditions show. -/
theorem IsSelection.shows_build (hselection : IsSelection builder conditions)
    (hconditions : ShowsEach conditions slots) {query : Query} (h : builder.build = .ok query) :
    Shows query.sql slots ∧ query.parameters = builder.bound := by
  obtain ⟨parts, hparts, h⟩ := bind_eq_ok.1 h
  obtain rfl := pure_eq_ok.1 h
  refine ⟨ShowsEach.intercalate (by decide) ?_, rfl⟩
  simp only [Builder.parts, hselection.verb] at hparts
  obtain ⟨fields, hfields, hparts⟩ := bind_eq_ok.1 hparts
  obtain ⟨table, htable, hparts⟩ := bind_eq_ok.1 hparts
  obtain ⟨tail, htail, hparts⟩ := bind_eq_ok.1 hparts
  obtain rfl := pure_eq_ok.1 hparts
  have hselected : ∀ text ∈ fields, IsPlain text := by
    obtain ⟨texts, hselected, hplain⟩ := hselection.selected
    unfold Builder.selection at hfields
    rw [hselected, fragmentTexts_map_text] at hfields
    split at hfields
    · cases hfields
      decide
    · cases hfields
      exact hplain
  have hfieldTexts : Shows (Value.commaSeparated fields) [] :=
    (ShowsEach.plain hselected).intercalate (by decide)
  have hhead : Shows ("SELECT " ++ Value.commaSeparated fields) [] :=
    (Shows.plain (by decide)).append hfieldTexts
  have htableText : IsPlain ("FROM " ++ table) := by
    refine IsPlain.append (by decide) (hselection.table table ?_)
    unfold Builder.tableText at htable
    split at htable
    · cases htable
      assumption
    · cases htable
  exact ShowsEach.cons hhead (ShowsEach.cons (Shows.plain htableText)
    (hselection.showsEach_tail hconditions htail))

end Written

end TypedSql.Statement
