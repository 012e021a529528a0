import TypedSql.Runtime
import TypedSql.Table.Draft
import TypedSql.Proofs.Column.Definition
import TypedSql.Proofs.Column.Lenient
import TypedSql.Proofs.Column.Measured
import TypedSql.Proofs.Number.Numeral
import TypedSql.Proofs.Number.Power
import TypedSql.Proofs.Table.Ddl
import TypedSql.Proofs.Value.Amount

/-!
# Reachable tables

The tables that come about by defining, describing, drafting and deriving, in any order and number.
What each of these steps makes is valid, so every reachable table is. Where the columns that are
given have been made before, all columns of a reachable table are made, and with nothing but whole
numbers for dimensions `reachable_tables_render` says what the table requires of them, what its
statement shows and when there is one.
-/

namespace TypedSql

open TypedSql.Number TypedSql.Outcome TypedSql.Keyed

/-- Whether the definitions in a map are admitted. -/
def Value.AllAdmitted (admits : Column → Prop) : Value → Prop
  | .map entries => ∀ entry ∈ entries, entry.2.Admitted admits
  | _ => True

namespace Draft

variable [Coercion] {admits : Column → Prop}

/-- A call that puts a column into a draft. -/
inductive Collects (admits : Column → Prop) (draft : Draft) : Draft → Prop
  | column {name definition : Value} {next : Draft} (given : definition.Admitted admits)
      (h : draft.column name definition = .ok next) : Collects admits draft next
  | typed {name : Value} {kind : Kind} {settings : Entries} {next : Draft}
      (h : draft.typed name kind settings = .ok next) : Collects admits draft next
  | array {name elementKind : Value} {settings : Entries} {next : Draft}
      (h : draft.array name elementKind settings = .ok next) : Collects admits draft next
  | enumeration {name values : Value} {settings : Entries} {next : Draft}
      (h : draft.enumeration name values settings = .ok next) : Collects admits draft next

/-- The drafts that calls make of the empty one. -/
inductive Reachable (admits : Column → Prop) : Draft → Prop
  | empty : Reachable admits {}
  | collected {draft next : Draft} (before : Reachable admits draft)
      (call : Collects admits draft next) : Reachable admits next

variable {draft next : Draft}

/-- However a column is given, the draft puts it under its name. -/
theorem Collects.exists_put (h : Collects admits draft next) :
    ∃ name definition column, definition.Admitted admits ∧
      Column.ofDefinition definition name = .ok column ∧
        next.columns = draft.columns.put name column := by
  have hput {name definition : Value} (given : definition.Admitted admits)
      (h : draft.column name definition = .ok next) :
      ∃ name definition column, definition.Admitted admits ∧
        Column.ofDefinition definition name = .ok column ∧
          next.columns = draft.columns.put name column := by
    simp only [Draft.column, bind_eq_ok, pure_eq_ok] at h
    obtain ⟨column, hcolumn, -, -, rfl⟩ := h
    exact ⟨name, definition, column, given, hcolumn, rfl⟩
  cases h with
  | column given h => exact hput given h
  | typed h => exact hput (Value.admitted_map _) h
  | array h => exact hput (Value.admitted_map _) h
  | @enumeration name values settings _ h =>
      unfold Draft.enumeration at h
      split at h
      · exact hput (Value.admitted_map _) h
      · cases h

/-- A draft has its columns under different names. -/
theorem Reachable.hasDistinctKeys (h : Reachable admits draft) : HasDistinctKeys draft.columns := by
  induction h with
  | empty => exact hasDistinctKeys_nil
  | collected _ call ih =>
      obtain ⟨name, _, column, -, -, hcolumns⟩ := call.exists_put
      rw [hcolumns]
      exact ih.put name column

/-- The columns of a draft are made if those that are given are. -/
theorem Reachable.isMade (h : Reachable Column.IsMade draft) :
    ∀ entry ∈ draft.columns, entry.2.IsMade := by
  induction h with
  | empty => exact fun _ hmem => absurd hmem List.not_mem_nil
  | collected _ call ih =>
      obtain ⟨name, _, column, given, hcolumn, hcolumns⟩ := call.exists_put
      rw [hcolumns]
      exact forall_item_put ih name (Column.isMade_of_ofDefinition given hcolumn)

end Draft

namespace Table

section Calls

variable [Coercion] {admits : Column → Prop}

/-- A call that derives a table from another one. -/
inductive Derives (admits : Column → Prop) (table : Table) : Table → Prop
  | added {name definition : Value} {next : Table} (given : definition.Admitted admits)
      (h : table.addColumn name definition = .ok next) : Derives admits table next
  | removed {name : Value} {next : Table} (h : table.removeColumn name = .ok next) :
      Derives admits table next
  | changed {name changes : Value} {named : Entries} {next : Table}
      (h : table.modifyColumn name changes named = .ok next) : Derives admits table next
  | cloned {definitions : Entries} {next : Table}
      (given : ∀ entry ∈ definitions, entry.2.Admitted admits)
      (h : table.clone definitions = .ok next) : Derives admits table next

/-- The tables that calls make where only some columns are given as definitions. A map that is given
has every key once, as maps do. -/
inductive ReachableFrom (admits : Column → Prop) : Table → Prop
  | defined {name definition : Value} {table : Table} (given : definition.AllAdmitted admits)
      (keys : definition.HasDistinctKeys) (h : ofDefinition name definition = .ok table) :
      ReachableFrom admits table
  | described {description columns : Value} {table : Table}
      (read : require description "columns" = .ok columns) (given : columns.AllAdmitted admits)
      (keys : columns.HasDistinctKeys) (h : ofDescription description = .ok table) :
      ReachableFrom admits table
  | built {draft : Draft} {name : Value} {table : Table} (before : draft.Reachable admits)
      (h : draft.build name = .ok table) : ReachableFrom admits table
  | derived {table next : Table} (before : ReachableFrom admits table)
      (call : Derives admits table next) : ReachableFrom admits next

/-- The tables that calls make, whatever columns are given. -/
abbrev Reachable (table : Table) : Prop := table.ReachableFrom fun _ => True

variable {table next : Table}

/-- A table that is made of a definition is reachable. -/
theorem reachable_of_ofDefinition {name definition : Value} (keys : definition.HasDistinctKeys)
    (h : ofDefinition name definition = .ok table) : table.Reachable := by
  refine .defined ?_ keys h
  cases definition with
  | map entries =>
      intro entry _
      cases entry.2 <;> trivial
  | _ => trivial

/-- What is derived from a valid table is valid. -/
theorem Derives.valid (call : Derives admits table next) (h : table.Valid) : next.Valid := by
  have hkeys := h.hasDistinctKeys
  cases call with
  | @added name definition _ _ h =>
      simp only [addColumn, bind_eq_ok] at h
      obtain ⟨isKnown, -, h⟩ := h
      split at h
      · cases h
      · obtain ⟨column, -, h⟩ := bind_eq_ok.1 h
        obtain ⟨-, -, h⟩ := bind_eq_ok.1 h
        exact valid_of_ofColumns (hkeys.put name column) h
  | @removed name _ h =>
      simp only [removeColumn, bind_eq_ok] at h
      obtain ⟨-, -, h⟩ := h
      exact valid_of_ofColumns (hkeys.filter _) h
  | @changed name changes named _ h =>
      simp only [modifyColumn, bind_eq_ok] at h
      obtain ⟨-, -, -, -, column, -, -, -, h⟩ := h
      exact valid_of_ofColumns (hkeys.put name column) h
  | @cloned definitions _ _ h =>
      have hdefinition : HasDistinctKeys table.definition :=
        hkeys.congr (by simp [definition, definitionOf])
      have hmap : Value.HasDistinctKeys (.map (putAll table.definition definitions)) :=
        hdefinition.putAll definitions
      exact valid_of_ofDefinition hmap h

/-- Every reachable table is valid. -/
theorem ReachableFrom.valid (h : table.ReachableFrom admits) : table.Valid := by
  induction h with
  | defined _ keys h => exact valid_of_ofDefinition keys h
  | described read _ keys h =>
      simp only [ofDescription, bind_eq_ok] at h
      obtain ⟨name, -, columns, hcolumns, h⟩ := h
      rw [read] at hcolumns
      cases hcolumns
      exact valid_of_ofDefinition keys h
  | built before h => exact valid_of_ofColumns before.hasDistinctKeys h
  | derived _ call ih => exact call.valid ih

section Made

/-- The columns of a table stand for definitions that it is made of. -/
theorem exists_definition_of_mem {name : Value} {entries : Entries}
    (h : ofDefinition name (.map entries) = .ok table) :
    ∀ entry ∈ table.columns, ∃ known ∈ entries,
      Column.ofDefinition known.2 known.1 = .ok entry.2 := by
  simp only [ofDefinition, bind_eq_ok, pure_eq_ok] at h
  obtain ⟨_, -, columns, hcolumns, _, -, rfl⟩ := h
  rintro ⟨text, column⟩ hentry
  obtain ⟨key, hmem, -⟩ := mem_withTextNames.1 hentry
  obtain ⟨known, hknown, hstep⟩ := exists_of_mem_mapM hcolumns hmem
  obtain ⟨copy, hcopy, hpair⟩ := bind_eq_ok.1 hstep
  cases hpair
  exact ⟨known, hknown, hcopy⟩

/-- The columns of a table are made if the definitions that it is made of are. -/
theorem isMade_of_ofDefinition {name definition : Value}
    (given : definition.AllAdmitted Column.IsMade) (h : ofDefinition name definition = .ok table) :
    ∀ entry ∈ table.columns, entry.2.IsMade := by
  cases definition with
  | map entries =>
      intro entry hentry
      obtain ⟨known, hknown, hcolumn⟩ := exists_definition_of_mem h entry hentry
      exact Column.isMade_of_ofDefinition (given known hknown) hcolumn
  | _ =>
      obtain ⟨_, -, h⟩ := bind_eq_ok.1 h
      cases h

/-- The columns of a table are made if those that it is made of are. -/
theorem isMade_of_ofColumns {name : Value} {columns : Keyed Column}
    (given : ∀ entry ∈ columns, entry.2.IsMade) (h : ofColumns name columns = .ok table) :
    ∀ entry ∈ table.columns, entry.2.IsMade := by
  refine isMade_of_ofDefinition ?_ h
  refine List.forall_mem_map.2 fun entry hentry => ?_
  exact given entry hentry

/-- What is derived from a table has made columns if the table has. -/
theorem Derives.isMade (call : Derives Column.IsMade table next)
    (h : ∀ entry ∈ table.columns, entry.2.IsMade) : ∀ entry ∈ next.columns, entry.2.IsMade := by
  have hkeyed : ∀ entry ∈ table.keyed, entry.2.IsMade := List.forall_mem_map.2 h
  cases call with
  | @added name definition _ given h =>
      simp only [addColumn, bind_eq_ok] at h
      obtain ⟨isKnown, -, h⟩ := h
      split at h
      · cases h
      · obtain ⟨column, hcolumn, h⟩ := bind_eq_ok.1 h
        obtain ⟨-, -, h⟩ := bind_eq_ok.1 h
        have hmade := Column.isMade_of_ofDefinition given hcolumn
        exact isMade_of_ofColumns (forall_item_put hkeyed name hmade) h
  | @removed name _ h =>
      simp only [removeColumn, bind_eq_ok] at h
      obtain ⟨-, -, h⟩ := h
      exact isMade_of_ofColumns (fun entry hentry => hkeyed entry (List.mem_of_mem_filter hentry)) h
  | @changed name changes named _ h =>
      simp only [modifyColumn, bind_eq_ok] at h
      obtain ⟨_, -, _, -, column, hcolumn, -, -, h⟩ := h
      have hmade := Column.isMade_of_ofDefinition (Value.admitted_map _) hcolumn
      exact isMade_of_ofColumns (forall_item_put hkeyed name hmade) h
  | @cloned definitions _ given h =>
      have hdefinition : ∀ entry ∈ table.definition, entry.2.Admitted Column.IsMade :=
        List.forall_mem_map.2 hkeyed
      have hall : Value.AllAdmitted Column.IsMade (.map (putAll table.definition definitions)) :=
        forall_item_putAll hdefinition given
      exact isMade_of_ofDefinition hall h

/-- The columns of a reachable table are made if those that are given are. -/
theorem ReachableFrom.isMade (h : table.ReachableFrom Column.IsMade) :
    ∀ entry ∈ table.columns, entry.2.IsMade := by
  induction h with
  | defined given _ h => exact isMade_of_ofDefinition given h
  | described read given _ h =>
      simp only [ofDescription, bind_eq_ok] at h
      obtain ⟨name, -, columns, hcolumns, h⟩ := h
      rw [read] at hcolumns
      cases hcolumns
      exact isMade_of_ofDefinition given h
  | built before h => exact isMade_of_ofColumns before.isMade h
  | derived _ call ih => exact call.isMade ih

end Made

/-- A reachable table is valid, and its dimensions are whole numbers as the kinds require. It has a
statement that creates it exactly if all numbers in the statement can be written, and the statement
shows every column once, in the order of the columns, and orders by one of them. -/
theorem reachable_tables_render [WholeDimensions] (h : table.ReachableFrom Column.IsMade)
    (engine partitionBy : String) (ifNotExists : Bool) (settings : Entries) :
    table.Valid ∧ (∀ entry ∈ table.columns, entry.2.Measured) ∧
      table.orderingColumn ∈ table.columnNames ∧
      ((∃ sql, table.createText (unordered engine partitionBy ifNotExists settings) = .ok sql) ↔
        (∀ entry ∈ table.columns, entry.2.HasNumerals) ∧
          ∀ setting ∈ settings, SettingHasNumerals setting) ∧
      ∀ sql, table.createText (unordered engine partitionBy ifNotExists settings) = .ok sql ↔
        ∃ lines, List.Forall₂ IsLine table.columns lines ∧
          ∃ assignments, List.Forall₂ IsAssignment settings assignments ∧
            sql = table.creation engine partitionBy ifNotExists lines assignments :=
  ⟨h.valid, fun entry hentry => (h.valid.columns entry hentry).measured
      (h.isMade entry hentry).loose_eq_nil,
    h.valid.orderingColumn_mem, h.valid.exists_createText_iff, fun _ => h.valid.createText_eq_ok⟩

end Calls

/-- A table with a column of eight octets, for the case below. -/
def octets : Table :=
  { name := "t", columns := [("tag", { kind := .fixedString, length := some 8 })] }

/-- The table of octets comes of a draft that is built and cloned, also where only whole numbers are
read for dimensions. -/
theorem octets_reachable :
    letI := Column.Lenient.strictCoercion
    octets.ReachableFrom Column.IsMade := by
  let _ := Column.Lenient.strictCoercion
  have hcolumn : ({} : Draft).column (.text "tag")
      (.map [(.text "type", .text "FixedString"), (.text "length", .int 8)]) =
        .ok { columns := octets.keyed } := by rfl
  have hbuild : ({ columns := octets.keyed } : Draft).build (.text "t") = .ok octets := by rfl
  have hclone : octets.clone [] = .ok octets := by rfl
  exact .derived (.built (.collected .empty (.column (Value.admitted_map _) hcolumn)) hbuild)
    (.cloned (fun _ h => absurd h List.not_mem_nil) hclone)

/-- The statement that creates the table of octets. -/
theorem octets_render :
    letI := Column.Lenient.strictCoercion
    octets.ReachableFrom Column.IsMade ∧ octets.createText (unordered "" "" false []) = .ok
      "CREATE TABLE `t` (\n  `tag` FixedString(8)\n)\nENGINE = MergeTree()\nORDER BY `tag`" := by
  let _ := Column.Lenient.strictCoercion
  have htype : ({ kind := .fixedString, length := some 8 } : Column).typeText =
      .ok "FixedString(8)" := by
    have hnumeral : hasNumeral 8 = true := by decide +kernel
    have hlength : (Value.int 8).displayed = .ok "8" := Value.displayed_eq_ok.2 ⟨hnumeral, rfl⟩
    simp only [Column.typeText, Column.bareType, Column.dimensioned, Column.dimension,
      Value.dimensionOf, ColumnSettings.dimension?, Value.ofOption, List.lookup_nil,
      Option.getD_none, List.mapM_cons, hlength]
    rfl
  obtain ⟨-, -, -, -, hrender⟩ := reachable_tables_render octets_reachable "" "" false []
  have hsql := (hrender _).2 ⟨_, .cons ⟨_, htype, rfl⟩ .nil, [], .nil, rfl⟩
  exact ⟨octets_reachable, hsql.trans (congrArg Except.ok (by decide +kernel))⟩

/-- A table of labels, all of which have the same length. -/
def labels (length : Nat) : Table :=
  { name := "labels", columns := [("label", { kind := .fixedString, length := some length })] }

/-- The definition of the table of labels. -/
def labelDefinition (length : Nat) : Value :=
  .map [(.text "label",
    .map (Column.toDefinition { kind := .fixedString, length := some (length : Int) }))]

theorem hasDistinctKeys_labelDefinition (length : Nat) : (labelDefinition length).HasDistinctKeys :=
  List.pairwise_singleton _ _

/-- Labels of any length but zero can be defined. -/
theorem ofDefinition_labels [Coercion] [LawfulCoercion] {length : Nat} (h : 0 < length) :
    ofDefinition (.text "labels") (labelDefinition length) = .ok (labels length) := by
  have hname : Identifier.checkTableName (.text "labels") = .ok "labels" := by rfl
  have hcolumns : columnsOf (labelDefinition length) = .ok (labels length).keyed := by
    let column : Column := { kind := .fixedString, length := some length }
    have hcolumn : Column.ofDefinition (.map column.toDefinition) (.text "label") = .ok column :=
      Column.ofDefinition_toDefinition_self rfl rfl (.text "label")
    exact mapM_eq_ok_iff.2 (.cons (bind_eq_ok.2 ⟨_, hcolumn, rfl⟩) .nil)
  have hpositive : Column.isPositive (.int length) = .ok true := by
    have htruthy : (Value.int length).isTruthy = true := by
      simpa [Value.isTruthy] using Nat.pos_iff_ne_zero.1 h
    have hmore : ¬(length : Int) ≤ 0 := by omega
    rw [Column.isPositive, if_pos htruthy, Value.isAtMost_zero rfl, decide_eq_false hmore]
    rfl
  have hrule : Column.kindRule { kind := .fixedString, length := some length } = .ok none := by
    show (do if ← Column.isPositive (.int length) then return none else _) = _
    rw [hpositive]
    rfl
  have hcheck : checkColumns (labels length).keyed = .ok () := by
    refine checkColumns_eq_ok.2 ⟨List.cons_ne_nil _ _, Nat.zero_le 1, ?_⟩
    refine List.forall_mem_singleton.2 (Column.check_eq_ok.2 ⟨by rfl, ?_⟩)
    exact Column.brokenRule_eq_none_iff.2 ⟨hrule, rfl⟩
  rw [ofDefinition, hname, hcolumns]
  simp only [bind, Except.bind, hcheck]
  rfl

/-- The type of labels can be written only if their length can be. -/
theorem hasNumeral_of_hasNumerals {length : Nat}
    (h : Column.HasNumerals { kind := .fixedString, length := some (length : Int) }) :
    hasNumeral length = true := by
  have hshown : (Value.int length).isDisplayable = true := h _ List.mem_cons_self
  simpa only [Value.isDisplayable, Value.isInspectable] using hshown

/-- Labels with a length of one digit too many can be defined, but no statement creates them. -/
theorem long_labels_not_created :
    let table := labels (tenTo maxDigits)
    table.ReachableFrom Column.IsMade ∧
      ∀ sql, table.createText (unordered "" "" false []) ≠ .ok sql := by
  intro table
  have hgiven : (labelDefinition (tenTo maxDigits)).AllAdmitted Column.IsMade :=
    List.forall_mem_singleton.2 (Value.admitted_map _)
  have hreachable : table.ReachableFrom Column.IsMade :=
    .defined hgiven (hasDistinctKeys_labelDefinition _) (ofDefinition_labels (tenTo_pos maxDigits))
  refine ⟨hreachable, fun sql hsql => ?_⟩
  obtain ⟨hnumerals, -⟩ := hreachable.valid.exists_createText_iff.1 ⟨sql, hsql⟩
  have hnumeral := hasNumeral_of_hasNumerals (hnumerals _ List.mem_cons_self)
  rw [hasNumeral_tenTo_maxDigits] at hnumeral
  cases hnumeral

end Table

end TypedSql
