import TypedSql.Proofs.Column.TypeText
import TypedSql.Proofs.Model.Statement
import TypedSql.Proofs.Statement.Query
import TypedSql.Proofs.Table.Lookup

/-!
# Composition of updates and deletions

An update or a deletion that is compiled has its condition behind it. The condition is checked
before the values are bound and written after, under other numbers; `update_eq_ok` and
`delete_eq_ok` say that it is not lost on the way, and `requireCondition_eq_error` when there is no
statement.
-/

namespace TypedSql.Model

open TypedSql.Sql TypedSql.Outcome TypedSql.Statement TypedSql.Condition

variable {model : Model} {given : Value}

section Guard

/-- What the guard does: it refuses where there is no condition in force, and where the condition
has a trivial clause. -/
theorem requireCondition_eq (model : Model) (operation : String) (given : Value) :
    model.requireCondition operation given =
      if (model.effective given).isNull then .error (.conditionRequired operation model.name)
      else do
        let clause ← compile (model.effective given) .zero
        if clause.isTrivial then .error (.conditionRequired operation model.name)
        else return model.effective given := by
  unfold requireCondition
  cases hnull : (model.effective given).isNull with
  | true =>
      simp only [hnull, if_true]
      rfl
  | false =>
      simp only [clause, effective_of_not_isNull hnull, hnull]
      cases compile (model.effective given) .zero with
      | error fault => rfl
      | ok clause => cases clause.isTrivial <;> rfl

/-- The guard lets the condition in force pass exactly if there is one and it is not trivial. -/
theorem requireCondition_eq_ok {operation : String} {condition : Value} :
    model.requireCondition operation given = .ok condition ↔
      condition = model.effective given ∧ condition.isNull = false ∧
        ∃ clause, compile condition .zero = .ok clause ∧ clause.isTrivial = false := by
  rw [requireCondition_eq]
  constructor
  · intro h
    split at h
    · cases h
    · next hnull =>
        obtain ⟨clause, hclause, h⟩ := bind_eq_ok.1 h
        split at h
        · cases h
        · next htrivial =>
            obtain rfl := pure_eq_ok.1 h
            exact ⟨rfl, by simpa using hnull, clause, hclause, by simpa using htrivial⟩
  · rintro ⟨rfl, hnull, clause, hclause, htrivial⟩
    rw [hnull, hclause]
    show (if clause.isTrivial then _ else pure (model.effective given)) = _
    rw [htrivial]
    rfl

/-- The guard refuses where there is no condition in force and where it is trivial. -/
theorem requireCondition_eq_error {operation : String}
    (h : (model.effective given).isNull = true ∨
      ∃ clause, model.clause given .zero = .ok clause ∧ clause.sql = alwaysTrue) :
    model.requireCondition operation given =
      .error (.conditionRequired operation model.name) := by
  rw [requireCondition_eq]
  split
  · rfl
  · next hnull =>
      obtain hisNull | ⟨clause, hclause, hsql⟩ := h
      · exact absurd hisNull hnull
      · have htrivial : clause.isTrivial = true := by simp [Clause.isTrivial, hsql]
        rw [show compile (model.effective given) .zero = .ok clause from hclause]
        exact if_pos htrivial

/-- What has passed the guard is added to a statement with all its parameters, numbered behind the
values bound before. -/
theorem runs_applyCondition_of_requireCondition {operation : String} {condition : Value}
    {before after : Builder} {parameters : List (String × Value)}
    (hrequire : model.requireCondition operation given = .ok condition)
    (hstart : before.start = .zero)
    (h : Runs (model.applyCondition condition) before parameters after) :
    ∃ clause, model.clause given (.number before.bound.length) = .ok clause ∧
      clause.sql ≠ alwaysTrue ∧ parameters = clause.parameters ∧
      after = { before with conditions := before.conditions ++ [.text clause.sql] } := by
  obtain ⟨rfl, hnull, known, hknown, htrivial⟩ := requireCondition_eq_ok.1 hrequire
  obtain ⟨clause, hclause, hparameters, hafter⟩ := runs_applyCondition hstart h
  rw [Model.clause, effective_of_not_isNull hnull] at hclause
  -- the guard has seen the condition under other numbers, which make no difference
  have hagain : clause.isTrivial = false := by rw [isTrivial_compile hclause hknown, htrivial]
  refine ⟨clause, hclause, ?_, hparameters, ?_⟩
  · simpa [Clause.isTrivial] using hagain
  · rw [hafter, hagain]
    simp

end Guard

section Types

/-- The text of the type of the placeholder under a name. -/
def typeFor (model : Model) (name : Value) : String :=
  match model.wireType name with
  | .ok type => type.asText?.getD ""
  | .error _ => ""

/-- The type of a placeholder is that of the column that the name finds. -/
theorem wireType_eq_ok {name type : Value} :
    model.wireType name = .ok type ↔ ∃ column text, model.table.column? name = some column ∧
      column.placeholderType = .ok text ∧ type = .text text := by
  unfold wireType
  cases model.table.column? name with
  | none => simp
  | some column =>
      constructor
      · intro h
        obtain ⟨text, htext, rfl⟩ := map_eq_ok.1 h
        exact ⟨column, text, rfl, htext, rfl⟩
      · rintro ⟨_, text, hcolumn, htext, rfl⟩
        cases hcolumn
        exact map_eq_ok.2 ⟨text, htext, rfl⟩

theorem wireType_eq_typeFor {name type : Value} (h : model.wireType name = .ok type) :
    type = .text (model.typeFor name) ∧ model.typeFor name ≠ "" := by
  obtain ⟨column, text, -, htext, rfl⟩ := wireType_eq_ok.1 h
  have htypeFor : model.typeFor name = text := by
    unfold typeFor
    rw [h]
    rfl
  rw [htypeFor]
  exact ⟨rfl, Column.placeholderType_ne_empty htext⟩

/-- Names with one text have the same type. -/
theorem wireType_congr {name other : Value} (h : name.asText? = other.asText?) :
    model.wireType name = model.wireType other := by
  unfold wireType
  rw [Table.column?_congr model.table h]

/-- A name that has a type is a text. -/
theorem asText?_of_wireType {name type : Value} (h : model.wireType name = .ok type) :
    ∃ chars, name.asText? = some chars := by
  obtain ⟨column, -, hcolumn, -⟩ := wireType_eq_ok.1 h
  rw [Table.column?_eq] at hcolumn
  obtain ⟨chars, hchars, -⟩ := Option.bind_eq_some_iff.1 hcolumn
  exact ⟨chars, hchars⟩

/-- The types of several names are texts, one for each name. -/
theorem mapM_wireType {α : Type} {key : α → Value} {items : List α} {types : List Value}
    (h : (items.mapM fun item => model.wireType (key item)) = .ok types) :
    types = (items.map fun item => model.typeFor (key item)).map .text ∧
      ∀ item ∈ items, model.wireType (key item) = .ok (.text (model.typeFor (key item))) := by
  induction items generalizing types with
  | nil =>
      cases h
      simp
  | cons item rest ih =>
      obtain ⟨type, others, htype, hothers, rfl⟩ := mapM_cons_eq_ok.1 h
      obtain ⟨rfl, hrest⟩ := ih hothers
      obtain ⟨rfl, -⟩ := wireType_eq_typeFor htype
      exact ⟨rfl, List.forall_mem_cons.2 ⟨htype, hrest⟩⟩

/-- The type that is found under a name is the type of the placeholder under that name. -/
theorem get?_types {entries : Entries}
    (h : ∀ entry ∈ entries, model.wireType entry.1 = .ok (.text (model.typeFor entry.1)))
    {entry : Value × Value} (hentry : entry ∈ entries) :
    Keyed.get? (entries.map fun entry => (entry.1, Value.text (model.typeFor entry.1))) entry.1 =
      some (.text (model.typeFor entry.1)) := by
  obtain ⟨chars, hchars⟩ := asText?_of_wireType (h entry hentry)
  rw [Keyed.get?_eq_at? hchars]
  induction entries with
  | nil => cases hentry
  | cons first rest ih =>
      -- an earlier key of the same text hides the entry, but it names the same column
      by_cases hfirst : first.1.asText? = some chars
      · have hsame : model.wireType first.1 = model.wireType entry.1 :=
          wireType_congr (hfirst.trans hchars.symm)
        have htypeFor : model.typeFor first.1 = model.typeFor entry.1 := by
          unfold typeFor
          rw [hsame]
        simp [Keyed.at?, hfirst, htypeFor]
      · rcases List.mem_cons.1 hentry with rfl | hentry
        · exact absurd hchars hfirst
        · have hrest := ih (fun other hother => h other (List.mem_cons_of_mem first hother)) hentry
          simpa [Keyed.at?, hfirst] using hrest

end Types

section Statements

/-- The assignments of data bind the wire values of the data in order, each to a placeholder of the
type of its column. -/
theorem runs_set_data {entries values types : Entries} {before after : Builder}
    (hstart : before.start = .zero) (hkeys : values.map Prod.fst = entries.map Prod.fst)
    (htypeKeys : types.map Prod.fst = entries.map Prod.fst)
    (htypes : (entries.mapM fun entry => model.wireType entry.1) = .ok (types.map Prod.snd))
    (h : Runs (Action.set (.map values) (.map types)) before () after) :
    (∀ name ∈ entries.map Prod.fst, Identifier.isNameValue name = true) ∧
      after = { before with
        assignments := before.assignments ++ (quotedNames (entries.map Prod.fst)).zip
          (slotsFrom before.bound.length ((entries.map Prod.fst).map model.typeFor))
        bound := before.bound ++ values.map Prod.snd } := by
  obtain ⟨hsnd, hwire⟩ := mapM_wireType htypes
  have htypesEq : types = entries.map fun entry =>
      (entry.1, Value.text (model.typeFor entry.1)) := by
    rw [← List.zip_unzip types, List.unzip_eq_map, htypeKeys, hsnd, List.map_map,
      List.zip_map']
    rfl
  have hmember : ∀ value ∈ values, ∃ entry ∈ entries, entry.1 = value.1 := by
    intro value hvalue
    have hkey : value.1 ∈ entries.map Prod.fst := hkeys ▸ List.mem_map_of_mem hvalue
    exact List.mem_map.1 hkey
  have hfound : ∀ value ∈ values,
      Keyed.get? types value.1 = some (.text (model.typeFor value.1)) := by
    intro value hvalue
    obtain ⟨entry, hentry, hkey⟩ := hmember value hvalue
    rw [htypesEq, ← hkey]
    exact get?_types hwire hentry
  have htype : ∀ value ∈ values, model.typeFor value.1 ≠ "" := by
    intro value hvalue
    obtain ⟨entry, hentry, hkey⟩ := hmember value hvalue
    rw [← hkey]
    exact (wireType_eq_typeFor (hwire entry hentry)).2
  obtain ⟨hnames, rfl⟩ := runs_set hstart hfound htype h
  rw [← hkeys]
  exact ⟨List.forall_mem_map.2 hnames, rfl⟩

/-- An update is compiled exactly if it has data in a map, a condition that passes the guard, and
data that can be written; the actions then give the statement. -/
theorem updateStatement_eq_ok {data : Value} {statement : Bound} :
    model.updateStatement data given = .ok statement ↔
      data.isTruthy = true ∧ ∃ condition entries names values types,
        model.requireCondition "UPDATE" given = .ok condition ∧ data = .map entries ∧
        mentioned data = .ok names ∧ model.checkFields names = .ok () ∧
        (entries.mapM fun entry => do return (entry.1, ← model.toWire entry.1 entry.2)) =
          .ok values ∧
        (entries.mapM fun entry => do return (entry.1, ← model.wireType entry.1)) = .ok types ∧
        bound (do
          Action.update (.text model.name)
          Action.set (.map values) (.map types)
          model.applyCondition condition) = .ok statement := by
  cases htruthy : data.isTruthy with
  | false =>
      simp only [updateStatement, htruthy, Bool.not_false, if_true]
      constructor
      · intro h
        cases h
      · rintro ⟨hfalse, -⟩
        cases hfalse
  | true =>
      simp only [updateStatement, htruthy, Bool.not_true, Bool.false_eq_true, if_false, true_and]
      constructor
      · intro h
        obtain ⟨condition, hrequire, h⟩ := bind_eq_ok.1 h
        obtain ⟨names, hnames, h⟩ := bind_eq_ok.1 h
        obtain ⟨_, hfields, h⟩ := bind_eq_ok.1 h
        cases data with
        | map entries =>
            obtain ⟨values, hvalues, h⟩ := bind_eq_ok.1 h
            obtain ⟨types, htypes, hbound⟩ := bind_eq_ok.1 h
            exact ⟨condition, entries, names, values, types, hrequire, rfl, hnames, hfields,
              hvalues, htypes, hbound⟩
        | _ => cases h
      · rintro ⟨condition, entries, names, values, types, hrequire, rfl, hnames, hfields,
          hvalues, htypes, hbound⟩
        rw [hrequire]
        refine bind_eq_ok.2 ⟨condition, rfl, bind_eq_ok.2 ⟨names, hnames,
          bind_eq_ok.2 ⟨(), hfields, bind_eq_ok.2 ⟨values, hvalues,
            bind_eq_ok.2 ⟨types, htypes, hbound⟩⟩⟩⟩⟩

/-- An update that is compiled sets the fields of its data in order, to their wire values under the
first numbers, and has the condition in force behind them, under the numbers that follow. -/
theorem update_eq_ok {data : Value} {statement : Bound}
    (h : model.updateStatement data given = .ok statement) :
    ∃ entries values types clause, data = .map entries ∧
      (entries.mapM fun entry => model.toWire entry.1 entry.2) = .ok values ∧
      (entries.mapM fun entry => model.wireType entry.1) = .ok (types.map .text) ∧
      model.clause given (.number entries.length) = .ok clause ∧ clause.sql ≠ alwaysTrue ∧
      statement.sql = updateHead (Identifier.backquoted model.name)
        ((quotedNames (entries.map Prod.fst)).zip (slotsFrom 0 types)) ++ " WHERE " ++ clause.sql ∧
      statement.parameters = numbered 0 values ++ clause.parameters ∧
      Identifier.isNameValue (.text model.name) = true ∧
      ∀ name ∈ entries.map Prod.fst, Identifier.isNameValue name = true := by
  obtain ⟨htruthy, condition, entries, _, values, types, hrequire, rfl, -, -, hvalues, htypes,
    hbound⟩ := updateStatement_eq_ok.1 h
  obtain ⟨hkeys, hvalues⟩ := mapM_keyed_eq_ok hvalues
  obtain ⟨htypeKeys, htypes⟩ := mapM_keyed_eq_ok htypes
  obtain ⟨parameters, builder, query, hruns, hbuild, rfl⟩ := bound_eq_ok.1 hbound
  obtain ⟨_, _, hupdate, hruns⟩ := Runs.bind_iff.1 hruns
  obtain ⟨_, _, hverb, htable⟩ := Runs.bind_iff.1 hupdate
  obtain rfl := runs_setVerb hverb
  obtain ⟨hname, rfl⟩ := runs_setTable htable
  obtain ⟨_, _, hset, hcondition⟩ := Runs.bind_iff.1 hruns
  obtain ⟨hnames, rfl⟩ := runs_set_data rfl hkeys htypeKeys htypes hset
  obtain ⟨clause, hclause, hsql, rfl, rfl⟩ :=
    runs_applyCondition_of_requireCondition hrequire rfl hcondition
  have hlength : ([] ++ values.map Prod.snd).length = entries.length := by
    rw [List.nil_append, List.length_map, ← List.length_map Prod.fst, hkeys, List.length_map]
  -- the condition is numbered behind as many values as there are assignments
  rw [hlength] at hclause
  have htypes : (entries.mapM fun entry => model.wireType entry.1) =
      .ok (((entries.map Prod.fst).map model.typeFor).map .text) := by
    rw [htypes, (mapM_wireType htypes).1]
    simp
  cases entries with
  | nil => cases htruthy
  | cons entry rest =>
      cases hbuild.symm.trans (build_update (by simp [quotedNames, slotsFrom]))
      exact ⟨_, _, _, clause, rfl, hvalues, htypes, hclause, hsql, rfl, rfl, hname, hnames⟩

/-- A deletion that is compiled has the condition in force behind it. -/
theorem delete_eq_ok {statement : Bound} (h : model.deleteStatement given = .ok statement) :
    ∃ clause, model.clause given .zero = .ok clause ∧ clause.sql ≠ alwaysTrue ∧
      statement.sql = deletionHead (Identifier.backquoted model.name) ++ " WHERE " ++ clause.sql ∧
      statement.parameters = clause.parameters ∧
      Identifier.isNameValue (.text model.name) = true := by
  obtain ⟨condition, hrequire, hbound⟩ := bind_eq_ok.1 h
  obtain ⟨parameters, builder, query, hruns, hbuild, rfl⟩ := bound_eq_ok.1 hbound
  obtain ⟨_, between, hdelete, hcondition⟩ := Runs.bind_iff.1 hruns
  obtain ⟨_, _, hverb, htable⟩ := Runs.bind_iff.1 hdelete
  obtain rfl := runs_setVerb hverb
  obtain ⟨hname, rfl⟩ := runs_setTable htable
  obtain ⟨clause, hclause, hsql, rfl, rfl⟩ :=
    runs_applyCondition_of_requireCondition hrequire rfl hcondition
  cases hbuild.symm.trans build_deletion
  exact ⟨clause, hclause, hsql, rfl, rfl, hname⟩

/-- Without a condition in force that says something there is no update and no deletion. -/
theorem refused_of_trivial
    (h : (model.effective given).isNull = true ∨
      ∃ clause, model.clause given .zero = .ok clause ∧ clause.sql = alwaysTrue) :
    (∀ data : Value, data.isTruthy = true →
        model.updateStatement data given = .error (.conditionRequired "UPDATE" model.name)) ∧
      model.deleteStatement given = .error (.conditionRequired "DELETE" model.name) := by
  constructor
  · intro data htruthy
    simp only [updateStatement, htruthy, Bool.not_true, Bool.false_eq_true, if_false,
      requireCondition_eq_error h]
    rfl
  · simp only [deleteStatement, requireCondition_eq_error h]
    rfl

/-- Every update is its assignments, in the order of the data, and the condition in force compiled
behind them; every deletion has the condition in force. Neither is compiled where there is no
condition or a trivial one: that is a report of the model. -/
theorem update_and_delete_carry_condition (model : Model) (given : Value) :
    (∀ data statement, model.updateStatement data given = .ok statement →
      ∃ entries values types clause, data = .map entries ∧
        (entries.mapM fun entry => model.toWire entry.1 entry.2) = .ok values ∧
        (entries.mapM fun entry => model.wireType entry.1) = .ok (types.map .text) ∧
        model.clause given (.number entries.length) = .ok clause ∧ clause.sql ≠ alwaysTrue ∧
        statement.sql = updateHead (Identifier.backquoted model.name)
          ((quotedNames (entries.map Prod.fst)).zip (slotsFrom 0 types)) ++
            " WHERE " ++ clause.sql ∧
        statement.parameters = numbered 0 values ++ clause.parameters) ∧
    (∀ statement, model.deleteStatement given = .ok statement →
      ∃ clause, model.clause given .zero = .ok clause ∧ clause.sql ≠ alwaysTrue ∧
        statement.sql =
          deletionHead (Identifier.backquoted model.name) ++ " WHERE " ++ clause.sql ∧
        statement.parameters = clause.parameters) ∧
    ((model.effective given).isNull = true ∨
        (∃ clause, model.clause given .zero = .ok clause ∧ clause.sql = alwaysTrue) →
      (∀ data : Value, data.isTruthy = true →
        model.updateStatement data given = .error (.conditionRequired "UPDATE" model.name)) ∧
      model.deleteStatement given = .error (.conditionRequired "DELETE" model.name)) ∧
    ∀ operation, (Fault.conditionRequired operation model.name).report?.map Report.family =
      some .model := by
  refine ⟨fun data statement h => ?_, fun statement h => ?_, refused_of_trivial,
    fun operation => rfl⟩
  · obtain ⟨entries, values, types, clause, hdata, hvalues, htypes, hclause, hsql, htext,
      hparameters, -⟩ := update_eq_ok h
    exact ⟨entries, values, types, clause, hdata, hvalues, htypes, hclause, hsql, htext,
      hparameters⟩
  · obtain ⟨clause, hclause, hsql, htext, hparameters, -⟩ := delete_eq_ok h
    exact ⟨clause, hclause, hsql, htext, hparameters⟩

/-- An update whose condition has two values and an empty part, a deletion with raw SQL, and what
is refused for a condition that is always true. -/
theorem accounts_carry_condition :
    let given : Value := .map [(.text "and", .list []),
      (.text "id", .map [(.text "between", .list [.int 1, .int 5])])]
    let trivial : Value := .map [(.text "id", .map [(.text "notIn", .list [])])]
    (∃ statement, accounts.updateStatement (.map [(.text "name", .text "x")]) given =
        .ok statement ∧
      ∃ entries values types clause, .map [(.text "name", .text "x")] = Value.map entries ∧
        (entries.mapM fun entry => accounts.toWire entry.1 entry.2) = .ok values ∧
        (entries.mapM fun entry => accounts.wireType entry.1) = .ok (types.map .text) ∧
        accounts.clause given (.number entries.length) = .ok clause ∧ clause.sql ≠ alwaysTrue ∧
        statement.sql = updateHead (Identifier.backquoted accounts.name)
          ((quotedNames (entries.map Prod.fst)).zip (slotsFrom 0 types)) ++
            " WHERE " ++ clause.sql ∧
        statement.parameters = numbered 0 values ++ clause.parameters) ∧
    (∃ statement, accounts.deleteStatement (.map [(.text "x", .raw "a = 1" [])]) =
        .ok statement ∧
      ∃ clause, accounts.clause (.map [(.text "x", .raw "a = 1" [])]) .zero = .ok clause ∧
        clause.sql ≠ alwaysTrue ∧
        statement.sql =
          deletionHead (Identifier.backquoted accounts.name) ++ " WHERE " ++ clause.sql ∧
        statement.parameters = clause.parameters) ∧
    (∃ clause, accounts.clause trivial .zero = .ok clause ∧ clause.sql = alwaysTrue) ∧
    accounts.deleteStatement trivial = .error (.conditionRequired "DELETE" "accounts") := by
  intro given trivial
  have hupdate : ((accounts.updateStatement (.map [(.text "name", .text "x")]) given).map
      Bound.sql).toOption = some ("UPDATE \x60accounts\x60 SET " ++
        "\x60name\x60 = \x7bparam0:Nullable(String)\x7d WHERE " ++
        "\x60id\x60 BETWEEN \x7bparam1:Int32\x7d AND \x7bparam2:Int32\x7d") := by
    decide +kernel
  have hdelete : ((accounts.deleteStatement (.map [(.text "x", .raw "a = 1" [])])).map
      Bound.sql).toOption = some "DELETE FROM \x60accounts\x60 WHERE a = 1" := by
    decide +kernel
  have htrivial : ((accounts.clause trivial .zero).map Clause.sql).toOption = some alwaysTrue := by
    decide +kernel
  obtain ⟨update, hupdate, -⟩ := toOption_map_eq_some.1 hupdate
  obtain ⟨deletion, hdelete, -⟩ := toOption_map_eq_some.1 hdelete
  have htrivial := toOption_map_eq_some.1 htrivial
  exact ⟨⟨update, hupdate, (update_and_delete_carry_condition accounts given).1 _ _ hupdate⟩,
    ⟨deletion, hdelete, (update_and_delete_carry_condition accounts _).2.1 _ hdelete⟩, htrivial,
    ((update_and_delete_carry_condition accounts trivial).2.2.1 (.inr htrivial)).2⟩

end Statements

end TypedSql.Model
