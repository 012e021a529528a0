import TypedSql.Proofs.Table.Reachable
import TypedSql.Proofs.Table.Record

/-!
# Required columns

The columns that a new record has to give are found in two places: the list of required columns
goes by the flags of the columns, and so does the check of a record. The list leaves out the primary
key, which the check does not: `passes_iff_gives_required` says what they have in common and what
the primary key adds.
-/

namespace TypedSql

open TypedSql.Outcome

namespace Table

/-- A required column is one that is not optional and not the primary key. -/
theorem forall_mem_requiredColumns {table : Table} {holds : String → Prop} :
    (∀ name ∈ table.requiredColumns, holds name) ↔
      ∀ entry ∈ table.columns, isOptional entry.2 = false → entry.2.primaryKey = false →
        holds entry.1 := by
  simp only [requiredColumns, List.forall_mem_map, List.mem_filter, Bool.and_eq_true,
    Bool.not_eq_eq_eq_not, Bool.not_true, and_imp]

end Table

namespace Record

variable {table : Table} {record : Entries}

/-- Whether every name in a record is that of a column, which takes the value unless it is null. -/
def IsTyped (table : Table) (record : Entries) : Prop :=
  ∀ entry ∈ record, ∃ column, table.column? entry.1 = some column ∧
    (entry.2.isNull = false → Wire.check column entry.2 = .ok true)

/-- Whether a record has a value under a name. -/
def Gives (record : Entries) (name : String) : Prop :=
  (valueAt record name).isNull = false

instance (record : Entries) (name : String) : Decidable (Gives record name) :=
  inferInstanceAs (Decidable (_ = false))

/-- What a record gives stands in it under the name. -/
theorem Gives.exists_mem {name : String} (h : Gives record name) :
    ∃ entry ∈ record, entry.1.asText? = some name ∧ valueAt record name = entry.2 := by
  unfold Gives valueAt Keyed.get? at *
  cases hfound : record.find? fun entry => entry.1.isKey (.text name) with
  | none =>
      rw [hfound] at h
      cases h
  | some entry =>
      have hkey := List.find?_some hfound
      rw [Value.isKey_of_asText rfl, decide_eq_true_iff] at hkey
      exact ⟨entry, List.mem_of_find?_eq_some hfound, hkey, rfl⟩

/-- The names in a typed record are those of columns. -/
theorem IsTyped.has (h : IsTyped table record) :
    ∀ entry ∈ record, table.keyed.has entry.1 = true := by
  intro entry hentry
  obtain ⟨column, hcolumn, -⟩ := h entry hentry
  rw [← Keyed.isSome_get?]
  exact Option.isSome_of_eq_some hcolumn

/-- A column takes what a typed record gives under its name. -/
theorem IsTyped.check_valueAt (h : IsTyped table record) (htable : table.Valid)
    {column : String × Column} (hmem : column ∈ table.columns) (hgives : Gives record column.1) :
    Wire.check column.2 (valueAt record column.1) = .ok true := by
  obtain ⟨entry, hentry, hname, hvalue⟩ := hgives.exists_mem
  obtain ⟨known, hknown, htakes⟩ := h entry hentry
  have hsame : entry.1.asText? = (Value.text column.1).asText? := hname
  rw [table.column?_congr hsame, htable.column?_of_mem hmem] at hknown
  cases hknown
  rw [Gives, hvalue] at hgives
  rw [hvalue]
  exact htakes hgives

/-- Of a typed record a column lets everything pass but the lack of what it cannot do without. -/
theorem IsTyped.checkField_eq_ok_iff (h : IsTyped table record) (htable : table.Valid)
    {column : String × Column} (hmem : column ∈ table.columns) :
    checkField record (.text column.1) column.2 = .ok () ↔
      (Table.isOptional column.2 = false → Gives record column.1) := by
  have hfield : checkField record (.text column.1) column.2 =
      if (valueAt record column.1).isNull then
        if Table.isOptional column.2 then .ok ()
        else .error (.recordFieldRequired (.text column.1))
      else checkValue (.text column.1) (valueAt record column.1) column.2 := rfl
  rw [hfield]
  cases hnull : (valueAt record column.1).isNull with
  | true => cases hoptional : Table.isOptional column.2 <;> simp [Gives, hnull]
  | false => simp [Gives, hnull, checkValue_eq_ok_iff.2 (h.check_valueAt htable hmem hnull)]

/-- A record of values for columns passes exactly if it gives every required column, and the primary
key as well if that has neither a default nor numbers of its own. -/
theorem passes_iff_gives_required [Coercion] (htable : table.Reachable) (h : IsTyped table record) :
    checkFor table (.map record) = .ok () ↔
      (∀ name ∈ table.requiredColumns, Gives record name) ∧
        ∀ key ∈ table.columns, key.2.primaryKey = true → key.2.hasDefault = false →
          key.2.autoIncrement = false → Gives record key.1 := by
  have hvalid := htable.valid
  have hfields : checkFor table (.map record) = .ok () ↔
      ∀ column ∈ table.columns, Table.isOptional column.2 = false → Gives record column.1 :=
    calc checkFor table (.map record) = .ok ()
      _ ↔ ∀ column ∈ table.columns, checkField record (.text column.1) column.2 = .ok () :=
          checkFor_eq_ok_iff.trans (and_iff_right h.has)
      _ ↔ ∀ column ∈ table.columns, Table.isOptional column.2 = false → Gives record column.1 :=
          forall₂_congr fun _ hmem => h.checkField_eq_ok_iff hvalid hmem
  -- a primary key is never nullable, so that it is optional by its default or its numbers
  have hkey : ∀ column ∈ table.columns, column.2.primaryKey = true →
      (Table.isOptional column.2 = false ↔
        column.2.hasDefault = false ∧ column.2.autoIncrement = false) := by
    intro column hmem hprimary
    simp [Table.isOptional, (hvalid.columns column hmem).primaryKey hprimary]
  rw [hfields, Table.forall_mem_requiredColumns]
  constructor
  · intro hgives
    refine ⟨fun column hmem hrequired _ => hgives column hmem hrequired, ?_⟩
    intro key hmem hprimary hdefault hnumbers
    exact hgives key hmem ((hkey key hmem hprimary).2 ⟨hdefault, hnumbers⟩)
  · rintro ⟨hothers, hkeys⟩ column hmem hrequired
    cases hprimary : column.2.primaryKey with
    | false => exact hothers column hmem hrequired hprimary
    | true =>
        obtain ⟨hdefault, hnumbers⟩ := (hkey column hmem hprimary).1 hrequired
        exact hkeys column hmem hprimary hdefault hnumbers

/-- A table of people under numbers, for the cases below. -/
def people : Table :=
  { name := "people"
    columns := [("id", { kind := .uint32, primaryKey := true }), ("name", { kind := .string })] }

theorem people_reachable : people.Reachable := by
  let definition : Value := .map [
    (.text "id", .map [(.text "type", .text "UInt32"), (.text "primaryKey", .bool true)]),
    (.text "name", .map [(.text "type", .text "String")])]
  have hkeys : definition.HasDistinctKeys := by
    simp [definition, Value.HasDistinctKeys, Keyed.HasDistinctKeys, Value.text_isKey, Value.asText?]
  have hdefined : Table.ofDefinition (.text "people") definition = .ok people := by rfl
  exact Table.reachable_of_ofDefinition hkeys hdefined

/-- A person with a number and a name passes. -/
theorem people_pass :
    let record : Entries := [(.text "id", .int 1), (.text "name", .text "a")]
    people.Reachable ∧ IsTyped people record ∧ checkFor people (.map record) = .ok () := by
  intro record
  have hid : Wire.check { kind := .uint32, primaryKey := true } (.int 1) = .ok true :=
    toOption_eq_some.1 (by decide +kernel)
  have hname : Wire.check { kind := .string } (.text "a") = .ok true :=
    toOption_eq_some.1 (by decide +kernel)
  have htyped : IsTyped people record :=
    List.forall_mem_cons.2 ⟨⟨_, (people.column?_eq _).trans rfl, fun _ => hid⟩,
      List.forall_mem_singleton.2 ⟨_, (people.column?_eq _).trans rfl, fun _ => hname⟩⟩
  have hgives : ∀ column ∈ people.columns, Gives record column.1 := by decide +kernel
  refine ⟨people_reachable, htyped, (passes_iff_gives_required people_reachable htyped).2 ⟨?_, ?_⟩⟩
  · exact Table.forall_mem_requiredColumns.2 fun column hmem _ _ => hgives column hmem
  · exact fun key hmem _ _ _ => hgives key hmem

/-- A person without a number gives every required column and does not pass. -/
theorem people_need_numbers :
    ¬ ∀ (table : Table) (record : Entries), table.Reachable → IsTyped table record →
      (checkFor table (.map record) = .ok () ↔
        ∀ name ∈ table.requiredColumns, Gives record name) := by
  intro hagree
  let record : Entries := [(.text "name", .text "a")]
  have hname : Wire.check { kind := .string } (.text "a") = .ok true :=
    toOption_eq_some.1 (by decide +kernel)
  have htyped : IsTyped people record :=
    List.forall_mem_singleton.2 ⟨_, (people.column?_eq _).trans rfl, fun _ => hname⟩
  have hpasses := (hagree people record people_reachable htyped).2 (by decide +kernel)
  have hfails : (checkFor people (.map record)).toOption = none := by decide +kernel
  rw [hpasses] at hfails
  cases hfails

end Record

end TypedSql
