import TypedSql.Proofs.Session.Command
import TypedSql.Proofs.Table.Record
import TypedSql.Proofs.Table.Reachable
import TypedSql.Session.Writing

/-!
# Updates

An update writes some fields of a patch over a record. What `Fits` a table can be put into a record
that passes the check of the table, and the record still passes. What an update writes is said by
`mem_writtenFields_iff`, and all of it fits: `fits_of_mem_writtenFields`. So records pass after any
number of updates, under the same primary key: `updates_keep_records`.
-/

namespace TypedSql

open TypedSql.Outcome TypedSql.Session

namespace Record

variable {table : Table} {record : Entries} {name value : Value}

/-- Whether a value may be put into a record under a name: the name is that of a column other than
the primary key, and the column takes the value. -/
def Fits (table : Table) (name value : Value) : Prop :=
  ∃ chars column, name.asText? = some chars ∧ (chars, column) ∈ table.columns ∧
    column.primaryKey = false ∧ Wire.check column value = .ok true

/-- A column lets pass what it takes. -/
theorem checkField_of_check {chars : String} {column : Column}
    (h : Wire.check column (valueAt record chars) = .ok true) :
    checkField record (.text chars) column = .ok () := by
  unfold checkField
  simp only
  split
  · next hnull =>
      have hnullable : column.nullable = true := by
        unfold valueAt at h
        rw [Wire.check, if_pos hnull] at h
        by_contra hnot
        rw [if_neg hnot] at h
        cases h
      simp [Table.isOptional, hnullable]
  · exact checkValue_eq_ok_iff.2 h

/-- Columns look at nothing but the value under their name. -/
theorem checkField_congr {other : Entries} {chars : String} {column : Column}
    (h : valueAt record chars = valueAt other chars) :
    checkField record (.text chars) column = checkField other (.text chars) column := by
  unfold valueAt at h
  simp only [checkField, h]

/-- A record that passes still passes with something put into it that fits. -/
theorem checkFor_put (htable : table.Valid) (hfits : Fits table name value)
    (h : checkFor table (.map record) = .ok ()) :
    checkFor table (.map (Keyed.put record name value)) = .ok () := by
  obtain ⟨hknown, hfields⟩ := checkFor_eq_ok_iff.1 h
  obtain ⟨chars, column, hchars, hmem, -, htaken⟩ := hfits
  have hkeys := Keyed.forall_key_put (table.keyed.has · = true) hknown
    (Table.has_keyed_of_mem hmem hchars) value
  refine checkFor_eq_ok_iff.2 ⟨hkeys, fun entry hentry => ?_⟩
  by_cases hsame : chars = entry.1
  · have hcolumn : entry.2 = column := by
      have hfound := htable.column?_of_mem hentry
      rw [← hsame, htable.column?_of_mem hmem] at hfound
      exact (Option.some.inj hfound).symm
    refine checkField_of_check ?_
    rw [valueAt_put hchars, if_pos hsame, hcolumn]
    exact htaken
  · have hkept : valueAt (Keyed.put record name value) entry.1 = valueAt record entry.1 := by
      rw [valueAt_put hchars, if_neg hsame]
    rw [checkField_congr hkept]
    exact hfields entry hentry

/-- What fits leaves the primary key as it is. -/
theorem get?_put_primaryKey (htable : table.Valid) (hfits : Fits table name value) {key : String}
    (hkey : table.primaryKey? = some key) :
    Keyed.get? (Keyed.put record name value) (.text key) = Keyed.get? record (.text key) := by
  obtain ⟨chars, column, hchars, hmem, hother, -⟩ := hfits
  obtain ⟨entry, hentry, rfl⟩ := Option.map_eq_some_iff.1 hkey
  have hne : chars ≠ entry.1 := by
    intro hsame
    have hfound := htable.column?_of_mem (List.mem_of_find?_eq_some hentry)
    rw [← hsame, htable.column?_of_mem hmem] at hfound
    have hprimary := List.find?_some hentry
    simp only [← Option.some.inj hfound, hother] at hprimary
    cases hprimary
  have hchars' : (Value.text entry.1).asText? = some entry.1 := rfl
  rw [Keyed.get?_eq_at? hchars', Keyed.get?_eq_at? hchars', Keyed.at?_put hchars, if_neg hne]

end Record

namespace Model

open Record

variable {model : Model} {record patch : Entries}

/-- A record with the fields of a patch over it that an update writes. -/
def patched (model : Model) (record patch : Entries) : Entries :=
  Keyed.putAll record (model.writtenFields patch)

/-- An update writes exactly the fields of a patch that are not null or whose column is nullable. -/
theorem mem_writtenFields_iff {entry : Value × Value} :
    entry ∈ model.writtenFields patch ↔ entry ∈ patch ∧ (entry.2.isNull = false ∨
      ∃ column, model.table.column? entry.1 = some column ∧ column.nullable = true) := by
  simp only [writtenFields, isWritten, List.mem_filter, Bool.or_eq_true, Bool.not_eq_true',
    Option.any_eq_true]

/-- Null is written into nullable columns alone. -/
theorem nullable_of_mem_writtenFields {entry : Value × Value} {column : Column}
    (hentry : entry ∈ model.writtenFields patch) (hnull : entry.2.isNull = true)
    (hcolumn : model.table.column? entry.1 = some column) : column.nullable = true := by
  obtain ⟨-, hvalue | ⟨found, hfound, hnullable⟩⟩ := mem_writtenFields_iff.1 hentry
  · rw [hnull] at hvalue
    cases hvalue
  · rw [hcolumn] at hfound
    exact (Option.some.inj hfound) ▸ hnullable

/-- Everything that an update writes of a patch that passes fits. -/
theorem fits_of_mem_writtenFields
    (hpatch : checkPartialValues (.map patch) model.table.keyed = .ok ()) {entry : Value × Value}
    (hentry : entry ∈ model.writtenFields patch) : Fits model.table entry.1 entry.2 := by
  obtain ⟨hmem, -⟩ := mem_writtenFields_iff.1 hentry
  obtain ⟨_, -, hchanges⟩ := bind_eq_ok.1 hpatch
  have hchange : checkChange model.table.keyed entry.1 entry.2 = .ok () :=
    forM_eq_ok_iff.1 hchanges entry hmem
  unfold checkChange at hchange
  split at hchange
  · cases hchange
  · next column hcolumn =>
      replace hcolumn : model.table.column? entry.1 = some column := hcolumn
      obtain ⟨chars, hchars, hat⟩ : ∃ chars, entry.1.asText? = some chars ∧
          model.table.columnAt? chars = some column := by
        rw [Table.column?_eq] at hcolumn
        exact Option.bind_eq_some_iff.1 hcolumn
      have hcolumns : (chars, column) ∈ model.table.columns := by
        obtain ⟨before, after, hcolumns, -⟩ := List.lookup_eq_some_iff.1 hat
        rw [hcolumns]
        exact List.mem_append_right _ List.mem_cons_self
      split at hchange
      · cases hchange
      · next hprimary =>
          refine ⟨chars, column, hchars, hcolumns, Bool.not_eq_true _ ▸ hprimary, ?_⟩
          split at hchange
          · next hnull =>
              rw [Wire.check, if_pos hnull,
                if_pos (nullable_of_mem_writtenFields hentry hnull hcolumn)]
          · exact checkValue_eq_ok_iff.1 hchange

/-- Fields that fit can be written one after the other. -/
theorem checkFor_putAll (htable : model.table.Valid) {fields : Entries}
    (hfits : ∀ entry ∈ fields, Fits model.table entry.1 entry.2)
    (h : checkFor model.table (.map record) = .ok ()) :
    checkFor model.table (.map (Keyed.putAll record fields)) = .ok () ∧
      ∀ key, model.table.primaryKey? = some key →
        Keyed.get? (Keyed.putAll record fields) (.text key) = Keyed.get? record (.text key) := by
  induction fields generalizing record with
  | nil => exact ⟨h, fun _ _ => rfl⟩
  | cons field rest ih =>
      obtain ⟨hfield, hrest⟩ := List.forall_mem_cons.1 hfits
      obtain ⟨hpasses, hkeys⟩ := ih hrest (checkFor_put htable hfield h)
      refine ⟨hpasses, fun key hkey => ?_⟩
      exact (hkeys key hkey).trans (get?_put_primaryKey htable hfield hkey)

/-- An update fails without a call, or its patch passes and it sends the statement of the fields
that it writes. -/
theorem exists_of_run_update {data given : Value} {executor : Executor} {before after : Journal}
    {outcome : Except Fault Unit}
    (hrun : run (model.update data given) executor before = (outcome, after)) :
    (after.calls = before.calls ∧ outcome ≠ .ok ()) ∨
      checkPartialValues data model.table.keyed = .ok () ∧ ∃ statement,
        model.updateStatement (.map (model.writtenFields (data.asMap?.getD []))) given =
          .ok statement ∧ after.calls = before.calls ++ [statement.command] := by
  rcases run_ofExcept_bind_cases hrun with ⟨fault, rfl, rfl⟩ | ⟨_, hpatch, hrun⟩
  · exact .inl ⟨rfl, fun h => nomatch h⟩
  rcases run_ofExcept_bind_cases hrun with ⟨fault, rfl, rfl⟩ | ⟨statement, hstatement, hrun⟩
  · exact .inl ⟨rfl, fun h => nomatch h⟩
  exact (exists_of_run_runCommand hrun).imp_right fun hcalls =>
    ⟨hpatch, statement, hstatement, hcalls⟩

/-- A record that passes the check of its table passes it after any number of updates whose patches
pass, and its primary key has the value it had. What an update puts over records is what it sends.
-/
theorem updates_keep_records [Coercion] (model : Model) (htable : model.table.Reachable)
    (record : Entries) (patches : List Entries)
    (hrecord : checkFor model.table (.map record) = .ok ())
    (hpatches : ∀ patch ∈ patches,
      checkPartialValues (.map patch) model.table.keyed = .ok ()) :
    checkFor model.table (.map (patches.foldl model.patched record)) = .ok () ∧
      (∀ key, model.table.primaryKey? = some key →
        Keyed.get? (patches.foldl model.patched record) (.text key) =
          Keyed.get? record (.text key)) ∧
      ∀ patch given executor before after,
        run (model.update (.map patch) given) executor before = (.ok (), after) →
          checkPartialValues (.map patch) model.table.keyed = .ok () ∧ ∃ statement,
            model.updateStatement (.map (model.writtenFields patch)) given = .ok statement ∧
              after.calls = before.calls ++ [statement.command] := by
  rw [← and_assoc]
  refine ⟨?_, fun patch given executor before after hrun =>
    (exists_of_run_update hrun).resolve_left fun hfailed => hfailed.2 rfl⟩
  induction patches generalizing record with
  | nil => exact ⟨hrecord, fun _ _ => rfl⟩
  | cons patch rest ih =>
      obtain ⟨hpatch, hrest⟩ := List.forall_mem_cons.1 hpatches
      obtain ⟨hpatched, hkey⟩ :=
        checkFor_putAll htable.valid (fun _ => fits_of_mem_writtenFields hpatch) hrecord
      obtain ⟨hpasses, hkeys⟩ := ih (model.patched record patch) hpatched hrest
      exact ⟨hpasses, fun key hprimary => (hkeys key hprimary).trans (hkey key hprimary)⟩

/-- A table of users with settings, for the cases of general statements. -/
def users : Model where
  table :=
    { name := "users"
      columns := [("id", { kind := .uint32, primaryKey := true }), ("name", { kind := .string }),
        ("age", { kind := .uint8, nullable := true })] }
  settings := some {}

theorem users_reachable : users.table.Reachable := by
  let definition : Value := .map [
    (.text "id", .map [(.text "type", .text "UInt32"), (.text "primaryKey", .bool true)]),
    (.text "name", .map [(.text "type", .text "String")]),
    (.text "age", .map [(.text "type", .text "UInt8"), (.text "nullable", .bool true)])]
  have hkeys : definition.HasDistinctKeys := by
    simp [definition, Value.HasDistinctKeys, Keyed.HasDistinctKeys, Value.text_isKey, Value.asText?]
  have hdefined : Table.ofDefinition (.text "users") definition = .ok users.table := by rfl
  exact Table.reachable_of_ofDefinition hkeys hdefined

/-- A user who is renamed and then loses the age, while null leaves the name as it is. -/
theorem users_updated :
    let record : Entries := [(.text "id", .int 1), (.text "name", .text "a"), (.text "age", .int 7)]
    let patches : List Entries :=
      [[(.text "name", .text "b")], [(.text "name", .null), (.text "age", .null)]]
    checkFor users.table (.map record) = .ok () ∧
      (∀ patch ∈ patches, checkPartialValues (.map patch) users.table.keyed = .ok ()) ∧
      checkFor users.table (.map (patches.foldl users.patched record)) = .ok () ∧
      Keyed.get? (patches.foldl users.patched record) (.text "id") =
        Keyed.get? record (.text "id") := by
  intro record patches
  have hrecord : checkFor users.table (.map record) = .ok () :=
    toOption_eq_some.1 (by decide +kernel)
  have hpatches : ∀ patch ∈ patches,
      checkPartialValues (.map patch) users.table.keyed = .ok () :=
    List.forall_mem_cons.2 ⟨toOption_eq_some.1 (by decide +kernel),
      List.forall_mem_singleton.2 (toOption_eq_some.1 (by decide +kernel))⟩
  obtain ⟨hpasses, hkeys, -⟩ := updates_keep_records users users_reachable record patches hrecord
    hpatches
  exact ⟨hrecord, hpatches, hpasses, hkeys "id" rfl⟩

end Model

end TypedSql
