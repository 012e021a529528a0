import TypedSql.Table.Draft
import TypedSql.Proofs.Column.Valid
import TypedSql.Proofs.Identifier
import TypedSql.Proofs.Value.Keyed

/-!
# Valid tables

What the checks of a table establish. `valid_of_ofDefinition` says that a table made of a map of
definitions is valid, `Valid.hasDistinctKeys` that the columns of a valid table can be put under
their names again.
-/

namespace TypedSql

open TypedSql.Outcome TypedSql.Keyed

/-- Whether a value, where it is a map, has every key only once. -/
def Value.HasDistinctKeys : Value → Prop
  | .map entries => Keyed.HasDistinctKeys entries
  | _ => True

namespace Table

/-- The requirements on a table. -/
structure Valid (table : Table) : Prop where
  name : Identifier.isName table.name = true
  nonempty : table.columns ≠ []
  names : ∀ name ∈ table.columnNames, Identifier.isName name = true
  distinct : table.columnNames.Nodup
  primaryKeys : (table.columns.filter fun entry => entry.2.primaryKey).length ≤ 1
  columns : ∀ entry ∈ table.columns, entry.2.Valid

/-- Columns pass exactly if there are some, one primary key at most, and each passes. -/
theorem checkColumns_eq_ok {columns : Keyed Column} :
    checkColumns columns = .ok () ↔
      columns ≠ [] ∧ (primaryKeysOf columns).length ≤ 1 ∧
        ∀ entry ∈ columns, entry.2.check entry.1 = .ok () := by
  unfold checkColumns
  cases columns with
  | nil => simp
  | cons first rest =>
      by_cases hkeys : (primaryKeysOf (first :: rest)).length ≤ 1
      · simp only [List.isEmpty_cons, Bool.false_eq_true, if_false, Nat.not_lt.2 hkeys, hkeys,
          ne_eq, reduceCtorEq, not_false_eq_true, true_and]
        exact forM_eq_ok_iff
      · simp [Nat.not_le.1 hkeys, hkeys]

/-- The name of a table is a name. -/
theorem isName_of_checkTableName {name : Value} {text : String}
    (h : Identifier.checkTableName name = .ok text) : Identifier.isName text = true := by
  unfold Identifier.checkTableName at h
  split at h
  · cases h
  · split at h
    · cases h
    · split at h
      · cases h
      · next hname =>
          split at h
          · cases h
          · cases h
            simpa using hname

/-- The name of a table is the text of the name that is given. -/
theorem asText?_of_checkTableName {name : Value} {text : String}
    (h : Identifier.checkTableName name = .ok text) : name.asText? = some text := by
  unfold Identifier.checkTableName at h
  split at h
  · cases h
  · next known hknown =>
      split at h
      · cases h
      · split at h
        · cases h
        · split at h
          · cases h
          · cases h
            exact hknown

section Columns

variable {columns : Keyed Column}

/-- The columns under the texts of their names are all the columns, where each name has a text. -/
theorem withTextNames_cons {name : Value} {text : String} (h : name.asText? = some text)
    (column : Column) (rest : Keyed Column) :
    withTextNames ((name, column) :: rest) = (text, column) :: withTextNames rest := by
  simp [withTextNames, h]

/-- Columns are put under texts as they are. -/
theorem withTextNames_texts (columns : List (String × Column)) :
    withTextNames (columns.map fun (name, column) => (.text name, column)) = columns := by
  simp [withTextNames, List.filterMap_map, Value.asText?]

/-- What stands under the text of a name stood under the name. -/
theorem mem_withTextNames {text : String} {column : Column} :
    (text, column) ∈ withTextNames columns ↔
      ∃ name, (name, column) ∈ columns ∧ name.asText? = some text := by
  simp [withTextNames, List.mem_filterMap]

/-- Different keys have different texts. -/
theorem nodup_withTextNames (h : HasDistinctKeys columns) :
    ((withTextNames columns).map Prod.fst).Nodup := by
  refine List.pairwise_map.2 (List.pairwise_filterMap.2 (h.imp ?_))
  rintro ⟨first, column⟩ ⟨second, other⟩ hkeys entry hentry another hanother
  obtain ⟨text, htext, rfl⟩ := Option.map_eq_some_iff.1 hentry
  obtain ⟨same, hsame, rfl⟩ := Option.map_eq_some_iff.1 hanother
  rw [Value.isKey_of_asText hsame, htext] at hkeys
  simpa using hkeys

/-- No more columns are primary keys under the texts of their names. -/
theorem primaryKeys_withTextNames (columns : Keyed Column) :
    ((withTextNames columns).filter fun entry => entry.2.primaryKey).length ≤
      (primaryKeysOf columns).length := by
  induction columns with
  | nil => simp [withTextNames]
  | cons entry rest ih =>
      obtain ⟨name, column⟩ := entry
      cases hname : name.asText? with
      | none =>
          have hskip : withTextNames ((name, column) :: rest) = withTextNames rest := by
            simp [withTextNames, hname]
          rw [hskip]
          refine Nat.le_trans ih ?_
          cases hprimary : column.primaryKey <;> simp [primaryKeysOf, hprimary]
      | some text =>
          rw [withTextNames_cons hname]
          cases hprimary : column.primaryKey with
          | false => simpa [primaryKeysOf, hprimary] using ih
          | true => simpa [primaryKeysOf, hprimary] using ih

/-- Columns that are given as a map of definitions are these columns. -/
theorem columnsOf_definitionOf [Coercion] (columns : Keyed Column) :
    columnsOf (.map (definitionOf columns)) = .ok columns := by
  rw [columnsOf, mapM_eq_ok_iff, definitionOf, List.forall₂_map_left_iff]
  exact List.forall₂_same.2 fun _ _ => rfl

/-- The columns of a map of definitions stand under the keys of the map. -/
theorem hasDistinctKeys_columnsOf [Coercion] {definition : Value}
    (hkeys : definition.HasDistinctKeys) (h : columnsOf definition = .ok columns) :
    HasDistinctKeys columns := by
  cases definition with
  | map entries =>
      have hstep : (entries.mapM fun entry => do
          return (entry.1, ← Column.ofDefinition entry.2 entry.1)) = .ok columns := h
      exact HasDistinctKeys.congr hkeys (mapM_keyed_eq_ok hstep).1
  | _ => cases h

/-- Columns that pass make a valid table. -/
theorem valid_of_checkColumns {name : String} (hname : Identifier.isName name = true)
    (hkeys : HasDistinctKeys columns) (h : checkColumns columns = .ok ()) :
    Valid { name, columns := withTextNames columns } := by
  obtain ⟨hnonempty, hprimary, hcolumns⟩ := checkColumns_eq_ok.1 h
  have htext : ∀ entry ∈ columns, ∃ text, entry.1.asText? = some text ∧
      Identifier.isName text = true := by
    intro entry hentry
    have hvalue := (Column.check_eq_ok.1 (hcolumns entry hentry)).1
    rw [Identifier.isNameValue] at hvalue
    cases htext : entry.1.asText? with
    | none => simp [htext] at hvalue
    | some text => exact ⟨text, rfl, by simpa [htext] using hvalue⟩
  refine ⟨hname, ?_, ?_, nodup_withTextNames hkeys, ?_, ?_⟩
  · obtain ⟨⟨key, column⟩, rest, rfl⟩ := List.exists_cons_of_ne_nil hnonempty
    obtain ⟨text, hkey, -⟩ := htext (key, column) List.mem_cons_self
    rw [withTextNames_cons hkey]
    exact List.cons_ne_nil _ _
  · intro text hmem
    obtain ⟨⟨_, column⟩, hentry, rfl⟩ := List.mem_map.1 hmem
    obtain ⟨key, hkey, hsame⟩ := mem_withTextNames.1 hentry
    obtain ⟨known, hknown, hisName⟩ := htext (key, column) hkey
    rw [hsame, Option.some.injEq] at hknown
    rwa [hknown]
  · exact Nat.le_trans (primaryKeys_withTextNames columns) hprimary
  · rintro ⟨text, column⟩ hentry
    obtain ⟨key, hkey, -⟩ := mem_withTextNames.1 hentry
    exact Column.valid_of_check (hcolumns (key, column) hkey)

end Columns

/-- A table made of definitions under different keys is valid. -/
theorem valid_of_ofDefinition [Coercion] {name definition : Value} {table : Table}
    (hkeys : definition.HasDistinctKeys) (h : ofDefinition name definition = .ok table) :
    table.Valid := by
  simp only [ofDefinition, bind_eq_ok, pure_eq_ok] at h
  obtain ⟨text, hname, columns, hcolumns, _, hcheck, rfl⟩ := h
  exact valid_of_checkColumns (isName_of_checkTableName hname)
    (hasDistinctKeys_columnsOf hkeys hcolumns) hcheck

/-- A table made of columns under different keys is valid. -/
theorem valid_of_ofColumns [Coercion] {name : Value} {columns : Keyed Column} {table : Table}
    (hkeys : HasDistinctKeys columns) (h : ofColumns name columns = .ok table) : table.Valid := by
  refine valid_of_ofDefinition ?_ h
  refine HasDistinctKeys.congr hkeys ?_
  rw [definitionOf, List.map_map]
  rfl

/-- The columns of a valid table have their names as different keys. -/
theorem Valid.hasDistinctKeys {table : Table} (h : table.Valid) : HasDistinctKeys table.keyed := by
  refine List.pairwise_map.2 ((List.pairwise_map.1 h.distinct).imp ?_)
  rintro ⟨first, column⟩ ⟨second, other⟩ hnames
  rw [Value.isKey_of_asText (show (Value.text second).asText? = some second from rfl)]
  simpa [Value.asText?] using hnames

end Table

end TypedSql
