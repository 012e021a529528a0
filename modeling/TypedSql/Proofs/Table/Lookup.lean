import TypedSql.Proofs.Outcome
import TypedSql.Proofs.Value.Key
import TypedSql.Table.Basic

/-!
# Columns under their names

What the columns of a table are found under: a name finds the column that its text names, whatever
sort of text it is, and a value without a text finds none.
-/

namespace TypedSql.Table

/-- A column is found under the text of its name. -/
theorem column?_eq (table : Table) (name : Value) :
    table.column? name = name.asText?.bind table.columnAt? := by
  unfold column? columnAt? keyed Keyed.get?
  induction table.columns with
  | nil => cases name.asText? <;> rfl
  | cons entry rest ih =>
      obtain ⟨key, column⟩ := entry
      simp only [List.map_cons, List.find?_cons, Value.text_isKey] at ih ⊢
      cases hname : name.asText? with
      | none => simpa [hname] using ih
      | some chars =>
          rw [hname] at ih
          by_cases hkey : chars = key
          · subst hkey
            simp
          · have hother : (chars == key) = false := beq_eq_false_iff_ne.2 hkey
            simpa [hkey, List.lookup_cons, hother] using ih

/-- Values with one text find the same column. -/
theorem column?_congr (table : Table) {name other : Value} (h : name.asText? = other.asText?) :
    table.column? name = table.column? other := by
  rw [column?_eq, column?_eq, h]

/-- A column that is found is one of the table, under the text of the name. -/
theorem mem_of_column? {table : Table} {name : Value} {column : Column}
    (h : table.column? name = some column) :
    ∃ key, name.asText? = some key ∧ (key, column) ∈ table.columns := by
  rw [column?_eq] at h
  obtain ⟨chars, htext, hcolumn⟩ := Option.bind_eq_some_iff.1 h
  obtain ⟨before, after, hcolumns, -⟩ := List.lookup_eq_some_iff.1 hcolumn
  refine ⟨chars, htext, ?_⟩
  rw [hcolumns]
  exact List.mem_append_right _ List.mem_cons_self

/-- What names a column has its name as a text. -/
theorem mem_columnNames_of_hasColumn {table : Table} {field : Value}
    (h : table.hasColumn field = .ok true) : field.asText?.getD "" ∈ table.columnNames := by
  obtain ⟨found, hfound, hsome⟩ := Outcome.map_eq_ok.1 h
  unfold find at hfound
  split at hfound
  · cases hfound
    obtain ⟨column, hcolumn⟩ := Option.isSome_iff_exists.1 hsome
    obtain ⟨key, htext, hmem⟩ := mem_of_column? hcolumn
    rw [htext]
    exact List.mem_map_of_mem hmem
  · cases hfound

end TypedSql.Table
