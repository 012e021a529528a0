import TypedSql.Proofs.Table.Lookup
import TypedSql.Proofs.Table.Valid
import TypedSql.Proofs.Wire.Sendable
import TypedSql.Table.Record

/-!
# Records that pass

What the check of a full record establishes: every name in it is that of a column
(`checkFor_eq_ok_iff`), and every column finds null or a value that it accepts
(`accepts_of_checkField`).
-/

namespace TypedSql

open TypedSql.Outcome

namespace Table

variable {table : Table}

/-- What names a column is a possible key. -/
theorem canBeKey_of_has {name : Value} (h : table.keyed.has name = true) :
    name.canBeKey = true := by
  obtain ⟨_, hentry, hkey⟩ := List.any_eq_true.1 h
  obtain ⟨entry, -, rfl⟩ := List.mem_map.1 hentry
  rw [Value.text_isKey, decide_eq_true_iff] at hkey
  exact Value.canBeKey_of_asText? hkey

/-- A column is in use under its name. -/
theorem has_keyed_of_mem {name : Value} {chars : String} {column : Column}
    (hmem : (chars, column) ∈ table.columns) (hname : name.asText? = some chars) :
    table.keyed.has name = true := by
  refine List.any_eq_true.2 ⟨(.text chars, column), List.mem_map_of_mem hmem, ?_⟩
  rw [Value.text_isKey, hname]
  exact decide_eq_true rfl

/-- A column of a valid table is found under its name. -/
theorem Valid.column?_of_mem (h : table.Valid) {name : String} {column : Column}
    (hmem : (name, column) ∈ table.columns) : table.column? (.text name) = some column := by
  rw [column?_eq]
  exact Keyed.lookup_of_mem h.distinct hmem

end Table

namespace Record

variable {record : Entries} {table : Table}

/-- The value of a record under a name; without one it is null. -/
def valueAt (record : Entries) (name : String) : Value :=
  (Keyed.get? record (.text name)).getD .null

/-- A value passes exactly if its column takes it. -/
theorem checkValue_eq_ok_iff {name value : Value} {column : Column} :
    checkValue name value column = .ok () ↔ Wire.check column value = .ok true := by
  rw [checkValue, bind_eq_ok]
  constructor
  · rintro ⟨taken, htaken, h⟩
    cases taken with
    | true => exact htaken
    | false => cases h
  · exact fun htaken => ⟨true, htaken, rfl⟩

/-- A record passes exactly if every name in it is that of a column, and every column passes. -/
theorem checkFor_eq_ok_iff :
    checkFor table (.map record) = .ok () ↔
      (∀ entry ∈ record, table.keyed.has entry.1 = true) ∧
        ∀ entry ∈ table.columns, checkField record (.text entry.1) entry.2 = .ok () := by
  have hknown : checkKnown record table.keyed = .ok () ↔
      ∀ entry ∈ record, table.keyed.has entry.1 = true := by
    refine forM_eq_ok_iff.trans (forall₂_congr fun entry _ => ?_)
    cases hhas : table.keyed.has entry.1 <;> simp [hhas]
  rw [← hknown, checkFor, check, bind_eq_ok]
  constructor
  · rintro ⟨_, hrecord, hcolumns⟩
    refine ⟨hrecord, ?_⟩
    have hfields := forM_eq_ok_iff.1 hcolumns
    rwa [Table.keyed, List.forall_mem_map] at hfields
  · rintro ⟨hrecord, hcolumns⟩
    refine ⟨(), hrecord, forM_eq_ok_iff.2 ?_⟩
    rwa [Table.keyed, List.forall_mem_map]

/-- The values of a record are proper if all that it holds are. -/
theorem isProper_valueAt (h : ∀ entry ∈ record, entry.2.IsProper) (name : String) :
    (valueAt record name).IsProper := by
  unfold valueAt Keyed.get?
  cases hfound : record.find? fun entry => entry.1.isKey (.text name) with
  | none => trivial
  | some entry => exact h entry (List.mem_of_find?_eq_some hfound)

/-- A record finds what is put into it, and under other names what it found before. -/
theorem valueAt_put {name value : Value} {known : String} (h : name.asText? = some known)
    (chars : String) :
    valueAt (Keyed.put record name value) chars =
      if known = chars then value else valueAt record chars := by
  have hchars : (Value.text chars).asText? = some chars := rfl
  unfold valueAt
  rw [Keyed.get?_eq_at? hchars, Keyed.get?_eq_at? hchars, Keyed.at?_put h]
  split <;> rfl

/-- What a column lets pass of a record is null or accepted. -/
theorem accepts_of_checkField {name : String} {column : Column}
    (h : checkField record (.text name) column = .ok ()) :
    (valueAt record name).isNull = true ∨ Wire.accepts column (valueAt record name) = .ok true := by
  unfold checkField at h
  simp only at h
  split at h
  · next hnull => exact .inl hnull
  · obtain ⟨accepted, haccepted, h⟩ := bind_eq_ok.1 h
    cases accepted with
    | true => exact Wire.accepts_of_check haccepted
    | false => cases h

end Record

end TypedSql
