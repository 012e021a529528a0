import TypedSql.Column.TypeText
import TypedSql.Proofs.Outcome
import TypedSql.Proofs.Sql.Numbering
import TypedSql.Proofs.Value.Display

/-!
# Types of placeholders

A column that has a type for its placeholders has one that can be written: it is never empty, and
where all dimensions are whole numbers no brace closes it early.
-/

namespace TypedSql.Column

open TypedSql.Outcome

theorem applyType_ne_empty (name : String) (parameters : List String) :
    applyType name parameters ≠ "" := by
  simp [applyType, Value.applied]

theorem kindName_ne_empty (kind : Kind) : kind.name ≠ "" := by
  cases kind <;> decide

theorem not_mem_kindName (kind : Kind) : '\x7d' ∉ kind.name.toList := by
  cases kind <;> decide

/-- A parameter of a type is the name of a kind or a displayed dimension; where no dimension is
loose it is a whole number or null that is displayed. -/
def IsParameter (column : Column) (text : String) : Prop :=
  (∃ kind : Kind, text = kind.name) ∨
    ∃ value : Value, value.displayed = .ok text ∧
      (column.loose = [] → value = .null ∨ ∃ number, value = .int number)

/-- A dimension that is not loose is a whole number or null. -/
theorem dimension_of_loose {column : Column} (h : column.loose = []) (dimension : Dimension) :
    column.dimension dimension = .null ∨ ∃ number, column.dimension dimension = .int number := by
  rw [dimension_of_loose_eq_nil h]
  cases column.dimension? dimension with
  | none => exact .inl rfl
  | some number => exact .inr ⟨number, rfl⟩

theorem scaleOrZero_of_loose {column : Column} (h : column.loose = []) :
    scaleOrZero column = .null ∨ ∃ number, scaleOrZero column = .int number := by
  simp only [scaleOrZero]
  split
  · exact dimension_of_loose h .scale
  · exact .inr ⟨0, rfl⟩

theorem dimensioned_eq_ok {column : Column} {dimensions : List Value} {type : String}
    (hdimensions : ∀ value ∈ dimensions,
      column.loose = [] → value = .null ∨ ∃ number, value = .int number)
    (h : dimensioned column dimensions = .ok type) :
    ∃ parameters, type = applyType column.kind.name parameters ∧
      ∀ text ∈ parameters, IsParameter column text := by
  simp only [dimensioned, bind_eq_ok, pure_eq_ok] at h
  obtain ⟨texts, htexts, rfl⟩ := h
  refine ⟨texts, rfl, fun text htext => ?_⟩
  obtain ⟨value, hvalue, hdisplayed⟩ := exists_of_mem_mapM htexts htext
  exact .inr ⟨value, hdisplayed, hdimensions value hvalue⟩

/-- The type of a column that is no enumeration is the name of its kind, by itself or around
parameters. -/
theorem bareType_eq_ok {column : Column} {type : String} (henum : column.kind.isEnum = false)
    (h : column.bareType = .ok type) :
    type = column.kind.name ∨ ∃ parameters, type = applyType column.kind.name parameters ∧
      ∀ text ∈ parameters, IsParameter column text := by
  -- only the kinds below have parameters; every other type is a bare name
  cases hkind : column.kind with
  | fixedString =>
      simp only [bareType, hkind] at h
      split at h
      · rw [← hkind]
        refine .inr (dimensioned_eq_ok ?_ h)
        simpa using fun hloose => dimension_of_loose hloose .length
      · cases h
  | decimal =>
      simp only [bareType, hkind] at h
      split at h
      · rw [← hkind]
        refine .inr (dimensioned_eq_ok ?_ h)
        simpa using
          ⟨fun hloose => dimension_of_loose hloose .precision, scaleOrZero_of_loose⟩
      · cases h
  | dateTime64 =>
      simp only [bareType, hkind] at h
      rw [← hkind]
      refine .inr (dimensioned_eq_ok ?_ h)
      intro value hvalue hloose
      rw [List.mem_singleton] at hvalue
      subst hvalue
      split
      · exact .inr ⟨defaultPlaces, rfl⟩
      · exact dimension_of_loose hloose .precision
  | array | lowCardinality | nullable =>
      simp only [bareType, hkind] at h
      split at h
      · next element helement =>
          cases h
          exact .inr ⟨[element.name], rfl, fun text htext =>
            .inl ⟨element, List.mem_singleton.1 htext⟩⟩
      · cases h
  | enum8 | enum16 => simp [hkind, Kind.isEnum] at henum
  | _ =>
      simp only [bareType, hkind] at h
      cases h
      exact .inl rfl

/-- A placeholder has a type that is not empty. -/
theorem placeholderType_ne_empty {column : Column} {type : String}
    (h : column.placeholderType = .ok type) : type ≠ "" := by
  unfold placeholderType at h
  split at h
  · cases h
    split
    · exact applyType_ne_empty _ _
    · exact kindName_ne_empty _
  · next henum =>
      obtain ⟨bare, hbare, rfl⟩ := map_eq_ok.1 h
      split
      · exact applyType_ne_empty _ _
      · rcases bareType_eq_ok (by simpa using henum) hbare with rfl | ⟨_, rfl, -⟩
        · exact kindName_ne_empty _
        · exact applyType_ne_empty _ _

/-- A character that neither a separator nor any part has is not in the parts put together. -/
theorem not_mem_intercalate {c : Char} {separator : String} (hseparator : c ∉ separator.toList)
    {parts : List String} (h : ∀ part ∈ parts, c ∉ part.toList) :
    c ∉ (separator.intercalate parts).toList := by
  induction parts with
  | nil => simp
  | cons part rest ih =>
      have hpart := h part List.mem_cons_self
      have hrest := ih fun other hother => h other (List.mem_cons_of_mem part hother)
      cases rest with
      | nil => simpa using hpart
      | cons other others =>
          rw [String.intercalate_cons_cons, String.toList_append, String.toList_append,
            List.mem_append, List.mem_append]
          rintro ((hmem | hmem) | hmem)
          · exact hpart hmem
          · exact hseparator hmem
          · exact hrest hmem

theorem not_mem_applyType {name : String} (hname : '\x7d' ∉ name.toList) {parameters : List String}
    (h : ∀ text ∈ parameters, '\x7d' ∉ text.toList) :
    '\x7d' ∉ (applyType name parameters).toList := by
  have hparts : '\x7d' ∉ (Value.commaSeparated parameters).toList :=
    not_mem_intercalate (by decide) h
  simp [applyType, Value.applied, hname, hparts]

/-- A parameter that is a whole number, null or the name of a kind has no brace. -/
theorem IsParameter.not_mem {column : Column} {text : String} (h : column.IsParameter text)
    (hloose : column.loose = []) : '\x7d' ∉ text.toList := by
  obtain ⟨kind, rfl⟩ | ⟨value, hdisplayed, hvalue⟩ := h
  · exact not_mem_kindName kind
  · obtain rfl | ⟨number, rfl⟩ := hvalue hloose
    · cases hdisplayed
      decide
    · obtain ⟨-, rfl⟩ := Value.displayed_eq_ok.1 hdisplayed
      exact Sql.not_mem_numeral (by decide) (by decide) number

/-- Where all dimensions are whole numbers no brace closes a placeholder early. -/
theorem not_mem_placeholderType {column : Column} {type : String} (hloose : column.loose = [])
    (h : column.placeholderType = .ok type) : '\x7d' ∉ type.toList := by
  have hnullable : ∀ bare : String, '\x7d' ∉ bare.toList → '\x7d' ∉ (nullableText bare).toList :=
    fun bare hbare => not_mem_applyType (not_mem_kindName _) (by simpa using hbare)
  unfold placeholderType at h
  split at h
  · cases h
    split
    · exact hnullable _ (not_mem_kindName _)
    · exact not_mem_kindName _
  · next henum =>
      obtain ⟨bare, hbare, rfl⟩ := map_eq_ok.1 h
      have hplain : '\x7d' ∉ bare.toList := by
        rcases bareType_eq_ok (by simpa using henum) hbare with rfl | ⟨_, rfl, hparameters⟩
        · exact not_mem_kindName _
        · exact not_mem_applyType (not_mem_kindName _)
            fun text htext => (hparameters text htext).not_mem hloose
      split
      · exact hnullable bare hplain
      · exact hplain

end TypedSql.Column
