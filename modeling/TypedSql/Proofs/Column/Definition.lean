import TypedSql.Column.Definition
import TypedSql.Proofs.Coercion
import TypedSql.Proofs.Outcome

/-!
# Written definitions of columns

A column is written as the settings that differ from their defaults. Read again, each of them is
what it was, with two exceptions: a bare default is taken for what it looks like, and a dimension
has to be readable as a whole number. `ofSettings_toDefinition` says what the column then is.
-/

namespace TypedSql.Column

open TypedSql.Outcome

variable {column : Column}

section Written

/-- The settings of a column, by name. -/
def settingNames : List String :=
  ["type", "nullable", "primary_key", "unique", "auto_increment", "default", "comment",
    "element_type", "precision", "scale", "length", "enum_values"]

theorem map_fst_allSettings (column : Column) : column.allSettings.map Prod.fst = settingNames :=
  rfl

/-- Of entries with different keys the one with a key is found, if it is kept. -/
theorem find?_of_nodup {α : Type} {entries : List (String × α)} {key : String} {value : α}
    (hnodup : (entries.map Prod.fst).Nodup) (hmem : (key, value) ∈ entries)
    (keep : String × α → Bool) :
    (entries.find? fun entry => keep entry && decide (entry.1 = key)) =
      if keep (key, value) then some (key, value) else none := by
  induction entries with
  | nil => cases hmem
  | cons entry rest ih =>
      rw [List.map_cons, List.nodup_cons] at hnodup
      rcases List.mem_cons.1 hmem with rfl | hrest
      · have hother : (rest.find? fun entry => keep entry && decide (entry.1 = key)) = none := by
          rw [List.find?_eq_none]
          intro other hother hfound
          rw [Bool.and_eq_true, decide_eq_true_iff] at hfound
          exact hnodup.1 (List.mem_map.2 ⟨other, hother, hfound.2⟩)
        rw [List.find?_cons, hother]
        cases keep (key, value) <;> simp
      · have hne : entry.1 ≠ key := by
          intro hsame
          exact hnodup.1 (List.mem_map.2 ⟨(key, value), hrest, hsame.symm⟩)
        rw [List.find?_cons, decide_eq_false hne, Bool.and_false]
        exact ih hnodup.2 hrest

/-- Whether a setting is written in the definition, other than as the default. -/
def isWritten (entry : String × Value) : Bool :=
  entry.1 ≠ "default" && !isUnset entry.1 entry.2

/-- Among settings that are written as entries the one with a key is found. -/
theorem at?_written (settings : List (String × Value)) (key : String) :
    Keyed.at?
        ((settings.filter isWritten).map fun (setting, value) => (.text setting, value)) key =
      (settings.find? fun entry => isWritten entry && decide (entry.1 = key)).map Prod.snd := by
  simp only [Keyed.at?, List.find?_map, List.find?_filter, Function.comp_def, Value.asText?,
    Option.some.injEq, Option.map_map, decide_eq_true_eq, Bool.decide_and, Bool.decide_eq_true]

/-- A default is written under its own key only. -/
theorem at?_writtenDefault (default : Option (Default Value)) (key : String) :
    Keyed.at? (match default with
      | none => []
      | some default => [(.text "default", definedDefault default)]) key =
      if key = "default" then default.map definedDefault else none := by
  cases default with
  | none => simp [Keyed.at?]
  | some default =>
      by_cases hkey : key = "default"
      · simp [Keyed.at?, Value.asText?, hkey]
      · simp [Keyed.at?, Value.asText?, hkey, Ne.symm hkey]

/-- What a definition gives under a key comes from the settings that are written, or is the
default. -/
theorem at?_toDefinition (column : Column) (key : String) :
    Keyed.at? column.toDefinition key =
      ((column.allSettings.find? fun entry => isWritten entry && decide (entry.1 = key)).map
        Prod.snd).or (if key = "default" then column.default.map definedDefault else none) := by
  rw [← at?_written, ← at?_writtenDefault, toDefinition, Keyed.at?, List.find?_append,
    Option.map_or]
  rfl

/-- A definition gives a setting as it is, unless it is left out. -/
theorem at?_toDefinition_of_mem {setting : String} {value : Value}
    (hmem : (setting, value) ∈ column.allSettings) (hsetting : setting ≠ "default") :
    Keyed.at? column.toDefinition setting = if isUnset setting value then none else some value := by
  have hnodup : (column.allSettings.map Prod.fst).Nodup := by
    rw [map_fst_allSettings]
    decide
  rw [at?_toDefinition, find?_of_nodup hnodup hmem, if_neg hsetting, Option.or_none, isWritten,
    decide_eq_true hsetting, Bool.true_and]
  cases isUnset setting value <;> rfl

/-- A definition has no keys but the names of settings. -/
theorem at?_toDefinition_of_not_mem {key : String} (h : key ∉ settingNames) :
    Keyed.at? column.toDefinition key = none := by
  have hdefault : key ≠ "default" := fun hkey => h (hkey ▸ by decide)
  have hnone : (column.allSettings.find? fun entry =>
      isWritten entry && decide (entry.1 = key)) = none := by
    rw [List.find?_eq_none]
    intro entry hentry hfound
    rw [Bool.and_eq_true, decide_eq_true_iff] at hfound
    rw [← map_fst_allSettings column] at h
    exact h (List.mem_map.2 ⟨entry, hentry, hfound.2⟩)
  rw [at?_toDefinition, hnone, if_neg hdefault]
  rfl

/-- A definition is written in the first spelling. -/
theorem aliasOf?_toDefinition (setting : String) :
    (aliasOf? setting).bind (Keyed.at? column.toDefinition) = none := by
  unfold aliasOf?
  split
  · exact at?_toDefinition_of_not_mem (by decide)
  · exact at?_toDefinition_of_not_mem (by decide)
  · exact at?_toDefinition_of_not_mem (by decide)
  · exact at?_toDefinition_of_not_mem (by decide)
  · rfl

/-- A setting is read from its value, whether it is written or left out. -/
theorem readSetting_toDefinition {α : Type} {setting : String} {value : Value} {default : α}
    {read : Value → Except String α} (hmem : (setting, value) ∈ column.allSettings)
    (hsetting : setting ≠ "default")
    (hunset : isUnset setting value = true → read value = .ok default) :
    readSetting column.toDefinition setting read default = read value := by
  rw [readSetting, given?, aliasOf?_toDefinition, Option.none_or,
    at?_toDefinition_of_mem hmem hsetting]
  cases hwritten : isUnset setting value with
  | true => exact (hunset hwritten).symm
  | false => rfl

end Written

/-- A map of settings stands for the column that is read of them, if it gives a kind. -/
theorem ofDefinition_map_eq_ok [Coercion] {entries : Entries} {name : Value} :
    ofDefinition (.map entries) name = .ok column ↔
      (Keyed.at? entries "type").any Value.isTruthy = true ∧ ofSettings entries = .ok column := by
  rw [ofDefinition]
  cases (Keyed.at? entries "type").any Value.isTruthy with
  | false => simp
  | true => cases ofSettings entries <;> simp [Except.mapError]

section Settings

/-- A flag is read as it is. -/
theorem readSetting_flag [Coercion] [LawfulCoercion] {setting : String} {flag : Bool}
    (hmem : (setting, .bool flag) ∈ column.allSettings) (hsetting : setting ≠ "default") :
    readSetting column.toDefinition setting Coercion.flag false = .ok flag := by
  rw [readSetting_toDefinition hmem hsetting ?_, LawfulCoercion.flag_bool]
  intro hunset
  cases flag with
  | false => exact LawfulCoercion.flag_bool false
  | true => cases hunset

/-- An optional setting is read as it is, if its values are. -/
theorem readSetting_optional {α : Type} {setting : String} (wrap : α → Value) {known : Option α}
    {read : Value → Except String α} (hmem : (setting, .ofOption wrap known) ∈ column.allSettings)
    (hsetting : setting ≠ "default") (hread : ∀ value, read (wrap value) = .ok value)
    (hpresent : ∀ value, (wrap value).isNull = false ∧ isUnset setting (wrap value) = false) :
    readSetting column.toDefinition setting (Coercion.optional read) none = .ok known := by
  have hvalue := Coercion.optional_ofOption hread (fun value => (hpresent value).1) known
  rw [readSetting_toDefinition hmem hsetting, hvalue]
  intro hunset
  cases known with
  | none => rfl
  | some value =>
      rw [Value.ofOption, (hpresent value).2] at hunset
      cases hunset

/-- A dimension is read from its value. -/
theorem readSetting_dimension [Coercion] [LawfulCoercion] {setting : String} {value : Value}
    (hmem : (setting, value) ∈ column.allSettings) (hsetting : setting ∉ flagSettings)
    (hdefault : setting ≠ "default") :
    readSetting column.toDefinition setting Coercion.dimension .null =
      Coercion.dimension value := by
  refine readSetting_toDefinition hmem hdefault ?_
  intro hunset
  unfold isUnset at hunset
  split at hunset
  · exact LawfulCoercion.dimension_null
  · exact absurd (List.contains_iff_mem.1 hunset) hsetting
  · cases hunset

/-- The kind of a column is read from its definition. -/
theorem kind_toDefinition [Coercion] [LawfulCoercion] :
    Coercion.kind ((given? column.toDefinition "type").getD .null) = .ok column.kind := by
  have hmem : ("type", Value.kind column.kind) ∈ column.allSettings := by
    simp [allSettings, Value.columnFields]
  have hgiven : given? column.toDefinition "type" = some (.kind column.kind) := by
    rw [given?, aliasOf?_toDefinition, Option.none_or, at?_toDefinition_of_mem hmem (by decide)]
    rfl
  rw [hgiven, Option.getD_some]
  exact LawfulCoercion.kind_kind column.kind

/-- The default of a definition is the value that the default of the column is written as. -/
theorem default_toDefinition :
    given? column.toDefinition "default" = column.default.map definedDefault := by
  have hnone : (column.allSettings.find? fun entry =>
      isWritten entry && decide (entry.1 = "default")) = none := by
    rw [List.find?_eq_none]
    intro entry _ hfound
    rw [Bool.and_eq_true, decide_eq_true_iff, isWritten] at hfound
    simp [hfound.2] at hfound
  rw [given?, aliasOf?_toDefinition, Option.none_or, at?_toDefinition, hnone, if_pos rfl]
  rfl

/-- The column that is read from a definition with some dimensions. -/
def restored (column : Column) (precision scale length : Value) : Column :=
  { column with
    default := column.default.bind fun default => wrapDefault (definedDefault default)
    precision := wholeDimension? precision
    scale := wholeDimension? scale
    length := wholeDimension? length
    loose := looseDimensions [(.precision, precision), (.scale, scale), (.length, length)] }

/-- Everything but the default and the dimensions is read from a definition as it was. -/
theorem ofSettings_toDefinition [Coercion] [LawfulCoercion] :
    ofSettings column.toDefinition = do
      let precision ← Coercion.dimension (column.dimension .precision)
      let scale ← Coercion.dimension (column.dimension .scale)
      let length ← Coercion.dimension (column.dimension .length)
      return column.restored precision scale length := by
  have hmem : ∀ {index : Nat} {entry : String × Value}, column.allSettings[index]? = some entry →
      entry ∈ column.allSettings := List.mem_of_getElem?
  have hcomment := readSetting_optional .text (hmem (rfl : _[6]? = some ("comment", _)))
    (by decide) LawfulCoercion.text_text fun _ => ⟨rfl, rfl⟩
  have helement := readSetting_optional .kind (hmem (rfl : _[7]? = some ("element_type", _)))
    (by decide) LawfulCoercion.kind_kind fun _ => ⟨rfl, rfl⟩
  have henum := readSetting_optional Value.ofEnumeration
    (hmem (rfl : _[11]? = some ("enum_values", _))) (by decide) Coercion.texts_ofEnumeration
    fun _ => ⟨rfl, rfl⟩
  rw [ofSettings, kind_toDefinition,
    readSetting_flag (hmem (rfl : _[1]? = some ("nullable", _))) (by decide),
    readSetting_flag (hmem (rfl : _[2]? = some ("primary_key", _))) (by decide),
    readSetting_flag (hmem (rfl : _[3]? = some ("unique", _))) (by decide),
    readSetting_flag (hmem (rfl : _[4]? = some ("auto_increment", _))) (by decide),
    default_toDefinition, hcomment, helement,
    readSetting_dimension (hmem (rfl : _[8]? = some ("precision", _))) (by decide) (by decide),
    readSetting_dimension (hmem (rfl : _[9]? = some ("scale", _))) (by decide) (by decide),
    readSetting_dimension (hmem (rfl : _[10]? = some ("length", _))) (by decide) (by decide),
    henum, Option.bind_map]
  rfl

/-- A written definition gives a kind. -/
theorem hasKind_toDefinition (column : Column) :
    (Keyed.at? column.toDefinition "type").any Value.isTruthy = true := by
  have hmem : ("type", Value.kind column.kind) ∈ column.allSettings := by
    simp [allSettings, Value.columnFields]
  rw [at?_toDefinition_of_mem hmem (by decide)]
  rfl

/-- A dimension that is not loose is read as it is. -/
theorem readDimension_of_loose_eq_nil [Coercion] [LawfulCoercion] (h : column.loose = [])
    (dimension : Dimension) :
    Coercion.dimension (column.dimension dimension) = .ok (column.dimension dimension) := by
  rw [dimension_of_loose_eq_nil h]
  cases column.dimension? dimension with
  | none => exact LawfulCoercion.dimension_null
  | some number => exact LawfulCoercion.dimension_int number

/-- A column without a default and without loose dimensions is read from its definition as it is. -/
theorem ofDefinition_toDefinition_self [Coercion] [LawfulCoercion] (hloose : column.loose = [])
    (hdefault : column.default = none) (name : Value) :
    ofDefinition (.map column.toDefinition) name = .ok column := by
  have hdimension := readDimension_of_loose_eq_nil hloose
  refine ofDefinition_map_eq_ok.2 ⟨hasKind_toDefinition column, ?_⟩
  rw [ofSettings_toDefinition, hdimension, hdimension, hdimension]
  obtain ⟨⟨kind, nullable, primaryKey, unique, autoIncrement, comment, elementKind, precision,
    scale, length, enumValues⟩, default, loose⟩ := column
  cases hloose
  cases hdefault
  cases precision <;> cases scale <;> cases length <;> rfl

end Settings

end TypedSql.Column
