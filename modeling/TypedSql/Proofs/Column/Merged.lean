import TypedSql.Proofs.Column.Restored

/-!
# Merged columns

Changes override some settings of a column, and all settings are read again. A setting that changes
name, in either spelling, has the last value that they give for it. Every other one keeps its value,
as long as the column has no loose dimensions: `overrides_of_merged`. Without changes such a column
is merged into itself: `merged_nil`.
-/

namespace TypedSql.Column

open TypedSql.Outcome

variable {column copy : Column} {changes : Entries} {name : Value}

section Changed

/-- The value of a setting. -/
def setting (column : Column) (setting : String) : Value :=
  (column.allSettings.lookup setting).getD .null

/-- The name of the setting that is a dimension. -/
def dimensionName : Dimension → String
  | .precision => "precision"
  | .scale => "scale"
  | .length => "length"

/-- The value that changes give for a setting, in either spelling; the last one counts. -/
def changeOf? (changes : Entries) (setting : String) : Option Value :=
  (changes.reverse.find? fun entry => entry.1.asText?.map settingOf = some setting).map Prod.snd

/-- The value that a setting has under changes, before it is read. -/
def changedSetting (column : Column) (changes : Entries) (setting : String) : Value :=
  (changeOf? changes setting).getD (column.setting setting)

/-- The text of a key of changes is its text in the first spelling. -/
theorem asText?_changedKey (key : Value) :
    (changedKey key).asText? = key.asText?.map settingOf := by
  unfold changedKey
  cases hkey : key.asText? with
  | none => simpa using hkey
  | some text =>
      by_cases hsame : settingOf text = text
      · simp [hsame, hkey]
      · simp [hsame, Value.asText?]

/-- The last value under a key of changes is the one that they give for it as a setting. -/
theorem at?_changed (changes : Entries) (setting : String) :
    Keyed.at? (changes.map fun (key, value) => (changedKey key, value)).reverse setting =
      changeOf? changes setting := by
  rw [← List.map_reverse, Keyed.at?, List.find?_map, Option.map_map, changeOf?]
  simp only [Function.comp_def, asText?_changedKey]

/-- The settings of a column are found under their names. -/
theorem at?_allSettings (column : Column) (setting : String) :
    Keyed.at? (column.allSettings.map fun (setting, value) => (.text setting, value)) setting =
      column.allSettings.lookup setting := by
  induction column.allSettings with
  | nil => rfl
  | cons entry rest ih =>
      rw [List.lookup_cons, List.map_cons, Keyed.at?, List.find?_cons]
      by_cases hsetting : setting = entry.1
      · simp [hsetting, Value.asText?]
      · have hother : decide ((Value.text entry.1).asText? = some setting) = false := by
          simpa [Value.asText?] using Ne.symm hsetting
        rw [hother, beq_false_of_ne hsetting]
        exact ih

/-- The settings of a column with changes over them. -/
def overridden (column : Column) (changes : Entries) : Entries :=
  Keyed.putAll (column.allSettings.map fun (setting, value) => (.text setting, value))
    (changes.map fun (key, value) => (changedKey key, value))

/-- Under a name is what changes give for it, and else the setting of the column. -/
theorem at?_overridden (column : Column) (changes : Entries) (setting : String) :
    Keyed.at? (column.overridden changes) setting =
      (changeOf? changes setting).or (column.allSettings.lookup setting) := by
  rw [overridden, Keyed.at?_putAll, at?_changed, at?_allSettings]

/-- What is in its first spelling stays so. -/
theorem settingOf_settingOf (key : String) : settingOf (settingOf key) = settingOf key := by
  by_cases hkey : key ∈ ["primaryKey", "autoIncrement", "elementType", "enumValues"]
  · simp only [List.mem_cons, List.not_mem_nil, or_false] at hkey
    rcases hkey with rfl | rfl | rfl | rfl <;> rfl
  · have hkept : settingOf key = key := by
      simp only [List.mem_cons, List.not_mem_nil, or_false, not_or] at hkey
      simp [settingOf, hkey]
    rw [hkept, hkept]

/-- A second spelling is no setting, and it has a first one. -/
theorem settingOf_ne_of_aliasOf? {setting other : String} (h : aliasOf? setting = some other) :
    settingOf other ≠ other ∧ other ∉ settingNames := by
  unfold aliasOf? at h
  split at h
  · cases h
    exact ⟨by decide, by decide⟩
  · cases h
    exact ⟨by decide, by decide⟩
  · cases h
    exact ⟨by decide, by decide⟩
  · cases h
    exact ⟨by decide, by decide⟩
  · cases h

/-- Changes name nothing in a second spelling. -/
theorem changeOf?_of_aliasOf? {setting other : String} (h : aliasOf? setting = some other) :
    changeOf? changes other = none := by
  rw [changeOf?, Option.map_eq_none_iff, List.find?_eq_none]
  intro entry _ hfound
  obtain ⟨key, -, hkey⟩ := Option.map_eq_some_iff.1 (of_decide_eq_true hfound)
  exact (settingOf_ne_of_aliasOf? h).1 (hkey ▸ settingOf_settingOf key)

/-- A name that is no setting is not found among the settings. -/
theorem lookup_allSettings_of_not_mem {key : String} (h : key ∉ settingNames) :
    column.allSettings.lookup key = none := by
  rw [List.lookup_eq_none_iff]
  intro entry hentry
  rw [bne_iff_ne]
  rintro rfl
  exact h (map_fst_allSettings column ▸ List.mem_map_of_mem hentry)

/-- A setting is found among the settings. -/
theorem lookup_allSettings_of_mem {setting : String} (h : setting ∈ settingNames) :
    column.allSettings.lookup setting = some (column.setting setting) := by
  rw [← map_fst_allSettings column] at h
  obtain ⟨entry, hentry, rfl⟩ := List.mem_map.1 h
  have hfound := Keyed.lookup_of_mem (by rw [map_fst_allSettings]; decide) hentry
  rw [Column.setting, hfound, Option.getD_some]

/-- The settings with changes over them give every setting. -/
theorem given?_overridden {setting : String} (h : setting ∈ settingNames) :
    given? (column.overridden changes) setting = some (column.changedSetting changes setting) := by
  have hother : (aliasOf? setting).bind (Keyed.at? (column.overridden changes)) = none := by
    rw [Option.bind_eq_none_iff]
    intro other hother
    rw [at?_overridden, changeOf?_of_aliasOf? hother,
      lookup_allSettings_of_not_mem (settingOf_ne_of_aliasOf? hother).2, Option.none_or]
  rw [given?, hother, Option.none_or, at?_overridden, lookup_allSettings_of_mem h, changedSetting]
  cases changeOf? changes setting <;> rfl

/-- A dimension is a setting. -/
theorem setting_dimensionName (column : Column) (dimension : Dimension) :
    column.setting (dimensionName dimension) = column.dimension dimension := by
  cases dimension <;> rfl

end Changed

section Read

variable [Coercion]

/-- What is read for a setting from a value. -/
def readAs (setting : String) (value : Value) : Except String Value :=
  match setting with
  | "type" => (Coercion.kind value).map .kind
  | "default" => .ok (.ofOption .columnDefault (wrapDefault value))
  | "comment" => (Coercion.optional Coercion.text value).map (.ofOption .text)
  | "element_type" => (Coercion.optional Coercion.kind value).map (.ofOption .kind)
  | "precision" | "scale" | "length" => Coercion.dimension value
  | "enum_values" => (Coercion.optional Coercion.texts value).map (.ofOption Value.ofEnumeration)
  | _ => (Coercion.flag value).map .bool

/-- The column that is read from a value for each of its settings. -/
def ofValues (value : String → Value) : Except String Column := do
  let kind ← Coercion.kind (value "type")
  let nullable ← Coercion.flag (value "nullable")
  let primaryKey ← Coercion.flag (value "primary_key")
  let unique ← Coercion.flag (value "unique")
  let autoIncrement ← Coercion.flag (value "auto_increment")
  let default := wrapDefault (value "default")
  let comment ← Coercion.optional Coercion.text (value "comment")
  let elementKind ← Coercion.optional Coercion.kind (value "element_type")
  let precision ← Coercion.dimension (value "precision")
  let scale ← Coercion.dimension (value "scale")
  let length ← Coercion.dimension (value "length")
  let enumValues ← Coercion.optional Coercion.texts (value "enum_values")
  return {
    kind, nullable, primaryKey, unique, autoIncrement, comment, elementKind, enumValues, default
    precision := wholeDimension? precision
    scale := wholeDimension? scale
    length := wholeDimension? length
    loose := looseDimensions [(.precision, precision), (.scale, scale), (.length, length)] }

/-- A definition that gives every setting is read from these values. -/
theorem ofSettings_of_given {definition : Entries} {value : String → Value}
    (h : ∀ setting ∈ settingNames, given? definition setting = some (value setting)) :
    ofSettings definition = ofValues value := by
  have hread : ∀ {α : Type} (read : Value → Except String α) (default : α),
      ∀ setting ∈ settingNames, readSetting definition setting read default = read (value setting)
      := by
    intro α read default setting hsetting
    rw [readSetting, h setting hsetting]
  have htype := h "type" (by decide)
  have hdefault := h "default" (by decide)
  unfold ofSettings
  rw [htype, hdefault]
  iterate 10 rw [hread _ _ _ (by decide)]
  rfl

/-- A merged column is read from what each setting is under the changes. -/
theorem merged_eq_ok :
    column.merged changes name = .ok copy ↔
      (column.changedSetting changes "type").isTruthy = true ∧
        ofValues (column.changedSetting changes) = .ok copy := by
  have htype : Keyed.at? (column.overridden changes) "type" =
      some (column.changedSetting changes "type") :=
    given?_overridden (by decide : "type" ∈ settingNames)
  have hread : ofSettings (column.overridden changes) = ofValues (column.changedSetting changes) :=
    ofSettings_of_given fun _ => given?_overridden
  have hmerged : column.merged changes name =
      ofDefinition (.map (column.overridden changes)) name := rfl
  rw [hmerged, ofDefinition_map_eq_ok, htype, Option.any_some, hread]

/-- Each setting of a column that is read is what is read for it. -/
theorem readAs_of_ofValues {value : String → Value} (h : ofValues value = .ok copy) :
    ∀ setting ∈ settingNames, readAs setting (value setting) = .ok (copy.setting setting) := by
  simp only [ofValues, bind_eq_ok, pure_eq_ok] at h
  obtain ⟨kind, hkind, nullable, hnullable, primaryKey, hprimaryKey, unique, hunique,
    autoIncrement, hautoIncrement, comment, hcomment, elementKind, helementKind, precision,
    hprecision, scale, hscale, length, hlength, enumValues, henumValues, rfl⟩ := h
  let bare : Column := { kind }
  have hdimension : ∀ dimension,
      (bare.restoredWith (byDimension precision scale length)).dimension dimension =
        byDimension precision scale length dimension :=
    dimension_restoredWith _
  simp only [settingNames, List.forall_mem_cons, List.not_mem_nil, false_implies, implies_true,
    and_true, readAs, hkind, hnullable, hprimaryKey, hunique, hautoIncrement, hcomment,
    helementKind, hprecision, hscale, hlength, henumValues]
  refine ⟨rfl, rfl, rfl, rfl, rfl, rfl, rfl, rfl, ?_, ?_, ?_, rfl⟩
  · exact congrArg Except.ok (hdimension .precision).symm
  · exact congrArg Except.ok (hdimension .scale).symm
  · exact congrArg Except.ok (hdimension .length).symm

variable [LawfulCoercion]

/-- Whatever is no flag and no dimension is read from its setting as it is. -/
theorem read_setting (column : Column) :
    Coercion.kind (column.setting "type") = .ok column.kind ∧
      wrapDefault (column.setting "default") = column.default ∧
      Coercion.optional Coercion.text (column.setting "comment") = .ok column.comment ∧
      Coercion.optional Coercion.kind (column.setting "element_type") = .ok column.elementKind ∧
      Coercion.optional Coercion.texts (column.setting "enum_values") = .ok column.enumValues := by
  have hdefault : wrapDefault (.ofOption .columnDefault column.default) = column.default := by
    cases column.default <;> rfl
  exact ⟨LawfulCoercion.kind_kind column.kind, hdefault,
    Coercion.optional_ofOption LawfulCoercion.text_text (fun _ => rfl) column.comment,
    Coercion.optional_ofOption LawfulCoercion.kind_kind (fun _ => rfl) column.elementKind,
    Coercion.optional_ofOption Coercion.texts_ofEnumeration (fun _ => rfl) column.enumValues⟩

/-- A setting is read as it is, where no dimension is loose. -/
theorem readAs_setting {setting : String} (h : setting ∈ settingNames)
    (hloose : column.loose = []) :
    readAs setting (column.setting setting) = .ok (column.setting setting) := by
  obtain ⟨hkind, hdefault, hcomment, helement, henum⟩ := read_setting column
  have hdimension := readDimension_of_loose_eq_nil hloose
  have hflag : ∀ flag : Bool, (Coercion.flag (.bool flag)).map Value.bool = .ok (.bool flag) := by
    intro flag
    rw [LawfulCoercion.flag_bool]
    rfl
  simp only [settingNames, List.mem_cons, List.not_mem_nil, or_false] at h
  rcases h with rfl | rfl | rfl | rfl | rfl | rfl | rfl | rfl | rfl | rfl | rfl | rfl
  · exact congrArg (Except.map Value.kind) hkind
  · exact hflag column.nullable
  · exact hflag column.primaryKey
  · exact hflag column.unique
  · exact hflag column.autoIncrement
  · exact congrArg (fun default => Except.ok (Value.ofOption .columnDefault default)) hdefault
  · exact congrArg (Except.map (Value.ofOption .text)) hcomment
  · exact congrArg (Except.map (Value.ofOption .kind)) helement
  · exact hdimension .precision
  · exact hdimension .scale
  · exact hdimension .length
  · exact congrArg (Except.map (Value.ofOption Value.ofEnumeration)) henum

/-- A column is read from its own settings, where no dimension is loose. -/
theorem ofValues_setting (hloose : column.loose = []) : ofValues column.setting = .ok column := by
  obtain ⟨hkind, hdefault, hcomment, helement, henum⟩ := read_setting column
  have hdimension : ∀ dimension, Coercion.dimension (column.setting (dimensionName dimension)) =
      .ok (.ofOption .int (column.dimension? dimension)) := by
    intro dimension
    rw [setting_dimensionName, readDimension_of_loose_eq_nil hloose,
      dimension_of_loose_eq_nil hloose]
  have hflag : ∀ setting flag, column.setting setting = .bool flag →
      Coercion.flag (column.setting setting) = .ok flag := by
    intro setting flag hsetting
    rw [hsetting, LawfulCoercion.flag_bool]
  rw [ofValues, hkind, hdefault, hcomment, helement, henum, hflag "nullable" column.nullable rfl,
    hflag "primary_key" column.primaryKey rfl, hflag "unique" column.unique rfl,
    hflag "auto_increment" column.autoIncrement rfl,
    show Coercion.dimension (column.setting "precision") = _ from hdimension .precision,
    show Coercion.dimension (column.setting "scale") = _ from hdimension .scale,
    show Coercion.dimension (column.setting "length") = _ from hdimension .length]
  obtain ⟨⟨kind, nullable, primaryKey, unique, autoIncrement, comment, elementKind, precision,
    scale, length, enumValues⟩, default, loose⟩ := column
  cases hloose
  cases precision <;> cases scale <;> cases length <;> rfl

end Read

section Overrides

variable [Coercion]

/-- `Overrides changes column copy` says that a column has the settings of another one, apart from
those that changes name. -/
structure Overrides (changes : Entries) (column copy : Column) : Prop where
  /-- A setting that is named is what is read of the last value that is given for it. -/
  named : ∀ setting ∈ settingNames, ∀ value, changeOf? changes setting = some value →
    readAs setting value = .ok (copy.setting setting)
  /-- A setting that is not named is as it was. -/
  kept : ∀ setting ∈ settingNames, changeOf? changes setting = none →
    copy.setting setting = column.setting setting
  /-- A default that is not named is as it was, literal or generator. -/
  default : changeOf? changes "default" = none → copy.default = column.default

variable [LawfulCoercion]

/-- A merged column differs from the column it is made of in nothing but what is named. -/
theorem overrides_of_merged (hloose : column.loose = [])
    (h : column.merged changes name = .ok copy) : Overrides changes column copy := by
  have hread := readAs_of_ofValues (merged_eq_ok.1 h).2
  have hkept : ∀ setting ∈ settingNames, changeOf? changes setting = none →
      copy.setting setting = column.setting setting := by
    intro setting hsetting hnone
    have hgiven := hread setting hsetting
    rw [changedSetting, hnone, Option.getD_none, readAs_setting hsetting hloose] at hgiven
    exact (Except.ok.inj hgiven).symm
  refine ⟨?_, hkept, ?_⟩
  · intro setting hsetting value hvalue
    have hgiven := hread setting hsetting
    rwa [changedSetting, hvalue] at hgiven
  · intro hnone
    have hsetting := hkept "default" (by decide) hnone
    rw [← (read_setting copy).2.1, hsetting, (read_setting column).2.1]

/-- Without changes a column is merged into itself. -/
theorem merged_nil (hloose : column.loose = []) (name : Value) :
    column.merged [] name = .ok column :=
  merged_eq_ok.2 ⟨rfl, ofValues_setting hloose⟩

end Overrides

end TypedSql.Column
