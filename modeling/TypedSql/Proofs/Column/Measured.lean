import TypedSql.Proofs.Column.Definition
import TypedSql.Proofs.Column.Valid

/-!
# Columns with whole dimensions

A column is made of settings or of a kind alone. Where nothing but whole numbers and null is read
for a dimension, such a column has no loose ones (`IsMade.loose_eq_nil`), and the checks say of its
dimensions what they say of whole numbers: `Valid.measured`.
-/

namespace TypedSql

open TypedSql.Outcome

/-- Whether a definition, where it is a column, is an admitted one. -/
def Value.Admitted (admits : Column → Prop) : Value → Prop
  | .column settings default loose => admits { settings with default, loose }
  | _ => True

/-- A definition that is a map is no column. -/
theorem Value.admitted_map {admits : Column → Prop} (entries : Entries) :
    (Value.map entries).Admitted admits :=
  trivial

namespace Column

variable {column : Column}

/-- The columns that settings or kinds alone make. -/
inductive IsMade [Coercion] : Column → Prop
  | read {entries : Entries} {column : Column} (h : ofSettings entries = .ok column) :
      IsMade column
  | bare (kind : Kind) : IsMade { kind }

/-- What a definition stands for is made, unless the definition is a column that is not. -/
theorem isMade_of_ofDefinition [Coercion] {definition name : Value}
    (given : definition.Admitted IsMade) (h : ofDefinition definition name = .ok column) :
    column.IsMade := by
  unfold ofDefinition at h
  split at h
  · cases h
    exact given
  · cases h
    exact .bare _
  · split at h
    · next entries _ =>
        cases hread : ofSettings entries with
        | error problem => simp [hread, Except.mapError] at h
        | ok known =>
            rw [hread] at h
            cases h
            exact .read hread
    · cases h
  · cases h

section Whole

variable [Coercion] [WholeDimensions]

/-- Whatever is given for a dimension, null or a whole number is read. -/
theorem eq_null_or_int_of_readSetting {definition : Entries} {setting : String} {read : Value}
    (h : readSetting definition setting Coercion.dimension .null = .ok read) :
    read = .null ∨ ∃ number, read = .int number := by
  unfold readSetting at h
  split at h
  · exact .inl (Except.ok.inj h).symm
  · exact WholeDimensions.eq_null_or_int h

/-- A column that is made has no loose dimensions. -/
theorem IsMade.loose_eq_nil (h : column.IsMade) : column.loose = [] := by
  cases h with
  | bare kind => rfl
  | read h =>
      simp only [ofSettings, bind_eq_ok, pure_eq_ok] at h
      obtain ⟨_, -, _, -, _, -, _, -, _, -, _, -, _, -, precision, hprecision, scale, hscale,
        length, hlength, _, -, rfl⟩ := h
      refine List.filter_eq_nil_iff.2 ?_
      have hwhole : ∀ value : Value, (value = .null ∨ ∃ number, value = .int number) →
          ¬(!value.isNull && (wholeDimension? value).isNone) = true := by
        rintro _ (rfl | ⟨number, rfl⟩) <;> simp [Value.isNull, wholeDimension?]
      simp only [List.forall_mem_cons, List.not_mem_nil, false_implies, implies_true, and_true]
      exact ⟨hwhole _ (eq_null_or_int_of_readSetting hprecision),
        hwhole _ (eq_null_or_int_of_readSetting hscale),
        hwhole _ (eq_null_or_int_of_readSetting hlength)⟩

end Whole

/-- The requirements on the dimensions of a column, all of which are whole numbers. -/
structure Measured (column : Column) : Prop where
  whole : column.loose = []
  length : column.kind = .fixedString → ∃ length, column.length = some length ∧ 0 < length
  precision : column.kind = .decimal →
    ∃ precision, column.precision = some precision ∧ 0 < precision
  scale : column.kind = .decimal → ∀ scale, column.scale = some scale →
    ∃ precision, column.precision = some precision ∧ 0 ≤ scale ∧ scale ≤ precision

/-- A dimension that has to be positive is a positive number. -/
theorem exists_pos_of_isPositive {number : Option Int}
    (h : IsPositive (.ofOption .int number)) : ∃ known, number = some known ∧ 0 < known := by
  cases number with
  | some known => exact ⟨known, rfl, h.lt⟩
  | none =>
      rcases h with hnan | ⟨_, hnumber, -⟩
      · cases hnan
      · cases hnumber

/-- What the checks require of dimensions they require of whole numbers. -/
theorem Valid.measured (h : column.Valid) (hwhole : column.loose = []) : column.Measured := by
  have hdimension := dimension_of_loose_eq_nil hwhole
  have hprecision (hkind : column.kind = .decimal) :
      ∃ precision, column.precision = some precision ∧ 0 < precision :=
    exists_pos_of_isPositive (hdimension .precision ▸ h.precision hkind)
  refine ⟨hwhole, fun hkind => exists_pos_of_isPositive (hdimension .length ▸ h.length hkind),
    hprecision, fun hkind scale hscale => ?_⟩
  obtain ⟨precision, hknown, -⟩ := hprecision hkind
  have hordered := (h.scale hkind).le
    ((hdimension .scale).trans (congrArg (Value.ofOption .int) hscale))
    ((hdimension .precision).trans (congrArg (Value.ofOption .int) hknown))
  exact ⟨precision, hknown, hordered⟩

end Column

end TypedSql
