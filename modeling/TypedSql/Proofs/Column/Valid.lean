import TypedSql.Column.Check
import TypedSql.Column.TypeText
import TypedSql.Proofs.Number.Decimal
import TypedSql.Proofs.Outcome
import TypedSql.Proofs.Value.Display

/-!
# Valid columns

What the check of a column establishes, and that it is what the type text of a column needs:
`valid_of_check` gives the requirements of a checked column, `exists_typeText_iff` says that a valid
column has a type text exactly if the numbers in it can be written.
-/

namespace TypedSql.Column

open TypedSql.Number TypedSql.Outcome

/-- Whether a dimension is a number above zero; a NaN, which is below no number, counts as one. -/
def IsPositive (dimension : Value) : Prop :=
  dimension = .float .nan ∨ ∃ number, dimension.asNumber? = some number ∧ number.IsPositive

/-- Whether a scale, where there is one, is a number that lies between zero and the precision. -/
def ScaleFits (column : Column) : Prop :=
  column.dimension .scale = .null ∨ ∃ scale precision order,
    (column.dimension .scale).asNumber? = some scale ∧
      (column.dimension .precision).asNumber? = some precision ∧ ¬scale.IsNegative ∧
        scale.compare? precision = some order ∧ order ≠ .gt

/-- A whole number that is a positive dimension is positive. -/
theorem IsPositive.lt {number : Int} (h : IsPositive (.int number)) : 0 < number := by
  rcases h with hnan | ⟨_, hnumber, hpositive⟩
  · cases hnan
  · cases hnumber
    rw [← Decimal.compare?_zero_eq_gt, Decimal.compare?_ofInt] at hpositive
    exact Int.compare_eq_gt.1 (Option.some.inj hpositive)

/-- A positive dimension is a number. -/
theorem IsPositive.isSome_asNumber? {dimension : Value} (h : IsPositive dimension) :
    dimension.asNumber?.isSome = true := by
  rcases h with rfl | ⟨number, hnumber, -⟩
  · rfl
  · exact Option.isSome_of_eq_some hnumber

/-- A scale is null or a number. -/
theorem ScaleFits.null_or_number {column : Column} (h : column.ScaleFits) :
    column.dimension .scale = .null ∨ (column.dimension .scale).asNumber?.isSome = true :=
  h.imp_right fun ⟨_, _, _, hscale, _⟩ => Option.isSome_of_eq_some hscale

/-- A scale and a precision that are whole numbers are ordered as such. -/
theorem ScaleFits.le {column : Column} (h : column.ScaleFits) {scale precision : Int}
    (hscale : column.dimension .scale = .int scale)
    (hprecision : column.dimension .precision = .int precision) :
    0 ≤ scale ∧ scale ≤ precision := by
  rcases h with hnull | ⟨_, _, order, hfirst, hsecond, hnatural, horder, hle⟩
  · rw [hnull] at hscale
    cases hscale
  · rw [hscale] at hfirst
    rw [hprecision] at hsecond
    cases hfirst
    cases hsecond
    rw [← Decimal.zero_compare?_eq_gt, Decimal.compare?_ofInt, Option.some.injEq,
      Int.compare_eq_gt] at hnatural
    rw [Decimal.compare?_ofInt] at horder
    rw [← Option.some.inj horder, Ne, Int.compare_eq_gt] at hle
    omega

/-- The requirements on a column. -/
structure Valid (column : Column) : Prop where
  primaryKey : column.primaryKey = true → column.nullable = false
  autoIncrement : column.autoIncrement = true → column.kind.isInteger = true
  length : column.kind = .fixedString → IsPositive (column.dimension .length)
  precision : column.kind = .decimal → IsPositive (column.dimension .precision)
  scale : column.kind = .decimal → ScaleFits column
  elementKind : column.kind.isWrapper = true → column.elementKind.isSome = true
  enumValues : ∀ limit, column.kind.enumLimit? = some limit →
    ∃ values, column.enumValues = some values ∧ 1 ≤ values.length ∧ values.length ≤ limit

section Check

variable {column : Column}

/-- A dimension that passes is positive. -/
theorem isPositive_of_check {dimension : Value} (h : isPositive dimension = .ok true) :
    IsPositive dimension := by
  unfold isPositive at h
  split at h
  · obtain ⟨isSmall, hsmall, hresult⟩ := bind_eq_ok.1 h
    have hnot : (!isSmall) = true := pure_eq_ok.1 hresult
    obtain ⟨order, horder, hresult⟩ := bind_eq_ok.1 hsmall
    obtain ⟨number, zero, hnumber, hzero, hcompare, hdecimal⟩ := Value.of_orderNumbers horder
    cases hzero
    cases order with
    | none => exact .inl (Value.eq_nan_of_unordered (hdecimal rfl) hnumber hcompare)
    | some known =>
        refine .inr ⟨number, hnumber, Decimal.compare?_zero_eq_gt.1 (hcompare.trans ?_)⟩
        have hknown : decide (known ≠ .gt) = isSmall := pure_eq_ok.1 hresult
        rw [← hknown] at hnot
        simpa using hnot
  · cases h

/-- A scale that passes lies in its range. -/
theorem scaleFits_of_check (h : scaleFits column = .ok true) : ScaleFits column := by
  by_cases hnull : column.dimension .scale = .null
  · exact .inl hnull
  · have hgiven : (column.dimension .scale).isNull = false := by
      cases hscale : column.dimension .scale with
      | null => exact absurd hscale hnull
      | _ => rfl
    simp only [scaleFits, hgiven, Bool.false_eq_true, if_false] at h
    obtain ⟨isNatural, hnatural, h⟩ := bind_eq_ok.1 h
    cases isNatural with
    | false => cases h
    | true =>
        obtain ⟨zero, scale, known, hzero, hscale, hknown, hle⟩ := Value.order_of_isAtMost hnatural
        obtain ⟨_, precision, order, hsame, hprecision, horder, hfits⟩ := Value.order_of_isAtMost h
        cases hzero
        rw [hscale, Option.some.injEq] at hsame
        subst hsame
        refine .inr ⟨scale, precision, order, hscale, hprecision, fun hnegative => hle ?_, horder,
          hfits⟩
        rw [← Decimal.zero_compare?_eq_gt, hknown] at hnegative
        exact Option.some.inj hnegative

/-- A column breaks no rule exactly if it breaks none of its kind and none on keys. -/
theorem brokenRule_eq_none_iff :
    brokenRule column = .ok none ↔
      kindRule column = .ok none ∧ keyRule? column.toColumnSettings = none := by
  simp only [brokenRule, bind_eq_ok, pure_eq_ok, Option.or_eq_none_iff]
  constructor
  · rintro ⟨_, hkind, rfl, hkey⟩
    exact ⟨hkind, hkey⟩
  · rintro ⟨hkind, hkey⟩
    exact ⟨none, hkind, rfl, hkey⟩

/-- A column passes under a name exactly if the name is one and the column breaks no rule. -/
theorem check_eq_ok {name : Value} :
    column.check name = .ok () ↔
      Identifier.isNameValue name = true ∧ brokenRule column = .ok none := by
  unfold check
  cases hname : Identifier.isNameValue name with
  | false => simp
  | true =>
      simp only [Bool.not_true, Bool.false_eq_true, if_false, bind_eq_ok, true_and]
      constructor
      · rintro ⟨rule, hrule, h⟩
        cases rule with
        | none => exact hrule
        | some broken => cases h
      · intro hrule
        exact ⟨none, hrule, rfl⟩

/-- The dimensions of a column that breaks no rule of its kind are as the kind requires. -/
theorem dimensions_of_kindRule (h : kindRule column = .ok none) :
    (column.kind = .fixedString → IsPositive (column.dimension .length)) ∧
      (column.kind = .decimal →
        IsPositive (column.dimension .precision) ∧ ScaleFits column) := by
  constructor
  · intro hkind
    simp only [kindRule, hkind] at h
    obtain ⟨isValid, hvalid, h⟩ := bind_eq_ok.1 h
    cases isValid with
    | true => exact isPositive_of_check hvalid
    | false => cases h
  · intro hkind
    simp only [kindRule, hkind] at h
    obtain ⟨isValid, hvalid, h⟩ := bind_eq_ok.1 h
    cases isValid with
    | false => cases h
    | true =>
        obtain ⟨fits, hfits, h⟩ := bind_eq_ok.1 h
        cases fits with
        | true => exact ⟨isPositive_of_check hvalid, scaleFits_of_check hfits⟩
        | false => cases h

/-- An enumeration that breaks no rule has values, and no more than its kind can number. -/
theorem enumValues_of_enumRule {settings : ColumnSettings} {limit : Nat}
    (h : enumRule? settings limit = none) :
    ∃ values, settings.enumValues = some values ∧ 1 ≤ values.length ∧ values.length ≤ limit := by
  unfold enumRule? at h
  split at h
  · cases h
  · cases h
  · next values hempty hvalues =>
      refine ⟨values, hvalues, List.length_pos_iff.2 ?_, ?_⟩
      · rintro rfl
        exact hempty rfl
      · by_contra hlong
        rw [if_pos (Nat.not_le.1 hlong)] at h
        cases h

/-- The parts of a column that breaks no rule of its kind are there. -/
theorem parts_of_kindRule (h : kindRule column = .ok none) :
    (column.kind.isWrapper = true → column.elementKind.isSome = true) ∧
      ∀ limit, column.kind.enumLimit? = some limit →
        ∃ values, column.enumValues = some values ∧ 1 ≤ values.length ∧
          values.length ≤ limit := by
  cases hkind : column.kind with
  | array | lowCardinality | nullable =>
      simp only [kindRule, hkind, pure_eq_ok] at h
      refine ⟨fun _ => ?_, by simp [Kind.enumLimit?]⟩
      by_contra hnone
      rw [if_neg hnone] at h
      cases h
  | enum8 | enum16 =>
      simp only [kindRule, hkind, pure_eq_ok] at h
      refine ⟨by simp [Kind.isWrapper], fun limit hlimit => ?_⟩
      rw [hlimit] at h
      exact enumValues_of_enumRule h
  | _ => exact ⟨by simp [Kind.isWrapper], by simp [Kind.enumLimit?]⟩

/-- The keys of a column that breaks no rule on keys are as they have to be. -/
theorem keys_of_keyRule (h : keyRule? column.toColumnSettings = none) :
    (column.primaryKey = true → column.nullable = false) ∧
      (column.autoIncrement = true → column.kind.isInteger = true) := by
  unfold keyRule? at h
  split at h
  · cases h
  · next hkey =>
      split at h
      · cases h
      · next hincrement =>
          exact ⟨fun hprimary => by simpa [hprimary] using hkey,
            fun hauto => by simpa [hauto] using hincrement⟩

/-- A column that passes under a name is valid. -/
theorem valid_of_check {name : Value} (h : column.check name = .ok ()) : column.Valid := by
  obtain ⟨hkind, hkey⟩ := brokenRule_eq_none_iff.1 (check_eq_ok.1 h).2
  obtain ⟨hlength, hdecimal⟩ := dimensions_of_kindRule hkind
  obtain ⟨helement, henum⟩ := parts_of_kindRule hkind
  obtain ⟨hprimary, hincrement⟩ := keys_of_keyRule hkey
  exact {
    primaryKey := hprimary
    autoIncrement := hincrement
    length := hlength
    precision := fun hkind => (hdecimal hkind).1
    scale := fun hkind => (hdecimal hkind).2
    elementKind := helement
    enumValues := henum }

end Check

/-- The dimensions that the type text of a column shows. -/
def shownDimensions (column : Column) : List Value :=
  match column.kind with
  | .fixedString => [column.dimension .length]
  | .decimal => [column.dimension .precision, scaleOrZero column]
  | .dateTime64 =>
    [if (column.dimension .precision).isNull then .int defaultPlaces
      else column.dimension .precision]
  | _ => []

/-- Whether the whole numbers that the type text of a column shows can be written. -/
def HasNumerals (column : Column) : Prop :=
  ∀ dimension ∈ column.shownDimensions, dimension.isDisplayable = true

section TypeText

variable {column : Column}

/-- A positive dimension counts as true. -/
theorem IsPositive.isTruthy {dimension : Value} (h : IsPositive dimension) :
    dimension.isTruthy = true := by
  rcases h with rfl | ⟨number, hnumber, hpositive⟩
  · rfl
  · cases dimension with
    | bool flag =>
        cases hnumber
        cases flag with
        | true => rfl
        | false => simp [Decimal.ofInt, Bool.toInt, Decimal.IsPositive] at hpositive
    | int known =>
        cases hnumber
        simpa [Value.isTruthy] using hpositive.2
    | float known =>
        cases hnumber
        cases known with
        | finite negative significand exponent =>
            simp only [Value.isTruthy, decide_eq_true_eq]
            rintro rfl
            simp only [Binary64.toDecimal, Nat.zero_mul] at hpositive
            split at hpositive <;> exact hpositive.2 rfl
        | _ => rfl
    | decimal known =>
        cases hnumber
        cases number with
        | finite negative coefficient exponent => simpa [Value.isTruthy] using hpositive.2
        | _ => rfl
    | _ => cases hnumber

/-- A type around dimensions can be written exactly if all dimensions can. -/
theorem exists_dimensioned_iff {dimensions : List Value} :
    (∃ text, dimensioned column dimensions = .ok text) ↔
      ∀ dimension ∈ dimensions, dimension.isDisplayable = true := by
  have hdisplayed : (∃ texts, dimensions.mapM Value.displayed = .ok texts) ↔
      ∀ dimension ∈ dimensions, dimension.isDisplayable = true := by
    simp only [exists_mapM_iff, Value.exists_displayed_iff]
  rw [← hdisplayed]
  simp only [dimensioned, bind_eq_ok, pure_eq_ok]
  exact ⟨fun ⟨_, texts, htexts, _⟩ => ⟨texts, htexts⟩,
    fun ⟨texts, htexts⟩ => ⟨_, texts, htexts, rfl⟩⟩

/-- What the check of a column requires is all that its type text needs besides numerals. -/
theorem exists_bareType_iff (h : column.Valid) :
    (∃ text, column.bareType = .ok text) ↔ column.HasNumerals := by
  cases hkind : column.kind with
  | fixedString =>
      have hlength := (h.length hkind).isTruthy
      simp only [bareType, HasNumerals, shownDimensions, hkind, hlength, if_true]
      exact exists_dimensioned_iff
  | decimal =>
      have hprecision := (h.precision hkind).isTruthy
      simp only [bareType, HasNumerals, shownDimensions, hkind, hprecision, if_true]
      exact exists_dimensioned_iff
  | dateTime64 =>
      simp only [bareType, HasNumerals, shownDimensions, hkind]
      exact exists_dimensioned_iff
  | array | lowCardinality | nullable =>
      obtain ⟨element, helement⟩ := Option.isSome_iff_exists.1 (h.elementKind (by rw [hkind]; rfl))
      simp [bareType, HasNumerals, shownDimensions, hkind, helement]
  | enum8 | enum16 =>
      obtain ⟨values, hvalues, hcount, -⟩ := h.enumValues _ (by rw [hkind]; rfl)
      obtain ⟨first, rest, rfl⟩ := List.exists_cons_of_length_pos hcount
      simp [bareType, HasNumerals, shownDimensions, hkind, hvalues]
  | _ => simp [bareType, HasNumerals, shownDimensions, hkind]

/-- A valid column has a type text exactly if the whole numbers in it can be written. -/
theorem exists_typeText_iff (h : column.Valid) :
    (∃ text, column.typeText = .ok text) ↔ column.HasNumerals := by
  rw [← exists_bareType_iff h]
  simp only [typeText, map_eq_ok]
  exact ⟨fun ⟨_, type, htype, _⟩ => ⟨type, htype⟩, fun ⟨type, htype⟩ => ⟨_, type, htype, rfl⟩⟩

/-- The type text of an enumeration shows no dimensions. -/
theorem hasNumerals_of_isEnum (henum : column.kind.isEnum = true) : column.HasNumerals := by
  cases hkind : column.kind with
  | enum8 | enum16 => simp [HasNumerals, shownDimensions, hkind]
  | _ => simp [hkind, Kind.isEnum] at henum

/-- A valid column has a type for its placeholders exactly if the numbers in it can be written. -/
theorem exists_placeholderType_iff (h : column.Valid) :
    (∃ text, column.placeholderType = .ok text) ↔ column.HasNumerals := by
  unfold placeholderType
  split
  · next henum =>
      -- the placeholders of enumerations are of a type without numbers
      exact iff_of_true ⟨_, rfl⟩ (hasNumerals_of_isEnum henum)
  · exact exists_typeText_iff h

end TypeText

end TypedSql.Column
