import TypedSql.Proofs.Column.Definition
import TypedSql.Proofs.Column.Valid
import TypedSql.Proofs.Value.Amount
import TypedSql.Proofs.Value.Keyed
import TypedSql.Proofs.Value.Reflexive

/-!
# Columns that come back

A column is read back from its written definition as an equal column exactly if its default is taken
for a literal again and each of its dimensions is read as an equal one: `restores_iff`. What comes
back passes the checks that the column passes: `check_restoredWith`.
-/

namespace TypedSql

open TypedSql.Outcome

namespace Value

variable {value : Value}

/-- Whether a bare value in a definition is taken for a literal default. -/
def staysLiteral : Value → Bool
  | null => false
  | columnDefault _ => false
  | generator _ => false
  | _ => true

/-- A literal default does not equal its own value. -/
theorem same_columnDefault_self (sharing : Sharing) (value : Value) :
    same sharing (columnDefault (.literal value)) value = false := by
  cases value with
  | columnDefault default =>
      cases default with
      | literal inner =>
          rw [same]
          exact same_columnDefault_self sharing inner
      | generator source => simp [same, sameScalar, asText?, asNumber?]
  | _ => simp [same, sameScalar, asText?, asNumber?]

/-- `ReadsAs value read` says that a dimension is null and read as such, or a number that amounts to
the whole one that is read. -/
inductive ReadsAs : Value → Value → Prop
  | null : ReadsAs .null .null
  | whole {value : Value} {number : Int} (h : value.amount? = some (number : ℚ)) :
      ReadsAs value (.int number)

/-- A dimension that is null or a number is read as one of the same amount, if as an equal one. -/
theorem readsAs_of_same [Coercion] [LawfulCoercion] {read : Value}
    (hvalue : value = .null ∨ value.asNumber?.isSome = true)
    (hread : Coercion.dimension value = .ok read) (hsame : same .shared value read = true) :
    ReadsAs value read := by
  rcases hvalue with rfl | hnumber
  · rw [LawfulCoercion.dimension_null] at hread
    cases hread
    exact .null
  · obtain ⟨number, rfl⟩ := LawfulCoercion.int_of_number hnumber hread
    exact .whole (amount?_of_same_int hsame)

namespace ReadsAs

variable {read other readOther : Value}

theorem isNull_eq (h : ReadsAs value read) : value.isNull = read.isNull := by
  cases h with
  | null => rfl
  | whole h =>
      cases value with
      | null => cases h
      | _ => rfl

theorem isTruthy_eq (h : ReadsAs value read) : value.isTruthy = read.isTruthy := by
  cases h with
  | null => rfl
  | whole h => rw [isTruthy_of_amount h, isTruthy_of_amount (amount?_int _)]

/-- Dimensions are compared as they are read. -/
theorem isAtMost_eq (h : ReadsAs value read) (hother : ReadsAs other readOther) :
    value.isAtMost other = read.isAtMost readOther := by
  have hnull : ∀ first : Value, first.isAtMost .null = .error (.breach .badType) := by
    intro first
    rw [isAtMost, orderNumbers]
    cases first.asNumber? <;> rfl
  cases hother with
  | null => rw [hnull, hnull]
  | whole hsecond =>
      cases h with
      | null => rfl
      | whole hfirst =>
          rw [isAtMost_of_amount hfirst hsecond, isAtMost_of_amount (amount?_int _) (amount?_int _)]

end ReadsAs

end Value

namespace Column

variable {column : Column}

/-- The column that is read from a definition with the dimensions that are read. -/
def restoredWith (column : Column) (read : Dimension → Value) : Column :=
  column.restored (read .precision) (read .scale) (read .length)

/-- The dimensions of a column that is read are those that were read. -/
theorem dimension_restoredWith (read : Dimension → Value) (dimension : Dimension) :
    (column.restoredWith read).dimension dimension = read dimension := by
  have hwhole : (column.restoredWith read).toColumnSettings.dimension? dimension =
      wholeDimension? (read dimension) := by
    cases dimension <;> rfl
  have hmem : (dimension, read dimension) ∈ [(Dimension.precision, read .precision),
      (.scale, read .scale), (.length, read .length)] := by
    cases dimension <;> simp
  have hloose : (column.restoredWith read).loose.lookup dimension =
      if !(read dimension).isNull && (wholeDimension? (read dimension)).isNone then
        some (read dimension) else none :=
    Keyed.lookup_filter (by simp) hmem fun entry =>
      !entry.2.isNull && (wholeDimension? entry.2).isNone
  rw [Column.dimension, Value.dimensionOf, hloose, hwhole]
  cases read dimension <;> rfl

/-- Columns are equal exactly if their dimensions are and whatever else they declare is. -/
theorem same_iff {left right : Column} :
    left.same right = true ↔
      left.undimensioned = right.undimensioned ∧
        Value.sameDefault .shared left.default right.default = true ∧
          ∀ dimension, Value.same .shared (left.dimension dimension) (right.dimension dimension) =
            true := by
  have hwhole : ∀ (number : Option Int) (other : Value),
      Value.same .shared (.ofOption .int number) other =
        Value.sameScalar .shared (.ofOption .int number) other := by
    intro number other
    cases number <;> cases other <;> rw [Value.ofOption, Value.same] <;> simp
  have hall : ∀ holds : Dimension → Bool,
      Dimension.all.all holds = true ↔ ∀ dimension, holds dimension = true := by
    intro holds
    rw [List.all_eq_true]
    exact ⟨fun h dimension => h dimension (by cases dimension <;> decide), fun h _ _ => h _⟩
  have hdimension : ∀ dimension,
      Value.same .shared (left.dimension dimension) (right.dimension dimension) = true ↔
        (∀ value, left.loose.lookup dimension = some value →
          Value.same .shared value (right.dimension dimension) = true) ∧
          ((left.loose.lookup dimension).isSome ||
            Value.sameScalar .shared (Value.dimensionOf left.toColumnSettings [] dimension)
              (right.dimension dimension)) = true := by
    intro dimension
    rw [Column.dimension, Value.dimensionOf, Value.dimensionOf]
    cases hloose : left.loose.lookup dimension with
    | some value => simp
    | none => simp [hwhole]
  rw [same, toValue, toValue, Value.same]
  simp only [Bool.and_eq_true, decide_eq_true_eq, hall, Value.sameDimensions_iff,
    List.not_mem_nil, not_false_eq_true, true_implies, hdimension, forall_and, and_assoc]
  rfl

/-- Whether a column can be told from its written definition. -/
structure IsRestorable [Coercion] (column : Column) : Prop where
  default : ∀ value, column.default = some (.literal value) → value.staysLiteral = true
  dimension : ∀ dimension, ∃ read, Coercion.dimension (column.dimension dimension) = .ok read ∧
    Value.same .shared (column.dimension dimension) read = true

/-- A default is read as an equal one exactly if it is taken for a literal where it is one. -/
theorem sameDefault_restored_iff {default : Option (Default Value)} :
    Value.sameDefault .shared default
        (default.bind fun known => wrapDefault (definedDefault known)) =
        true ↔
      ∀ value, default = some (.literal value) → value.staysLiteral = true := by
  cases default with
  | none => simp [Value.sameDefault]
  | some known =>
      cases known with
      | generator source => simp [Value.sameDefault, definedDefault, wrapDefault]
      | literal value =>
          simp only [Option.bind_some, definedDefault, Option.some.injEq, Default.literal.injEq,
            forall_eq']
          cases value with
          | null => simp [Value.sameDefault, wrapDefault, Value.staysLiteral]
          | generator source => simp [Value.sameDefault, wrapDefault, Value.staysLiteral]
          | columnDefault inner =>
              cases inner with
              | literal known =>
                  simp [Value.sameDefault, wrapDefault, Value.staysLiteral,
                    Value.same_columnDefault_self]
              | generator source => simp [Value.sameDefault, wrapDefault, Value.staysLiteral]
          | _ => simp [Value.sameDefault, wrapDefault, Value.staysLiteral, Value.same_self]

/-- The one of three values that belongs to a dimension. -/
def byDimension (precision scale length : Value) : Dimension → Value
  | .precision => precision
  | .scale => scale
  | .length => length

section Read

variable [Coercion] [LawfulCoercion]

/-- A written definition is read as far as the dimensions in it are. -/
theorem ofDefinition_toDefinition {name : Value} {copy : Column} :
    ofDefinition (.map column.toDefinition) name = .ok copy ↔
      ∃ read : Dimension → Value,
        (∀ dimension, Coercion.dimension (column.dimension dimension) = .ok (read dimension)) ∧
          copy = column.restoredWith read := by
  rw [ofDefinition_map_eq_ok, and_iff_right (hasKind_toDefinition column), ofSettings_toDefinition]
  simp only [bind_eq_ok, pure_eq_ok]
  constructor
  · rintro ⟨precision, hprecision, scale, hscale, length, hlength, rfl⟩
    refine ⟨byDimension precision scale length, ?_, rfl⟩
    intro dimension
    cases dimension with
    | precision => exact hprecision
    | scale => exact hscale
    | length => exact hlength
  · rintro ⟨read, hread, rfl⟩
    exact ⟨_, hread .precision, _, hread .scale, _, hread .length, rfl⟩

/-- A column is read from its written definition as an equal one exactly if it can be told. -/
theorem restores_iff (name : Value) :
    (∃ copy, ofDefinition (.map column.toDefinition) name = .ok copy ∧
      column.same copy = true) ↔ column.IsRestorable := by
  constructor
  · rintro ⟨_, hcopy, hsame⟩
    obtain ⟨read, hread, rfl⟩ := ofDefinition_toDefinition.1 hcopy
    obtain ⟨-, hdefault, hdimension⟩ := same_iff.1 hsame
    refine ⟨sameDefault_restored_iff.1 hdefault, fun dimension => ?_⟩
    have hvalue := hdimension dimension
    rw [dimension_restoredWith] at hvalue
    exact ⟨read dimension, hread dimension, hvalue⟩
  · intro h
    choose read hread hsame using h.dimension
    refine ⟨column.restoredWith read, ofDefinition_toDefinition.2 ⟨read, hread, rfl⟩,
      same_iff.2 ⟨rfl, sameDefault_restored_iff.2 h.default, fun dimension => ?_⟩⟩
    rw [dimension_restoredWith]
    exact hsame dimension

/-- A column with equal dimensions passes the check that the column passes. -/
theorem check_restoredWith {read : Dimension → Value} {name : Value}
    (hread : ∀ dimension, Coercion.dimension (column.dimension dimension) = .ok (read dimension))
    (hsame : ∀ dimension, Value.same .shared (column.dimension dimension) (read dimension) = true)
    (h : column.check name = .ok ()) : (column.restoredWith read).check name = .ok () := by
  obtain ⟨hname, hrule⟩ := check_eq_ok.1 h
  obtain ⟨hkindRule, hkeyRule⟩ := brokenRule_eq_none_iff.1 hrule
  obtain ⟨hlength, hdecimal⟩ := dimensions_of_kindRule hkindRule
  have hreads : ∀ dimension, (column.dimension dimension = .null ∨
      (column.dimension dimension).asNumber?.isSome = true) →
        Value.ReadsAs (column.dimension dimension)
          ((column.restoredWith read).dimension dimension) := by
    intro dimension hvalue
    rw [dimension_restoredWith]
    exact Value.readsAs_of_same hvalue (hread dimension) (hsame dimension)
  have hzero : Value.ReadsAs (.int 0) (.int 0) := .whole (Value.amount?_int 0)
  have hpositive : ∀ dimension, IsPositive (column.dimension dimension) →
      isPositive ((column.restoredWith read).dimension dimension) =
        isPositive (column.dimension dimension) := by
    intro dimension hvalue
    have hdimension := hreads dimension (.inr hvalue.isSome_asNumber?)
    rw [isPositive, isPositive, hdimension.isTruthy_eq, hdimension.isAtMost_eq hzero]
  have hscale : column.kind = .decimal →
      scaleFits (column.restoredWith read) = scaleFits column := by
    intro hkind
    obtain ⟨hprecision, hfits⟩ := hdecimal hkind
    have hfirst := hreads .scale hfits.null_or_number
    have hsecond := hreads .precision (.inr hprecision.isSome_asNumber?)
    rw [scaleFits, scaleFits, hfirst.isNull_eq, hzero.isAtMost_eq hfirst,
      hfirst.isAtMost_eq hsecond]
  have hkept : kindRule (column.restoredWith read) = kindRule column := by
    have hsameKind : (column.restoredWith read).kind = column.kind := rfl
    cases hkind : column.kind with
    | fixedString => simp only [kindRule, hsameKind, hkind, hpositive _ (hlength hkind)]
    | decimal =>
        simp only [kindRule, hsameKind, hkind, hpositive _ (hdecimal hkind).1, hscale hkind]
    | array | lowCardinality | nullable | enum8 | enum16 =>
        simp only [kindRule, hsameKind, hkind]
        rfl
    | _ => simp only [kindRule, hsameKind, hkind]
  exact check_eq_ok.2 ⟨hname, brokenRule_eq_none_iff.2 ⟨hkept.trans hkindRule, hkeyRule⟩⟩

end Read

end Column

end TypedSql
