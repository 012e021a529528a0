import TypedSql.Column.TypeText
import TypedSql.Proofs.Outcome
import TypedSql.Wire.Encode

/-!
# Null on the wire

Only null is sent as null (`isNull_of_encode`), and placeholders of nullable columns are of types
that admit it.
-/

namespace TypedSql

open TypedSql.Outcome

/-- Whether the type of a placeholder admits null. -/
def AdmitsNull (type : String) : Prop := ∃ inner, type = "Nullable(" ++ inner

/-- A nullable column has placeholders that admit null. -/
theorem Column.admitsNull_placeholderType {column : Column} {type : String}
    (h : column.placeholderType = .ok type) (hnullable : column.nullable = true) :
    AdmitsNull type := by
  have hnullableText : ∀ inner, AdmitsNull (nullableText inner) := by
    intro inner
    refine ⟨Value.commaSeparated [inner] ++ ")", ?_⟩
    have hopening : Kind.name .nullable ++ "(" = "Nullable(" := by decide
    rw [nullableText, applyType, Value.applied, hopening, String.append_assoc]
  unfold placeholderType at h
  split at h
  · cases h
    exact hnullableText _
  · obtain ⟨inner, -, rfl⟩ := map_eq_ok.1 h
    rw [if_pos hnullable]
    exact hnullableText inner

namespace Wire

variable {value : Value} {kind : Kind}

theorem toText_ne_null (value : Value) : toText value ≠ .ok .null := by
  intro h
  unfold toText at h
  split at h
  · cases h
  · cases h
  · next inner =>
      have hnull := Except.ok.inj h
      split at hnull
      · next htext =>
          rw [hnull] at htext
          cases htext
      · cases hnull
  · obtain ⟨_, -, h⟩ := map_eq_ok.1 h
    cases h

/-- What has a value is not sent as null. -/
theorem encodePresent_ne_null (hvalue : value.isNull = false) :
    encodePresent value kind ≠ .ok .null := by
  have hmap : ∀ {α : Type} {wire : α → Value} {first : Except Fault α},
      (∀ result, wire result ≠ .null) → first.map wire ≠ .ok .null := by
    intro α wire first hwire h
    obtain ⟨result, -, hnull⟩ := map_eq_ok.1 h
    exact hwire result hnull
  cases kind with
  | uint8 | uint16 | uint32 | uint64 | int8 | int16 | int32 | int64 | float32 | float64 | decimal
  | array | tuple => exact hmap (by intro _ hnull; cases hnull)
  | boolean =>
      intro h
      cases h
  | string | fixedString | uuid | ipv4 | ipv6 | enum8 | enum16 => exact toText_ne_null value
  | date | date32 | dateTime | dateTime64 =>
      intro h
      obtain ⟨_, -, h⟩ := bind_eq_ok.1 h
      obtain ⟨_, -, h⟩ := bind_eq_ok.1 h
      cases h
  | map | json =>
      intro h
      simp only [encodePresent] at h
      split at h
      any_goals exact hmap (by intro _ hnull; cases hnull) h
      cases h
  | nested | nullable | lowCardinality =>
      intro h
      cases h
      cases hvalue

/-- Only null is sent as null. -/
theorem isNull_of_encode {elementKind : Option Kind}
    (h : encode value kind elementKind = .ok .null) : value.isNull = true := by
  by_contra hvalue
  rw [Bool.not_eq_true] at hvalue
  have helement : ∀ element, encodeElement element value ≠ .ok .null := by
    intro element
    rw [encodeElement, hvalue]
    exact encodePresent_ne_null hvalue
  unfold encode at h
  rw [hvalue] at h
  simp only [Bool.false_eq_true, if_false] at h
  split at h
  · obtain ⟨_, -, h⟩ := bind_eq_ok.1 h
    obtain ⟨_, -, h⟩ := bind_eq_ok.1 h
    cases h
  · exact helement _ h
  · exact helement _ h
  · exact encodePresent_ne_null hvalue h

end Wire

end TypedSql
