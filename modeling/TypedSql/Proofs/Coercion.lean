import TypedSql.Coercion
import TypedSql.Column.Basic
import TypedSql.Proofs.Outcome

/-!
# Lawful coercions

What the laws of single values give for values that may be left out and for lists of texts.
-/

namespace TypedSql.Coercion

open TypedSql.Outcome

/-- What may be left out is read as it is, if its values are. -/
theorem optional_ofOption {α : Type} {wrap : α → Value} {read : Value → Except String α}
    (hread : ∀ value, read (wrap value) = .ok value)
    (hpresent : ∀ value, (wrap value).isNull = false)
    (known : Option α) : optional read (.ofOption wrap known) = .ok known := by
  cases known with
  | none => rfl
  | some value =>
      rw [optional, Value.ofOption, hpresent value, if_neg Bool.false_ne_true, hread]
      rfl

/-- Texts are read as they are. -/
theorem texts_ofEnumeration [Coercion] [LawfulCoercion] (values : List String) :
    texts (Value.ofEnumeration values) = .ok values := by
  rw [Value.ofEnumeration, LawfulCoercion.texts_tuple]
  induction values with
  | nil => rfl
  | cons value rest ih =>
      rw [List.map_cons, mapM_cons_eq_ok]
      exact ⟨value, rest, LawfulCoercion.text_text value, ih, rfl⟩

end TypedSql.Coercion
