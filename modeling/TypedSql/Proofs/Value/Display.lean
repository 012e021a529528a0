import TypedSql.Fault
import TypedSql.Proofs.Outcome

/-!
# Displayed values

A value has a text form exactly if every whole number that the form shows has a numeral:
`exists_displayed_iff`. Texts between commas are taken apart one by one.
-/

namespace TypedSql.Value

open TypedSql.Outcome

variable {value : Value}

theorem requireText_eq (value : Value) :
    value.requireText = if value.isDisplayable then .ok value.display else .error .badValue := by
  rw [requireText, displayed?]
  cases value.isDisplayable <;> rfl

theorem displayed_eq (value : Value) :
    value.displayed =
      if value.isDisplayable then .ok value.display else .error (.breach .badValue) := by
  rw [displayed, requireText_eq]
  cases value.isDisplayable <;> rfl

/-- The text form of a value is what is displayed of it, if there is one. -/
theorem displayed_eq_ok {chars : String} :
    value.displayed = .ok chars ↔ value.isDisplayable = true ∧ value.display = chars := by
  rw [displayed_eq]
  cases value.isDisplayable <;> simp

/-- A value has a text form exactly if it can be displayed. -/
theorem exists_displayed_iff :
    (∃ chars, value.displayed = .ok chars) ↔ value.isDisplayable = true := by
  simp [displayed_eq_ok]

/-- What counts as text can be displayed. -/
theorem isDisplayable_of_isText (h : value.isText = true) : value.isDisplayable = true := by
  cases value with
  | text | kind | operator => rfl
  | _ => cases h

/-- A text with others behind it, each after a comma. -/
theorem toList_commaSeparated_cons (part other : String) (others : List String) :
    (commaSeparated (part :: other :: others)).toList =
      part.toList ++ ',' :: ' ' :: (commaSeparated (other :: others)).toList := by
  rw [commaSeparated, String.intercalate_cons_cons, String.toList_append,
    String.toList_append, List.append_assoc]
  rfl

theorem commaSeparated_singleton (part : String) : commaSeparated [part] = part :=
  String.intercalate_singleton

end TypedSql.Value
