import TypedSql.Fault
import TypedSql.Proofs.Outcome

/-!
# Values with a JSON text

A value has a JSON text unless a map in it has a key without a text, or it shows a whole number with
too many digits: `exists_writeBy_iff` for any fallback, `exists_jsonText_iff` where what has no JSON
form is displayed.
-/

namespace TypedSql.Json

open TypedSql.Number TypedSql.Outcome

/-- Whether a value has a text as the key of an object. -/
def hasKeyText : Value → Bool
  | .null => true
  | .bool _ => true
  | .int number => hasNumeral number
  | .float _ => true
  | key => key.isText

mutual

/-- Whether a value has a JSON text. What has no JSON form is written as it is displayed. -/
def isWritable : Value → Bool
  | .list items => areWritable items
  | .tuple items => areWritable items
  | .map entries => hasWritableEntries entries
  | value => value.isDisplayable

/-- Whether all of some values have a JSON text. -/
def areWritable : List Value → Bool
  | [] => true
  | item :: rest => isWritable item && areWritable rest

/-- Whether all entries of a map have a JSON text. -/
def hasWritableEntries : List (Value × Value) → Bool
  | [] => true
  | (key, value) :: rest => hasKeyText key && isWritable value && hasWritableEntries rest

end

mutual

/-- Whether a value has a JSON text where a fallback writes what has no JSON form. -/
def isWritableBy (fallback : Value → Option String) : Value → Bool
  | .null => true
  | .bool _ => true
  | .int number => hasNumeral number
  | .float _ => true
  | .text _ => true
  | .kind _ => true
  | .operator _ => true
  | .list items => areWritableBy fallback items
  | .tuple items => areWritableBy fallback items
  | .map entries => hasEntriesWritableBy fallback entries
  | value => (fallback value).isSome

/-- Whether all of some values do. -/
def areWritableBy (fallback : Value → Option String) : List Value → Bool
  | [] => true
  | item :: rest => isWritableBy fallback item && areWritableBy fallback rest

/-- Whether all entries of a map do. -/
def hasEntriesWritableBy (fallback : Value → Option String) : List (Value × Value) → Bool
  | [] => true
  | (key, value) :: rest =>
    hasKeyText key && isWritableBy fallback value && hasEntriesWritableBy fallback rest

end

/-- A whole number has a text exactly if it has a numeral. -/
theorem exists_wholeText_iff {number : Int} :
    (∃ text, wholeText number = .ok text) ↔ hasNumeral number = true := by
  rw [wholeText]
  cases hasNumeral number <;> simp

/-- What has a text as a key is told by its sort. -/
theorem exists_keyText_iff {key : Value} :
    (∃ text, keyText key = .ok text) ↔ hasKeyText key = true := by
  cases key with
  | int number => exact exists_wholeText_iff
  | null | bool | float | text | kind | operator => exact iff_of_true ⟨_, rfl⟩ rfl
  | _ => simp [keyText, hasKeyText, Value.isText, Value.asText?]

section Fallbacks

variable (fallback : Value → Option String)

mutual

/-- A value has a text exactly if everything in it does. -/
theorem exists_writeBy_iff (value : Value) :
    (∃ text, write fallback value = .ok text) ↔ isWritableBy fallback value = true := by
  cases value with
  | list items => exact exists_map_iff.trans (exists_writeItems_iff items)
  | tuple items => exact exists_map_iff.trans (exists_writeItems_iff items)
  | map entries => exact exists_map_iff.trans (exists_writeEntries_iff entries)
  | int number => exact exists_wholeText_iff
  | null | bool | float | text | kind | operator => exact iff_of_true ⟨_, rfl⟩ rfl
  | _ =>
      -- what is left is written by the fallback
      simp only [write, isWritableBy]
      generalize fallback _ = known
      cases known <;> simp

/-- Items have texts exactly if each of them does. -/
theorem exists_writeItems_iff (items : List Value) :
    (∃ texts, writeItems fallback items = .ok texts) ↔ areWritableBy fallback items = true := by
  cases items with
  | nil => exact iff_of_true ⟨[], rfl⟩ rfl
  | cons item rest =>
      rw [areWritableBy, Bool.and_eq_true, ← exists_writeBy_iff item,
        ← exists_writeItems_iff rest, writeItems]
      exact exists_bind_iff fun _ _ => exists_bind_pure_iff

/-- Entries have texts exactly if each key and each value does. -/
theorem exists_writeEntries_iff (entries : List (Value × Value)) :
    (∃ texts, writeEntries fallback entries = .ok texts) ↔
      hasEntriesWritableBy fallback entries = true := by
  cases entries with
  | nil => exact iff_of_true ⟨[], rfl⟩ rfl
  | cons entry rest =>
      obtain ⟨key, value⟩ := entry
      rw [hasEntriesWritableBy, Bool.and_eq_true, Bool.and_eq_true, ← exists_keyText_iff,
        ← exists_writeBy_iff value, ← exists_writeEntries_iff rest, writeEntries, and_assoc]
      exact exists_bind_iff fun _ _ => exists_bind_iff fun _ _ => exists_bind_pure_iff

end

end Fallbacks

section Displayed

theorem isSome_displayed? (value : Value) : value.displayed?.isSome = value.isDisplayable := by
  unfold Value.displayed?
  cases value.isDisplayable <;> rfl

mutual

/-- A value has a JSON text exactly if it has one where what has no JSON form is displayed. -/
theorem isWritableBy_displayed? (value : Value) :
    isWritableBy Value.displayed? value = isWritable value := by
  cases value with
  | list items | tuple items => exact areWritableBy_displayed? items
  | map entries => exact hasEntriesWritableBy_displayed? entries
  | null | bool | int | float | text | kind | operator => rfl
  | _ => simp only [isWritableBy, isWritable, isSome_displayed?]

theorem areWritableBy_displayed? (items : List Value) :
    areWritableBy Value.displayed? items = areWritable items := by
  cases items with
  | nil => rfl
  | cons item rest =>
      rw [areWritableBy, areWritable, isWritableBy_displayed? item, areWritableBy_displayed? rest]

theorem hasEntriesWritableBy_displayed? (entries : List (Value × Value)) :
    hasEntriesWritableBy Value.displayed? entries = hasWritableEntries entries := by
  match entries with
  | [] => rfl
  | (key, value) :: rest =>
      rw [hasEntriesWritableBy, hasWritableEntries, isWritableBy_displayed? value,
        hasEntriesWritableBy_displayed? rest]

end

end Displayed

/-- A value has a text exactly if everything in it does. -/
theorem exists_write_iff (value : Value) :
    (∃ text, write Value.displayed? value = .ok text) ↔ isWritable value = true := by
  rw [exists_writeBy_iff, isWritableBy_displayed?]

/-- A value has a JSON text exactly if everything in it does. -/
theorem exists_jsonText_iff {value : Value} :
    (∃ text, value.jsonText = .ok text) ↔ isWritable value = true := by
  rw [← exists_write_iff, Value.jsonText]
  cases write Value.displayed? value with
  | ok text => exact iff_of_true ⟨text, rfl⟩ ⟨text, rfl⟩
  | error fault => simp [Except.mapError]

end TypedSql.Json
