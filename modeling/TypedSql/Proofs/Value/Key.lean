import TypedSql.Value.Key

/-!
# Keys that are texts

A key with a text is the same key as another exactly if the other has the same text. So what is
found under a key with a text does not depend on the sort of the key: `get?_eq_at?`.
-/

namespace TypedSql

namespace Value

/-- A value is compared with a text as values without parts are. -/
theorem same_eq_sameScalar {sharing : Sharing} {left right : Value}
    (h : left.isText = true ∨ right.isText = true) :
    same sharing left right = sameScalar sharing left right := by
  unfold same
  split
  case h_16 => rfl
  all_goals simp [isText, asText?] at h

/-- A key with a text is the key of everything with that text. -/
theorem isKey_of_asText {left right : Value} {chars : String} (h : right.asText? = some chars) :
    left.isKey right = decide (left.asText? = some chars) := by
  have hright : right.isText = true := by simp [isText, h]
  rw [isKey, same_eq_sameScalar (.inr hright)]
  simp only [sameScalar, h]
  cases left.asText? with
  | none => simp
  | some other => simp

/-- What has a text is the key of nothing but what has the same text. -/
theorem isKey_of_left_asText {left right : Value} {chars : String}
    (h : left.asText? = some chars) : left.isKey right = decide (right.asText? = some chars) := by
  have hleft : left.isText = true := by simp [isText, h]
  rw [isKey, same_eq_sameScalar (.inl hleft)]
  simp only [sameScalar, h]
  cases right.asText? with
  | none => simp
  | some other => simp [eq_comm]

/-- A text is the key of nothing but what has that text. -/
theorem text_isKey (chars : String) (other : Value) :
    (text chars).isKey other = decide (other.asText? = some chars) :=
  isKey_of_left_asText rfl

/-- What has a text can be a key. -/
theorem canBeKey_of_asText? {name : Value} {chars : String} (h : name.asText? = some chars) :
    name.canBeKey = true := by
  cases name with
  | text | kind | operator => rfl
  | _ => cases h

end Value

namespace Keyed

variable {α : Type}

/-- What is found under a key with a text is what is found under the text. -/
theorem get?_eq_at? {entries : Keyed α} {key : Value} {chars : String}
    (h : key.asText? = some chars) : entries.get? key = entries.at? chars := by
  simp only [get?, at?, Value.isKey_of_asText h]

theorem isSome_get? {entries : Keyed α} {key : Value} :
    (entries.get? key).isSome = entries.has key := by
  rw [get?, has, Option.isSome_map, List.isSome_find?]

end Keyed

end TypedSql
