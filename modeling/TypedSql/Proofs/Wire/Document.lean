import TypedSql.Runtime
import TypedSql.Proofs.Json.Document
import TypedSql.Wire.Decode
import TypedSql.Wire.Encode

/-!
# Documents on the wire

A column of maps or of JSON sends a document as its text and gets the same document back from it:
`documents_return`. Keys and items come back in their places, and a flag comes back as a flag.
-/

namespace TypedSql.Wire

open TypedSql.Json

variable {value : Value} {kind : Kind}

/-- Whether a kind stores a value as a JSON text: objects are stored by both, arrays only by JSON
columns. -/
def isStoredAsJson : Kind → Value → Bool
  | .map, .map _ => true
  | .json, .map _ => true
  | .json, .list _ => true
  | _, _ => false

/-- A value that is stored as JSON is sent as its JSON text. -/
theorem encode_of_isStoredAsJson (h : isStoredAsJson kind value = true)
    (elementKind : Option Kind) : encode value kind elementKind = value.jsonText.map .text := by
  unfold isStoredAsJson at h
  split at h
  · cases elementKind <;> rfl
  · cases elementKind <;> rfl
  · cases elementKind <;> rfl
  · cases h

/-- Where values are stored as JSON, a received text is read as JSON. -/
theorem decode_text_of_isStoredAsJson [Depth] (h : isStoredAsJson kind value = true)
    (elementKind : Option Kind) (chars : String) :
    decode (.text chars) kind elementKind = readJson chars := by
  unfold isStoredAsJson at h
  split at h
  · cases elementKind <;> rfl
  · cases elementKind <;> rfl
  · cases elementKind <;> rfl
  · cases h

/-- A document is sent as a text from which it is received again; the only thing in the way is how
deep the reader follows arrays and objects. -/
theorem documents_return [Depth] (h : IsDocument value) (hkind : isStoredAsJson kind value = true)
    (elementKind : Option Kind) :
    ∃ text, encode value kind elementKind = .ok (.text text) ∧
      decode (.text text) kind elementKind =
        if nesting value ≤ Depth.limit then .ok value else .error (.breach .tooDeep) := by
  obtain ⟨text, htext, hdenotes⟩ := write_document Value.displayed? h
  refine ⟨text, ?_, ?_⟩
  · rw [encode_of_isStoredAsJson hkind, Value.jsonText, htext]
    rfl
  · rw [decode_text_of_isStoredAsJson hkind, readJson, read_of_denotes hdenotes, within]
    split <;> rfl

/-- An object in an array, with a quote, a line break and a control character in its key and a
negative number beside a flag. -/
def nestedDocument : Value :=
  .map [
    (.text "say \"\n\x01é", .list [.int (-12), .bool true, .null, .map [(.text "1", .list [])]]),
    (.text "", .int 1)]

theorem isDocument_nestedDocument : IsDocument nestedDocument := by
  have hnumber : ∀ number : Int, Number.digitCount number.natAbs ≤ Number.maxDigits →
      IsDocument (.int number) := fun number h => .int (Number.hasNumeral_iff.2 h)
  have hempty : IsDocument (.list []) := .list (by simp)
  have hobject : IsDocument (.map [(.text "1", .list [])]) :=
    .map (by simp) (List.pairwise_singleton _ _) (by simpa using hempty)
  have hitems : IsDocument
      (.list [.int (-12), .bool true, .null, .map [(.text "1", .list [])]]) := by
    refine .list ?_
    simp only [List.forall_mem_cons]
    exact ⟨hnumber _ (by decide), .bool true, .null, hobject, by simp⟩
  refine .map (by simp) ?_ ?_
  · refine List.pairwise_pair.2 ?_
    rw [Value.text_isKey]
    decide
  · simp only [List.forall_mem_cons]
    exact ⟨hitems, hnumber _ (by decide), by simp⟩

theorem nestedDocument_returns :
    IsDocument nestedDocument ∧ isStoredAsJson .map nestedDocument = true ∧
      ∃ text, encode nestedDocument .map none = .ok (.text text) ∧
        decode (.text text) .map none = .ok nestedDocument := by
  refine ⟨isDocument_nestedDocument, rfl, ?_⟩
  obtain ⟨text, hsent, hreceived⟩ :=
    documents_return isDocument_nestedDocument (rfl : isStoredAsJson .map _ = true) none
  refine ⟨text, hsent, ?_⟩
  rw [hreceived, if_pos (by decide)]

end TypedSql.Wire
