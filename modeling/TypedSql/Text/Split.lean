/-!
# Splitting and replacing

Cutting a list of characters at a mark, and replacing every occurrence of one character.
-/

namespace TypedSql.Text

/-- The pieces of a text between marks. -/
def splitOn (mark : Char) : List Char → List (List Char)
  | [] => [[]]
  | c :: rest =>
    if c = mark then [] :: splitOn mark rest
    else match splitOn mark rest with
      | [] => [[c]]
      | piece :: pieces => (c :: piece) :: pieces

/-- The pieces between marks are those of the library. -/
theorem splitOn_eq (mark : Char) (text : List Char) : splitOn mark text = text.splitOn mark := by
  induction text with
  | nil => rfl
  | cons c rest ih =>
      rw [splitOn, List.splitOn_cons_eq_if_modifyHead, ih]
      by_cases hmark : c = mark
      · simp only [hmark, beq_self_eq_true, if_true]
      · simp only [hmark, beq_iff_eq, if_false]
        cases hpieces : rest.splitOn mark with
        | nil => exact absurd hpieces (List.splitOn_ne_nil mark rest)
        | cons piece pieces => rfl

/-- The text with one character replaced by a text wherever it stands. -/
def replaceChar (old : Char) (new text : List Char) : List Char :=
  text.flatMap fun c => if c = old then new else [c]

end TypedSql.Text
