import TypedSql.Proofs.Identifier

/-!
# The grammar of names

What the check of names lets through. `Spells` is the grammar of names; the check also lets one line
break behind such a name pass, and nothing else: `isName_iff`. `names_let_through` is the main
statement: it says of every text whether it counts as a name, how it is quoted and whether it can be
the name of a table.
-/

namespace TypedSql.Identifier

open TypedSql.Text

/-- `Spells text` says that a text is an ASCII letter or an underscore with ASCII letters, digits
and underscores behind it. -/
def Spells (text : String) : Prop :=
  ∃ first rest, text.toList = first :: rest ∧ (first.isAlpha = true ∨ first = '_') ∧
    ∀ c ∈ rest, c.isAlphanum = true ∨ c = '_'

/-- `SpellsLine text` says that a text follows the grammar of names, but for a line break that may
stand behind it. -/
def SpellsLine (text : String) : Prop :=
  Spells text ∨ ∃ name, Spells name ∧ text = name ++ "\n"

theorem isAsciiLetter_eq_isAlpha (c : Char) : isAsciiLetter c = c.isAlpha := by
  have hupper : c.isUpper = decide ('A'.val ≤ c.val ∧ c.val ≤ 'Z'.val) := rfl
  have hlower : c.isLower = (decide ('a'.val ≤ c.val) && decide (c.val ≤ 'z'.val)) := rfl
  have halpha : c.isAlpha = (c.isUpper || c.isLower) := rfl
  simp [isAsciiLetter, halpha, hupper, hlower, Char.le_def]

theorem isAsciiDigit_eq_isDigit (c : Char) : isAsciiDigit c = c.isDigit := by
  simp [isAsciiDigit, Char.isDigit, Char.le_def]

/-- The characters that start a name. -/
theorem isStart_iff {c : Char} : isStart c = true ↔ c.isAlpha = true ∨ c = '_' := by
  simp [isStart, isAsciiLetter_eq_isAlpha]

/-- The characters that stand inside a name. -/
theorem isPart_iff {c : Char} : isPart c = true ↔ c.isAlphanum = true ∨ c = '_' := by
  simp only [isPart, Bool.or_eq_true, isStart_iff, isAsciiDigit_eq_isDigit, Char.isAlphanum]
  exact or_right_comm

/-- Characters behind the first one pass exactly if they are those of names, or are so up to a line
break at the end. -/
theorem all_isPart_dropFinalBreak_iff {chars : List Char} :
    (dropFinalBreak chars).all isPart = true ↔
      chars.all isPart = true ∨ ∃ front, chars = front ++ ['\n'] ∧ front.all isPart = true := by
  have hbreak : isPart '\n' = false := by decide
  unfold dropFinalBreak
  split
  · next hlast =>
      obtain ⟨front, rfl⟩ := List.getLast?_eq_some_iff.1 hlast
      simp [hbreak]
  · next hlast =>
      constructor
      · exact .inl
      · rintro (hall | ⟨front, rfl, -⟩)
        · exact hall
        · simp at hlast

/-- A text counts as a name exactly if it follows the grammar, but for a line break behind it. -/
theorem isName_iff {text : String} : isName text = true ↔ SpellsLine text := by
  have hspells : ∀ name : String, Spells name ↔
      ∃ first rest, name.toList = first :: rest ∧ isStart first = true ∧
        rest.all isPart = true := by
    intro name
    simp only [Spells, List.all_eq_true, isStart_iff, isPart_iff]
  constructor
  · intro h
    unfold isName at h
    split at h
    · cases h
    · next first rest htext =>
        obtain ⟨hfirst, hrest⟩ := Bool.and_eq_true_iff.1 h
        rcases all_isPart_dropFinalBreak_iff.1 hrest with hall | ⟨front, rfl, hall⟩
        · exact .inl ((hspells text).2 ⟨first, rest, htext, hfirst, hall⟩)
        · refine .inr ⟨String.ofList (first :: front), (hspells _).2 ?_, ?_⟩
          · exact ⟨first, front, String.toList_ofList, hfirst, hall⟩
          · apply String.toList_injective
            simp [htext]
  · rintro (hname | ⟨name, hname, rfl⟩)
    · obtain ⟨first, rest, htext, hfirst, hall⟩ := (hspells text).1 hname
      simp only [isName, htext, hfirst, Bool.true_and]
      exact all_isPart_dropFinalBreak_iff.2 (.inl hall)
    · obtain ⟨first, rest, htext, hfirst, hall⟩ := (hspells name).1 hname
      have hwhole : (name ++ "\n").toList = first :: (rest ++ ['\n']) := by
        simp [String.toList_append, htext]
      simp only [isName, hwhole, hfirst, Bool.true_and]
      exact all_isPart_dropFinalBreak_iff.2 (.inr ⟨rest, rfl, hall⟩)

/-- A name has a character. -/
theorem ne_empty_of_isName {text : String} (h : isName text = true) : text.isEmpty = false := by
  cases hempty : text.isEmpty with
  | false => rfl
  | true =>
      rw [String.isEmpty_iff.1 hempty] at h
      cases h

/-- A text is the name of a table exactly if it counts as a name and is short enough. -/
theorem checkTableName_text_eq_ok {text name : String} :
    checkTableName (.text text) = .ok name ↔
      isName text = true ∧ text.length ≤ maxTableNameLength ∧ name = text := by
  simp only [checkTableName, Value.asText?]
  cases hname : isName text with
  | false =>
      cases text.isEmpty <;> simp
  | true =>
      by_cases hlength : text.length ≤ maxTableNameLength
      · simp [ne_empty_of_isName hname, hlength, Nat.not_lt.2 hlength, eq_comm]
      · simp [ne_empty_of_isName hname, hlength, Nat.not_le.1 hlength]

/-- Every text that follows the grammar counts as a name, is quoted between backticks and, with at
most 64 characters, names a table. Of all other texts only those do so that are a name with one line
break behind it; the rest are reported as invalid. -/
theorem names_let_through (text : String) :
    (isNameValue (.text text) = true ↔ SpellsLine text) ∧
      (∀ quoted, quote (.text text) = .ok quoted ↔
        SpellsLine text ∧ quoted = "\x60" ++ text ++ "\x60") ∧
      ((∃ fault report, quote (.text text) = .error fault ∧ fault.report? = some report ∧
        report.family = .validation) ↔ ¬SpellsLine text) ∧
      ((∃ name, checkTableName (.text text) = .ok name) ↔
        SpellsLine text ∧ text.length ≤ 64) := by
  have hvalue : isNameValue (.text text) = isName text := rfl
  refine ⟨by rw [hvalue, isName_iff], fun quoted => ?_, ?_, ?_⟩
  · rw [quote_eq_ok, hvalue, isName_iff]
    rfl
  · rw [← isName_iff, ← hvalue]
    unfold quote
    split
    · next hname => simp [hname]
    · next hname =>
        refine iff_of_true ⟨_, _, rfl, rfl, rfl⟩ hname
  · simp only [checkTableName_text_eq_ok, isName_iff, maxTableNameLength]
    exact ⟨fun ⟨_, hname, hlength, _⟩ => ⟨hname, hlength⟩,
      fun ⟨hname, hlength⟩ => ⟨text, hname, hlength, rfl⟩⟩

/-- A line break behind a name passes every check, though the grammar has none. -/
theorem line_break_passes :
    ¬Spells "id\n" ∧ isNameValue (.text "id\n") = true ∧
      quote (.text "id\n") = .ok "\x60id\n\x60" ∧ checkTableName (.text "id\n") = .ok "id\n" := by
  refine ⟨?_, by decide, rfl, rfl⟩
  rintro ⟨first, rest, htext, -, hrest⟩
  have hbreak : '\n' ∈ rest := by
    have hchars : "id\n".toList = ['i', 'd', '\n'] := by decide
    rw [hchars, List.cons.injEq] at htext
    simp [← htext.2]
  rcases hrest '\n' hbreak with hpart | hpart
  · cases hpart
  · cases hpart

end TypedSql.Identifier
