import TypedSql.Identifier
import TypedSql.Proofs.Outcome

/-!
# Quoted names

What stands between the backticks of a quoted name. `quote_eq_ok` says which names are quoted and
how; `IsQuoted.not_mem` that only few characters can stand inside, so that no name closes its
backticks.
-/

namespace TypedSql.Identifier

open TypedSql.Text

/-- The characters that a quoted name may show: those of names, a line break, and the point in the
name of an operator. -/
def isShown (c : Char) : Bool := isPart c || c = '\n' || c = '.'

/-- A name has the characters of names and perhaps a line break. -/
theorem isShown_of_mem_name {text : String} (h : isName text = true) {c : Char}
    (hc : c ∈ text.toList) : isShown c = true := by
  unfold isName at h
  split at h
  · cases h
  · next first rest htext =>
      simp only [Bool.and_eq_true, List.all_eq_true] at h
      obtain ⟨hfirst, hrest⟩ := h
      rw [htext, List.mem_cons] at hc
      rcases hc with rfl | hc
      · simp [isShown, isPart, hfirst]
      · unfold dropFinalBreak at hrest
        -- the check ignores one line break at the end, so it is shown too
        split at hrest
        · next hbreak =>
            obtain ⟨start, hstart⟩ := List.getLast?_eq_some_iff.1 hbreak
            rw [hstart, List.mem_append, List.mem_singleton] at hc
            rcases hc with hc | rfl
            · have hpart := hrest c (by rw [hstart, List.dropLast_concat]; exact hc)
              simp [isShown, hpart]
            · rfl
        · simp [isShown, hrest c hc]

/-- What is shown of the value of a name has the characters of names. -/
theorem isShown_of_mem_display {key : Value} (h : isNameValue key = true) {c : Char}
    (hc : c ∈ key.display.toList) : isShown c = true := by
  have hkinds : ∀ kind : Kind, kind.name.toList.all isShown = true := by
    intro kind
    cases kind <;> decide
  have hoperators : ∀ known : Operator, ("Operator." ++ known.name).toList.all isShown = true := by
    intro known
    cases known <;> decide
  cases key with
  | text chars =>
      have hname : isName chars = true := by simpa [isNameValue, Value.asText?] using h
      exact isShown_of_mem_name hname hc
  | kind known => exact List.all_eq_true.1 (hkinds known) c hc
  | operator known => exact List.all_eq_true.1 (hoperators known) c hc
  | _ => simp [isNameValue, Value.asText?] at h

/-- A name is quoted exactly if it is one, between backticks. -/
theorem quote_eq_ok {name : Value} {text : String} :
    quote name = .ok text ↔ isNameValue name = true ∧ text = backquoted name.display := by
  unfold quote
  by_cases h : isNameValue name = true
  · simp [h, eq_comm]
  · simp [h]

/-- Texts differ between backticks as they do without. -/
theorem backquoted_injective : Function.Injective backquoted :=
  fun _ _ h => (String.append_right_inj _).1 ((String.append_left_inj _).1 h)

/-- `IsQuoted text` says that a text is between backticks and has only the characters inside that
a quoted name may show. -/
def IsQuoted (text : String) : Prop :=
  ∃ name, text = backquoted name ∧ ∀ c ∈ name.toList, isShown c = true

theorem isQuoted_backquoted {name : Value} (h : isNameValue name = true) :
    IsQuoted (backquoted name.display) :=
  ⟨name.display, rfl, fun _ hc => isShown_of_mem_display h hc⟩

/-- A name is quoted as the text that is shown of it. -/
theorem isQuoted_of_quote {name : Value} {text : String} (h : quote name = .ok text) :
    text = backquoted name.display ∧ IsQuoted text := by
  obtain ⟨hname, rfl⟩ := quote_eq_ok.1 h
  exact ⟨rfl, isQuoted_backquoted hname⟩

/-- A quoted name has no character besides its backticks that a quoted name never shows. -/
theorem IsQuoted.not_mem {text : String} (h : IsQuoted text) {c : Char}
    (hshown : isShown c = false) (hquote : c ≠ '\x60') : c ∉ text.toList := by
  obtain ⟨name, rfl, hname⟩ := h
  have hinside : c ∉ name.toList := by
    intro hc
    rw [hname c hc] at hshown
    cases hshown
  simp [backquoted, hquote, hinside]

end TypedSql.Identifier
