import Mathlib.Data.List.Basic
import TypedSql.Text.Literal

/-!
# Reading text literals

How a database reads a text literal: two quotes stand for one, and a backslash escapes the character
behind it. `readLiteral?_quoteLiteral_iff` says which literals are read as the texts that they were
made of, up to the quotes that close them: those of the texts without a backslash, whatever the
escapes denote.
-/

namespace TypedSql.Text

section Reading

/-- A text up to the quote that closes it, and what stands behind that quote. Behind a backslash a
character denotes another one. -/
def readBody? (escaped : Char → Char) : List Char → Option (List Char × List Char)
  | [] => none
  | '\'' :: '\'' :: rest => (readBody? escaped rest).map (Prod.map (List.cons '\'') id)
  | '\'' :: rest => some ([], rest)
  | ['\\'] => none
  | '\\' :: c :: rest => (readBody? escaped rest).map (Prod.map (List.cons (escaped c)) id)
  | c :: rest => (readBody? escaped rest).map (Prod.map (List.cons c) id)

/-- The text that a literal denotes, and what stands behind the literal. -/
def readLiteral? (escaped : Char → Char) (sql : String) : Option (String × String) :=
  match sql.toList with
  | '\'' :: rest => (readBody? escaped rest).map (Prod.map String.ofList String.ofList)
  | _ => none

end Reading

/-- Whether a text leaves a quote in front of it alone. -/
def IsClear (after : String) : Prop := after.toList.head? ≠ some '\''

instance (after : String) : Decidable (IsClear after) :=
  inferInstanceAs (Decidable (after.toList.head? ≠ some '\''))

/-- Texts that leave a quote alone do so one after the other. -/
theorem IsClear.append {first second : String} (hfirst : IsClear first) (hsecond : IsClear second) :
    IsClear (first ++ second) := by
  rw [IsClear, String.toList_append]
  cases h : first.toList with
  | nil => exact hsecond
  | cons c rest => rwa [IsClear, h] at hfirst

/-- What stands behind a text that is not empty does not matter. -/
theorem IsClear.append_of_ne_empty {first : String} (h : IsClear first) (hfirst : first ≠ "")
    (second : String) : IsClear (first ++ second) := by
  rw [IsClear, String.toList_append]
  cases hchars : first.toList with
  | nil => exact absurd (String.toList_eq_nil_iff.1 hchars) hfirst
  | cons c rest => rwa [IsClear, hchars] at h

variable {escaped : Char → Char} {chars body after : List Char}

/-- A text with its quotes written twice. -/
abbrev doubled (chars : List Char) : List Char := replaceChar '\'' ['\'', '\''] chars

/-- Any character but a quote and a backslash stands for itself. -/
theorem readBody?_cons {c : Char} (hquote : c ≠ '\'') (hescape : c ≠ '\\') (rest : List Char) :
    readBody? escaped (c :: rest) =
      (readBody? escaped rest).map (Prod.map (List.cons c) id) := by
  rw [readBody?]
  · exact fun _ h => absurd h hquote
  · exact fun h => absurd h hquote
  · exact fun h => absurd h hescape
  · exact fun _ _ h => absurd h hescape

/-- A quote closes a text unless another one follows. -/
theorem readBody?_quote (h : after.head? ≠ some '\'') :
    readBody? escaped ('\'' :: after) = some ([], after) := by
  rw [readBody?]
  rintro rest rfl
  exact h rfl

/-- A text without backslashes is read back from its literal. -/
theorem readBody?_doubled (hafter : after.head? ≠ some '\'') (h : '\\' ∉ chars) :
    readBody? escaped (doubled chars ++ '\'' :: after) = some (chars, after) := by
  induction chars with
  | nil => exact readBody?_quote hafter
  | cons c rest ih =>
      rw [List.mem_cons, not_or] at h
      have hrest := ih h.2
      by_cases hquote : c = '\''
      · subst hquote
        have hcons : doubled ('\'' :: rest) = '\'' :: '\'' :: doubled rest := by
          simp [doubled, replaceChar]
        rw [hcons, List.cons_append, List.cons_append, readBody?, hrest]
        rfl
      · have hcons : doubled (c :: rest) = c :: doubled rest := by
          simp [doubled, replaceChar, hquote]
        rw [hcons, List.cons_append, readBody?_cons hquote (Ne.symm h.1), hrest]
        rfl

/-- What a text costs when it is read: a quote is half of a character. -/
def cost : List Char → Nat
  | [] => 0
  | c :: rest => (if c = '\'' then 1 else 2) + cost rest

@[simp] theorem cost_nil : cost [] = 0 := rfl

@[simp] theorem cost_cons (c : Char) (rest : List Char) :
    cost (c :: rest) = (if c = '\'' then 1 else 2) + cost rest := rfl

@[simp] theorem cost_append (first second : List Char) :
    cost (first ++ second) = cost first + cost second := by
  induction first with
  | nil => simp
  | cons c rest ih => rw [List.cons_append, cost_cons, cost_cons, ih, Nat.add_assoc]

theorem cost_doubled (chars : List Char) : cost (doubled chars) = 2 * chars.length := by
  induction chars with
  | nil => rfl
  | cons c rest ih =>
      have hcons : doubled (c :: rest) = (if c = '\'' then ['\'', '\''] else [c]) ++ doubled rest :=
        rfl
      rw [hcons, cost_append, ih, List.length_cons]
      by_cases hquote : c = '\''
      · simp [hquote]
        omega
      · simp [hquote]
        omega

/-- What is read of a text behind its first characters is what is read behind the others, and they
denote one character more. -/
theorem readBody?_map_eq_some {c : Char} :
    (readBody? escaped body).map (Prod.map (List.cons c) id) = some (chars, after) ↔
      ∃ rest, readBody? escaped body = some (rest, after) ∧ c :: rest = chars := by
  simp [Prod.ext_iff, and_comm]

/-- Every character that is read costs a character at least, and the closing quote costs a quote. A
text that costs no more has no backslash, for an escape costs a character beside the one that it
escapes. -/
theorem cost_readBody? (h : readBody? escaped body = some (chars, after)) :
    2 * chars.length + 1 + cost after ≤ cost body ∧
      (cost body = 2 * chars.length + 1 + cost after → '\\' ∉ chars) := by
  fun_induction readBody? escaped body generalizing chars with
  | case1 => cases h
  | case2 rest ih =>
      obtain ⟨others, hothers, rfl⟩ := readBody?_map_eq_some.1 h
      obtain ⟨hleast, hplain⟩ := ih hothers
      simp only [cost_cons, List.length_cons, List.mem_cons, not_or, if_pos]
      exact ⟨by omega, fun hcost => ⟨by decide, hplain (by omega)⟩⟩
  | case3 rest =>
      obtain ⟨rfl, rfl⟩ := Prod.mk.inj (Option.some.inj h)
      simp
  | case4 => cases h
  | case5 c rest ih =>
      obtain ⟨others, hothers, rfl⟩ := readBody?_map_eq_some.1 h
      obtain ⟨hleast, -⟩ := ih hothers
      -- the backslash is paid for on top of the character that it escapes
      have hescape : ('\\' = '\'') = False := by decide
      simp only [cost_cons, List.length_cons, hescape, if_false]
      split
      · exact ⟨by omega, fun hcost => by omega⟩
      · exact ⟨by omega, fun hcost => by omega⟩
  | case6 c rest hdouble hquote hlast hescape ih =>
      obtain ⟨others, hothers, rfl⟩ := readBody?_map_eq_some.1 h
      obtain ⟨hleast, hplain⟩ := ih hothers
      have hhead : '\\' ≠ c := by
        rintro rfl
        cases rest with
        | nil => exact hlast rfl rfl
        | cons next others => exact hescape next others rfl rfl
      simp only [cost_cons, List.length_cons, List.mem_cons, not_or, if_neg hquote]
      exact ⟨by omega, fun hcost => ⟨hhead, hplain (by omega)⟩⟩

/-- The literal of a text is read as the text, up to its closing quote, exactly if the text has no
backslash. This is so whatever escapes denote, if no further quote follows. -/
theorem readLiteral?_quoteLiteral_iff (escaped : Char → Char) (chars : String) {after : String}
    (hafter : IsClear after) :
    readLiteral? escaped (quoteLiteral chars ++ after) = some (chars, after) ↔
      '\\' ∉ chars.toList := by
  have htext : (quoteLiteral chars ++ after).toList =
      '\'' :: (doubled chars.toList ++ '\'' :: after.toList) := by
    simp [quoteLiteral, String.toList_append]
  have hread : readLiteral? escaped (quoteLiteral chars ++ after) = some (chars, after) ↔
      readBody? escaped (doubled chars.toList ++ '\'' :: after.toList) =
        some (chars.toList, after.toList) := by
    rw [readLiteral?, htext]
    simp only [Option.map_eq_some_iff, Prod.map, Prod.mk.injEq, Prod.exists]
    constructor
    · rintro ⟨_, _, h, rfl, rfl⟩
      simpa only [String.toList_ofList] using h
    · intro h
      exact ⟨_, _, h, String.ofList_toList, String.ofList_toList⟩
  rw [hread]
  constructor
  · intro h
    -- doubled quotes cost what the text costs, so that nothing is left to pay for an escape
    refine (cost_readBody? h).2 ?_
    rw [cost_append, cost_doubled, cost_cons, if_pos rfl]
    omega
  · exact readBody?_doubled hafter

/-- A backslash at the end of a text escapes the quote that should close its literal, so that the
literal does not end. -/
example (escaped : Char → Char) : readLiteral? escaped (quoteLiteral "\\") = none := by rfl

end TypedSql.Text
