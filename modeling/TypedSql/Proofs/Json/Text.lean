import TypedSql.Json.Reader
import TypedSql.Json.Writer

/-!
# Quoted JSON texts

Reading a quoted text undoes writing it. Every character is read back from the way it is escaped
(`readChars?_escapeChar`), so the characters up to the closing quote are those that were written,
whatever stands behind it: `readText_escaped`.
-/

namespace TypedSql.Json

open TypedSql.Text

variable {c : Char}

/-- What is read when a character stands in front of what is read otherwise. -/
def readBefore (c : Char) (reading : Option (List Char × List Char)) :
    Option (List Char × List Char) :=
  reading.map fun (chars, rest) => (c :: chars, rest)

/-- The four digits of a control character denote its code. -/
theorem readHex?_hexFixed_of_control :
    ∀ code < 0x20, readHex? (hexFixed code 4) = some code := by
  decide

/-- A control character is read back from its code; it is no half of a pair. -/
theorem readEscapedCode?_control (h : c.toNat < 0x20) (rest : List Char) :
    readEscapedCode? (hexFixed c.toNat 4 ++ rest) = some (c, rest) := by
  have hlength : (hexFixed c.toNat 4).length = 4 := rfl
  have hunit : readUnit? (hexFixed c.toNat 4 ++ rest) = some c.toNat := by
    simp only [readUnit?, List.take_left' hlength, hlength, if_true]
    exact readHex?_hexFixed_of_control c.toNat h
  have hhigh : isHighHalf c.toNat = false := by
    have hsmall : ¬0xd800 ≤ c.toNat := by omega
    simp [isHighHalf, hsmall]
  have hlow : isLowHalf c.toNat = false := by
    have hsmall : ¬0xdc00 ≤ c.toNat := by omega
    simp [isLowHalf, hsmall]
  have hchar : charOfCode c.toNat = c := by
    simp only [charOfCode, hhigh, hlow, Bool.or_self, Bool.false_eq_true, if_false]
    exact Char.ofNat_toNat c
  simp [readEscapedCode?, hunit, List.drop_left' hlength, hhigh, hchar]

/-- A letter after a backslash is read as the character that it stands for. -/
theorem readChars?_simple {escape : Char} (hcode : escape ≠ 'u')
    (h : simpleEscape? escape = some c) (fuel : Nat) (rest : List Char) :
    readChars? (fuel + 1) ('\\' :: escape :: rest) = readBefore c (readChars? fuel rest) := by
  rw [readChars?]
  · rw [h]
    cases readChars? fuel rest <;> rfl
  · exact hcode

/-- A character that needs no escape is read as it is. -/
theorem readChars?_bare (hquote : c ≠ '"') (hbackslash : c ≠ '\\') (h : 0x20 ≤ c.toNat)
    (fuel : Nat) (rest : List Char) :
    readChars? (fuel + 1) (c :: rest) = readBefore c (readChars? fuel rest) := by
  have hplain : ¬(c.toNat < 0x20 ∨ c = '\\') := by
    rintro (hcontrol | hescape)
    · omega
    · exact hbackslash hescape
  rw [readChars?]
  · simp only [hplain, if_false]
    cases readChars? fuel rest <;> rfl
  · exact hquote
  · intro _ hescape
    exact absurd hescape hbackslash
  · intro _ _ hescape
    exact absurd hescape hbackslash

/-- A character is read back from the way it is escaped. -/
theorem readChars?_escapeChar (c : Char) (fuel : Nat) (rest : List Char) :
    readChars? (fuel + 1) (escapeChar c ++ rest) = readBefore c (readChars? fuel rest) := by
  unfold escapeChar
  split
  · next h =>
      subst h
      exact readChars?_simple (by decide) rfl fuel rest
  split
  · next h =>
      subst h
      exact readChars?_simple (by decide) rfl fuel rest
  split
  · next h =>
      subst h
      exact readChars?_simple (by decide) rfl fuel rest
  split
  · next h =>
      subst h
      exact readChars?_simple (by decide) rfl fuel rest
  split
  · next h =>
      subst h
      exact readChars?_simple (by decide) rfl fuel rest
  split
  · next h =>
      subst h
      exact readChars?_simple (by decide) rfl fuel rest
  split
  · next h =>
      subst h
      exact readChars?_simple (by decide) rfl fuel rest
  split
  · next hcontrol =>
      show readChars? (fuel + 1) ('\\' :: 'u' :: (hexFixed c.toNat 4 ++ rest)) = _
      simp only [readChars?, readEscapedCode?_control hcontrol, Option.bind_eq_bind,
        Option.bind_some]
      cases readChars? fuel rest <;> rfl
  · next hquote hbackslash _ _ _ _ _ hcontrol =>
      exact readChars?_bare hquote hbackslash (Nat.not_lt.1 hcontrol) fuel rest

/-- Escaped characters are read back up to the closing quote. -/
theorem readChars?_flatMap_escapeChar (chars rest : List Char) {fuel : Nat}
    (hfuel : chars.length < fuel) :
    readChars? fuel (chars.flatMap escapeChar ++ '"' :: rest) = some (chars, rest) := by
  induction chars generalizing fuel with
  | nil =>
      obtain ⟨fuel, rfl⟩ := Nat.exists_eq_succ_of_ne_zero (Nat.ne_of_gt hfuel)
      rfl
  | cons c chars ih =>
      obtain ⟨fuel, rfl⟩ := Nat.exists_eq_succ_of_ne_zero (Nat.ne_of_gt (Nat.zero_lt_of_lt hfuel))
      rw [List.flatMap_cons, List.append_assoc, readChars?_escapeChar,
        ih (Nat.lt_of_succ_lt_succ hfuel)]
      rfl

/-- No escape is empty. -/
theorem escapeChar_ne_nil (c : Char) : escapeChar c ≠ [] := by
  unfold escapeChar
  repeat' split
  all_goals exact List.cons_ne_nil _ _

/-- Escaping does not make a text shorter. -/
theorem length_le_flatMap_escapeChar (chars : List Char) :
    chars.length ≤ (chars.flatMap escapeChar).length := by
  induction chars with
  | nil => exact Nat.le_refl 0
  | cons c chars ih =>
      have hescape : 0 < (escapeChar c).length := List.length_pos_iff.2 (escapeChar_ne_nil c)
      rw [List.flatMap_cons, List.length_append, List.length_cons]
      omega

/-- What stands between the quotes of a written text is read as that text. -/
theorem readText_escaped (chars rest : List Char) :
    readText (chars.flatMap escapeChar ++ '"' :: rest) = .ok (String.ofList chars, rest) := by
  have hlength := length_le_flatMap_escapeChar chars
  have hfuel : chars.length < (chars.flatMap escapeChar ++ '"' :: rest).length + 1 := by
    rw [List.length_append]
    omega
  rw [readText, readChars?_flatMap_escapeChar chars rest hfuel]

/-- The characters of a quoted text. -/
theorem toList_quote (text : String) :
    (quote text).toList = '"' :: (text.toList.flatMap escapeChar ++ ['"']) := by
  simp [quote]

end TypedSql.Json
