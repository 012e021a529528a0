import TypedSql.Sql.Start

/-!
# Names of parameters

Parameters that count from a whole number have different names (`parameter_injective`), and their
names cannot be mistaken for the marks of a placeholder (`not_mem_parameter`).
-/

namespace TypedSql.Sql

open TypedSql.Number

/-- The numerals of natural numbers differ, for each can be read back. -/
theorem numeral_injective {first second : Nat} (h : first.repr = second.repr) : first = second := by
  have hdigits : Nat.toDigits 10 first = Nat.toDigits 10 second := by
    rw [← Nat.toList_repr, ← Nat.toList_repr, h]
  have hvalue := congrArg (Nat.ofDigitChars 10 · 0) hdigits
  simpa using hvalue

/-- A numeral of a natural number has no sign. -/
theorem numeral_ne_signed (first second : Nat) : first.repr ≠ "-" ++ second.repr := by
  intro h
  have hsign : '-' ∈ Nat.toDigits 10 first := by
    rw [← Nat.toList_repr, h]
    simp
  exact absurd (Nat.isDigit_of_mem_toDigits (by omega) (by omega) hsign) (by decide)

/-- The numerals of whole numbers differ. -/
theorem toString_injective {number other : Int} (h : toString number = toString other) :
    number = other := by
  replace h : number.repr = other.repr := h
  cases number with
  | ofNat first =>
      cases other with
      | ofNat second => rw [numeral_injective h]
      | negSucc second => exact absurd h (numeral_ne_signed first _)
  | negSucc first =>
      cases other with
      | ofNat second => exact absurd h.symm (numeral_ne_signed second _)
      | negSucc second =>
          have hnext := numeral_injective ((String.append_right_inj "-").1 h)
          rw [Nat.succ_inj.1 hnext]

/-- The names of parameters that count from a whole number differ. -/
theorem parameter_injective {index other : Int} (h : parameter index = parameter other) :
    index = other :=
  toString_injective ((String.append_right_inj "param").1 h)

/-- A numeral has nothing but digits and perhaps a minus. -/
theorem not_mem_numeral {c : Char} (hdigit : c.isDigit = false) (hsign : c ≠ '-') (number : Int) :
    c ∉ (toString number).toList := by
  have hdigits : ∀ natural : Nat, c ∉ Nat.toDigits 10 natural := by
    intro natural hmem
    rw [Nat.isDigit_of_mem_toDigits (by omega) (by omega) hmem] at hdigit
    cases hdigit
  cases number with
  | ofNat natural =>
      rw [show toString (Int.ofNat natural) = natural.repr from rfl, Nat.toList_repr]
      exact hdigits natural
  | negSucc natural =>
      rw [show toString (Int.negSucc natural) = "-" ++ (natural + 1).repr from rfl,
        String.toList_append, List.mem_append, Nat.toList_repr]
      rintro (hmem | hmem)
      · exact hsign (List.mem_singleton.1 hmem)
      · exact hdigits _ hmem

/-- The name of a parameter that counts from a whole number has nothing but letters, digits and
perhaps a minus. -/
theorem not_mem_parameter {c : Char} (hdigit : c.isDigit = false) (hname : c ∉ "param-".toList)
    (index : Int) : c ∉ (parameter index).toList := by
  have hname : c ∉ "param".toList ∧ c ≠ '-' := by simpa [and_assoc] using hname
  rw [parameter, parameterName, String.toList_append, List.mem_append]
  rintro (hmem | hmem)
  · exact hname.1 hmem
  · exact not_mem_numeral hdigit hname.2 index hmem

/-- So many parameters from a whole number on have names exactly if there are none or the numbers of
the first and of the last one are short enough. -/
theorem checkNames_number {index : Int} {count : Nat} :
    (Start.number index).checkNames count = .ok () ↔
      count = 0 ∨ hasNumeral index = true ∧ hasNumeral (index + count - 1) = true := by
  simp only [Start.checkNames]
  split
  · next h => simpa using h
  · next h => simpa using h

/-- One more parameter has a name if the first one has and the others behind it have. -/
theorem checkNames_succ_iff {index : Int} {count : Nat} :
    (Start.number index).checkNames (count + 1) = .ok () ↔
      hasNumeral index = true ∧ (Start.number (index + 1)).checkNames count = .ok () := by
  simp only [checkNames_number, hasNumeral, decide_eq_true_eq]
  omega

/-- Parameters have names if those in front have and those behind them. -/
theorem checkNames_add_iff {index : Int} {first second : Nat} :
    (Start.number index).checkNames (first + second) = .ok () ↔
      (Start.number index).checkNames first = .ok () ∧
        (Start.number (index + first)).checkNames second = .ok () := by
  simp only [checkNames_number, hasNumeral, decide_eq_true_eq]
  omega

end TypedSql.Sql
