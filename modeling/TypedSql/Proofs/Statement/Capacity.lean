import TypedSql.Proofs.Number.Power
import TypedSql.Proofs.Sql.Numbering

/-!
# How many placeholders can be numbered

The number of a placeholder must not have too many digits. `checkNames_natural_iff` says how many
placeholders there can be, counted from a natural number on.
-/

namespace TypedSql.Statement

open TypedSql.Sql TypedSql.Number

/-- How many placeholders can be numbered. -/
def mostValues : Nat := tenTo maxDigits

theorem mostValues_pos : 0 < mostValues := tenTo_pos maxDigits

theorem le_mostValues {count : Nat} (h : count ≤ 10) : count ≤ mostValues :=
  Nat.le_trans h (tenTo_le_tenTo (show 1 ≤ maxDigits by decide))

/-- So many placeholders behind so many others can be numbered exactly if there are none or all of
them can. -/
theorem checkNames_natural_iff {index count : Nat} :
    (Start.number index).checkNames count = .ok () ↔ count = 0 ∨ index + count ≤ mostValues := by
  rw [checkNames_number]
  cases count with
  | zero => simp
  | succ count =>
      have hlast : (index : Int) + (count + 1 : Nat) - 1 = ((index + count : Nat) : Int) := by omega
      rw [hlast]
      simp only [hasNumeral, mostValues, Int.natAbs_natCast, decide_eq_true_eq]
      omega

end TypedSql.Statement
