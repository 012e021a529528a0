import TypedSql.Number.Power

/-!
# Powers of two and of ten

How the powers of the bases are multiplied and ordered. An exponent stays a variable here: a power
with a large exponent is never to be evaluated.
-/

namespace TypedSql.Number

theorem twoTo_pos (exponent : Nat) : 0 < twoTo exponent := Nat.two_pow_pos exponent

theorem twoTo_succ (exponent : Nat) : twoTo (exponent + 1) = 2 * twoTo exponent :=
  Nat.pow_succ'

theorem twoTo_add (first second : Nat) : twoTo (first + second) = twoTo first * twoTo second :=
  Nat.pow_add 2 first second

theorem twoTo_le_twoTo {first second : Nat} (h : first ≤ second) : twoTo first ≤ twoTo second :=
  Nat.pow_le_pow_right (by omega) h

theorem tenTo_pos (exponent : Nat) : 0 < tenTo exponent := Nat.pow_pos (by omega)

theorem tenTo_add (first second : Nat) : tenTo (first + second) = tenTo first * tenTo second :=
  Nat.pow_add 10 first second

theorem tenTo_le_tenTo {first second : Nat} (h : first ≤ second) : tenTo first ≤ tenTo second :=
  Nat.pow_le_pow_right (by omega) h

theorem tenTo_lt_tenTo_succ (exponent : Nat) : tenTo exponent < tenTo (exponent + 1) :=
  Nat.pow_lt_pow_succ (by omega)

theorem twoTo_le_tenTo (exponent : Nat) : twoTo exponent ≤ tenTo exponent :=
  Nat.pow_le_pow_left (by omega) exponent

end TypedSql.Number
