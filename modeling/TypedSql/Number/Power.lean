/-!
# Powers

The powers of the fixed bases by which numerals, binary numbers and bit fields are scaled, and the
ranges of integers of a number of bits.
-/

namespace TypedSql.Number

/-- A power of two. -/
def twoTo (exponent : Nat) : Nat := Nat.pow 2 exponent

/-- A power of five. -/
def fiveTo (exponent : Nat) : Nat := Nat.pow 5 exponent

/-- A power of ten. -/
def tenTo (exponent : Nat) : Nat := Nat.pow 10 exponent

/-- The smallest and the largest integer of a number of bits without a sign. -/
def unsignedRange (bits : Nat) : Int × Int := (0, (twoTo bits : Int) - 1)

/-- The smallest and the largest integer of a number of bits with a sign. -/
def signedRange (bits : Nat) : Int × Int :=
  (-(twoTo (bits - 1) : Int), (twoTo (bits - 1) : Int) - 1)

/-- Whether an integer lies in a range, both ends included. -/
def inRange (range : Int × Int) (number : Int) : Bool := range.1 ≤ number && number ≤ range.2

end TypedSql.Number
