import TypedSql.Fault

/-!
# Order of values

Numbers, texts, dates, moments, identifiers, addresses, bytes and sequences of such values can be
compared with values of their own sort; any other comparison is a breach. Where two addresses differ
in their scopes only, neither is less than the other but each is greater.
-/

namespace TypedSql

open TypedSql.Number

namespace Value

/-- Whether a value is a decimal number. -/
def isDecimal : Value → Bool
  | .decimal _ => true
  | _ => false

/-- Whether a value is a signaling number. -/
def isSignaling : Value → Bool
  | .decimal (.nan _ signaling _) => signaling
  | _ => false

/-- The order of two numbers. A NaN has none, and is a breach where a decimal takes part. -/
def orderNumbers (left right : Value) : Except Fault (Option Ordering) :=
  match left.asNumber?, right.asNumber? with
  | some first, some second =>
    match first.compare? second with
    | some known => .ok (some known)
    | none =>
      if left.isDecimal || right.isDecimal then .error (.breach .invalidDecimal) else .ok none
  | _, _ => .error (.breach .badType)

/-- The order of two sequences of octets. -/
def orderOctets : List UInt8 → List UInt8 → Ordering
  | [], [] => .eq
  | [], _ => .lt
  | _, [] => .gt
  | first :: rest, second :: others =>
    if first = second then orderOctets rest others else compare first.toNat second.toNat

/-- The order of two values that are neither numbers nor sequences of values. -/
def orderScalars (left right : Value) : Except Fault (Option Ordering) :=
  match left.asText?, right.asText? with
  | some first, some second => .ok (some (compare first second))
  | _, _ =>
    match left, right with
    | .moment first, .moment second =>
      match first.order? second with
      | some known => .ok (some known)
      | none => .error (.breach .badType)
    | .date first, .date second => .ok (some (first.order second))
    | .bytes first, .bytes second => .ok (some (orderOctets first second))
    | .uuid first, .uuid second => .ok (some (compare first.bits.toNat second.bits.toNat))
    | .ipv4 first, .ipv4 second => .ok (some (compare first.bits.toNat second.bits.toNat))
    | .ipv6 first, .ipv6 second => .ok (some (compare first.bits.toNat second.bits.toNat))
    | _, _ => orderNumbers left right

/-- A strict comparison. -/
inductive Comparison where
  | less
  | greater
deriving DecidableEq, Repr

namespace Comparison

/-- The ordering that a comparison asks for. -/
def ordering : Comparison → Ordering
  | less => .lt
  | greater => .gt

/-- Whether a comparison of two values holds that hold no other values. -/
def holdsScalars (comparison : Comparison) (left right : Value) : Except Fault Bool := do
  let order ← orderScalars left right
  return order = some comparison.ordering || match left, right with
    | .ipv6 first, .ipv6 second =>
      comparison = greater && first.bits = second.bits && first ≠ second
    | _, _ => false

end Comparison

mutual

/-- Whether two values cannot even be told apart: a signaling NaN meets a number, or does so in the
first parts of two sequences or records that are not equal. -/
def clashes : Value → Value → Bool
  | list first, list second => first.length = second.length && clashesItems first second
  | tuple first, tuple second => clashesItems first second
  | map first, map second => first.length = second.length && clashesEntries first second
  | conjunction first, conjunction second => clashesItems first second
  | disjunction first, disjunction second => clashesItems first second
  | negation first, negation second => clashes first second
  | literal first, literal second => clashes first second
  | operators first, operators second => clashesOperators first second
  | raw sql values, raw otherSql others => sql = otherSql && clashesItems values others
  | columnDefault (.literal value), columnDefault (.literal other) => clashes value other
  | column settings (some (.literal value)) _, column others (some (.literal other)) _ =>
    settings.flags = others.flags && clashes value other
  | left, right =>
    (left.isSignaling && right.asNumber?.isSome) || (right.isSignaling && left.asNumber?.isSome)

/-- Whether the first items that are not equal clash. -/
def clashesItems : List Value → List Value → Bool
  | first :: rest, second :: others =>
    clashes first second || (same .distinct first second && clashesItems rest others)
  | _, _ => false

/-- Whether the first operands that are not equal clash. -/
def clashesOperators : List (Operator × Value) → List (Operator × Value) → Bool
  | (known, value) :: rest, (other, operand) :: others =>
    known = other && (clashes value operand ||
      (same .distinct value operand && clashesOperators rest others))
  | _, _ => false

/-- Whether the first entries that are not equal clash. -/
def clashesEntries : List (Value × Value) → List (Value × Value) → Bool
  | [], _ => false
  | (key, value) :: rest, others =>
    match Keyed.get? others key with
    | none => false
    | some other =>
      clashes value other || (same .distinct value other && clashesEntries rest others)

end

/-- Whether two values are equal; a clash is a breach. -/
def isEqual (left right : Value) : Except Fault Bool :=
  if clashes left right then .error (.breach .invalidDecimal)
  else .ok (same .distinct left right)

mutual

/-- Whether a comparison of two values holds. -/
def compares (comparison : Comparison) : Value → Value → Except Fault Bool
  | .list first, .list second => comparesItems comparison first second
  | .tuple first, .tuple second => comparesItems comparison first second
  | left, right => comparison.holdsScalars left right

/-- Whether a comparison of two sequences holds: that of the first items that differ, else that of
the lengths. -/
def comparesItems (comparison : Comparison) : List Value → List Value → Except Fault Bool
  | [], [] => .ok false
  | [], _ => .ok (comparison = .less)
  | _, [] => .ok (comparison = .greater)
  | first :: rest, second :: others => do
    if ← isEqual first second then comparesItems comparison rest others
    else compares comparison first second

end

/-- Whether a value is less than another. -/
def isLess (left right : Value) : Except Fault Bool := compares .less left right

/-- Whether a value is greater than another. -/
def isGreater (left right : Value) : Except Fault Bool := compares .greater left right

/-- Whether a number is less than another or equal to it. -/
def isAtMost (left right : Value) : Except Fault Bool := do
  return match ← orderNumbers left right with
    | some order => order ≠ .gt
    | none => false

end Value

end TypedSql
