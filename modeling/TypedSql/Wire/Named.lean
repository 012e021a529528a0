import TypedSql.Wire.Decode
import TypedSql.Wire.Encode

/-!
# Conversions by the name of a kind

Converting values for a kind that is given as a value: by itself or by its name. Null needs no kind.
A kind of elements that is unknown is a breach only when an element has to be converted.
-/

namespace TypedSql.Wire

/-- The kind that a value names. -/
def kindOf (value : Value) : Except Fault Kind :=
  match value.asText?.bind Kind.ofName? with
  | some kind => .ok kind
  | none => .error (.breach .badValue)

/-- A direction of the wire. -/
abbrev Direction := Value → Kind → Option Kind → Except Fault Value

/-- Converts a value whose elements have no known kind: there must be none but null. -/
def convertUnknown (direction : Direction) (value : Value) (kind : Kind) : Except Fault Value :=
  match kind with
  | .nullable | .lowCardinality => .error (.breach .badValue)
  | .array => do
    let items ← direction value kind none
    if (items.asItems?.getD []).all Value.isNull then return items
    else throw (.breach .badValue)
  | _ => direction value kind none

/-- Converts a value for a kind and a kind of elements. -/
def convert (direction : Direction) (value kind elementKind : Value) : Except Fault Value := do
  if value.isNull then return .null
  let kind ← kindOf kind
  if elementKind.isNull then direction value kind none
  else
    match kindOf elementKind with
    | .ok element => direction value kind (some element)
    | .error _ => convertUnknown direction value kind

end TypedSql.Wire
