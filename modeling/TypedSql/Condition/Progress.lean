import TypedSql.Condition.Elaborate

/-!
# Progress up to a fault

Values are bound in the order in which a condition is read. `progress` counts how many are bound
before the fault of a condition is met, because the names of their parameters may fail first.
-/

namespace TypedSql.Condition

open TypedSql.Sql

/-- How many values are bound before reading stops, and whether it stops at the end. -/
structure Progress where
  bound : Nat
  isDone : Bool
deriving DecidableEq, Repr

namespace Progress

/-- Nothing to read. -/
def done : Progress := { bound := 0, isDone := true }

/-- A fault before any value is bound. -/
def stopped : Progress := { bound := 0, isDone := false }

/-- The progress in two parts, of which the second is only read if the first has no fault. -/
def andThen (first second : Progress) : Progress :=
  if first.isDone then { second with bound := first.bound + second.bound } else first

/-- The progress in a part that is read at once: a predicate binds all of its values. -/
def ofResult : Except Fault (Option Predicate) → Progress
  | .ok predicate =>
    { done with bound := (predicate.elim [] fun known => Piece.values known.pieces).length }
  | .error _ => stopped

/-- The progress in the operators on a field. -/
def ofOperators (field : Value) (operators : List (Operator × Value)) : Progress :=
  operators.foldr (fun (operator, value) rest =>
    (ofResult ((ofOperator field "" operator value).map some)).andThen rest) done

/-- The progress in one field entry of a map. -/
def ofEntry (field value : Value) : Progress :=
  match ofField field value, value with
  | .ok predicate, _ => ofResult (.ok predicate)
  | .error _, .operators operators =>
    if Identifier.isNameValue field then ofOperators field operators else stopped
  | .error _, .map entries =>
    match Identifier.quote field, operatorsOf field entries with
    | .ok _, .ok operators => ofOperators field operators
    | _, _ => stopped
  | .error _, _ => stopped

end Progress

open Progress

mutual

/-- The progress in a condition. -/
def progress : Value → Progress
  | .null => done
  | .conjunction conditions => progressInAll conditions
  | .disjunction conditions => progressInAll conditions
  | .negation condition => progress condition
  | .map entries => progressInEntries entries
  | _ => stopped

/-- The progress in several conditions. -/
def progressInAll : List Value → Progress
  | [] => done
  | condition :: rest => (progress condition).andThen (progressInAll rest)

/-- The progress in the entries of a map. -/
def progressInEntries : List (Value × Value) → Progress
  | [] => done
  | (key, value) :: rest =>
    let first :=
      match groupKey? key with
      | some _ =>
        match value with
        | .list conditions => progressInAll conditions
        | .tuple conditions => progressInAll conditions
        | other => if isSingle other then progress other else stopped
      | none => if isNegationKey key then progress value else ofEntry key value
    first.andThen (progressInEntries rest)

end

end TypedSql.Condition
