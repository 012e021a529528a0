import TypedSql.Column.Basic

/-!
# Resolving defaults

A literal default gives its value; a generator is asked for its next one. `Draws` remembers how
often each generator has been asked.
-/

namespace TypedSql

/-- How often generators have been asked, by identity. -/
abbrev Draws := List (Nat × Nat)

namespace Draws

/-- How often a generator has been asked. -/
def count (draws : Draws) (identity : Nat) : Nat := (draws.lookup identity).getD 0

/-- One more question to a generator. -/
def tick (draws : Draws) (identity : Nat) : Draws :=
  (identity, draws.count identity + 1) :: draws.filter fun entry => entry.1 ≠ identity

end Draws

/-- The value that a generator gives after it has been asked some times. -/
def Generator.valueAt (source : Generator Value) (asked : Nat) : Value :=
  match source.yield with
  | .always value => value
  | .progression start step => .int (start + step * asked)

namespace Default

/-- The value of a default. -/
def resolve : Default Value → StateM Draws Value
  | .literal value => pure value
  | .generator source => do
    let asked := (← get).count source.identity
    modify fun draws => draws.tick source.identity
    return source.valueAt asked

end Default

/-- The value of the default of a column; null without one. -/
def Column.resolveDefault (column : Column) : StateM Draws Value :=
  match column.default with
  | none => pure .null
  | some default => default.resolve

end TypedSql
