import TypedSql.Sql.Piece

/-!
# Predicates

The boolean SQL expressions that conditions stand for. Conjunctions come without parentheses where
they collect the entries of a map or the operators of a field, and in parentheses where they are a
group of their own. `pieces` writes a predicate down.
-/

namespace TypedSql.Condition

open TypedSql.Sql

/-- What joins the members of a group. -/
inductive Joiner where
  | and
  | or
deriving DecidableEq, Repr

namespace Joiner

/-- The keyword of a joiner. -/
def keyword : Joiner → String
  | and => "AND"
  | or => "OR"

/-- The separator that a joiner puts between members. -/
def separator (joiner : Joiner) : String := " " ++ joiner.keyword ++ " "

end Joiner

/-- A boolean SQL expression over quoted columns. -/
inductive Predicate where
  | verbatim (sql : String)
  | constant (truth : Bool)
  | isNull (column : String) (negated : Bool)
  | compare (column comparison : String) (value : Value)
  | within (column : String) (negated : Bool) (members : List Value)
  | between (column : String) (low high : Value)
  | all (parts : List Predicate)
  | group (joiner : Joiner) (parts : List Predicate)
  | negation (inner : Predicate)

/-- The predicate that always holds. -/
def alwaysTrue : String := "1=1"

/-- The predicate that never holds. -/
def alwaysFalse : String := "1=0"

/-- The keyword of a membership test. -/
def withinKeyword (negated : Bool) : String := if negated then "NOT IN" else "IN"

/-- The keyword of a test for null. -/
def nullKeyword (negated : Bool) : String := if negated then "IS NOT NULL" else "IS NULL"

namespace Predicate

mutual

/-- The written form of a predicate. -/
def pieces : Predicate → List Piece
  | verbatim sql => [.text sql]
  | constant truth => [.text (if truth then alwaysTrue else alwaysFalse)]
  | isNull column negated => [.text (column ++ " " ++ nullKeyword negated)]
  | compare column comparison value => [.text (column ++ " " ++ comparison ++ " "), .ofValue value]
  | within column negated members =>
    .text (column ++ " " ++ withinKeyword negated ++ " (") ::
      Piece.join ", " (members.map fun member => [.ofValue member]) ++ [.text ")"]
  | between column low high =>
    [.text (column ++ " BETWEEN "), .ofValue low, .text " AND ", .ofValue high]
  | all parts => Piece.join Joiner.and.separator (piecesOfAll parts)
  | group joiner parts =>
    .text "(" :: Piece.join joiner.separator (piecesOfAll parts) ++ [.text ")"]
  | negation inner => .text "NOT (" :: pieces inner ++ [.text ")"]

/-- The written forms of several predicates. -/
def piecesOfAll : List Predicate → List (List Piece)
  | [] => []
  | part :: rest => pieces part :: piecesOfAll rest

end

/-- The conjunction of entries; no entries are no predicate. -/
def allOf (parts : List Predicate) : Option Predicate :=
  if parts.isEmpty then none else some (all parts)

/-- The group of members; no members are no predicate. -/
def groupOf (joiner : Joiner) (parts : List Predicate) : Option Predicate :=
  if parts.isEmpty then none else some (group joiner parts)

end Predicate

end TypedSql.Condition
