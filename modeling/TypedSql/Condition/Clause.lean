import TypedSql.Condition.Progress

/-!
# WHERE clauses

A clause is the written predicate of a condition and its parameters, numbered from a start. A
condition that stands for no predicate gives the clause that always holds; a clause with that text
is trivial.
-/

namespace TypedSql.Condition

open TypedSql.Sql

/-- A written predicate with its parameters. -/
structure Clause where
  sql : String
  parameters : List (String × Value)

namespace Clause

/-- Whether the text of a clause is the one that always holds. -/
def isTrivial (clause : Clause) : Bool := clause.sql = alwaysTrue

/-- The clause of pieces, numbered from a start. -/
def ofPieces (start : Start) (pieces : List Piece) : Clause :=
  { sql := Piece.render start.name 0 pieces
    parameters := start.gather (Piece.parameters start.name 0 pieces) }

/-- The clause of a predicate; none is the one that always holds. -/
def ofPredicate (start : Start) (predicate : Option Predicate) : Clause :=
  ofPieces start ((predicate.getD (.constant true)).pieces)

/-- The parameters as a map value. -/
def parameterMap (parameters : List (String × Value)) : Value :=
  .map (parameters.map fun (name, value) => (.text name, value))

/-- Whether two clauses have the same text and the same parameters. -/
def same (left right : Clause) : Bool :=
  left.sql = right.sql &&
    Value.same .shared (parameterMap left.parameters) (parameterMap right.parameters)

end Clause

/-- The clause of a condition, numbered from a start. A fault of the condition gives way to that of
the names of the parameters before it. -/
def compile (condition : Value) (start : Start) : Except Fault Clause :=
  match elaborate condition with
  | .ok predicate => do
    let clause := Clause.ofPredicate start predicate
    start.checkNames clause.parameters.length
    return clause
  | .error fault => do
    start.checkNames (progress condition).bound
    throw fault

/-- The clause of a condition, numbered from a value. -/
def compileFrom (condition start : Value) : Except Fault Clause :=
  compile condition (.ofValue start)

/-- The clause that a builder with a start of its own gives. A start that is given along with the
condition counts over that, unless it is null. -/
def buildFrom (own given condition : Value) : Except Fault Clause :=
  compileFrom condition (if given.isNull then own else given)

/-- The keys that a condition may have besides names: operators and connectives. -/
def reservedKeys : List String :=
  Operator.all.map Operator.key ++ ["and", "or", "not", "$and", "$or", "$not"]

/-- Checks that each key of a map is reserved or a name; other conditions pass. -/
def checkKeys (condition : Value) : Except Fault Unit :=
  match condition with
  | .map entries =>
    match entries.find? fun entry =>
      !(entry.1.asText?.any reservedKeys.contains || Identifier.isNameValue entry.1) with
    | some entry => .error (.conditionKeyInvalid entry.1 condition)
    | none => .ok ()
  | _ => .ok ()

end TypedSql.Condition
