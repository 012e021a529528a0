import TypedSql.Condition.Node
import TypedSql.Proofs.Sql.Formula

/-!
# Meaning of conditions

What a condition says about a row, apart from the text that it is written as. `meaning` gives the
truth of a condition under an assignment of truths to tests of columns: the entries of a map and the
operators of a field all have to hold, connectives join what is not empty, and a condition without
any part has no truth of its own.
-/

namespace TypedSql.Condition

open TypedSql.Sql

/-- The truths of the tests of columns and of raw SQL. -/
structure Assignment where
  test : Test → Bool
  raw : String → Bool

/-- The truth of several truths joined. -/
def joinTruths (joiner : Joiner) (truths : List Bool) : Bool :=
  match joiner with
  | .and => truths.all id
  | .or => truths.any id

/-- The truth of what is there to join; nothing has no truth. -/
def joinPresent (joiner : Joiner) (truths : List Bool) : Option Bool :=
  if truths.isEmpty then none else some (joinTruths joiner truths)

/-- What a key of a condition that is no field stands for. -/
inductive Connective where
  | joining (joiner : Joiner)
  | negating
deriving DecidableEq, Repr

/-- The keys that are connectives, in both spellings. -/
def connectiveKeys : List (String × Connective) :=
  [("and", .joining .and), ("$and", .joining .and), ("or", .joining .or), ("$or", .joining .or),
    ("not", .negating), ("$not", .negating)]

/-- The connective that a key stands for; every other key is a field. -/
def connective? (key : Value) : Option Connective :=
  key.asText?.bind fun text => connectiveKeys.lookup text

/-- The truth of a membership test; nothing is a member of an empty list. -/
def membershipMeaning (truth : Test → Bool) (column : String) (negated : Bool) :
    List Value → Bool
  | [] => negated
  | members => truth (.within column negated members)

/-- The truth of a comparison that tests for null where it is given null. -/
def equalityMeaning (truth : Test → Bool) (column comparison : String) (negated : Bool) :
    Value → Bool
  | .null => truth (.isNull column negated)
  | operand => truth (.compare column comparison operand)

/-- The truth of an operator on a column. An operand that the operator does not take makes it
false. -/
def operatorMeaning (truth : Test → Bool) (column : String) (operator : Operator)
    (operand : Value) : Bool :=
  match operator with
  | .eq => equalityMeaning truth column "=" false operand
  | .ne => equalityMeaning truth column "!=" true operand
  | .gt => truth (.compare column ">" operand)
  | .gte => truth (.compare column ">=" operand)
  | .lt => truth (.compare column "<" operand)
  | .lte => truth (.compare column "<=" operand)
  | .like => truth (.compare column "LIKE" operand)
  | .notLike => truth (.compare column "NOT LIKE" operand)
  | .ilike => truth (.compare column "ILIKE" operand)
  | .oneOf => operand.asItems?.any (membershipMeaning truth column false)
  | .notOneOf => operand.asItems?.any (membershipMeaning truth column true)
  | .between =>
    match operand.asItems? with
    | some [low, high] => truth (.between column low high)
    | _ => false
  | .isNull => truth (.isNull column !operand.isTruthy)
  | .notNull => truth (.isNull column operand.isTruthy)

/-- The truth of several operators on a column. -/
def operatorsMeaning (truth : Test → Bool) (column : String)
    (operators : List (Operator × Value)) : Option Bool :=
  joinPresent .and (operators.map fun (operator, operand) =>
    operatorMeaning truth column operator operand)

/-- The operators that the entries of a map name. -/
def namedOperators (entries : Entries) : List (Operator × Value) :=
  entries.filterMap fun (key, operand) => (operatorOfKey? key).map fun known => (known, operand)

/-- The truth of a field of a condition: raw SQL stands for itself, a map with an operator among its
keys and a set of operators apply them, and anything else is compared with the column. -/
def fieldMeaning (assignment : Assignment) (column : String) (value : Value) : Option Bool :=
  match value with
  | .raw sql _ => if sql.isEmpty then none else some (assignment.raw sql)
  | .literal inner => some (equalityMeaning assignment.test column "=" false inner)
  | .operators operators => operatorsMeaning assignment.test column operators
  | .map entries =>
    if looksLikeOperators value then
      operatorsMeaning assignment.test column (namedOperators entries)
    else some (equalityMeaning assignment.test column "=" false value)
  | _ => some (equalityMeaning assignment.test column "=" false value)

mutual

/-- The truth of a condition; an empty one has none. -/
def meaning (assignment : Assignment) : Value → Option Bool
  | .conjunction conditions => joinPresent .and (meanings assignment conditions)
  | .disjunction conditions => joinPresent .or (meanings assignment conditions)
  | .negation condition => (meaning assignment condition).map not
  | .map entries => joinPresent .and (entryMeanings assignment entries)
  | _ => none

/-- The truths of several conditions, without the empty ones. -/
def meanings (assignment : Assignment) : List Value → List Bool
  | [] => []
  | condition :: rest => (meaning assignment condition).toList ++ meanings assignment rest

/-- The truths of the entries of a map, without the empty ones. A connective takes a list or a
tuple of conditions or a single one. -/
def entryMeanings (assignment : Assignment) : List (Value × Value) → List Bool
  | [] => []
  | (key, value) :: rest =>
    let first :=
      match connective? key with
      | some (.joining joiner) =>
        match value with
        | .list conditions => joinPresent joiner (meanings assignment conditions)
        | .tuple conditions => joinPresent joiner (meanings assignment conditions)
        | condition => meaning assignment condition
      | some .negating => (meaning assignment value).map not
      | none => fieldMeaning assignment (Identifier.backquoted key.display) value
    first.toList ++ entryMeanings assignment rest

end

/-- The truth of one entry of a map. -/
def entryMeaning (assignment : Assignment) (key value : Value) : Option Bool :=
  match connective? key with
  | some (.joining joiner) =>
    match value with
    | .list conditions => joinPresent joiner (meanings assignment conditions)
    | .tuple conditions => joinPresent joiner (meanings assignment conditions)
    | condition => meaning assignment condition
  | some .negating => (meaning assignment value).map not
  | none => fieldMeaning assignment (Identifier.backquoted key.display) value

/-- The truths of a map are those of its entries, one after the other. -/
theorem entryMeanings_cons (assignment : Assignment) (key value : Value)
    (rest : List (Value × Value)) :
    entryMeanings assignment ((key, value) :: rest) =
      (entryMeaning assignment key value).toList ++ entryMeanings assignment rest := by
  rw [entryMeanings, entryMeaning]

/-- What a condition says about a row: a wholly empty one holds of every row. -/
def holdsUnder (assignment : Assignment) (condition : Value) : Bool :=
  (meaning assignment condition).getD true

mutual

/-- Whether all raw SQL of a condition is of a sort. -/
def EveryRaw (sort : String → Prop) : Value → Prop
  | .raw sql _ => sort sql
  | .conjunction conditions => EachRaw sort conditions
  | .disjunction conditions => EachRaw sort conditions
  | .negation condition => EveryRaw sort condition
  | .list conditions => EachRaw sort conditions
  | .tuple conditions => EachRaw sort conditions
  | .map entries => EntriesRaw sort entries
  | _ => True

/-- Whether all raw SQL of several conditions is of a sort. -/
def EachRaw (sort : String → Prop) : List Value → Prop
  | [] => True
  | condition :: rest => EveryRaw sort condition ∧ EachRaw sort rest

/-- Whether all raw SQL of the entries of a map is of a sort. -/
def EntriesRaw (sort : String → Prop) : List (Value × Value) → Prop
  | [] => True
  | (_, value) :: rest => EveryRaw sort value ∧ EntriesRaw sort rest

end

mutual

/-- Raw SQL of every sort is raw SQL. -/
theorem everyRaw_true (condition : Value) : EveryRaw (fun _ => True) condition := by
  cases condition with
  | conjunction conditions | disjunction conditions | list conditions | tuple conditions =>
      exact eachRaw_true conditions
  | negation inner => exact everyRaw_true inner
  | map entries => exact entriesRaw_true entries
  | _ => trivial

theorem eachRaw_true (conditions : List Value) : EachRaw (fun _ => True) conditions := by
  cases conditions with
  | nil => trivial
  | cons condition rest => exact ⟨everyRaw_true condition, eachRaw_true rest⟩

theorem entriesRaw_true (entries : List (Value × Value)) : EntriesRaw (fun _ => True) entries := by
  match entries with
  | [] => trivial
  | (_, value) :: rest => exact ⟨everyRaw_true value, entriesRaw_true rest⟩

end

/-- Whether a condition has no raw SQL in it. -/
def IsRawFree (condition : Value) : Prop := EveryRaw (fun _ => False) condition

end TypedSql.Condition
