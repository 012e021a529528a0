import TypedSql.Condition.Node
import TypedSql.Condition.Predicate
import TypedSql.Identifier

/-!
# Elaboration of conditions

`elaborate` turns a condition, a map or a tree of nodes, into the predicate it stands for. Empty
parts vanish at every depth, so a condition may stand for no predicate at all. Elaboration finds
every fault of a condition; writing the predicate cannot fail.
-/

namespace TypedSql.Condition

open Predicate

/-- The group that a key of a condition opens. -/
def groupKey? (key : Value) : Option Joiner :=
  match key.asText? with
  | some "and" | some "$and" => some .and
  | some "or" | some "$or" => some .or
  | _ => none

/-- Whether a key of a condition opens a negation. -/
def isNegationKey (key : Value) : Bool :=
  match key.asText? with
  | some "not" | some "$not" => true
  | _ => false

/-- The membership test of a field; nothing is a member of an empty list. -/
def membership (negated : Bool) (name : String) (members : List Value) : Predicate :=
  if members.isEmpty then constant negated else within name negated members

/-- The predicate of one operator on a field with a quoted name. -/
def ofOperator (field : Value) (name : String) (operator : Operator) (value : Value) :
    Except Fault Predicate :=
  match operator with
  | .eq => .ok (if value.isNull then isNull name false else compare name "=" value)
  | .ne => .ok (if value.isNull then isNull name true else compare name "!=" value)
  | .gt => .ok (compare name ">" value)
  | .gte => .ok (compare name ">=" value)
  | .lt => .ok (compare name "<" value)
  | .lte => .ok (compare name "<=" value)
  | .like => .ok (compare name "LIKE" value)
  | .notLike => .ok (compare name "NOT LIKE" value)
  | .ilike => .ok (compare name "ILIKE" value)
  | .oneOf =>
    match value.asItems? with
    | some members => .ok (membership false name members)
    | none => .error (.membersNotList operator field value)
  | .notOneOf =>
    match value.asItems? with
    | some members => .ok (membership true name members)
    | none => .error (.membersNotList operator field value)
  | .between =>
    match value.asItems? with
    | some [low, high] => .ok (Predicate.between name low high)
    | _ => .error (.betweenNotPair field value)
  | .isNull => .ok (isNull name !value.isTruthy)
  | .notNull => .ok (isNull name value.isTruthy)

/-- The conjunction of several operators on a field. -/
def ofOperators (field : Value) (name : String) (operators : List (Operator × Value)) :
    Except Fault (Option Predicate) := do
  let parts ← operators.mapM fun (operator, value) => ofOperator field name operator value
  return allOf parts

/-- The predicate of one field entry of a map. -/
def ofField (field value : Value) : Except Fault (Option Predicate) := do
  let name ← Identifier.quote field
  match value with
  | .raw sql _ => return if sql.isEmpty then none else some (verbatim sql)
  | .null => return some (isNull name false)
  | .literal .null => return some (isNull name false)
  | .literal inner => return some (compare name "=" inner)
  | .operators operators => ofOperators field name operators
  | .map entries =>
    if looksLikeOperators value then ofOperators field name (← operatorsOf field entries)
    else return some (compare name "=" value)
  | _ => return some (compare name "=" value)

/-- The negation of a predicate, if there is one. -/
def negated (inner : Option Predicate) : Option Predicate := inner.map negation

/-- Whether a value is a single condition rather than a list of them. -/
def isSingle (value : Value) : Bool := isConnective value || value.asMap?.isSome

mutual

/-- The predicate that a condition stands for. -/
def elaborate : Value → Except Fault (Option Predicate)
  | .null => .ok none
  | .conjunction conditions => do return groupOf .and (← elaborateAll conditions)
  | .disjunction conditions => do return groupOf .or (← elaborateAll conditions)
  | .negation condition => do return negated (← elaborate condition)
  | .map entries => do return allOf (← elaborateEntries entries)
  | condition => .error (.conditionNotMapping condition)

/-- The predicates of several conditions, without those that are empty. -/
def elaborateAll : List Value → Except Fault (List Predicate)
  | [] => .ok []
  | condition :: rest => do
    let first ← elaborate condition
    return first.toList ++ (← elaborateAll rest)

/-- The predicates of the entries of a map, without those that are empty. -/
def elaborateEntries : List (Value × Value) → Except Fault (List Predicate)
  | [] => .ok []
  | (key, value) :: rest => do
    let first ←
      match groupKey? key with
      | some joiner =>
        match value with
        | .list conditions => (elaborateAll conditions).map (groupOf joiner)
        | .tuple conditions => (elaborateAll conditions).map (groupOf joiner)
        | other =>
          if isSingle other then (elaborate other).map fun inner => groupOf joiner inner.toList
          else .error (.groupNotList key other)
      | none =>
        if isNegationKey key then (elaborate value).map negated else ofField key value
    return first.toList ++ (← elaborateEntries rest)

end

end TypedSql.Condition
