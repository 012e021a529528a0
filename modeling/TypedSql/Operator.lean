/-!
# Field operators

The closed vocabulary of operators on one field. Each has a canonical key; some have a second
spelling that is read as well.
-/

namespace TypedSql

/-- An operator on one field. -/
inductive Operator where
  | eq | ne | gt | gte | lt | lte | oneOf | notOneOf | like | notLike | ilike | between | isNull
  | notNull
deriving DecidableEq, Repr

namespace Operator

/-- Every operator, in declaration order. -/
def all : List Operator :=
  [eq, ne, gt, gte, lt, lte, oneOf, notOneOf, like, notLike, ilike, between, isNull, notNull]

/-- The canonical key of an operator. -/
def key : Operator → String
  | eq => "eq"
  | ne => "ne"
  | gt => "gt"
  | gte => "gte"
  | lt => "lt"
  | lte => "lte"
  | oneOf => "in"
  | notOneOf => "notIn"
  | like => "like"
  | notLike => "notLike"
  | ilike => "ilike"
  | between => "between"
  | isNull => "isNull"
  | notNull => "notNull"

/-- The name of an operator in displayed values. -/
def name : Operator → String
  | eq => "EQ"
  | ne => "NE"
  | gt => "GT"
  | gte => "GTE"
  | lt => "LT"
  | lte => "LTE"
  | oneOf => "IN"
  | notOneOf => "NOT_IN"
  | like => "LIKE"
  | notLike => "NOT_LIKE"
  | ilike => "ILIKE"
  | between => "BETWEEN"
  | isNull => "IS_NULL"
  | notNull => "NOT_NULL"

/-- The operator with a canonical key. -/
def ofKey? (key : String) : Option Operator := all.find? fun operator => operator.key = key

/-- The second spelling of some operators. -/
def ofAlias? : String → Option Operator
  | "in_" => some oneOf
  | "not_in" => some notOneOf
  | "not_like" => some notLike
  | "is_null" => some isNull
  | "not_null" => some notNull
  | _ => none

/-- The operator with a key in either spelling. -/
def read? (key : String) : Option Operator := (ofKey? key).or (ofAlias? key)

theorem ofKey?_key (operator : Operator) : ofKey? operator.key = some operator := by
  cases operator <;> decide

end Operator

end TypedSql
