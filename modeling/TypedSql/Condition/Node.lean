import TypedSql.Coercion
import TypedSql.Fault

/-!
# Nodes of condition trees

Making the nodes that conditions are built of: sets of operators on one field, raw SQL, and the
connectives. A set of operators is read from a map whose keys are operators in either spelling.
-/

namespace TypedSql.Condition

/-- The operator that a key of a map names. -/
def operatorOfKey? (key : Value) : Option Operator :=
  match key with
  | .operator known => some known
  | _ => key.asText?.bind Operator.read?

/-- Whether a value is the key of an operator. -/
def isOperatorKey (key : Value) : Bool := (key.asText?.bind Operator.read?).isSome

/-- Whether a value is a map with the key of an operator. -/
def looksLikeOperators (value : Value) : Bool :=
  value.asMap?.any fun entries => entries.any fun entry => isOperatorKey entry.1

/-- The operators of a map, for a field; a key that names none is refused. -/
def operatorsOf (field : Value) (entries : Entries) : Except Fault (List (Operator × Value)) :=
  entries.mapM fun (key, value) =>
    match operatorOfKey? key with
    | some known => .ok (known, value)
    | none => .error (.operatorUnknown key field)

/-- The set of operators that a map describes. -/
def operatorSet (description field : Value) : Except Fault Value :=
  match description with
  | .map entries => (operatorsOf field entries).map .operators
  | _ => .error (.breach .missingAttribute)

/-- The set of operators with named ones. -/
def operatorSetOfNamed (description : Value) : Except Fault Value :=
  match description with
  | .map entries =>
    if entries.all fun entry => entry.1.isText then operatorSet description .null
    else .error (.breach .badType)
  | _ => .error (.breach .badType)

/-- The set of a single operator. -/
def single (operator : Operator) (value : Value) : Value := .operators [(operator, value)]

/-- The operator that asks for a value between two others. -/
def between (low high : Value) : Value := single .between (.tuple [low, high])

/-- Raw SQL that stands for itself, with values that go along. -/
def raw [Coercion] (sql : Value) (values : List Value) : Except Fault Value :=
  match Coercion.text sql with
  | .ok text => .ok (.raw text values)
  | .error _ => .error (.breach .rejectedArgument)

/-- The condition that the function of a name makes of values: a connective, raw SQL, a test that
takes no value or two, or else an operator with its one value. -/
def apply [Coercion] (name : String) (values : List Value) : Except Fault Value :=
  match name, values with
  | "raw", sql :: values => raw sql values
  | "and_", _ => .ok (.conjunction values)
  | "or_", _ => .ok (.disjunction values)
  | "not_", [value] => .ok (.negation value)
  | "between", [low, high] => .ok (between low high)
  | "is_null", [] => .ok (single .isNull (.bool true))
  | "is_null", _ => .error (.breach .badType)
  | "is_not_null", [] => .ok (single .notNull (.bool true))
  | _, [value] =>
    match Operator.read? name with
    | some operator => .ok (single operator value)
    | none => .error (.breach .badType)
  | _, _ => .error (.breach .badType)

/-- Whether a value is a connective node. -/
def isConnective : Value → Bool
  | .conjunction _ | .disjunction _ | .negation _ => true
  | _ => false

/-- Two conditions that both hold, or the operators of two sets together. -/
def both (left right : Value) : Except Fault Value :=
  match left, right with
  | .operators first, .operators second => .ok (.operators (first ++ second))
  | _, _ =>
    if isConnective left then .ok (.conjunction [left, right])
    else
      match left with
      | .operators _ => .error (.breach .missingAttribute)
      | _ =>
        if isConnective right then .ok (.conjunction [left, right])
        else .error (.breach .badType)

/-- Two conditions of which one holds, or two maps put together. -/
def either (left right : Value) : Except Fault Value :=
  if isConnective left || isConnective right then .ok (.disjunction [left, right])
  else
    match left, right with
    | .map first, .map second => .ok (.map (Keyed.putAll first second))
    | _, _ => .error (.breach .badType)

/-- A condition that does not hold. -/
def negate (condition : Value) : Except Fault Value :=
  if isConnective condition then .ok (.negation condition) else .error (.breach .badType)

end TypedSql.Condition
