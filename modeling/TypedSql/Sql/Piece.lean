import TypedSql.Sql.Start
import TypedSql.Wire.Infer

/-!
# Pieces of statements

SQL text under construction: fixed text and bound values in the order they are written. Numbering
turns each bound value into a placeholder `\x7bparamN:Type\x7d` and collects the parameters; the
fixed text and the values do not depend on the numbers.
-/

namespace TypedSql.Sql

/-- Fixed text, or a value bound with the type of its placeholder. -/
inductive Piece where
  | text (chars : String)
  | bound (type : String) (value : Value)

/-- The placeholder of a parameter with a name. -/
def placeholderOf (name type : String) : String := "\x7b" ++ name ++ ":" ++ type ++ "\x7d"

namespace Piece

/-- A bare value with the type inferred for its placeholder. -/
def ofValue (value : Value) : Piece := bound (Wire.placeholderType value) value

/-- The values bound in pieces, in order. -/
def values : List Piece → List Value
  | [] => []
  | text _ :: rest => values rest
  | bound _ value :: rest => value :: values rest

/-- The text of each piece; a bound value shows the name that a numbering gives it. -/
def texts (name : Nat → String) : Nat → List Piece → List String
  | _, [] => []
  | distance, text chars :: rest => chars :: texts name distance rest
  | distance, bound type _ :: rest =>
    placeholderOf (name distance) type :: texts name (distance + 1) rest

/-- The text of pieces whose parameters have the names that a numbering gives. -/
def render (name : Nat → String) (distance : Nat) (pieces : List Piece) : String :=
  String.join (texts name distance pieces)

/-- The parameters of pieces, in order. -/
def parameters (name : Nat → String) : Nat → List Piece → List (String × Value)
  | _, [] => []
  | distance, text _ :: rest => parameters name distance rest
  | distance, bound _ value :: rest =>
    (name distance, value) :: parameters name (distance + 1) rest

/-- Pieces with a separator between every two lists of them. -/
def join (separator : String) : List (List Piece) → List Piece
  | [] => []
  | [pieces] => pieces
  | pieces :: rest => pieces ++ text separator :: join separator rest

end Piece

end TypedSql.Sql
