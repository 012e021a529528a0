import TypedSql.Fault

/-!
# Numbers of parameters

Parameters are named `param` and a number that counts up from a start. A start is a number of any
sort: `plus` adds a distance to it at once, `after` adds one for one. Then a flag names the first
parameter by itself and counts as a number from the second on, and a number too large to be told
from the next one names all parameters alike. A start that is no number fails when it is counted
from.
-/

namespace TypedSql.Sql

open TypedSql.Number

/-- The name of a parameter. -/
def parameterName (index : String) : String := "param" ++ index

/-- The name of a parameter with a number. -/
def parameter (index : Int) : String := parameterName (toString index)

/-- Where the numbering of parameters starts. -/
inductive Start where
  | number (index : Int)
  | flag (index : Bool)
  | binary (index : Binary64)
  | decimal (index : Decimal)
  | invalid (breach : Breach)
deriving DecidableEq, Repr

namespace Start

/-- The start at zero. -/
def zero : Start := number 0

/-- The start that a value is; nothing can be added to a signaling NaN. -/
def ofValue : Value → Start
  | .int index => number index
  | .bool index => flag index
  | .float index => binary index
  | .decimal (.nan _ true _) => invalid .invalidDecimal
  | .decimal index => decimal index
  | _ => invalid .badType

/-- A start as a value; one that is no number has none. -/
def toValue : Start → Value
  | number index => .int index
  | flag index => .bool index
  | binary index => .float index
  | decimal index => .decimal index
  | invalid _ => .null

/-- Checks that a start is a number. -/
def check : Start → Except Fault Unit
  | invalid breach => .error (.breach breach)
  | _ => .ok ()

/-- A start and a number of parameters added up. -/
def plus (start : Start) (count : Nat) : Start :=
  match start with
  | number index => number (index + count)
  | flag index => number (index.toInt + count)
  | binary index => binary (index.plus count)
  | decimal index => decimal (index.plus count)
  | invalid breach => invalid breach

/-- The start behind a number of parameters, each of which adds one. -/
def after (start : Start) : (count : Nat) → Start
  | 0 => start
  | count + 1 => (start.after count).plus 1

/-- The name of the parameter at a start. -/
def parameterName (start : Start) : String := Sql.parameterName start.toValue.display

/-- The name of the parameter at a distance from the start. -/
def name (start : Start) (distance : Nat) : String :=
  match start with
  | number index => parameter (index + distance)
  | _ => (start.after distance).parameterName

/-- Checks that so many parameters from a start on have names: the number of a parameter must not
have too many digits. -/
def checkNames (start : Start) (count : Nat) : Except Fault Unit :=
  match start with
  | number index =>
    if count = 0 || (hasNumeral index && hasNumeral (index + count - 1)) then .ok ()
    else .error (.breach .badValue)
  | _ => if count = 0 then .ok () else start.check

/-- Puts a named value behind others; a name in use keeps its place. -/
def putNamed (named : List (String × Value)) (entry : String × Value) : List (String × Value) :=
  if named.any fun known => known.1 = entry.1 then
    named.map fun known => if known.1 = entry.1 then entry else known
  else named ++ [entry]

/-- Named values with every name only once; whole numbers do not name two parameters alike. -/
def gather (start : Start) (named : List (String × Value)) : List (String × Value) :=
  match start with
  | number _ => named
  | _ => named.foldl putNamed []

end Start

end TypedSql.Sql
