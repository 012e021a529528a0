import TypedSql.Identifier
import TypedSql.Value.Order

/-!
# Rules for columns

The requirements of each kind on the settings of a column, and those on keys. `check` reports the
first requirement that a column breaks.
-/

namespace TypedSql.Column

/-- Whether a dimension is present and positive. -/
def isPositive (dimension : Value) : Except Fault Bool := do
  if dimension.isTruthy then return !(← dimension.isAtMost (.int 0)) else return false

/-- Whether the scale, where it is given, lies between zero and the precision. -/
def scaleFits (column : Column) : Except Fault Bool := do
  let scale := column.dimension .scale
  if scale.isNull then return true
  else if ← Value.isAtMost (.int 0) scale then scale.isAtMost (column.dimension .precision)
  else return false

/-- Checks the requirements of an enumeration kind. -/
def enumRule? (settings : ColumnSettings) (limit : Nat) : Option ColumnRule :=
  match settings.enumValues with
  | none | some [] => some .enumValues
  | some values => if limit < values.length then some (.enumLimit settings.kind limit) else none

/-- The requirement of its kind that a column breaks. Dimensions that are no numbers are breaches.
-/
def kindRule (column : Column) : Except Fault (Option ColumnRule) := do
  match column.kind with
  | .fixedString =>
    if ← isPositive (column.dimension .length) then return none else return some .positiveLength
  | .decimal =>
    if !(← isPositive (column.dimension .precision)) then return some .positivePrecision
    else if ← scaleFits column then return none
    else return some .scaleWithinPrecision
  | .array | .lowCardinality | .nullable =>
    return if column.elementKind.isSome then none else some (.elementKind column.kind)
  | .enum8 | .enum16 => return column.kind.enumLimit?.bind (enumRule? column.toColumnSettings)
  | _ => return none

/-- The requirement on keys that a column breaks. -/
def keyRule? (settings : ColumnSettings) : Option ColumnRule :=
  if settings.primaryKey && settings.nullable then some .primaryKeyNotNullable
  else if settings.autoIncrement && !settings.kind.isInteger then
    some (.autoIncrementInteger settings.kind)
  else none

/-- The first requirement that a column breaks. -/
def brokenRule (column : Column) : Except Fault (Option ColumnRule) := do
  return (← kindRule column).or (keyRule? column.toColumnSettings)

/-- Checks a column under a name. -/
def check (name : Value) (column : Column) : Except Fault Unit :=
  if !Identifier.isNameValue name then .error (.fieldNameInvalid name)
  else do
    match ← brokenRule column with
    | some rule => throw (.columnRuleBroken name rule)
    | none => return ()

end TypedSql.Column
