import TypedSql.Value.Key

/-!
# Columns

A column is its settings and an optional default. What has been read for a dimension and is neither
a whole number nor null is kept as it is, loose beside the settings. Columns are values too:
`toValue` is the value of a column, `same` compares columns as such.
-/

namespace TypedSql

/-- A column definition. -/
structure Column extends ColumnSettings where
  default : Option (Default Value) := none
  loose : List (Dimension × Value) := []

namespace Column

/-- A column as a value. -/
def toValue (column : Column) : Value :=
  .column column.toColumnSettings column.default column.loose

/-- A dimension of a column; null if the column has none. -/
def dimension (column : Column) (dimension : Dimension) : Value :=
  Value.dimensionOf column.toColumnSettings column.loose dimension

/-- A dimension that is not loose is the whole number that the column has, if it has one. -/
theorem dimension_of_loose_eq_nil {column : Column} (h : column.loose = [])
    (dimension : Dimension) :
    column.dimension dimension = .ofOption .int (column.dimension? dimension) := by
  rw [Column.dimension, Value.dimensionOf, h]
  rfl

/-- Whether a column declares a default. -/
def hasDefault (column : Column) : Bool := column.default.isSome

/-- Whether two columns are equal; generators are equal only to themselves. -/
def same (left right : Column) : Bool := Value.same .shared left.toValue right.toValue

end Column

end TypedSql
