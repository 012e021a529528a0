import TypedSql.Kind

/-!
# Column settings

What a column declares about itself, apart from its default value, and the two flavours of default:
a literal, and a generator that is asked for a value each time one is needed. The settings that are
numbers are its dimensions.
-/

namespace TypedSql

/-- A setting of a column that is a number. -/
inductive Dimension where
  | precision
  | scale
  | length
deriving DecidableEq, Repr

/-- Every dimension, in declaration order. -/
def Dimension.all : List Dimension := [precision, scale, length]

/-- The declared properties of a column. -/
structure ColumnSettings where
  kind : Kind
  nullable : Bool := false
  primaryKey : Bool := false
  unique : Bool := false
  autoIncrement : Bool := false
  comment : Option String := none
  elementKind : Option Kind := none
  precision : Option Int := none
  scale : Option Int := none
  length : Option Int := none
  enumValues : Option (List String) := none
deriving DecidableEq, Repr

namespace ColumnSettings

/-- A dimension of a column, if it has one. -/
def dimension? (settings : ColumnSettings) : Dimension → Option Int
  | .precision => settings.precision
  | .scale => settings.scale
  | .length => settings.length

/-- The kind and the flags of a column. -/
def flags (settings : ColumnSettings) : Kind × Bool × Bool × Bool × Bool :=
  (settings.kind, settings.nullable, settings.primaryKey, settings.unique, settings.autoIncrement)

/-- The settings that are no dimensions. -/
def undimensioned (settings : ColumnSettings) : ColumnSettings :=
  { settings with precision := none, scale := none, length := none }

end ColumnSettings

/-- How a generator makes its values: the same one each time, or the numbers of a progression. -/
inductive Yield (α : Type) where
  | always (value : α)
  | progression (start step : Int)
deriving Repr

/-- A generator. Two generators are the same exactly if their identities agree. -/
structure Generator (α : Type) where
  identity : Nat
  yield : Yield α
deriving Repr

/-- The default of a column. -/
inductive Default (α : Type) where
  | literal (value : α)
  | generator (source : Generator α)
deriving Repr

/-- The name of a flavour of default. -/
def Default.flavour {α : Type} : Default α → String
  | .literal _ => "literal"
  | .generator _ => "generator"

end TypedSql
