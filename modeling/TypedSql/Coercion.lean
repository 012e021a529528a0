import TypedSql.Value.Basic

/-!
# Coercion

The fields of columns, options, raw conditions and query states are typed, and what is given for one
is read as a value of its type. A library does the reading: it is a parameter here, and a value that
it refuses is answered with the text of the problem. What holds of every such library is
`LawfulCoercion`; `WholeDimensions` says that it never gives a value of another type than the
field has.
-/

namespace TypedSql

/-- How values that are given for typed fields are read. -/
class Coercion where
  /-- The kind of a column. -/
  kind : Value → Except String Kind
  flag : Value → Except String Bool
  text : Value → Except String String
  /-- Several texts in order. -/
  texts : Value → Except String (List String)
  /-- Several values of any sort, in order. -/
  items : Value → Except String (List Value)
  /-- A whole number or null. What comes back is still a value, so that a library that lets other
  values pass is one of these as well. -/
  dimension : Value → Except String Value

namespace Coercion

/-- A field that null leaves empty. -/
def optional {α : Type} (read : Value → Except String α) (value : Value) :
    Except String (Option α) :=
  if value.isNull then .ok none else (read value).map some

end Coercion

/-- A value that has the type of the field already is read as itself, several texts one by one, and
what is read of a number for a dimension is a whole one. -/
class LawfulCoercion [Coercion] : Prop where
  kind_kind (known : Kind) : Coercion.kind (.kind known) = .ok known
  flag_bool (known : Bool) : Coercion.flag (.bool known) = .ok known
  text_text (chars : String) : Coercion.text (.text chars) = .ok chars
  texts_tuple (items : List Value) : Coercion.texts (.tuple items) = items.mapM Coercion.text
  dimension_null : Coercion.dimension .null = .ok .null
  dimension_int (number : Int) : Coercion.dimension (.int number) = .ok (.int number)
  int_of_number {value read : Value} (isNumber : value.asNumber?.isSome = true)
    (h : Coercion.dimension value = .ok read) : ∃ number, read = .int number

/-- What is read for a dimension is null or a whole number, as the type of the field says. -/
class WholeDimensions [Coercion] : Prop where
  eq_null_or_int {value read : Value} :
    Coercion.dimension value = .ok read → read = .null ∨ ∃ number, read = .int number

end TypedSql
