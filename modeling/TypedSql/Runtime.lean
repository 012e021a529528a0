import TypedSql.Column.Lenient
import TypedSql.Json.Reader
import TypedSql.Model.State

/-!
# The running program

What the program takes from around it when it runs: the lenient readings of typed fields, copies of
all values, and the part of the stack that is left for reading JSON.
-/

namespace TypedSql

instance : Coercion := Column.Lenient.coercion

instance : Copying where
  copies _ := true

instance : Json.Depth where
  limit := 988

end TypedSql
