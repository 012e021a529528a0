import TypedSql.Text.Split

/-!
# Text literals of SQL

A text literal stands between single quotes; a quote inside is written twice.
-/

namespace TypedSql.Text

/-- The literal of a text. -/
def quoteLiteral (text : String) : String :=
  String.ofList ('\'' :: replaceChar '\'' ['\'', '\''] text.toList ++ ['\''])

end TypedSql.Text
