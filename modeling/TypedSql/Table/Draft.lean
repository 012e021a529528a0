import TypedSql.Table.Derive

/-!
# Drafts of tables

A draft collects columns one by one, each checked when it is added, and is built into a table under
a name.
-/

namespace TypedSql

/-- The columns of a table that has no name yet. -/
structure Draft where
  columns : Keyed Column := []

namespace Draft

/-- The draft with a column put under a name. -/
def column [Coercion] (draft : Draft) (name definition : Value) : Except Fault Draft := do
  let column ← Column.ofDefinition definition name
  column.check name
  return { columns := draft.columns.put name column }

/-- The definition with a kind set over other settings. -/
def withKind (settings : Entries) (kind : Kind) : Value :=
  .map (Keyed.put settings (.text "type") (.kind kind))

/-- The kind that a short name stands for. -/
def kindOf? : String → Option Kind
  | "int" => some .int32
  | "uint" => some .uint32
  | "bigint" => some .int64
  | "float" => some .float64
  | "string" => some .string
  | "boolean" => some .boolean
  | "date" => some .date
  | "datetime" => some .dateTime
  | "uuid" => some .uuid
  | "json" => some .json
  | _ => none

/-- The draft with a column of a kind. -/
def typed [Coercion] (draft : Draft) (name : Value) (kind : Kind) (settings : Entries) :
    Except Fault Draft :=
  draft.column name (withKind settings kind)

/-- The draft with an array column of an element kind. -/
def array [Coercion] (draft : Draft) (name elementKind : Value) (settings : Entries) :
    Except Fault Draft :=
  draft.typed name .array (Keyed.put settings (.text "element_type") elementKind)

/-- The smallest enumeration kind for a number of values. -/
def enumKind (count : Nat) : Kind := if count ≤ 256 then .enum8 else .enum16

/-- The draft with an enumeration column. -/
def enumeration [Coercion] (draft : Draft) (name values : Value) (settings : Entries) :
    Except Fault Draft :=
  match values.elements? with
  | some items =>
    draft.typed name (enumKind items.length)
      (Keyed.put settings (.text "enum_values") (.tuple items))
  | none => .error (.breach .badType)

/-- The table of a draft under a name. -/
def build [Coercion] (draft : Draft) (name : Value) : Except Fault Table :=
  Table.ofColumns name draft.columns

end Draft

/-- The column of a kind with further settings, under no name. Settings have texts as names, and the
kind is none of them. -/
def Column.ofKind [Coercion] (kind settings : Value) : Except Fault Column := do
  let settings ← Table.optionalEntries settings
  if !settings.all fun entry => entry.1.isText then throw (.breach .badType)
  if (Keyed.at? settings "type").isSome then throw (.breach .badType)
  Column.ofDefinition (.map (Keyed.put settings (.text "type") kind)) .null

end TypedSql
