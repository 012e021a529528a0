import TypedSql.Value.Equality

/-!
# Keys

Values that never change can be keys: scalars, tuples and records of such values. Lists and maps
cannot, nor can a signaling NaN. `Keyed` holds things under keys in order of their first use.
-/

namespace TypedSql.Value

/-- Whether two values are the same key of a map. -/
def isKey (key other : Value) : Bool := same .distinct key other

mutual

/-- Whether a value can be a key. -/
def canBeKey : Value → Bool
  | list _ => false
  | map _ => false
  | decimal (.nan _ signaling _) => !signaling
  | tuple items => allCanBeKeys items
  | conjunction conditions => allCanBeKeys conditions
  | disjunction conditions => allCanBeKeys conditions
  | negation condition => canBeKey condition
  | literal value => canBeKey value
  | operators entries => operandsCanBeKeys entries
  | raw _ values => allCanBeKeys values
  | column _ (some (.literal value)) loose => canBeKey value && dimensionsCanBeKeys loose
  | column _ _ loose => dimensionsCanBeKeys loose
  | columnDefault (.literal value) => canBeKey value
  | _ => true

/-- Whether all of some values can be keys. -/
def allCanBeKeys : List Value → Bool
  | [] => true
  | value :: rest => canBeKey value && allCanBeKeys rest

/-- Whether the values of all operators can be keys. -/
def operandsCanBeKeys : List (Operator × Value) → Bool
  | [] => true
  | (_, value) :: rest => canBeKey value && operandsCanBeKeys rest

/-- Whether all loose dimensions can be keys. -/
def dimensionsCanBeKeys : List (Dimension × Value) → Bool
  | [] => true
  | (_, value) :: rest => canBeKey value && dimensionsCanBeKeys rest

end

end TypedSql.Value

namespace TypedSql

/-- Things under keys, in order of the first use of each key. -/
abbrev Keyed (α : Type) := List (Value × α)

namespace Keyed

variable {α : Type}

/-- The thing under a key. -/
def get? (entries : Keyed α) (key : Value) : Option α :=
  (entries.find? fun entry => entry.1.isKey key).map Prod.snd

/-- Whether a key is in use. -/
def has (entries : Keyed α) (key : Value) : Bool := entries.any fun entry => entry.1.isKey key

/-- Puts a thing under a key. A key in use keeps its place. -/
def put (entries : Keyed α) (key : Value) (item : α) : Keyed α :=
  if entries.has key then
    entries.map fun entry => if entry.1.isKey key then (entry.1, item) else entry
  else entries ++ [(key, item)]

/-- The entries of a list of pairs; of two pairs with one key the later one counts. -/
def ofPairs (pairs : List (Value × α)) : Keyed α :=
  pairs.foldl (fun entries pair => entries.put pair.1 pair.2) []

/-- The entries of a list of pairs, if all keys of the pairs can be keys. -/
def ofPairs? (pairs : List (Value × α)) : Option (Keyed α) :=
  if pairs.all fun pair => pair.1.canBeKey then some (ofPairs pairs) else none

/-- The entries with those of another collection put over them. -/
def putAll (entries changes : Keyed α) : Keyed α :=
  changes.foldl (fun entries pair => entries.put pair.1 pair.2) entries

/-- The thing under a text key. -/
def at? (entries : Keyed α) (key : String) : Option α :=
  (entries.find? fun entry => entry.1.asText? = some key).map Prod.snd

end Keyed

end TypedSql
