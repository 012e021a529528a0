import TypedSql.Value.Record

/-!
# Equality of values

Values are equal across types where their meaning is: numbers and flags by amount, texts, kinds and
operators by their text, moments by their instant, maps whatever the order of their entries. Values
without a meaning of their own (NaNs, foreign values, members of enumerations) equal only
themselves, so two of them are equal exactly if they are taken to be shared.
-/

namespace TypedSql.Value

open TypedSql.Number

/-- Whether two values may be one and the same object. -/
inductive Sharing where
  | shared
  | distinct
deriving DecidableEq, Repr

/-- Whether two numbers are equal; a NaN only equals itself. -/
def sameNumber (sharing : Sharing) (left right : Decimal) : Bool :=
  left.compare? right = some .eq || (sharing = .shared && left = right)

/-- Equality of values that hold no other values. -/
def sameScalar (sharing : Sharing) (left right : Value) : Bool :=
  match left.asText?, right.asText? with
  | some first, some second => first = second
  | none, none =>
    match left.asNumber?, right.asNumber? with
    | some first, some second => sameNumber sharing first second
    | none, none =>
      match left, right with
      | null, null => true
      | moment first, moment second => first.order? second = some .eq
      | date first, date second => first = second
      | uuid first, uuid second => first = second
      | ipv4 first, ipv4 second => first = second
      | ipv6 first, ipv6 second => first = second
      | bytes first, bytes second => first = second
      | generator first, generator second => first.identity = second.identity
      | foreign first, foreign second => sharing = .shared && first = second
      | _, _ => false
    | _, _ => false
  | _, _ => false

mutual

/-- Equality of values. -/
def same (sharing : Sharing) : Value → Value → Bool
  | list first, list second => sameItems sharing first second
  | tuple first, tuple second => sameItems sharing first second
  | map first, map second =>
    first.length = second.length && includedIn sharing first second
  | member name value, member otherName other =>
    sharing = .shared && name = otherName && same sharing value other
  | conjunction first, conjunction second => sameItems sharing first second
  | disjunction first, disjunction second => sameItems sharing first second
  | negation first, negation second => same sharing first second
  | literal first, literal second => same sharing first second
  | operators first, operators second => sameOperators sharing first second
  | raw sql values, raw otherSql others => sql = otherSql && sameItems sharing values others
  | column settings default loose, column others other looseOthers =>
    settings.undimensioned = others.undimensioned && sameDefault sharing default other &&
      sameDimensions sharing [] loose (dimensionOf others looseOthers) &&
      Dimension.all.all fun dimension =>
        (loose.lookup dimension).isSome ||
          sameScalar sharing (dimensionOf settings [] dimension)
            (dimensionOf others looseOthers dimension)
  | columnDefault (.literal value), columnDefault (.literal other) => same sharing value other
  | columnDefault (.generator source), columnDefault (.generator other) =>
    source.identity = other.identity
  | report family message context, report otherFamily otherMessage otherContext =>
    sharing = .shared && family = otherFamily && same sharing message otherMessage &&
      same sharing context otherContext
  | exception name arguments, exception otherName others =>
    sharing = .shared && name = otherName && sameItems sharing arguments others
  | left, right => sameScalar sharing left right

/-- Equality of lists of values. -/
def sameItems (sharing : Sharing) : List Value → List Value → Bool
  | [], [] => true
  | first :: rest, second :: others => same sharing first second && sameItems sharing rest others
  | _, _ => false

/-- Equality of operators and their values. -/
def sameOperators (sharing : Sharing) :
    List (Operator × Value) → List (Operator × Value) → Bool
  | [], [] => true
  | (first, value) :: rest, (second, other) :: others =>
    first = second && same sharing value other && sameOperators sharing rest others
  | _, _ => false

/-- Equality of optional defaults. -/
def sameDefault (sharing : Sharing) :
    Option (Default Value) → Option (Default Value) → Bool
  | none, none => true
  | some (.literal value), some (.literal other) => same sharing value other
  | some (.generator source), some (.generator other) => source.identity = other.identity
  | _, _ => false

/-- Whether dimensions have the values that others have; the first value of a dimension counts. -/
def sameDimensions (sharing : Sharing) (seen : List Dimension) :
    List (Dimension × Value) → (Dimension → Value) → Bool
  | [], _ => true
  | (dimension, value) :: rest, others =>
    (seen.contains dimension || same sharing value (others dimension)) &&
      sameDimensions sharing (dimension :: seen) rest others

/-- Whether each entry of a map is an entry of another. -/
def includedIn (sharing : Sharing) : List (Value × Value) → List (Value × Value) → Bool
  | [], _ => true
  | (key, value) :: rest, others =>
    (others.any fun other => same sharing key other.1 && same sharing value other.2) &&
      includedIn sharing rest others

end

end TypedSql.Value
