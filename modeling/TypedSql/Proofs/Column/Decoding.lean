import TypedSql.Proofs.Column.Enumeration

/-!
# Enumerations told by their types

The type of an enumeration tells all that it is made of: `enumerationOf?` reads the kind, whether
null is admitted and the members. So two enumerations have one type exactly if they agree in these,
whatever stands in their values: `enumeration_types_decode`.
-/

namespace TypedSql.Column

open TypedSql.Outcome

/-- What the type of an enumeration tells. -/
structure Enumeration where
  kind : Kind
  nullable : Bool
  members : List Member
deriving DecidableEq, Repr

/-- The kind that is named up to the first parenthesis, and the text behind that. -/
def headOf? (text : List Char) : Option (Kind × List Char) :=
  (Kind.ofName? (String.ofList (text.takeWhile (· ≠ '(')))).map fun kind =>
    (kind, (text.dropWhile (· ≠ '(')).tail)

/-- The enumeration that a type describes. An enumeration that admits null stands inside of another
type. -/
def enumerationOf? (type : String) : Option Enumeration := do
  let (outer, inside) ← headOf? type.toList
  if outer = .nullable then
    let (kind, _) ← headOf? inside
    return ⟨kind, true, membersOf type⟩
  else return ⟨outer, false, membersOf type⟩

/-- The kind of a type around parameters is read, and the parameters stand behind it. -/
theorem headOf?_applyType (kind : Kind) (parameters : List String) (rest : List Char) :
    headOf? ((applyType kind.name parameters).toList ++ rest) =
      some (kind, (Value.commaSeparated parameters).toList ++ ')' :: rest) := by
  have hopening : '(' ∉ kind.name.toList := by
    cases kind <;> decide
  have hname : ∀ c ∈ kind.name.toList, decide (c ≠ '(') = true := by
    intro c hc
    refine decide_eq_true ?_
    rintro rfl
    exact hopening hc
  have htext : (applyType kind.name parameters).toList ++ rest =
      kind.name.toList ++ '(' :: ((Value.commaSeparated parameters).toList ++ ')' :: rest) := by
    simp [applyType, Value.applied, String.toList_append]
  rw [htext, headOf?, List.takeWhile_append_of_pos hname, List.dropWhile_append_of_pos hname]
  simp [Kind.ofName?_name]

/-- The type of an enumeration column is made of its kind, of its values and of whether it admits
null. -/
theorem typeText_of_isEnum {column : Column} {values : List String} {type : String}
    (henum : column.kind.isEnum = true) (hvalues : column.enumValues = some values)
    (h : column.typeText = .ok type) :
    type = if column.nullable then
        nullableText (applyType column.kind.name (enumMembers values))
      else applyType column.kind.name (enumMembers values) := by
  obtain ⟨bare, hbare, rfl⟩ := map_eq_ok.1 h
  obtain ⟨known, hknown, -, rfl⟩ := bareType_of_isEnum henum hbare
  rw [Option.some.inj (hknown.symm.trans hvalues)]

/-- The type of an enumeration column is read as its kind, whether it admits null, and its values in
their places, counted from one. -/
theorem enumerationOf?_typeText {column : Column} {values : List String} {type : String}
    (henum : column.kind.isEnum = true) (hvalues : column.enumValues = some values)
    (h : column.typeText = .ok type) :
    enumerationOf? type = some ⟨column.kind, column.nullable, values.zipIdx 1⟩ := by
  have hkind : column.kind ≠ .nullable := by
    intro hnullable
    rw [hnullable] at henum
    cases henum
  rw [enumerationOf?, membersOf_typeText henum hvalues h, typeText_of_isEnum henum hvalues h]
  cases hnullable : column.nullable with
  | false =>
      have hhead := headOf?_applyType column.kind (enumMembers values) []
      rw [List.append_nil] at hhead
      simp [hhead, hkind]
  | true =>
      -- the type of the enumeration is the one parameter of the type that admits null
      have houter :=
        headOf?_applyType .nullable [applyType column.kind.name (enumMembers values)] []
      have hinner := headOf?_applyType column.kind (enumMembers values) [')']
      rw [List.append_nil, Value.commaSeparated_singleton] at houter
      simp [nullableText, houter, hinner]

/-- `Describes type column values` says that a column has the values, that the text is its type, and
that the text is read as the kind of the column, whether it admits null, and the values in their
places from one on. -/
structure Describes (type : String) (column : Column) (values : List String) : Prop where
  given : column.enumValues = some values
  rendered : column.typeText = .ok type
  reads : enumerationOf? type = some ⟨column.kind, column.nullable, values.zipIdx 1⟩

/-- An enumeration column that passes has a type that describes it. -/
theorem exists_describes {column : Column} {name : Value} (henum : column.kind.isEnum = true)
    (h : column.check name = .ok ()) : ∃ type values, Describes type column values := by
  obtain ⟨values, type, hnumbers⟩ := exists_numbers henum h
  exact ⟨type, values, hnumbers.given, hnumbers.rendered,
    enumerationOf?_typeText henum hnumbers.given hnumbers.rendered⟩

/-- Two enumeration columns that pass have the same type exactly if they are of the same kind, both
admit null or neither does, and they have the same values in the same order. Their types are read as
just this, each value with its place. -/
theorem enumeration_types_decode {left right : Column} {name other : Value}
    (hleft : left.kind.isEnum = true) (hright : right.kind.isEnum = true)
    (hfirst : left.check name = .ok ()) (hsecond : right.check other = .ok ()) :
    ∃ first second values others,
      Describes first left values ∧ Describes second right others ∧
        (first = second ↔
          left.kind = right.kind ∧ left.nullable = right.nullable ∧ values = others) := by
  obtain ⟨first, values, hvalues⟩ := exists_describes hleft hfirst
  obtain ⟨second, others, hothers⟩ := exists_describes hright hsecond
  refine ⟨first, second, values, others, hvalues, hothers, ?_, ?_⟩
  · rintro rfl
    have hsame := Option.some.inj (hvalues.reads.symm.trans hothers.reads)
    rw [Enumeration.mk.injEq] at hsame
    obtain ⟨hkind, hnullable, hmembers⟩ := hsame
    have hnames := congrArg (List.map Prod.fst) hmembers
    rw [List.zipIdx_map_fst, List.zipIdx_map_fst] at hnames
    exact ⟨hkind, hnullable, hnames⟩
  · rintro ⟨hkind, hnullable, rfl⟩
    rw [typeText_of_isEnum hleft hvalues.given hvalues.rendered, hkind, hnullable]
    exact (typeText_of_isEnum hright hothers.given hothers.rendered).symm

/-- Two values. -/
def parted : Column := { kind := .enum8, enumValues := some ["a", "b"] }

/-- One value that shows what stands between two members. -/
def joined : Column := { kind := .enum8, enumValues := some ["a' = 1, 'b"] }

/-- A value that looks like two members is told from two values. -/
theorem joined_not_parted :
    parted.check (.text "e") = .ok () ∧ joined.check (.text "e") = .ok () ∧
      ∃ first second, parted.typeText = .ok first ∧ joined.typeText = .ok second ∧
        first ≠ second ∧ membersOf second = [("a' = 1, 'b", 1)] := by
  have hparted : parted.check (.text "e") = .ok () := by rfl
  have hjoined : joined.check (.text "e") = .ok () := by rfl
  have henums : parted.kind.isEnum = true ∧ joined.kind.isEnum = true := ⟨rfl, rfl⟩
  obtain ⟨first, second, values, others, hfirst, hsecond, hiff⟩ :=
    enumeration_types_decode henums.1 henums.2 hparted hjoined
  obtain rfl : ["a", "b"] = values := Option.some.inj hfirst.given
  obtain rfl : ["a' = 1, 'b"] = others := Option.some.inj hsecond.given
  refine ⟨hparted, hjoined, first, second, hfirst.rendered, hsecond.rendered, ?_, ?_⟩
  · intro hsame
    exact absurd (hiff.1 hsame).2.2 (by decide)
  · exact membersOf_typeText rfl rfl hsecond.rendered

end TypedSql.Column
