import TypedSql.Proofs.Condition.Progress

/-!
# Conditions with a single key

A map with one key is a condition under a connective or the test of a column. `compile_key` says
which clause the test of a column has if its value is data; `head?_of_connective` and
`not_mem_parameters_of_operators` say that neither a connective nor a map of operators has it.
-/

namespace TypedSql

/-- Whether a value is data rather than a node that conditions are made of. -/
def Value.isData : Value → Bool
  | .literal _ | .operators _ | .raw _ _ => false
  | _ => true

namespace Condition

open TypedSql.Sql TypedSql.Outcome TypedSql.Statement Predicate

variable {key name : String} {value : Value}

section Fields

/-- The text of the test whether a key has a value. -/
def keyText (key : String) (value : Value) : String :=
  Identifier.backquoted key ++
    if value.isNull then " IS NULL"
    else " = " ++ placeholderOf "param0" (Wire.placeholderType value)

/-- The parameters of the test whether a key has a value. -/
def keyParameters (value : Value) : List (String × Value) :=
  if value.isNull then [] else [("param0", value)]

/-- The test whether a key has a value. -/
def keyTest (key : String) (value : Value) : Predicate :=
  if value.isNull then .isNull (Identifier.backquoted key) false
  else .compare (Identifier.backquoted key) "=" value

/-- The names that open a group or a negation. -/
def connectiveNames : List String := ["and", "or", "not"]

/-- Data that is no map with the key of an operator is tested for equality. -/
theorem ofField_of_isData (hkey : Identifier.isName key = true) (hdata : value.isData = true)
    (hlooks : looksLikeOperators value = false) :
    ofField (.text key) value = .ok (some (keyTest key value)) := by
  have hquote : Identifier.quote (.text key) = .ok (Identifier.backquoted key) :=
    Identifier.quote_eq_ok.2 ⟨hkey, rfl⟩
  unfold ofField
  rw [hquote]
  cases value with
  | literal | operators | raw => cases hdata
  | map entries =>
      show (if looksLikeOperators (.map entries) then _ else _) = _
      rw [hlooks]
      rfl
  | _ => rfl

/-- Bare values that are joined are bound in turn. -/
theorem values_join_ofValue (separator : String) (items : List Value) :
    Piece.values (Piece.join separator (items.map fun item => [.ofValue item])) = items := by
  induction items with
  | nil => rfl
  | cons item rest ih =>
      cases rest with
      | nil => rfl
      | cons next others => exact congrArg (item :: ·) ih

/-- What an operator binds is its operand or an item of it. -/
theorem values_ofOperator {field operand : Value} {operator : Operator} {predicate : Predicate}
    (h : ofOperator field name operator operand = .ok predicate) :
    ∀ bound ∈ Piece.values predicate.pieces,
      bound = operand ∨ ∃ items, operand.asItems? = some items ∧ bound ∈ items := by
  have hmembers : ∀ (negated : Bool) (items : List Value), operand.asItems? = some items →
      ∀ bound ∈ Piece.values (membership negated name items).pieces,
        bound = operand ∨ ∃ items, operand.asItems? = some items ∧ bound ∈ items := by
    intro negated items hitems bound hbound
    refine .inr ⟨items, hitems, ?_⟩
    unfold membership at hbound
    split at hbound
    · cases hbound
    · simpa [Predicate.pieces, values_join_ofValue, Piece.values] using hbound
  intro bound hbound
  cases operator with
  | eq | ne =>
      cases h
      split at hbound
      · cases hbound
      · exact .inl (List.mem_singleton.1 hbound)
  | gt | gte | lt | lte | like | notLike | ilike =>
      cases h
      exact .inl (List.mem_singleton.1 hbound)
  | oneOf | notOneOf =>
      unfold ofOperator at h
      simp only at h
      split at h
      · next items hitems =>
          cases h
          exact hmembers _ items hitems bound hbound
      · cases h
  | between =>
      unfold ofOperator at h
      simp only at h
      split at h
      · next low high hitems =>
          cases h
          refine .inr ⟨[low, high], hitems, ?_⟩
          simpa [Predicate.pieces, Piece.values] using hbound
      · cases h
  | isNull | notNull =>
      cases h
      cases hbound

theorem sizeOf_lt_of_asItems? {items : List Value} {item : Value}
    (hitems : value.asItems? = some items) (hitem : item ∈ items) : sizeOf item < sizeOf value := by
  have hlt := List.sizeOf_lt_of_mem hitem
  cases value with
  | list | tuple =>
      cases hitems
      simp only [Value.list.sizeOf_spec, Value.tuple.sizeOf_spec]
      omega
  | _ => cases hitems

/-- What a map of operators binds is a part of the map. -/
theorem sizeOf_lt_of_operators {entries : Entries} {predicate : Option Predicate}
    (hlooks : looksLikeOperators (.map entries) = true)
    (h : ofField (.text key) (.map entries) = .ok predicate) :
    ∀ bound ∈ Piece.values (predicate.getD (.constant true)).pieces,
      sizeOf bound < sizeOf (Value.map entries) := by
  simp only [ofField, bind_eq_ok] at h
  obtain ⟨name, -, h⟩ := h
  rw [if_pos hlooks, bind_eq_ok] at h
  obtain ⟨operators, hoperators, h⟩ := h
  simp only [ofOperators, bind_eq_ok, pure_eq_ok] at h
  obtain ⟨parts, hparts, rfl⟩ := h
  rw [operatorsOf_eq hoperators] at hparts
  intro bound hbound
  have hvalues : Piece.values ((allOf parts).getD (.constant true)).pieces = valuesOf parts := by
    cases parts with
    | nil => rfl
    | cons => exact values_join _ _
  rw [hvalues, valuesOf, List.mem_flatMap] at hbound
  obtain ⟨part, hpart, hbound⟩ := hbound
  obtain ⟨⟨operator, operand⟩, hentry, hpart⟩ := exists_of_mem_right (mapM_eq_ok_iff.1 hparts) hpart
  obtain ⟨⟨named, given⟩, hmem, hnamed⟩ := List.mem_filterMap.1 hentry
  obtain ⟨known, -, hknown⟩ := Option.map_eq_some_iff.1 hnamed
  cases hknown
  have hoperand : sizeOf operand < sizeOf (Value.map entries) := by
    have hlt := List.sizeOf_lt_of_mem hmem
    simp only [Prod.mk.sizeOf_spec, Value.map.sizeOf_spec] at hlt ⊢
    omega
  rcases values_ofOperator hpart bound hbound with rfl | ⟨items, hitems, hitem⟩
  · exact hoperand
  · exact Nat.lt_trans (sizeOf_lt_of_asItems? hitems hitem) hoperand

end Fields

section Elaboration

/-- Of the names only those three have a meaning of their own in a condition. -/
theorem connective?_eq_none_iff (hkey : Identifier.isName key = true) :
    connective? (.text key) = none ↔ key ∉ connectiveNames := by
  constructor
  · intro hnone hmem
    have hall : ∀ name ∈ connectiveNames, (connective? (.text name)).isSome = true := by decide
    have hsome := hall key hmem
    rw [hnone] at hsome
    cases hsome
  · intro hname
    refine List.lookup_eq_none_iff.2 fun entry hentry => bne_iff_ne.2 ?_
    rintro rfl
    have hall : ∀ entry ∈ connectiveKeys,
        entry.1 ∈ connectiveNames ∨ Identifier.isName entry.1 = false := by decide
    rcases hall entry hentry with hmem | hnot
    · exact hname hmem
    · exact Bool.false_ne_true (hnot.symm.trans hkey)

/-- A condition with one entry stands for what the entry does. -/
theorem elaborate_single (key value : Value) :
    elaborate (.map [(key, value)]) =
      (elaborateEntry key value).map fun first => allOf first.toList := by
  rw [elaborate, elaborateEntries_cons]
  cases elaborateEntry key value with
  | error fault => rfl
  | ok first => cases first <;> rfl

theorem elaborateEntry_field {key : Value} (h : connective? key = none) :
    elaborateEntry key value = ofField key value := by
  have hconnective := connective?_eq key
  rw [h] at hconnective
  unfold elaborateEntry
  cases hgroup : groupKey? key with
  | some joiner =>
      rw [hgroup] at hconnective
      cases hconnective
  | none =>
      rw [hgroup] at hconnective
      cases hnegation : isNegationKey key with
      | true =>
          rw [hnegation] at hconnective
          cases hconnective
      | false => rfl

/-- A condition under a connective does not begin with the name of a column. -/
theorem head?_of_connective {key : Value} {clause : Clause} (hkey : connective? key ≠ none)
    (h : compile (.map [(key, value)]) .zero = .ok clause) :
    clause.sql.toList.head? ≠ some '\x60' := by
  obtain ⟨predicate, helaborate, rfl, -⟩ := compile_eq_ok.1 h
  rw [elaborate_single, map_eq_ok] at helaborate
  obtain ⟨first, hfirst, rfl⟩ := helaborate
  have hfixed : ∀ (mark : Char) (chars : List Char) (rest : List Piece), mark ≠ '\x60' →
      (Piece.render Start.zero.name 0
        (.text (String.ofList (mark :: chars)) :: rest)).toList.head? ≠ some '\x60' := by
    intro mark chars rest hmark
    rw [Piece.render_text, String.toList_append, String.toList_ofList]
    simpa using hmark
  have hgroup : ∀ (joiner : Joiner) (parts : List Predicate),
      (Clause.ofPredicate .zero (allOf (groupOf joiner parts).toList)).sql.toList.head? ≠
        some '\x60' := by
    intro joiner parts
    cases parts with
    | nil => exact hfixed '1' ['=', '1'] [] (by decide)
    | cons part rest => exact hfixed '(' [] _ (by decide)
  cases elaborates_of_elaborateEntry hfirst with
  | list | tuple | single => exact hgroup _ _
  | @negation _ inner =>
      cases inner with
      | none => exact hfixed '1' ['=', '1'] [] (by decide)
      | some inner => exact hfixed 'N' ['O', 'T', ' ', '('] _ (by decide)
  | field hnone => exact absurd hnone hkey

/-- Under the name of a column, data that is no map with the key of an operator has the test of the
key as its clause. -/
theorem compile_key (hkey : Identifier.isName key = true) (hname : connective? (.text key) = none)
    (hdata : value.isData = true) (hlooks : looksLikeOperators value = false) :
    compile (.map [(.text key, value)]) .zero =
      .ok { sql := keyText key value, parameters := keyParameters value } := by
  have helaborate : elaborate (.map [(.text key, value)]) =
      .ok (some (.all [keyTest key value])) := by
    rw [elaborate_single, elaborateEntry_field hname, ofField_of_isData hkey hdata hlooks]
    rfl
  have hvalues : (Piece.values (Predicate.all [keyTest key value]).pieces).length ≤ 1 := by
    show (Piece.values (keyTest key value).pieces).length ≤ 1
    unfold keyTest
    split <;> simp [pieces, Piece.values]
  show compile _ (.number (0 : Nat)) = _
  refine (compile_number_iff helaborate).2 ⟨?_, .inr (le_mostValues (by omega))⟩
  show Clause.mk _ _ = Clause.ofPieces .zero (keyTest key value).pieces
  unfold keyTest keyText keyParameters
  cases value.isNull with
  | true =>
      have htext : " IS NULL" = " " ++ "IS NULL" := rfl
      simp [Clause.ofPieces, pieces, nullKeyword, Piece.parameters, Start.gather, Start.zero, htext,
        String.append_assoc]
  | false =>
      have hname : Start.zero.name 0 = "param0" := by decide
      have htext : " = " = " " ++ ("=" ++ " ") := rfl
      simp only [Bool.false_eq_true, if_false, Clause.ofPieces, pieces, Piece.render_text,
        Piece.render_ofValue, Piece.render_nil, hname, htext, String.append_assoc,
        String.append_empty]
      rfl

/-- A map of operators does not bind itself. -/
theorem not_mem_parameters_of_operators {entries : Entries} {clause : Clause}
    (hname : connective? (.text key) = none) (hlooks : looksLikeOperators (.map entries) = true)
    (h : compile (.map [(.text key, .map entries)]) .zero = .ok clause) (name : String) :
    (name, .map entries) ∉ clause.parameters := by
  obtain ⟨predicate, helaborate, rfl, -⟩ := compile_eq_ok.1 h
  rw [elaborate_single, elaborateEntry_field hname, map_eq_ok] at helaborate
  obtain ⟨first, hfirst, rfl⟩ := helaborate
  intro hmem
  have hbound : Value.map entries ∈ Piece.values (first.getD (.constant true)).pieces := by
    have hparameters := parameters_ofPieces 0
      (((allOf first.toList).getD (.constant true)).pieces)
    have hmem : Value.map entries ∈ (Clause.ofPredicate .zero (allOf first.toList)).parameters.map
        Prod.snd := List.mem_map_of_mem hmem
    rw [show (Clause.ofPredicate .zero (allOf first.toList)).parameters = _ from hparameters,
      map_snd_numbered] at hmem
    cases first <;> exact hmem
  exact Nat.lt_irrefl _ (sizeOf_lt_of_operators hlooks hfirst _ hbound)

end Elaboration

end Condition

end TypedSql
