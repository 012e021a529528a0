import TypedSql.Proofs.Value.Key

/-!
# Every value equals itself

Equality of shared values is reflexive, also for NaNs and values without a meaning of their own:
`same_self`. A map equals itself because each of its entries stands in it, a column because each of
its dimensions is the one that counts.
-/

namespace TypedSql.Value

open TypedSql.Number

section Parts

variable {entries others : List (Value × Value)}

/-- A map includes entries that are each found in it. -/
theorem includedIn_of_forall
    (h : ∀ entry ∈ entries, ∃ other ∈ others,
      same .shared entry.1 other.1 = true ∧ same .shared entry.2 other.2 = true) :
    includedIn .shared entries others = true := by
  induction entries with
  | nil => rw [includedIn]
  | cons entry rest ih =>
      obtain ⟨key, value⟩ := entry
      obtain ⟨other, hother, hkey, hvalue⟩ := h _ List.mem_cons_self
      rw [includedIn, ih fun entry hentry => h entry (List.mem_cons_of_mem _ hentry),
        Bool.and_true, List.any_eq_true]
      exact ⟨other, hother, by rw [hkey, hvalue]; rfl⟩

/-- Loose dimensions are those that others have exactly if the first value of each one is. -/
theorem sameDimensions_iff {sharing : Sharing} {seen : List Dimension}
    {loose : List (Dimension × Value)} {known : Dimension → Value} :
    sameDimensions sharing seen loose known = true ↔
      ∀ dimension ∉ seen, ∀ value, loose.lookup dimension = some value →
        same sharing value (known dimension) = true := by
  induction loose generalizing seen with
  | nil => simp [sameDimensions]
  | cons entry rest ih =>
      obtain ⟨first, value⟩ := entry
      have hfirst : (seen.contains first || same sharing value (known first)) = true ↔
          (first ∉ seen → same sharing value (known first) = true) := by
        rw [Bool.or_eq_true, List.contains_iff_mem, Decidable.or_iff_not_imp_left]
      rw [sameDimensions, Bool.and_eq_true, hfirst, ih]
      constructor
      · rintro ⟨hvalue, hrest⟩ dimension hunseen found hfound
        rw [List.lookup_cons] at hfound
        split at hfound
        · next heq =>
            cases hfound
            cases eq_of_beq heq
            exact hvalue hunseen
        · next hne =>
            refine hrest dimension ?_ found hfound
            rw [List.mem_cons, not_or]
            exact ⟨ne_of_beq_false hne, hunseen⟩
      · intro h
        refine ⟨fun hunseen => h first hunseen value (by simp), ?_⟩
        intro dimension hunseen found hfound
        rw [List.mem_cons, not_or] at hunseen
        refine h dimension hunseen.2 found ?_
        rw [List.lookup_cons, beq_false_of_ne hunseen.1]
        exact hfound

theorem sameNumber_self (number : Decimal) : sameNumber .shared number number = true := by
  simp [sameNumber]

/-- A whole number or null equals itself. -/
theorem sameScalar_ofOption_int (number : Option Int) :
    sameScalar .shared (ofOption int number) (ofOption int number) = true := by
  cases number with
  | none => simp [sameScalar, ofOption, asText?, asNumber?]
  | some number => simp [sameScalar, ofOption, asText?, asNumber?, sameNumber_self]

end Parts

mutual

/-- Every value equals itself. -/
theorem same_self : ∀ value : Value, same .shared value value = true
  | .null => by simp [same, sameScalar, asText?, asNumber?]
  | .bool _ => by simp [same, sameScalar, asText?, asNumber?, sameNumber_self]
  | .int _ => by simp [same, sameScalar, asText?, asNumber?, sameNumber_self]
  | .float _ => by simp [same, sameScalar, asText?, asNumber?, sameNumber_self]
  | .decimal _ => by simp [same, sameScalar, asText?, asNumber?, sameNumber_self]
  | .text _ => by simp [same, sameScalar, asText?]
  | .kind _ => by simp [same, sameScalar, asText?]
  | .operator _ => by simp [same, sameScalar, asText?]
  | .moment _ => by simp [same, sameScalar, asText?, asNumber?, Calendar.Moment.order?]
  | .date _ => by simp [same, sameScalar, asText?, asNumber?]
  | .uuid _ => by simp [same, sameScalar, asText?, asNumber?]
  | .ipv4 _ => by simp [same, sameScalar, asText?, asNumber?]
  | .ipv6 _ => by simp [same, sameScalar, asText?, asNumber?]
  | .bytes _ => by simp [same, sameScalar, asText?, asNumber?]
  | .foreign _ => by simp [same, sameScalar, asText?, asNumber?]
  | .generator _ => by simp [same, sameScalar, asText?, asNumber?]
  | .list items => by rw [same]; exact sameItems_self items
  | .tuple items => by rw [same]; exact sameItems_self items
  | .map entries => by
      have hincluded := includedIn_of_forall fun entry hentry =>
        ⟨entry, hentry, sameEntries_self entries entry hentry⟩
      rw [same, hincluded]
      simp
  | .member _ value => by simp [same, same_self value]
  | .conjunction conditions => by rw [same]; exact sameItems_self conditions
  | .disjunction conditions => by rw [same]; exact sameItems_self conditions
  | .negation condition => by rw [same]; exact same_self condition
  | .literal value => by rw [same]; exact same_self value
  | .operators entries => by rw [same]; exact sameOperators_self entries
  | .raw _ values => by simp [same, sameItems_self values]
  | .column settings default loose => by
      have hloose : sameDimensions .shared [] loose (dimensionOf settings loose) = true :=
        sameDimensions_iff.2 fun dimension _ value hvalue => by
          obtain ⟨before, behind, hloose, -⟩ := List.lookup_eq_some_iff.1 hvalue
          rw [dimensionOf, hvalue]
          exact sameLoose_self loose (dimension, value) (by simp [hloose])
      have hwhole : ∀ dimension, ((loose.lookup dimension).isSome ||
          sameScalar .shared (dimensionOf settings [] dimension)
            (dimensionOf settings loose dimension)) = true := by
        intro dimension
        cases hlookup : loose.lookup dimension with
        | some value => rfl
        | none => simp [dimensionOf, hlookup, sameScalar_ofOption_int]
      rw [same, sameDefault_self default, hloose,
        List.all_eq_true.2 fun dimension _ => hwhole dimension]
      simp
  | .columnDefault (.literal value) => by rw [same]; exact same_self value
  | .columnDefault (.generator _) => by simp [same]
  | .report _ message context => by simp [same, same_self message, same_self context]
  | .exception _ arguments => by simp [same, sameItems_self arguments]

/-- A list of values equals itself. -/
theorem sameItems_self : ∀ items : List Value, sameItems .shared items items = true
  | [] => by rw [sameItems]
  | item :: rest => by rw [sameItems, same_self item, sameItems_self rest]; rfl

/-- Operators and their values equal themselves. -/
theorem sameOperators_self :
    ∀ entries : List (Operator × Value), sameOperators .shared entries entries = true
  | [] => by rw [sameOperators]
  | (_, value) :: rest => by simp [sameOperators, same_self value, sameOperators_self rest]

/-- An optional default equals itself. -/
theorem sameDefault_self :
    ∀ default : Option (Default Value), sameDefault .shared default default = true
  | none => by rw [sameDefault]
  | some (.literal value) => by rw [sameDefault]; exact same_self value
  | some (.generator _) => by simp [sameDefault]

/-- Each loose dimension equals itself. -/
theorem sameLoose_self :
    ∀ loose : List (Dimension × Value), ∀ entry ∈ loose, same .shared entry.2 entry.2 = true
  | [], _, h => nomatch h
  | (_, value) :: rest, entry, h => by
      rcases List.mem_cons.1 h with rfl | hrest
      · exact same_self value
      · exact sameLoose_self rest entry hrest

/-- The key and the value of each entry equal themselves. -/
theorem sameEntries_self :
    ∀ entries : List (Value × Value), ∀ entry ∈ entries,
      same .shared entry.1 entry.1 = true ∧ same .shared entry.2 entry.2 = true
  | [], _, h => nomatch h
  | (key, value) :: rest, entry, h => by
      rcases List.mem_cons.1 h with rfl | hrest
      · exact ⟨same_self key, same_self value⟩
      · exact sameEntries_self rest entry hrest

end

end TypedSql.Value
