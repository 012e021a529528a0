import TypedSql.Proofs.Condition.Progress
import TypedSql.Proofs.Condition.Trivial

/-!
# Clauses from another start

Where the numbering of the parameters starts shows in nothing but their names: `ShiftedBy` says that
a clause has the text of another one with the number in each placeholder raised, and its values in
the same order under the raised names. A condition without raw SQL is compiled so from every later
start, or is refused alike, unless the numbers of the parameters get too long in between:
`compile_shift_iff`.
-/

namespace TypedSql.Condition

open TypedSql.Sql TypedSql.Outcome TypedSql.Identifier TypedSql.Statement

/-- The number in the name of a parameter. -/
def numberOf? (name : String) : Option Nat := do
  let digits ← "param".toList.isPrefixOf? name.toList
  if !digits.isEmpty && digits.all Char.isDigit then some (Nat.ofDigitChars 10 digits 0) else none

/-- The name of a parameter with its number raised; any other name is kept. -/
def raisedName (count : Nat) (name : String) : String :=
  match numberOf? name with
  | some index => parameter ((index + count : Nat) : Int)
  | none => name

/-- What stands between the braces of a placeholder, with the number in its name raised. -/
def raisedSlot (count : Nat) (chars : List Char) : List Char :=
  (raisedName count (String.ofList (chars.takeWhile (· ≠ ':')))).toList ++
    chars.dropWhile (· ≠ ':')

/-- Characters with the numbers in the placeholders raised and nothing else changed. What has been
read since an opening brace is kept until the brace is closed. -/
def raiseSlots (count : Nat) : Option (List Char) → List Char → List Char
  | none, [] => []
  | some chars, [] => '\x7b' :: chars
  | none, c :: rest =>
    if c = '\x7b' then raiseSlots count (some []) rest else c :: raiseSlots count none rest
  | some chars, c :: rest =>
    if c = '\x7d' then
      '\x7b' :: raisedSlot count chars ++ '\x7d' :: raiseSlots count none rest
    else raiseSlots count (some (chars ++ [c])) rest

/-- A text with the numbers in its placeholders raised and nothing else changed. -/
def raised (count : Nat) (sql : String) : String :=
  String.ofList (raiseSlots count none sql.toList)

/-- `ShiftedBy count clause other` says that the numbers in the placeholders and in the names of the
parameters of a clause are raised, and nothing else is changed. -/
structure ShiftedBy (count : Nat) (clause other : Clause) : Prop where
  sql : other.sql = raised count clause.sql
  parameters : other.parameters =
    clause.parameters.map fun (name, value) => (raisedName count name, value)
  isTrivial : other.isTrivial = clause.isTrivial

/-- `Shifted count first second` says that both outcomes are clauses, the second one shifted, or
both are the same fault. -/
inductive Shifted (count : Nat) : Except Fault Clause → Except Fault Clause → Prop
  | ok {clause other : Clause} (h : ShiftedBy count clause other) :
      Shifted count (.ok clause) (.ok other)
  | error (fault : Fault) : Shifted count (.error fault) (.error fault)

section Texts

variable {count : Nat}

/-- The number of a parameter stands in its name. -/
theorem numberOf?_parameter (index : Nat) : numberOf? (parameter (index : Int)) = some index := by
  have hdigits : "param".toList.isPrefixOf? (parameter (index : Int)).toList =
      some (Nat.toDigits 10 index) := by
    rw [parameter, parameterName, String.toList_append,
      show toString (index : Int) = index.repr from rfl, Nat.toList_repr]
    rfl
  have hnumeral : (!(Nat.toDigits 10 index).isEmpty &&
      (Nat.toDigits 10 index).all Char.isDigit) = true := by
    rw [Bool.and_eq_true, List.all_eq_true]
    refine ⟨by simp [Nat.toDigits_ne_nil], fun c hc => ?_⟩
    exact Nat.isDigit_of_mem_toDigits (by omega) (by omega) hc
  rw [numberOf?, hdigits, Option.bind_eq_bind, Option.bind_some, if_pos hnumeral,
    Nat.ofDigitChars_ten_toDigits]

theorem raisedName_parameter (index : Nat) :
    raisedName count (parameter (index : Int)) = parameter ((index + count : Nat) : Int) := by
  rw [raisedName, numberOf?_parameter]

/-- Text without an opening brace is kept. -/
theorem raiseSlots_plain {chars : List Char} (h : '\x7b' ∉ chars) (rest : List Char) :
    raiseSlots count none (chars ++ rest) = chars ++ raiseSlots count none rest := by
  induction chars with
  | nil => rfl
  | cons c others ih =>
      simp only [List.mem_cons, not_or] at h
      simp [raiseSlots, Ne.symm h.1, ih h.2]

/-- A placeholder is changed as a whole, up to its closing brace. -/
theorem raiseSlots_inside {chars : List Char} (h : '\x7d' ∉ chars) (read rest : List Char) :
    raiseSlots count (some read) (chars ++ '\x7d' :: rest) =
      '\x7b' :: raisedSlot count (read ++ chars) ++ '\x7d' :: raiseSlots count none rest := by
  induction chars generalizing read with
  | nil => simp [raiseSlots]
  | cons c others ih =>
      simp only [List.mem_cons, not_or] at h
      simp [raiseSlots, Ne.symm h.1, ih h.2]

/-- The name of a numbered parameter is raised in front of the type. -/
theorem raisedSlot_parameter (index : Nat) (type : List Char) :
    raisedSlot count ((parameter (index : Int)).toList ++ ':' :: type) =
      (parameter ((index + count : Nat) : Int)).toList ++ ':' :: type := by
  have hcolon : ':' ∉ (parameter (index : Int)).toList :=
    not_mem_parameter (by decide) (by decide) _
  have hname : ∀ c ∈ (parameter (index : Int)).toList, decide (c ≠ ':') = true := by
    intro c hc
    simpa using ne_of_mem_of_not_mem hc hcolon
  rw [raisedSlot, (cut_at_colon hcolon type).1, List.dropWhile_append_of_pos hname,
    String.ofList_toList, raisedName_parameter]
  simp

/-- The placeholder of a numbered parameter becomes that of the raised number. -/
theorem raiseSlots_placeholder (index : Nat) {type : String} (htype : '\x7d' ∉ type.toList)
    (rest : List Char) :
    raiseSlots count none ((placeholderOf (parameter (index : Int)) type).toList ++ rest) =
      (placeholderOf (parameter ((index + count : Nat) : Int)) type).toList ++
        raiseSlots count none rest := by
  have hinside : '\x7d' ∉ (parameter (index : Int)).toList ++ ':' :: type.toList := by
    have hname := not_mem_parameter (c := '\x7d') (by decide) (by decide) (index : Int)
    simp [hname, htype]
  have htext : (placeholderOf (parameter (index : Int)) type).toList ++ rest =
      '\x7b' :: (((parameter (index : Int)).toList ++ ':' :: type.toList) ++ '\x7d' :: rest) := by
    simp [placeholderOf]
  rw [htext]
  show raiseSlots count (some []) _ = _
  rw [raiseSlots_inside hinside, List.nil_append, raisedSlot_parameter]
  simp [placeholderOf]

/-- Fitting pieces are written from a later start with the numbers of all placeholders raised. -/
theorem raiseSlots_render {pieces : List Piece} (h : ∀ piece ∈ pieces, Fits piece)
    (index distance : Nat) :
    raiseSlots count none (Piece.render (Start.number index).name distance pieces).toList =
      (Piece.render (Start.number ((index + count : Nat) : Int)).name distance pieces).toList := by
  induction pieces generalizing distance with
  | nil => rfl
  | cons piece rest ih =>
      have hrest := ih (fun other hother => h other (List.mem_cons_of_mem piece hother))
      have hpiece := h piece List.mem_cons_self
      cases piece with
      | text chars =>
          rw [Piece.render_text, Piece.render_text, String.toList_append, String.toList_append,
            raiseSlots_plain hpiece.1, hrest distance]
      | bound type value =>
          cases hpiece
          have hname : (Start.number index).name distance =
              parameter ((index + distance : Nat) : Int) :=
            rfl
          have hraised : (Start.number ((index + count : Nat) : Int)).name distance =
              parameter ((index + distance + count : Nat) : Int) := by
            rw [Nat.add_right_comm]
            rfl
          rw [show Piece.bound (Wire.placeholderType value) value = .ofValue value from rfl,
            Piece.render_ofValue, Piece.render_ofValue, String.toList_append, String.toList_append,
            hname, hraised, raiseSlots_placeholder _ (not_mem_placeholderType value),
            hrest (distance + 1)]

/-- Values that are numbered from a later start have the raised names. -/
theorem map_raisedName_numbered (index : Nat) (values : List Value) :
    ((numbered (index : Int) values).map fun (name, value) => (raisedName count name, value)) =
      numbered ((index + count : Nat) : Int) values := by
  induction values generalizing index with
  | nil => rfl
  | cons value rest ih =>
      have hrest := ih (index + 1)
      rw [show index + 1 + count = index + count + 1 by omega] at hrest
      simp only [numbered, List.map_cons, raisedName_parameter]
      exact congrArg _ hrest

end Texts

/-- The clause of a predicate without raw SQL is shifted from a later start. -/
theorem shiftedBy_ofPredicate {predicate : Option Predicate} {sort : String → Prop}
    (hsort : ∀ sql, sort sql → IsPlain sql)
    (hproper : (predicate.getD (.constant true)).Proper sort) (start count : Nat) :
    ShiftedBy count (Clause.ofPredicate (.number start) predicate)
      (Clause.ofPredicate (.number ((start + count : Nat) : Int)) predicate) where
  sql := by
    have hrender := @raiseSlots_render count _ (fits_pieces hsort hproper) start 0
    simp only [raised, Clause.ofPredicate, Clause.ofPieces, hrender, String.ofList_toList]
  parameters := by
    simp only [Clause.ofPredicate, parameters_ofPieces, map_raisedName_numbered]
  isTrivial := isTrivial_ofPredicate _ _ predicate

/-- A condition without raw SQL has shifted clauses from every later start, or has the same
fault. -/
theorem shifted_of_elaborate {condition : Value} (hraw : IsRawFree condition) (start count : Nat) :
    Shifted count ((elaborate condition).map (Clause.ofPredicate (.number start)))
      ((elaborate condition).map (Clause.ofPredicate (.number ((start + count : Nat) : Int)))) := by
  cases helaborate : elaborate condition with
  | error fault => exact .error fault
  | ok predicate =>
      have hproper := (elaborate_stands hraw helaborate).getD.1
      exact .ok (shiftedBy_ofPredicate (fun _ hsort => hsort.elim) hproper start count)

/-- No outcome of elaboration is shifted to a breach. -/
theorem not_shifted_breach {condition : Value} {start : Start} {count : Nat} (breach : Breach) :
    ¬Shifted count ((elaborate condition).map (Clause.ofPredicate start))
      (.error (.breach breach)) := by
  have hreject : MayReject ((elaborate condition).map (Clause.ofPredicate start)) :=
    (mayReject_elaborate condition).map
  intro h
  generalize (elaborate condition).map (Clause.ofPredicate start) = outcome at h hreject
  cases h
  exact not_isRejection_breach breach (hreject _ rfl)

/-- A condition without raw SQL is compiled from a later start to the shifted clause, or meets the
same fault, exactly if it binds no value or the numbers of its parameters are short enough from the
later start or too long from the earlier one. -/
theorem compile_shift_iff {condition : Value} (hraw : IsRawFree condition) (start count : Nat) :
    Shifted count (compile condition (.number start))
        (compile condition (.number ((start + count : Nat) : Int))) ↔
      (progress condition).bound = 0 ∨ start + count + (progress condition).bound ≤ mostValues ∨
        mostValues < start + (progress condition).bound := by
  have hshifted := shifted_of_elaborate hraw start count
  have hnames := @checkNames_natural_iff start (progress condition).bound
  have hlater := @checkNames_natural_iff (start + count) (progress condition).bound
  rw [compile_eq, compile_eq]
  by_cases hfits : (Start.number start).checkNames (progress condition).bound = .ok ()
  · by_cases hfitsLater : (Start.number ((start + count : Nat) : Int)).checkNames
        (progress condition).bound = .ok ()
    · rw [hfits, hfitsLater]
      refine iff_of_true hshifted ?_
      rcases hlater.1 hfitsLater with hnone | hfits
      · exact .inl hnone
      · exact .inr (.inl hfits)
    · -- only the later names are too long, and the condition has no fault of that sort
      rw [hfits, checkNames_number_of_ne_ok hfitsLater]
      refine iff_of_false (not_shifted_breach .badValue) ?_
      have hlong := mt hlater.2 hfitsLater
      have hshort := hnames.1 hfits
      omega
  · have hlong := mt hnames.2 hfits
    have hlongLater : ¬(Start.number ((start + count : Nat) : Int)).checkNames
        (progress condition).bound = .ok () := by
      rw [hlater]
      omega
    rw [checkNames_number_of_ne_ok hfits, checkNames_number_of_ne_ok hlongLater]
    refine iff_of_true (.error _) ?_
    omega

/-- A list, a range, a negation and an empty group, from a start of one digit to one of three. -/
theorem compile_shift_nested :
    let condition : Value := .map [
      (.text "$or", .list [
        .map [(.text "age", .operators [(.between, .tuple [.int 1, .int 5])])],
        .negation (.map [(.text "name", .literal (.text "\x7bparam3:String\x7d"))]), .map []]),
      (.text "tag", .map [(.text "in", .list [.text "a", .text "b"]), (.text "ne", .null)])]
    let clause : Clause := {
      sql := "(\x60age\x60 BETWEEN \x7bparam8:Int32\x7d AND \x7bparam9:Int32\x7d OR " ++
        "NOT (\x60name\x60 = \x7bparam10:String\x7d)) AND " ++
        "\x60tag\x60 IN (\x7bparam11:String\x7d, \x7bparam12:String\x7d) AND " ++
        "\x60tag\x60 IS NOT NULL"
      parameters := [("param8", .int 1), ("param9", .int 5),
        ("param10", .text "\x7bparam3:String\x7d"), ("param11", .text "a"),
        ("param12", .text "b")] }
    IsRawFree condition ∧ compile condition (.number 8) = .ok clause ∧
      ∃ other, compile condition (.number 103) = .ok other ∧ ShiftedBy 95 clause other := by
  intro condition clause
  have hraw : IsRawFree condition := by
    simp [condition, IsRawFree, EveryRaw, EachRaw, EntriesRaw]
  have helaborate : elaborate condition = .ok (some (.all [
      .group .or [.all [.all [.between "\x60age\x60" (.int 1) (.int 5)]],
        .negation (.all [.compare "\x60name\x60" "=" (.text "\x7bparam3:String\x7d")])],
      .all [.within "\x60tag\x60" false [.text "a", .text "b"], .isNull "\x60tag\x60" true]])) := by
    rfl
  have hclause : compile condition (.number 8) = .ok clause :=
    compile_eq_ok.2 ⟨_, helaborate, rfl, checkNames_number.2 (.inr (by decide +kernel))⟩
  have hnames : (Start.number ((8 + 95 : Nat) : Int)).checkNames (progress condition).bound =
      .ok () := checkNames_number.2 (.inr (by decide +kernel))
  have hshifted := (compile_shift_iff hraw 8 95).2
    ((checkNames_natural_iff.1 hnames).imp_right .inl)
  refine ⟨hraw, hclause, ?_⟩
  rw [show ((8 : Nat) : Int) = 8 from rfl, hclause,
    show ((8 + 95 : Nat) : Int) = 103 from rfl] at hshifted
  generalize compile condition (.number 103) = outcome at hshifted ⊢
  cases hshifted with
  | ok h => exact ⟨_, rfl, h⟩

/-- A condition with two values has a clause from the first start, and none from the start at which
the number of its second parameter gets too long. -/
theorem compile_shift_last :
    let condition : Value := .map [(.text "a", .int 1), (.text "b", .int 2)]
    IsRawFree condition ∧
      (∃ clause, compile condition (.number ((0 : Nat) : Int)) = .ok clause) ∧
      compile condition (.number ((0 + (mostValues - 1) : Nat) : Int)) =
        .error (.breach .badValue) ∧
      ¬Shifted (mostValues - 1) (compile condition (.number ((0 : Nat) : Int)))
        (compile condition (.number ((0 + (mostValues - 1) : Nat) : Int))) := by
  intro condition
  have hraw : IsRawFree condition := by
    simp [condition, IsRawFree, EveryRaw, EntriesRaw]
  have hbound : (progress condition).bound = 2 := rfl
  have hfirst : compile condition (.number ((0 : Nat) : Int)) = .ok (Clause.ofPredicate
      (.number ((0 : Nat) : Int)) (some (.all [.compare "\x60a\x60" "=" (.int 1),
        .compare "\x60b\x60" "=" (.int 2)]))) := by
    have hshort : 0 + 2 ≤ mostValues := le_mostValues (by decide)
    rw [compile_eq, hbound, checkNames_natural_iff.2 (.inr hshort)]
    rfl
  have hlater : compile condition (.number ((0 + (mostValues - 1) : Nat) : Int)) =
      .error (.breach .badValue) := by
    rw [compile_eq, hbound, checkNames_number_of_ne_ok]
    · rfl
    · intro hok
      have hmost := mostValues_pos
      rcases checkNames_natural_iff.1 hok with hnone | hfits <;> omega
  refine ⟨hraw, ⟨_, hfirst⟩, hlater, ?_⟩
  rw [hfirst, hlater]
  intro hshifted
  cases hshifted

end TypedSql.Condition
