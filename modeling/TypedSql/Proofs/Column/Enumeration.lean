import TypedSql.Runtime
import TypedSql.Proofs.Column.Definition
import TypedSql.Proofs.Column.Lenient
import TypedSql.Proofs.Column.TypeText
import TypedSql.Proofs.Column.Valid
import TypedSql.Proofs.Number.Numeral
import TypedSql.Proofs.Value.Keyed
import TypedSql.Table.Draft

/-!
# Types of enumerations

The type of an enumeration shows a member for each value: a literal and an ordinal. `membersOf`
reads the members back, taking two quotes inside a literal for one. What it reads of the type of a
column are the values with their places, counted from one: `membersOf_typeText`. So the ordinals
differ whatever the values are, while `enumerations_number_values` says when the names do, and when
the ordinals fit into the integers that store them.
-/

namespace TypedSql.Kind

/-- The integer kind in which databases store an enumeration kind. -/
def storage? : Kind → Option Kind
  | enum8 => some int8
  | enum16 => some int16
  | _ => none

/-- Whether the storage of an enumeration kind has room for an ordinal. -/
def storesOrdinal (kind : Kind) (ordinal : Nat) : Bool :=
  kind.storage?.any fun stored => stored.holds ordinal

/-- The number of values up to which the ordinals of an enumeration kind can be stored. -/
def largestOrdinal : Kind → Nat
  | enum8 => 127
  | enum16 => 32767
  | _ => 0

/-- The ordinals that the storage of an enumeration kind has room for. -/
theorem storesOrdinal_iff {kind : Kind} (henum : kind.isEnum = true) (ordinal : Nat) :
    kind.storesOrdinal ordinal = true ↔ ordinal ≤ kind.largestOrdinal := by
  cases kind with
  | enum8 =>
      have hrange : Number.signedRange 8 = (-128, 127) := rfl
      simp only [storesOrdinal, storage?, holds, integerRange?, hrange, Number.inRange,
        largestOrdinal, Option.any_some, Bool.and_eq_true, decide_eq_true_eq]
      omega
  | enum16 =>
      have hrange : Number.signedRange 16 = (-32768, 32767) := rfl
      simp only [storesOrdinal, storage?, holds, integerRange?, hrange, Number.inRange,
        largestOrdinal, Option.any_some, Bool.and_eq_true, decide_eq_true_eq]
      omega
  | _ => simp [isEnum] at henum

end TypedSql.Kind

namespace TypedSql.Column

open TypedSql.Outcome TypedSql.Text

section Reading

/-- A member of an enumeration type: a name and an ordinal. -/
abbrev Member := String × Nat

/-- How far a member has been read. A quote that closes a literal may turn out to be one of two. -/
inductive Scan where
  | outside
  | inside (name : List Char)
  | closing (name : List Char)
  | numbered (name digits : List Char)

/-- One more character of a type, and the member that it ends. -/
def Scan.step : Scan → Char → Scan × List Member
  | outside, c => (if c = '\'' then inside [] else outside, [])
  | inside name, c => (if c = '\'' then closing name else inside (name ++ [c]), [])
  | closing name, c => (if c = '\'' then inside (name ++ ['\'']) else numbered name [], [])
  | numbered name digits, c =>
    if isAsciiDigit c then (numbered name (digits ++ [c]), [])
    else if digits = [] then (numbered name [], [])
    else (outside, [(String.ofList name, Number.Decimal.ofAscii digits)])

/-- How far a member has been read behind a text, and the members that end in it. -/
def Scan.read : Scan → List Char → Scan × List Member
  | scan, [] => (scan, [])
  | scan, c :: rest =>
    let next := scan.step c
    let last := next.1.read rest
    (last.1, next.2 ++ last.2)

/-- The members that a type shows. -/
def membersOf (type : String) : List Member := (Scan.outside.read type.toList).2

namespace Scan

variable {scan mid last : Scan} {ended others : List Member}

/-- A text behind a character is read from where the character leads. -/
theorem read_cons {c : Char} {rest : List Char} (hfirst : scan.step c = (mid, ended))
    (hrest : mid.read rest = (last, others)) : scan.read (c :: rest) = (last, ended ++ others) := by
  rw [read, hfirst, hrest]

/-- A text behind another one is read from where that leads. -/
theorem read_append {first second : List Char} (hfirst : scan.read first = (mid, ended))
    (hsecond : mid.read second = (last, others)) :
    scan.read (first ++ second) = (last, ended ++ others) := by
  induction first generalizing scan ended with
  | nil =>
      cases hfirst
      exact hsecond
  | cons c rest ih =>
      obtain ⟨rfl, rfl⟩ := Prod.mk.inj hfirst
      rw [List.append_assoc]
      exact read_cons rfl (ih rfl)

/-- A text without quotes has no members. -/
theorem read_outside {text : List Char} (h : '\'' ∉ text) : outside.read text = (outside, []) := by
  induction text with
  | nil => rfl
  | cons c rest ih =>
      rw [List.mem_cons, not_or] at h
      have hstep : outside.step c = (outside, []) := by rw [step, if_neg (Ne.symm h.1)]
      exact read_cons hstep (ih h.2)

/-- The characters of a literal between its quotes are read as the text. -/
theorem read_inside (name text : List Char) :
    (inside name).read (replaceChar '\'' ['\'', '\''] text) = (inside (name ++ text), []) := by
  induction text generalizing name with
  | nil => simp [replaceChar, read]
  | cons c rest ih =>
      simp only [replaceChar] at ih
      by_cases hquote : c = '\''
      · simp [replaceChar, hquote, read, step, ih]
      · simp [replaceChar, hquote, read, step, ih]

/-- The digits of an ordinal are read as such. -/
theorem read_numbered (name digits : List Char) {text : List Char}
    (h : ∀ c ∈ text, isAsciiDigit c = true) :
    (numbered name digits).read text = (numbered name (digits ++ text), []) := by
  induction text generalizing digits with
  | nil => simp [read]
  | cons c rest ih =>
      obtain ⟨hdigit, hrest⟩ := List.forall_mem_cons.1 h
      have hstep : (numbered name digits).step c = (numbered name (digits ++ [c]), []) := by
        rw [step, if_pos hdigit]
      rw [List.append_cons]
      exact read_cons hstep (ih _ hrest)

/-- A member is read up to its ordinal, which the next character ends. -/
theorem read_enumMember (value : String) (position : Nat) :
    outside.read (enumMember value position).toList =
      (numbered value.toList (Nat.toDigits 10 (position + 1)), []) := by
  have htext : (enumMember value position).toList =
      ['\''] ++ (replaceChar '\'' ['\'', '\''] value.toList ++
        (['\'', ' ', '=', ' '] ++ Nat.toDigits 10 (position + 1))) := by
    simp [enumMember, quoteLiteral, String.toList_append]
  have hopening : outside.read ['\''] = (inside [], []) := rfl
  have hclosing : (inside value.toList).read ['\'', ' ', '=', ' '] =
      (numbered value.toList [], []) := rfl
  have hordinal : (numbered value.toList []).read (Nat.toDigits 10 (position + 1)) =
      (numbered value.toList (Nat.toDigits 10 (position + 1)), []) :=
    read_numbered value.toList [] fun c hc => Number.isAsciiDigit_of_mem_toDigits hc
  rw [htext]
  exact read_append hopening
    (read_append (read_inside [] value.toList) (read_append hclosing hordinal))

/-- A character that is no digit ends the member whose ordinal stands in front of it. -/
theorem step_numbered (value : String) (position : Nat) {c : Char}
    (hdigit : isAsciiDigit c = false) :
    (numbered value.toList (Nat.toDigits 10 (position + 1))).step c =
      (outside, [(value, position + 1)]) := by
  rw [step, if_neg (by simp [hdigit]), if_neg Nat.toDigits_ne_nil, Number.ofAscii_toDigits,
    String.ofList_toList]

/-- Members up to a closing parenthesis are read one by one. -/
theorem read_enumMembers {entries : List (String × Nat)} (h : entries ≠ []) :
    outside.read ((Value.commaSeparated
        (entries.map fun (value, position) => enumMember value position)).toList ++ [')']) =
      (outside, entries.map fun (value, position) => (value, position + 1)) := by
  induction entries with
  | nil => exact absurd rfl h
  | cons entry rest ih =>
      obtain ⟨value, position⟩ := entry
      cases rest with
      | nil =>
          rw [List.map_singleton, Value.commaSeparated_singleton]
          exact read_append (read_enumMember value position)
            (read_cons (step_numbered value position rfl) rfl)
      | cons other others =>
          have hblank : outside.step ' ' = (outside, []) := rfl
          rw [List.map_cons, List.map_cons, Value.toList_commaSeparated_cons, List.append_assoc]
          exact read_append (read_enumMember value position)
            (read_cons (step_numbered value position rfl)
              (read_cons hblank (ih (List.cons_ne_nil _ _))))

/-- The members in a type around parameters are those in the parameters. -/
theorem read_applyType (kind : Kind) {parameters : List String} {members : List Member}
    (h : outside.read ((Value.commaSeparated parameters).toList ++ [')']) = (outside, members)) :
    outside.read (applyType kind.name parameters).toList = (outside, members) := by
  have htext : (applyType kind.name parameters).toList =
      (kind.name.toList ++ ['(']) ++ ((Value.commaSeparated parameters).toList ++ [')']) := by
    simp [applyType, Value.applied, String.toList_append]
  have hname : '\'' ∉ kind.name.toList ++ ['('] := by
    cases kind <;> decide
  rw [htext]
  exact read_append (read_outside hname) h

end Scan

/-- The type of an enumeration without regard to null is its kind around the members. -/
theorem bareType_of_isEnum {column : Column} {type : String} (henum : column.kind.isEnum = true)
    (h : column.bareType = .ok type) :
    ∃ values, column.enumValues = some values ∧ values ≠ [] ∧
      type = applyType column.kind.name (enumMembers values) := by
  cases hkind : column.kind with
  | enum8 | enum16 =>
      simp only [bareType, hkind] at h
      split at h
      · cases h
      · cases h
      · next values hempty hvalues =>
          cases h
          exact ⟨values, hvalues, hempty, rfl⟩
  | _ => simp [hkind, Kind.isEnum] at henum

/-- The members that the type of an enumeration shows are the values in their places, counted from
one. -/
theorem membersOf_typeText {column : Column} {values : List String} {type : String}
    (henum : column.kind.isEnum = true) (hvalues : column.enumValues = some values)
    (h : column.typeText = .ok type) : membersOf type = values.zipIdx 1 := by
  obtain ⟨bare, hbare, rfl⟩ := map_eq_ok.1 h
  obtain ⟨known, hknown, hnonempty, rfl⟩ := bareType_of_isEnum henum hbare
  obtain rfl : known = values := Option.some.inj (hknown.symm.trans hvalues)
  have hread : Scan.outside.read (applyType column.kind.name (enumMembers known)).toList =
      (.outside, known.zipIdx 1) := by
    rw [List.zipIdx_succ]
    exact Scan.read_applyType _ (Scan.read_enumMembers (by simpa using hnonempty))
  split
  · have hclosed : Scan.outside.read ((Value.commaSeparated
        [applyType column.kind.name (enumMembers known)]).toList ++ [')']) =
          (.outside, known.zipIdx 1 ++ []) :=
      Scan.read_append (by rwa [Value.commaSeparated_singleton]) rfl
    rw [List.append_nil] at hclosed
    exact congrArg Prod.snd (Scan.read_applyType .nullable hclosed)
  · exact congrArg Prod.snd hread

end Reading

section Ordinals

/-- `Numbers column values type` says that a column has a type, and that the type gives the values
of the column the ordinals from one on, in their order. The names differ exactly if the values do,
and there is room for the ordinals exactly if the values are not too many. -/
structure Numbers (column : Column) (values : List String) (type : String) : Prop where
  given : column.enumValues = some values
  rendered : column.typeText = .ok type
  members : membersOf type = values.zipIdx 1
  ordinals : (membersOf type).map Prod.snd = List.range' 1 values.length
  names : ((membersOf type).map Prod.fst).Nodup ↔ values.Nodup
  room : (∀ member ∈ membersOf type, column.kind.storesOrdinal member.2 = true) ↔
    values.length ≤ column.kind.largestOrdinal

/-- The type of a column that passes numbers its values. -/
theorem exists_numbers {column : Column} {name : Value} (henum : column.kind.isEnum = true)
    (h : column.check name = .ok ()) : ∃ values type, Numbers column values type := by
  obtain ⟨type, htype⟩ := (exists_typeText_iff (valid_of_check h)).2 (hasNumerals_of_isEnum henum)
  obtain ⟨bare, hbare, -⟩ := map_eq_ok.1 htype
  obtain ⟨values, hvalues, hnonempty, -⟩ := bareType_of_isEnum henum hbare
  have hmembers := membersOf_typeText henum hvalues htype
  have hordinals : (membersOf type).map Prod.snd = List.range' 1 values.length := by
    rw [hmembers, List.zipIdx_map_snd]
  refine ⟨values, type, hvalues, htype, hmembers, hordinals, ?_, ?_⟩
  · rw [hmembers, List.zipIdx_map_fst]
  · rw [← List.forall_mem_map (f := Prod.snd)
      (P := fun ordinal => column.kind.storesOrdinal ordinal = true), hordinals]
    simp only [Kind.storesOrdinal_iff henum, List.mem_range'_1]
    -- the last ordinal is the number of values
    have hpositive := List.length_pos_iff.2 hnonempty
    constructor
    · intro hroom
      exact hroom values.length (by omega)
    · intro hfew ordinal hordinal
      omega

/-- The kind and the values of a column that is read are read of what is given for them. -/
theorem enumeration_of_ofSettings [Coercion] {entries : Entries} {column : Column}
    (h : ofSettings entries = .ok column) :
    Coercion.kind ((given? entries "type").getD .null) = .ok column.kind ∧
      readSetting entries "enum_values" (Coercion.optional Coercion.texts) none =
        .ok column.enumValues := by
  simp only [ofSettings, bind_eq_ok, pure_eq_ok] at h
  obtain ⟨kind, hkind, -, -, -, -, -, -, -, -, -, -, -, -, -, -, -, -, -, -, values, hvalues,
    rfl⟩ :=
    h
  exact ⟨hkind, hvalues⟩

/-- An enumeration column in a draft passes. It has the smallest kind for as many values as are
given, and these are its values, unless further settings name others. -/
theorem of_enumeration [Coercion] [LawfulCoercion] {draft next : Draft} {name values : Value}
    {settings : Entries} (h : draft.enumeration name values settings = .ok next) :
    ∃ items column, values.elements? = some items ∧
      next.columns = draft.columns.put name column ∧ column.check name = .ok () ∧
        column.kind = Draft.enumKind items.length ∧
          (Keyed.at? settings "enumValues" = none →
            ∃ texts, items.mapM Coercion.text = .ok texts ∧ column.enumValues = some texts) := by
  unfold Draft.enumeration at h
  split at h
  · next items hitems =>
      simp only [Draft.typed, Draft.withKind, Draft.column, bind_eq_ok, pure_eq_ok] at h
      obtain ⟨column, hcolumn, _, hcheck, rfl⟩ := h
      obtain ⟨hkind, hvalues⟩ := enumeration_of_ofSettings (ofDefinition_map_eq_ok.1 hcolumn).2
      set definition := Keyed.put (Keyed.put settings (.text "enum_values") (.tuple items))
        (.text "type") (.kind (Draft.enumKind items.length))
      have hput : ∀ key, Keyed.at? definition key =
          if "type" = key then some (.kind (Draft.enumKind items.length))
          else if "enum_values" = key then some (.tuple items) else Keyed.at? settings key := by
        intro key
        rw [Keyed.at?_put rfl, Keyed.at?_put rfl]
      refine ⟨items, column, hitems, rfl, hcheck, ?_, ?_⟩
      · have hgiven : given? definition "type" =
            some (Value.kind (Draft.enumKind items.length)) := hput "type"
        rw [hgiven, Option.getD_some, LawfulCoercion.kind_kind, Except.ok.injEq] at hkind
        exact hkind.symm
      · intro hnone
        have hgiven : given? definition "enum_values" = some (Value.tuple items) := by
          rw [given?, aliasOf?, Option.bind_some, hput, hput]
          simp [hnone]
        rw [readSetting, hgiven] at hvalues
        obtain ⟨texts, htexts, hsome⟩ := map_eq_ok.1 hvalues
        rw [LawfulCoercion.texts_tuple] at htexts
        exact ⟨texts, htexts, hsome.symm⟩
  · cases h

/-- Every enumeration column that passes has a type that gives its values the ordinals from one on,
in their order: the names differ exactly if the values do, and there is room for the ordinals in the
integer kind that stores the enumeration exactly if there are not too many. So has every enumeration
column in a draft, whose kind is the smallest for as many values as are given. -/
theorem enumerations_number_values [Coercion] [LawfulCoercion] :
    (∀ (column : Column) (name : Value), column.kind.isEnum = true → column.check name = .ok () →
      ∃ values type, Numbers column values type) ∧
      ∀ (draft next : Draft) (name values : Value) (settings : Entries),
        draft.enumeration name values settings = .ok next →
          ∃ items column known type, values.elements? = some items ∧
            next.columns = draft.columns.put name column ∧
              column.kind = Draft.enumKind items.length ∧ Numbers column known type ∧
                (Keyed.at? settings "enumValues" = none →
                  items.mapM Coercion.text = .ok known) := by
  refine ⟨fun column name => exists_numbers, ?_⟩
  intro draft next name values settings h
  obtain ⟨items, column, hitems, hnext, hcheck, hkind, hvalues⟩ := of_enumeration h
  have henum : column.kind.isEnum = true := by
    rw [hkind, Draft.enumKind]
    split <;> rfl
  obtain ⟨known, type, hnumbers⟩ := exists_numbers henum hcheck
  refine ⟨items, column, known, type, hitems, hnext, hkind, hnumbers, ?_⟩
  intro hnone
  obtain ⟨texts, htexts, hgiven⟩ := hvalues hnone
  rw [hnumbers.given, Option.some.injEq] at hgiven
  rwa [hgiven]

/-- A column of two answers, for the case below. -/
def answers : Column :=
  { kind := .enum8, nullable := true, enumValues := some ["yes", "that's all"] }

/-- Two answers have the ordinals one and two, and there is room for them. -/
theorem answers_number_values :
    answers.check (.text "answer") = .ok () ∧
      ∃ type, answers.typeText = .ok type ∧ membersOf type = [("yes", 1), ("that's all", 2)] ∧
        ∀ member ∈ membersOf type, answers.kind.storesOrdinal member.2 = true := by
  have hcheck : answers.check (.text "answer") = .ok () := by rfl
  obtain ⟨values, type, hnumbers⟩ :=
    enumerations_number_values.1 answers (.text "answer") rfl hcheck
  obtain rfl : ["yes", "that's all"] = values := Option.some.inj hnumbers.given
  exact ⟨hcheck, type, hnumbers.rendered, hnumbers.members, hnumbers.room.2 (by decide)⟩

/-- A value may be given twice, and then two ordinals have one name. Of 128 values of the smaller
kind the last one has an ordinal that there is no room for. -/
theorem enumerations_repeat_and_exceed :
    let twice : Column := { kind := .enum8, enumValues := some ["a", "a"] }
    let many : Column := { kind := .enum8, enumValues := some ((List.range 128).map toString) }
    twice.check (.text "e") = .ok () ∧
      (∃ type, twice.typeText = .ok type ∧ membersOf type = [("a", 1), ("a", 2)]) ∧
        many.check (.text "e") = .ok () ∧
          ∃ type, many.typeText = .ok type ∧ ("127", 128) ∈ membersOf type ∧
            many.kind.storesOrdinal 128 = false := by
  have hpasses : ∀ values : List String, values ≠ [] → values.length ≤ 256 →
      Column.check (.text "e") { kind := .enum8, enumValues := some values } = .ok () := by
    intro values hnonempty hcount
    refine check_eq_ok.2 ⟨by rfl, ?_⟩
    cases values with
    | nil => exact absurd rfl hnonempty
    | cons value rest =>
        have hrule : enumRule? { kind := .enum8, enumValues := some (value :: rest) } 256 = none :=
          if_neg (Nat.not_lt.2 hcount)
        exact congrArg (fun rule => Except.ok (Option.or rule none)) hrule
  intro twice many
  have htwice : twice.check (.text "e") = .ok () := hpasses _ (by simp) (by simp)
  have hmany : many.check (.text "e") = .ok () := hpasses _ (by simp) (by simp)
  obtain ⟨values, type, hnumbers⟩ := exists_numbers rfl htwice
  obtain ⟨others, other, hothers⟩ := exists_numbers rfl hmany
  obtain rfl : ["a", "a"] = values := Option.some.inj hnumbers.given
  obtain rfl : (List.range 128).map toString = others := Option.some.inj hothers.given
  refine ⟨htwice, ⟨type, hnumbers.rendered, hnumbers.members⟩, hmany, other, hothers.rendered, ?_,
    by rfl⟩
  rw [hothers.members, List.mk_mem_zipIdx_iff_le_and_getElem?_sub]
  have hlast : (toString 127 : String) = "127" := by rfl
  exact ⟨by omega, by simpa using hlast⟩

end Ordinals

end TypedSql.Column
