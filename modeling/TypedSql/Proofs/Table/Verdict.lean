import TypedSql.Proofs.Condition.Progress
import TypedSql.Proofs.Table.Record

/-!
# Verdicts on records

What the checks of records decide, for every record and all columns that pass: which records are
taken, full ones and partial ones, and which fault is reported for each of the others. Both checks
end in a verdict, which is reported unless the first unknown name has no text: `record_verdicts`.
-/

namespace TypedSql

open TypedSql.Outcome TypedSql.Number TypedSql.Condition

namespace Wire

/-- A whole number is or is not at most a positive dimension; a NaN is never so much. -/
theorem exists_isAtMost {dimension : Value} (h : Column.IsPositive dimension) (number : Int) :
    ∃ least, Value.isAtMost (.int number) dimension = .ok least := by
  rcases h with rfl | ⟨known, hknown, hpositive⟩
  · exact ⟨false, rfl⟩
  · have horder : ∃ order, (Decimal.ofInt number).compare? known = some order := by
      cases known with
      | nan => exact absurd hpositive id
      | finite | infinity => exact ⟨_, rfl⟩
    obtain ⟨order, horder⟩ := horder
    have hfirst : (Value.int number).asNumber? = some (Decimal.ofInt number) := rfl
    refine ⟨decide (order ≠ .gt), ?_⟩
    simp only [Value.isAtMost, Value.orderNumbers, hfirst, hknown, horder]
    rfl

/-- A column that passes decides about every value. -/
theorem exists_accepts {column : Column} (h : column.Valid) (value : Value) :
    ∃ taken, accepts column value = .ok taken := by
  unfold accepts
  split
  · next chars hkind _ =>
      simp only [fitsLength]
      split
      · exact exists_isAtMost (h.length hkind) _
      · exact ⟨true, rfl⟩
  · exact ⟨_, rfl⟩

end Wire

namespace Record

/-- Whether a column takes a value that is not null. -/
def Takes (column : Column) (value : Value) : Prop := Wire.check column value = .ok true

section Values

variable {name value : Value} {column : Column} {fault : Fault}

/-- What a column that passes does not take is reported as invalid for its kind. -/
theorem checkValue_eq_error_iff (h : column.Valid) (hvalue : value.isNull = false) :
    checkValue name value column = .error fault ↔
      ¬Takes column value ∧ fault = .recordValueInvalid name value column.kind := by
  obtain ⟨taken, htaken⟩ := Wire.exists_accepts h value
  have hcheck : Wire.check column value = .ok taken := by simp [Wire.check, hvalue, htaken]
  have hvalue : checkValue name value column =
      if taken then .ok () else .error (.recordValueInvalid name value column.kind) := by
    rw [checkValue, hcheck]
    cases taken <;> rfl
  rw [hvalue, Takes, hcheck]
  cases taken with
  | true => simp
  | false => simp [eq_comm]

/-- Whether a full record passes with its value for a column. -/
structure PassesField (column : Column) (value : Value) : Prop where
  optional : value.isNull = true →
    column.nullable = true ∨ column.hasDefault = true ∨ column.autoIncrement = true
  takes : value.isNull = false → Takes column value

/-- What is reported of a full record for a column that it does not pass with. -/
inductive FieldFault (name : Value) (column : Column) (value : Value) : Fault → Prop
  | required (hvalue : value.isNull = true)
      (h : column.nullable = false ∧ column.hasDefault = false ∧ column.autoIncrement = false) :
      FieldFault name column value (.recordFieldRequired name)
  | invalid (hvalue : value.isNull = false) (h : ¬Takes column value) :
      FieldFault name column value (.recordValueInvalid name value column.kind)

/-- Whether a partial record passes with a value for a column. -/
structure PassesChange (column : Column) (value : Value) : Prop where
  primaryKey : column.primaryKey = false
  takes : value.isNull = false → Takes column value

/-- What is reported of a partial record for a column that it does not pass with. -/
inductive ChangeFault (name : Value) (column : Column) (value : Value) : Fault → Prop
  | primaryKey (h : column.primaryKey = true) :
      ChangeFault name column value (.primaryKeyUpdated name value)
  | invalid (hkey : column.primaryKey = false) (hvalue : value.isNull = false)
      (h : ¬Takes column value) :
      ChangeFault name column value (.recordValueInvalid name value column.kind)

theorem FieldFault.isRefusal (h : FieldFault name column value fault) (hname : name.isText = true) :
    IsRefusal fault := by
  have hshown := Value.isDisplayable_of_isText hname
  cases h <;> exact (isRefusal_iff_of_shown rfl fun _ => rfl).2 hshown

theorem ChangeFault.isRefusal (h : ChangeFault name column value fault)
    (hname : name.isText = true) : IsRefusal fault := by
  have hshown := Value.isDisplayable_of_isText hname
  cases h <;> exact (isRefusal_iff_of_shown rfl fun _ => rfl).2 hshown

end Values

section Fields

variable {record : Entries} {columns : Keyed Column} {name value : Value} {column : Column}
variable {fault : Fault}

/-- The value of a record under a key; without one it is null. -/
def valueUnder (record : Entries) (name : Value) : Value := (Keyed.get? record name).getD .null

theorem checkField_eq : checkField record name column =
    if (valueUnder record name).isNull then
      if Table.isOptional column then .ok () else .error (.recordFieldRequired name)
    else checkValue name (valueUnder record name) column := rfl

theorem isOptional_iff : Table.isOptional column = true ↔
    column.nullable = true ∨ column.hasDefault = true ∨ column.autoIncrement = true := by
  simp [Table.isOptional, or_assoc]

theorem isOptional_eq_false_iff : Table.isOptional column = false ↔
    column.nullable = false ∧ column.hasDefault = false ∧ column.autoIncrement = false := by
  simp [Table.isOptional, and_assoc]

theorem checkField_eq_ok_iff :
    checkField record name column = .ok () ↔ PassesField column (valueUnder record name) := by
  rw [checkField_eq]
  cases hnull : (valueUnder record name).isNull with
  | true =>
      rw [if_pos rfl]
      refine Iff.trans ?_ ⟨fun h => ⟨fun _ => isOptional_iff.1 h, fun hvalue => ?_⟩,
        fun h => isOptional_iff.2 (h.optional hnull)⟩
      · cases Table.isOptional column <;> simp
      · rw [hnull] at hvalue
        cases hvalue
  | false =>
      refine checkValue_eq_ok_iff.trans ⟨fun h => ⟨fun hvalue => ?_, fun _ => h⟩,
        fun h => h.takes hnull⟩
      rw [hnull] at hvalue
      cases hvalue

theorem checkField_eq_error_iff (h : column.Valid) :
    checkField record name column = .error fault ↔
      FieldFault name column (valueUnder record name) fault := by
  rw [checkField_eq]
  cases hnull : (valueUnder record name).isNull with
  | true =>
      constructor
      · intro h
        cases hflag : Table.isOptional column with
        | true => simp [hflag] at h
        | false =>
            simp only [hflag, if_true, Bool.false_eq_true, if_false] at h
            cases h
            exact .required hnull (isOptional_eq_false_iff.1 hflag)
      · intro h
        cases h with
        | required _ h => simp [isOptional_eq_false_iff.2 h]
        | invalid hvalue => simp [hnull] at hvalue
  | false =>
      simp only [Bool.false_eq_true, if_false]
      refine (checkValue_eq_error_iff h hnull).trans ⟨?_, ?_⟩
      · rintro ⟨hnot, rfl⟩
        exact .invalid hnull hnot
      · intro h
        cases h with
        | required hvalue => simp [hnull] at hvalue
        | invalid _ hnot => exact ⟨hnot, rfl⟩

theorem checkChange_eq (hfound : columns.get? name = some column) :
    checkChange columns name value =
      if column.primaryKey then .error (.primaryKeyUpdated name value)
      else if value.isNull then .ok ()
      else checkValue name value column := by
  rw [checkChange, hfound]

theorem checkChange_eq_ok_iff (hfound : columns.get? name = some column) :
    checkChange columns name value = .ok () ↔ PassesChange column value := by
  rw [checkChange_eq hfound]
  cases hkey : column.primaryKey with
  | true => exact iff_of_false (fun h => nomatch h) fun h => by simpa [hkey] using h.primaryKey
  | false =>
      rw [if_neg Bool.false_ne_true]
      cases hnull : value.isNull with
      | true => exact iff_of_true rfl ⟨hkey, fun hvalue => by simp [hnull] at hvalue⟩
      | false =>
          rw [if_neg Bool.false_ne_true]
          exact checkValue_eq_ok_iff.trans ⟨fun h => ⟨hkey, fun _ => h⟩, fun h => h.takes hnull⟩

theorem checkChange_eq_error_iff (hfound : columns.get? name = some column) (h : column.Valid) :
    checkChange columns name value = .error fault ↔ ChangeFault name column value fault := by
  rw [checkChange_eq hfound]
  cases hkey : column.primaryKey with
  | true =>
      rw [if_pos rfl]
      constructor
      · intro h
        cases h
        exact .primaryKey hkey
      · intro h
        cases h with
        | primaryKey => rfl
        | invalid hother => simp [hkey] at hother
  | false =>
      rw [if_neg Bool.false_ne_true]
      cases hnull : value.isNull with
      | true =>
          refine iff_of_false (fun h => nomatch h) fun h => ?_
          cases h with
          | primaryKey hother => simp [hkey] at hother
          | invalid _ hvalue => simp [hnull] at hvalue
      | false =>
          rw [if_neg Bool.false_ne_true]
          refine (checkValue_eq_error_iff h hnull).trans ⟨?_, ?_⟩
          · rintro ⟨hnot, rfl⟩
            exact .invalid hkey hnull hnot
          · intro h
            cases h with
            | primaryKey hother => simp [hkey] at hother
            | invalid _ _ hnot => exact ⟨hnot, rfl⟩

end Fields

section Records

variable {record : Entries} {columns : Keyed Column} {fault : Fault}

/-- Whether every name in a record is that of a column. -/
def IsKnown (record : Entries) (columns : Keyed Column) : Prop :=
  ∀ entry ∈ record, columns.has entry.1 = true

/-- Whether a full record is to be taken. -/
def IsFull (record : Entries) (columns : Keyed Column) : Prop :=
  IsKnown record columns ∧ ∀ entry ∈ columns, PassesField entry.2 (valueUnder record entry.1)

/-- Whether a partial record is to be taken. -/
def IsPartial (record : Entries) (columns : Keyed Column) : Prop :=
  ∀ entry ∈ record, ∃ column, columns.get? entry.1 = some column ∧ PassesChange column entry.2

/-- Whether a fault names the first entry of a record that is under no column. -/
def NamesUnknown (record : Entries) (columns : Keyed Column) (fault : Fault) : Prop :=
  ∃ earlier name value later, record = earlier ++ (name, value) :: later ∧
    IsKnown earlier columns ∧ columns.has name = false ∧ fault = .recordFieldUnknown name value

/-- Whether a fault is about the first column, in the order of the columns, that a full record does
not pass with. -/
def NamesColumn (record : Entries) (columns : Keyed Column) (fault : Fault) : Prop :=
  ∃ earlier name column later, columns = earlier ++ (name, column) :: later ∧
    (∀ entry ∈ earlier, PassesField entry.2 (valueUnder record entry.1)) ∧
    FieldFault name column (valueUnder record name) fault

/-- Whether a fault is about the first entry, in the order of the record, that a partial record does
not pass with. -/
def NamesEntry (record : Entries) (columns : Keyed Column) (fault : Fault) : Prop :=
  ∃ earlier name value later column, record = earlier ++ (name, value) :: later ∧
    IsPartial earlier columns ∧ columns.get? name = some column ∧
    ChangeFault name column value fault

/-- Whether the first name of a record that is under no column, if there is one, has a text. -/
def ShowsUnknown (record : Entries) (columns : Keyed Column) : Prop :=
  ∀ earlier name value later, record = earlier ++ (name, value) :: later →
    IsKnown earlier columns → columns.has name = false → name.isDisplayable = true

/-- A record without its primary key. -/
def withoutPrimaryKey (columns : Keyed Column) (record : Entries) : Entries :=
  record.filter fun entry => !(columns.get? entry.1).any fun column => column.primaryKey

theorem checkKnown_eq_ok_iff : checkKnown record columns = .ok () ↔ IsKnown record columns := by
  refine forM_eq_ok_iff.trans (forall₂_congr fun entry _ => ?_)
  cases hhas : columns.has entry.1 <;> simp [hhas]

theorem checkKnown_eq_error_iff :
    checkKnown record columns = .error fault ↔ NamesUnknown record columns fault := by
  have hstep : ∀ entry : Value × Value,
      (if columns.has entry.1 then .ok () else .error (.recordFieldUnknown entry.1 entry.2) :
        Except Fault Unit) = .ok () ↔ columns.has entry.1 = true := by
    intro entry
    cases columns.has entry.1 <;> simp
  refine forM_eq_error_iff.trans ?_
  constructor
  · rintro ⟨earlier, ⟨name, value⟩, later, rfl, hearlier, hentry⟩
    cases hhas : columns.has name with
    | true => simp [hhas] at hentry
    | false =>
        simp only [hhas, Bool.false_eq_true, if_false] at hentry
        exact ⟨earlier, name, value, later, rfl, fun entry h => (hstep entry).1 (hearlier entry h),
          hhas, (Except.error.inj hentry).symm⟩
  · rintro ⟨earlier, name, value, later, rfl, hearlier, hhas, rfl⟩
    exact ⟨earlier, (name, value), later, rfl, fun entry h => (hstep entry).2 (hearlier entry h),
      by simp [hhas]⟩

theorem valid_of_mem (h : Table.checkColumns columns = .ok ()) {entry : Value × Column}
    (hentry : entry ∈ columns) : entry.2.Valid :=
  Column.valid_of_check ((Table.checkColumns_eq_ok.1 h).2.2 entry hentry)

/-- A column that is found stands under a key that is the one it is looked up with. -/
theorem mem_of_get? {name : Value} {column : Column} (h : columns.get? name = some column) :
    ∃ key, (key, column) ∈ columns ∧ key.isKey name = true := by
  obtain ⟨⟨key, known⟩, hfound, rfl⟩ := Option.map_eq_some_iff.1 h
  have hkey := List.find?_some hfound
  exact ⟨key, List.mem_of_find?_eq_some hfound, hkey⟩

/-- Columns that pass stand under texts. -/
theorem isText_of_mem (hcolumns : Table.checkColumns columns = .ok ()) {entry : Value × Column}
    (hentry : entry ∈ columns) : entry.1.isText = true := by
  have hname := (Column.check_eq_ok.1 ((Table.checkColumns_eq_ok.1 hcolumns).2.2 _ hentry)).1
  obtain ⟨chars, htext, -⟩ := (Option.any_eq_true _ _).1 hname
  exact Option.isSome_iff_exists.2 ⟨chars, htext⟩

/-- A name under which a column is found is a text. -/
theorem isText_of_get? (hcolumns : Table.checkColumns columns = .ok ()) {name : Value}
    {column : Column} (h : columns.get? name = some column) : name.isText = true := by
  obtain ⟨key, hmem, hkey⟩ := mem_of_get? h
  obtain ⟨chars, htext⟩ := Option.isSome_iff_exists.1 (isText_of_mem hcolumns hmem)
  rw [Value.isKey_of_left_asText htext, decide_eq_true_iff] at hkey
  exact Option.isSome_iff_exists.2 ⟨chars, hkey⟩

theorem NamesColumn.isRefusal (h : NamesColumn record columns fault)
    (hcolumns : Table.checkColumns columns = .ok ()) : IsRefusal fault := by
  obtain ⟨_, _, _, _, rfl, -, hfault⟩ := h
  exact hfault.isRefusal (isText_of_mem hcolumns (List.mem_append_right _ List.mem_cons_self))

theorem NamesEntry.isRefusal (h : NamesEntry record columns fault)
    (hcolumns : Table.checkColumns columns = .ok ()) : IsRefusal fault := by
  obtain ⟨_, _, _, _, _, -, -, hfound, hfault⟩ := h
  exact hfault.isRefusal (isText_of_get? hcolumns hfound)

theorem IsKnown.exists_get? (h : IsKnown record columns) {entry : Value × Value}
    (hentry : entry ∈ record) : ∃ column, columns.get? entry.1 = some column :=
  Option.isSome_iff_exists.1 (Keyed.isSome_get?.trans (h entry hentry))

theorem IsPartial.isKnown (h : IsPartial record columns) : IsKnown record columns := by
  intro entry hentry
  obtain ⟨column, hfound, -⟩ := h entry hentry
  rw [← Keyed.isSome_get?, hfound]
  rfl

theorem check_eq_ok_iff : check record columns = .ok () ↔ IsFull record columns := by
  rw [check, bind_eq_ok]
  constructor
  · rintro ⟨_, hknown, hfields⟩
    exact ⟨checkKnown_eq_ok_iff.1 hknown,
      fun entry hentry => checkField_eq_ok_iff.1 (forM_eq_ok_iff.1 hfields entry hentry)⟩
  · rintro ⟨hknown, hfields⟩
    exact ⟨(), checkKnown_eq_ok_iff.2 hknown,
      forM_eq_ok_iff.2 fun entry hentry => checkField_eq_ok_iff.2 (hfields entry hentry)⟩

theorem checkPartial_eq_ok_iff :
    checkPartial record columns = .ok () ↔ IsPartial record columns := by
  rw [checkPartial, bind_eq_ok]
  constructor
  · rintro ⟨_, hknown, hchanges⟩ entry hentry
    obtain ⟨column, hfound⟩ := (checkKnown_eq_ok_iff.1 hknown).exists_get? hentry
    have hchange := forM_eq_ok_iff.1 hchanges entry hentry
    exact ⟨column, hfound, (checkChange_eq_ok_iff hfound).1 hchange⟩
  · intro h
    refine ⟨(), checkKnown_eq_ok_iff.2 h.isKnown, forM_eq_ok_iff.2 fun entry hentry => ?_⟩
    obtain ⟨column, hfound, hpasses⟩ := h entry hentry
    exact (checkChange_eq_ok_iff hfound).2 hpasses

theorem check_eq_error_iff (hcolumns : Table.checkColumns columns = .ok ()) :
    check record columns = .error fault ↔ NamesUnknown record columns fault ∨
      IsKnown record columns ∧ NamesColumn record columns fault := by
  have hfields : (columns.forM fun entry => checkField record entry.1 entry.2) = .error fault ↔
      NamesColumn record columns fault := by
    refine forM_eq_error_iff.trans ?_
    constructor
    · rintro ⟨earlier, ⟨name, column⟩, later, hitems, hearlier, hfault⟩
      have hvalid : column.Valid :=
        valid_of_mem hcolumns (by simp [hitems] : (name, column) ∈ columns)
      exact ⟨earlier, name, column, later, hitems,
        fun entry hentry => checkField_eq_ok_iff.1 (hearlier entry hentry),
        (checkField_eq_error_iff hvalid).1 hfault⟩
    · rintro ⟨earlier, name, column, later, hitems, hearlier, hfault⟩
      have hvalid : column.Valid :=
        valid_of_mem hcolumns (by simp [hitems] : (name, column) ∈ columns)
      exact ⟨earlier, (name, column), later, hitems,
        fun entry hentry => checkField_eq_ok_iff.2 (hearlier entry hentry),
        (checkField_eq_error_iff hvalid).2 hfault⟩
  rw [check, bind_eq_error, checkKnown_eq_error_iff]
  refine or_congr_right ⟨?_, ?_⟩
  · rintro ⟨_, hknown, h⟩
    exact ⟨checkKnown_eq_ok_iff.1 hknown, hfields.1 h⟩
  · rintro ⟨hknown, h⟩
    exact ⟨(), checkKnown_eq_ok_iff.2 hknown, hfields.2 h⟩

theorem checkPartial_eq_error_iff (hcolumns : Table.checkColumns columns = .ok ()) :
    checkPartial record columns = .error fault ↔ NamesUnknown record columns fault ∨
      IsKnown record columns ∧ NamesEntry record columns fault := by
  rw [checkPartial, bind_eq_error, checkKnown_eq_error_iff]
  refine or_congr_right ⟨?_, ?_⟩
  · rintro ⟨_, hknown, h⟩
    obtain ⟨earlier, ⟨name, value⟩, later, rfl, hearlier, hfault⟩ := forM_eq_error_iff.1 h
    have hknown := checkKnown_eq_ok_iff.1 hknown
    obtain ⟨column, hfound⟩ :=
      hknown.exists_get? (by simp : (name, value) ∈ earlier ++ (name, value) :: later)
    obtain ⟨_, hmem, -⟩ := mem_of_get? hfound
    refine ⟨hknown, earlier, name, value, later, column, rfl, fun entry hentry => ?_, hfound,
      (checkChange_eq_error_iff hfound (valid_of_mem hcolumns hmem)).1 hfault⟩
    obtain ⟨other, hother⟩ := hknown.exists_get? (List.mem_append_left _ hentry)
    exact ⟨other, hother, (checkChange_eq_ok_iff hother).1 (hearlier entry hentry)⟩
  · rintro ⟨hknown, earlier, name, value, later, column, rfl, hearlier, hfound, hfault⟩
    obtain ⟨_, hmem, -⟩ := mem_of_get? hfound
    refine ⟨(), checkKnown_eq_ok_iff.2 hknown, forM_eq_error_iff.2
      ⟨earlier, (name, value), later, rfl, fun entry hentry => ?_,
        (checkChange_eq_error_iff hfound (valid_of_mem hcolumns hmem)).2 hfault⟩⟩
    obtain ⟨other, hother, hpasses⟩ := hearlier entry hentry
    exact (checkChange_eq_ok_iff hother).2 hpasses

/-- A column that passes finds in a record what stands there under its name. -/
theorem valueUnder_of_mem (hcolumns : Table.checkColumns columns = .ok ())
    (hrecord : Keyed.HasDistinctKeys record) {name : Value} {column : Column}
    (hcolumn : (name, column) ∈ columns) {entry : Value × Value} (hentry : entry ∈ record)
    (hkey : name.isKey entry.1 = true) : valueUnder record name = entry.2 := by
  have hname := (Column.check_eq_ok.1 ((Table.checkColumns_eq_ok.1 hcolumns).2.2 _ hcolumn)).1
  cases htext : name.asText? with
  | none => simp [Identifier.isNameValue, htext] at hname
  | some chars =>
      rw [Value.isKey_of_left_asText htext, decide_eq_true_iff] at hkey
      rw [valueUnder, Keyed.get?_eq_at? htext, hrecord.at?_of_mem hentry hkey, Option.getD_some]

/-- A full record that is taken is taken as a partial one without its primary key. -/
theorem IsFull.isPartial (h : IsFull record columns)
    (hcolumns : Table.checkColumns columns = .ok ()) (hrecord : Keyed.HasDistinctKeys record) :
    IsPartial (withoutPrimaryKey columns record) columns := by
  intro entry hentry
  obtain ⟨hentry, hkept⟩ := List.mem_filter.1 hentry
  obtain ⟨column, hfound⟩ := h.1.exists_get? hentry
  obtain ⟨key, hmem, hkey⟩ := mem_of_get? hfound
  have hpasses := h.2 (key, column) hmem
  rw [valueUnder_of_mem hcolumns hrecord hmem hentry hkey] at hpasses
  exact ⟨column, hfound, by simpa [hfound] using hkept, hpasses.takes⟩

/-- A check that reports the first unknown name before anything else, and everything else as
invalid, reports all its faults exactly if that name can be shown. -/
theorem mayRefuse_iff_showsUnknown {outcome : Except Fault Unit} {names : Fault → Prop}
    (herror : ∀ fault, outcome = .error fault ↔
      NamesUnknown record columns fault ∨ IsKnown record columns ∧ names fault)
    (hnames : ∀ fault, names fault → IsRefusal fault) :
    MayRefuse outcome ↔ ShowsUnknown record columns := by
  constructor
  · intro h earlier name value later hrecord hearlier hhas
    have hrefusal := h _ ((herror _).2
      (.inl ⟨earlier, name, value, later, hrecord, hearlier, hhas, rfl⟩))
    exact (isRefusal_iff_of_shown rfl fun _ => rfl).1 hrefusal
  · intro h fault hfault
    rcases (herror fault).1 hfault with ⟨earlier, name, value, later, hrecord, hearlier, hhas, rfl⟩
      | ⟨-, hfault⟩
    · exact (isRefusal_iff_of_shown rfl fun _ => rfl).2
        (h earlier name value later hrecord hearlier hhas)
    · exact hnames fault hfault

/-- An unknown name without a text is not reported. -/
theorem report_eq_error_of_unshown {name : Value} (value : Value)
    (h : name.isDisplayable = false) :
    (Fault.recordFieldUnknown name value).report = .error .badValue := by
  show name.requireText.map _ = _
  rw [Value.requireText_eq, h]
  rfl

/-- Where the first unknown name cannot be shown, a fault that names it has no report. -/
theorem exists_namesUnknown_unreported (h : ¬ShowsUnknown record columns) :
    ∃ fault, NamesUnknown record columns fault ∧ fault.report = .error .badValue := by
  unfold ShowsUnknown at h
  push Not at h
  obtain ⟨earlier, name, value, later, hrecord, hearlier, hhas, hshown⟩ := h
  exact ⟨_, ⟨earlier, name, value, later, hrecord, hearlier, hhas, rfl⟩,
    report_eq_error_of_unshown value (Bool.eq_false_iff.2 hshown)⟩

/-- The checks of records, for columns that pass: a full record is taken if it names nothing but
columns and passes with each of them, a partial one if it passes with each of its entries. Otherwise
the first unknown name of the record is reported, or else the first column or the first entry that
it does not pass with. What is reported is always that the record is invalid, and only an unknown
name without a text keeps it from being reported. A full record that is taken is taken as a partial
one without its primary key. -/
theorem record_verdicts (hcolumns : Table.checkColumns columns = .ok ())
    (hrecord : Keyed.HasDistinctKeys record) :
    (check record columns = .ok () ↔ IsFull record columns) ∧
      (checkPartial record columns = .ok () ↔ IsPartial record columns) ∧
      (∀ fault, check record columns = .error fault ↔
        NamesUnknown record columns fault ∨
          IsKnown record columns ∧ NamesColumn record columns fault) ∧
      (∀ fault, checkPartial record columns = .error fault ↔
        NamesUnknown record columns fault ∨
          IsKnown record columns ∧ NamesEntry record columns fault) ∧
      (MayRefuse (check record columns) ↔ ShowsUnknown record columns) ∧
      (MayRefuse (checkPartial record columns) ↔ ShowsUnknown record columns) ∧
      (¬ShowsUnknown record columns → ∃ fault, check record columns = .error fault ∧
        checkPartial record columns = .error fault ∧ fault.report = .error .badValue) ∧
      (check record columns = .ok () →
        checkPartial (withoutPrimaryKey columns record) columns = .ok ()) := by
  have hfull := fun fault => @check_eq_error_iff record columns fault hcolumns
  have hpartial := fun fault => @checkPartial_eq_error_iff record columns fault hcolumns
  refine ⟨check_eq_ok_iff, checkPartial_eq_ok_iff, hfull, hpartial,
    mayRefuse_iff_showsUnknown hfull fun _ h => h.isRefusal hcolumns,
    mayRefuse_iff_showsUnknown hpartial fun _ h => h.isRefusal hcolumns, fun h => ?_, fun h => ?_⟩
  · obtain ⟨fault, hunknown, hreport⟩ := exists_namesUnknown_unreported h
    exact ⟨fault, (hfull fault).2 (.inl hunknown), (hpartial fault).2 (.inl hunknown), hreport⟩
  · exact checkPartial_eq_ok_iff.2 ((check_eq_ok_iff.1 h).isPartial hcolumns hrecord)

end Records

/-- Columns for people: a number as the primary key, and a name. -/
def peopleColumns : Keyed Column :=
  [(.text "id", { kind := .uint32, primaryKey := true }), (.text "name", { kind := .string })]

/-- A person passes, and without the number also as a change; a change of the number is reported. -/
theorem record_verdicts_people :
    let record : Entries := [(.text "id", .int 1), (.text "name", .text "a")]
    Table.checkColumns peopleColumns = .ok () ∧ Keyed.HasDistinctKeys record ∧
      check record peopleColumns = .ok () ∧
      checkPartial [(.text "name", .text "a")] peopleColumns = .ok () ∧
      checkPartial record peopleColumns = .error (.primaryKeyUpdated (.text "id") (.int 1)) := by
  intro record
  have hcolumns : Table.checkColumns peopleColumns = .ok () := by rfl
  have hrecord : Keyed.HasDistinctKeys record := by
    simp [record, Keyed.HasDistinctKeys, Value.text_isKey, Value.asText?]
  obtain ⟨hfull, -, -, hpartial, -, -, -, hremoved⟩ := record_verdicts hcolumns hrecord
  have hid : Takes { kind := .uint32, primaryKey := true } (.int 1) :=
    toOption_eq_some.1 (by decide +kernel)
  have hname : Takes { kind := .string } (.text "a") := toOption_eq_some.1 (by decide +kernel)
  have hkeys : ∀ key other, (Value.text key).isKey (.text other) = decide (other = key) :=
    fun key other => by simp [Value.text_isKey, Value.asText?]
  have htaken : check record peopleColumns = .ok () := by
    refine hfull.2 ⟨?_, List.forall_mem_cons.2 ⟨?_, List.forall_mem_singleton.2 ?_⟩⟩
    · simp [IsKnown, record, Keyed.has, peopleColumns, hkeys]
    · have hvalue : valueUnder record (.text "id") = .int 1 := by
        simp [valueUnder, Keyed.get?, record, hkeys]
      exact ⟨fun h => by simp [hvalue, Value.isNull] at h, fun _ => hvalue ▸ hid⟩
    · have hvalue : valueUnder record (.text "name") = .text "a" := by
        simp [valueUnder, Keyed.get?, record, hkeys]
      exact ⟨fun h => by simp [hvalue, Value.isNull] at h, fun _ => hvalue ▸ hname⟩
  refine ⟨hcolumns, hrecord, htaken, ?_, (hpartial _).2 (.inr ⟨?_, ?_⟩)⟩
  · have hrest := hremoved htaken
    have hwithout : withoutPrimaryKey peopleColumns record = [(.text "name", .text "a")] := by
      simp [withoutPrimaryKey, Keyed.get?, record, peopleColumns, hkeys]
    rwa [hwithout] at hrest
  · exact (hfull.1 htaken).1
  · refine ⟨[], _, _, _, { kind := .uint32, primaryKey := true }, rfl, by simp [IsPartial], ?_,
      .primaryKey rfl⟩
    simp [Keyed.get?, peopleColumns, hkeys]

/-- A column of fixed texts has a text exactly if the numeral of its length is short enough. -/
theorem isDisplayable_fixedString (length : Int) :
    (Value.column { kind := .fixedString, length := some length } none []).isDisplayable =
      hasNumeral length := by
  simp [Value.isDisplayable, Value.isInspectable, Value.hasDimensionNumerals, Dimension.all,
    ColumnSettings.dimension?, Value.hasInspectableDefault, Value.hasInspectableLoose]

/-- No column of people is named by a column. -/
theorem has_peopleColumns_column (settings : ColumnSettings) (default : Option (Default Value))
    (loose : List (Dimension × Value)) :
    peopleColumns.has (.column settings default loose) = false := by
  simp [peopleColumns, Keyed.has, Value.text_isKey, Value.asText?]

/-- A name that is a column with a length of one digit too many has no text, so that neither check
can report that it is unknown. -/
theorem unshown_name_not_reported :
    let name : Value := .column { kind := .fixedString, length := some (tenTo maxDigits) } none []
    let record : Entries := [(name, .int 1)]
    Table.checkColumns peopleColumns = .ok () ∧ Keyed.HasDistinctKeys record ∧
      check record peopleColumns = .error (.recordFieldUnknown name (.int 1)) ∧
      checkPartial record peopleColumns = .error (.recordFieldUnknown name (.int 1)) ∧
      (Fault.recordFieldUnknown name (.int 1)).report = .error .badValue := by
  intro name record
  have hshown : name.isDisplayable = false :=
    (isDisplayable_fixedString _).trans hasNumeral_tenTo_maxDigits
  have hhas : peopleColumns.has name = false := has_peopleColumns_column _ _ _
  have hcolumns : Table.checkColumns peopleColumns = .ok () := by rfl
  have hunknown : NamesUnknown record peopleColumns (.recordFieldUnknown name (.int 1)) :=
    ⟨[], name, .int 1, [], rfl, fun _ h => absurd h List.not_mem_nil, hhas, rfl⟩
  refine ⟨hcolumns, List.pairwise_singleton _ _, (check_eq_error_iff hcolumns).2 (.inl hunknown),
    (checkPartial_eq_error_iff hcolumns).2 (.inl hunknown), report_eq_error_of_unshown _ hshown⟩

end Record

end TypedSql
