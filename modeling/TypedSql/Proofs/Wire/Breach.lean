import TypedSql.Proofs.Calendar.Range
import TypedSql.Proofs.Wire.Document
import TypedSql.Proofs.Wire.Sendable

/-!
# Conversions that break

A conversion to or from the wire gives a value, reports why there is none, or breaks with an
exception that is no report. `conversions_break_iff` says when it breaks: a decimal without a whole
part for an integer kind, a whole number without a nearest binary number or without a numeral, a
moment beyond the calendar, a document without a JSON text, and a received text that is no JSON. All
else is converted or reported.
-/

namespace TypedSql

/-- Whether a fault is the report of a conversion. -/
def Fault.isTypeMapping (fault : Fault) : Bool :=
  fault.report?.any fun report => report.family = .typeMapping

namespace Wire

open TypedSql.Number TypedSql.Calendar TypedSql.Outcome

section Outcomes

variable {α β : Type} {outcome : Except Fault α} {broken other : Prop}

/-- `BreaksIff outcome broken` says that an outcome is a breach exactly under a condition. Its other
faults are reports of conversions. -/
structure BreaksIff (outcome : Except Fault α) (broken : Prop) : Prop where
  breach : broken → ∃ breach, outcome = .error (.breach breach)
  report : ¬broken → ∀ fault, outcome = .error fault → fault.isTypeMapping = true

/-- The first of some items to break: those before it are converted. -/
def FirstBreaks (step : α → Except Fault β) (broken : α → Prop) (items : List α) : Prop :=
  ∃ earlier item later, items = earlier ++ item :: later ∧
    (∀ passed ∈ earlier, ∃ result, step passed = .ok result) ∧ broken item

/-- Of some items the first one breaks, or it is converted and one of the others does. -/
theorem firstBreaks_cons_iff {step : α → Except Fault β} {broken : α → Prop} {item : α}
    {rest : List α} : FirstBreaks step broken (item :: rest) ↔
      broken item ∨ ∃ result, step item = .ok result ∧ FirstBreaks step broken rest := by
  constructor
  · rintro ⟨earlier, breaking, later, hitems, hearlier, hbroken⟩
    cases earlier with
    | nil =>
        cases hitems
        exact .inl hbroken
    | cons passed others =>
        cases hitems
        obtain ⟨⟨result, hresult⟩, hothers⟩ := List.forall_mem_cons.1 hearlier
        exact .inr ⟨result, hresult, others, breaking, later, rfl, hothers, hbroken⟩
  · rintro (hbroken | ⟨result, hresult, earlier, breaking, later, rfl, hearlier, hbroken⟩)
    · exact ⟨[], item, rest, rfl, by simp, hbroken⟩
    · exact ⟨item :: earlier, breaking, later, rfl,
        List.forall_mem_cons.2 ⟨⟨result, hresult⟩, hearlier⟩, hbroken⟩

namespace BreaksIff

/-- An outcome without breaches has no faults but reports exactly if it does not break. -/
theorem reports_iff (h : BreaksIff outcome broken) :
    (∀ fault, outcome = .error fault → fault.isTypeMapping = true) ↔ ¬broken := by
  refine ⟨fun hreports hbroken => ?_, h.report⟩
  obtain ⟨breach, hbreach⟩ := h.breach hbroken
  exact Bool.false_ne_true (hreports _ hbreach)

theorem ok {result : α} (h : ¬broken) : BreaksIff (.ok result) broken :=
  ⟨fun hbroken => absurd hbroken h, fun _ _ heq => nomatch heq⟩

theorem of_breach {breach : Breach} (h : broken) :
    BreaksIff (.error (.breach breach) : Except Fault α) broken :=
  ⟨fun _ => ⟨breach, rfl⟩, fun hsound => absurd h hsound⟩

theorem fail (expectation : Expectation) (value : Value) (kind : Kind) (h : ¬broken) :
    BreaksIff (Wire.fail expectation value kind : Except Fault α) broken :=
  ⟨fun hbroken => absurd hbroken h, fun _ _ heq => by cases heq; rfl⟩

theorem orFail (expectation : Expectation) (value : Value) (kind : Kind) (read : Option α)
    (h : ¬broken) : BreaksIff (Wire.orFail expectation value kind read) broken := by
  cases read with
  | none => exact fail expectation value kind h
  | some result => exact ok h

theorem ite {condition : Prop} [Decidable condition] {first second : Except Fault α}
    (hfirst : BreaksIff first broken) (hsecond : BreaksIff second broken) :
    BreaksIff (if condition then first else second) broken := by
  split
  · exact hfirst
  · exact hsecond

/-- A step all of whose faults are breaches breaks exactly where it gives no result. -/
theorem of_exists (hresult : (∃ result, outcome = .ok result) ↔ ¬broken)
    (hfaults : ∀ fault, outcome = .error fault → ∃ breach, fault = .breach breach) :
    BreaksIff outcome broken := by
  cases outcome with
  | ok result => exact ok (hresult.1 ⟨result, rfl⟩)
  | error fault =>
      obtain ⟨breach, rfl⟩ := hfaults fault rfl
      refine of_breach (not_not.1 fun hsound => ?_)
      obtain ⟨_, h⟩ := hresult.2 hsound
      cases h

/-- A step whose own faults are turned into breaches breaks exactly where it gives no result. -/
theorem mapError {ε : Type} {first : Except ε α} {change : ε → Fault}
    (hresult : (∃ result, first = .ok result) ↔ ¬broken)
    (hchange : ∀ fault, ∃ breach, change fault = .breach breach) :
    BreaksIff (first.mapError change) broken := by
  have hchanged : (∃ result, first.mapError change = .ok result) ↔
      ∃ result, first = .ok result := by
    cases first <;> simp [Except.mapError]
  refine of_exists (hchanged.trans hresult) fun fault h => ?_
  cases first with
  | ok result => cases h
  | error known =>
      cases h
      exact hchange known

theorem congr (h : BreaksIff outcome broken) (hiff : broken ↔ other) : BreaksIff outcome other :=
  ⟨fun hother => h.breach (hiff.2 hother), fun hsound => h.report fun hbroken =>
    hsound (hiff.1 hbroken)⟩

theorem not_broken {result : α} (h : BreaksIff (.ok result) broken) : ¬broken := by
  intro hbroken
  obtain ⟨_, heq⟩ := h.breach hbroken
  cases heq

/-- A fault breaks whatever the result would have been. -/
theorem of_error {fault : Fault} (h : BreaksIff (.error fault : Except Fault α) broken) :
    BreaksIff (.error fault : Except Fault β) broken := by
  refine ⟨fun hbroken => ?_, fun hsound _ heq => ?_⟩
  · obtain ⟨breach, heq⟩ := h.breach hbroken
    cases heq
    exact ⟨breach, rfl⟩
  · cases heq
    exact h.report hsound fault rfl

theorem map (h : BreaksIff outcome broken) (change : α → β) :
    BreaksIff (outcome.map change) broken := by
  cases outcome with
  | ok result => exact ok h.not_broken
  | error fault => exact h.of_error

/-- Two steps break if the first one does, or the second one from there. -/
theorem bind {later : α → Prop} {next : α → Except Fault β} (h : BreaksIff outcome broken)
    (hnext : ∀ result, outcome = .ok result → BreaksIff (next result) (later result)) :
    BreaksIff (outcome >>= next) (broken ∨ ∃ result, outcome = .ok result ∧ later result) := by
  cases outcome with
  | ok result =>
      refine (hnext result rfl).congr ?_
      simp [h.not_broken]
  | error fault =>
      have hfault : BreaksIff (.error fault : Except Fault β) broken := h.of_error
      exact hfault.congr (by simp)

/-- With a step behind that never breaks, an outcome breaks as it does by itself. -/
theorem bind_sound {next : α → Except Fault β} (h : BreaksIff outcome broken)
    (hnext : ∀ result, BreaksIff (next result) False) : BreaksIff (outcome >>= next) broken :=
  (h.bind fun result _ => hnext result).congr (by simp)

/-- A step for every item of a list breaks where the first item does that is not converted. -/
theorem mapM {step : α → Except Fault β} {broken : α → Prop}
    (h : ∀ item, BreaksIff (step item) (broken item)) (items : List α) :
    BreaksIff (items.mapM step) (FirstBreaks step broken items) := by
  induction items with
  | nil => exact ok fun ⟨earlier, _, _, hitems, _⟩ => by cases earlier <;> cases hitems
  | cons item rest ih =>
      rw [List.mapM_cons]
      have hrest : ∀ result : β, BreaksIff (do return result :: (← rest.mapM step))
          (FirstBreaks step broken rest) := fun result => by
        rw [bind_pure_eq_map (List.cons result)]
        exact ih.map _
      exact ((h item).bind fun result _ => hrest result).congr firstBreaks_cons_iff.symm

end BreaksIff

end Outcomes

section Scalars

variable {value : Value} {kind : Kind}

/-- Decimals without a whole part that are not refused as such: infinities and signaling NaNs. -/
def HasNoWhole : Value → Prop
  | .decimal (.infinity _) => True
  | .decimal (.nan _ signaling _) => signaling = true
  | _ => False

/-- Whole numbers without a nearest binary number. -/
def HasNoBinary : Value → Prop
  | .int number => Binary64.overflowBound ≤ number.natAbs
  | _ => False

/-- Numbers that count no moment: timestamps outside of the calendar, infinities and NaN. -/
def IsBeyond : Value → Prop
  | .int seconds => ¬(-62135596800 ≤ seconds ∧ seconds ≤ 253402300799)
  | .float seconds => ¬∃ micros, Moment.countedMicros? seconds = some micros ∧
      Moment.InCalendar (Moment.epoch.localMicros + micros)
  | _ => False

/-- Texts that are no JSON, or none that the reader follows. -/
def IsUnreadable [Json.Depth] (chars : String) : Prop := ∀ document, Json.read chars ≠ .ok document

theorem breaksIff_toInteger (value : Value) (kind : Kind) :
    BreaksIff (toInteger value kind) (HasNoWhole value) := by
  cases value with
  | bool | int => exact .ok id
  | float number =>
      cases number with
      | finite => exact .ite (.ok id) (.fail _ _ _ id)
      | _ => exact .fail _ _ _ id
  | decimal number =>
      cases number with
      | finite => exact .ite (.ok id) (.fail _ _ _ id)
      | infinity negative => exact .of_breach trivial
      | nan negative signaling payload =>
          cases signaling with
          | false => exact .fail _ _ _ Bool.noConfusion
          | true => exact .of_breach rfl
  | _ =>
      simp only [toInteger]
      exact .orFail _ _ _ _ id

theorem breaksIff_floatOfInt (number : Int) :
    BreaksIff (floatOfInt number) (Binary64.overflowBound ≤ number.natAbs) := by
  refine .of_exists (exists_floatOfInt_iff.trans Nat.not_le.symm) fun fault h => ?_
  unfold floatOfInt at h
  split at h
  · cases h
    exact ⟨_, rfl⟩
  · cases h

theorem breaksIff_toFloat (value : Value) (kind : Kind) :
    BreaksIff (toFloat value kind) (HasNoBinary value) := by
  cases value with
  | bool flag =>
      have hsmall : ∃ nearest, floatOfInt flag.toInt = .ok nearest := by
        cases flag <;> exact ⟨_, rfl⟩
      exact (breaksIff_floatOfInt flag.toInt).congr
        (iff_of_false (Nat.not_le.2 (exists_floatOfInt_iff.1 hsmall)) id)
  | int number => exact breaksIff_floatOfInt number
  | float number => exact .ok id
  | _ =>
      simp only [toFloat]
      exact .orFail _ _ _ _ id

/-- What has no text form cannot be displayed; nothing else can go wrong. -/
theorem breaksIff_displayed (value : Value) :
    BreaksIff value.displayed (value.isDisplayable = false) := by
  refine .of_exists (Value.exists_displayed_iff.trans (Bool.not_eq_false _).to_iff.symm)
    fun fault h => ?_
  rw [Value.displayed] at h
  cases hshown : value.requireText with
  | ok chars => simp [hshown, Except.mapError] at h
  | error breach =>
      rw [hshown] at h
      exact ⟨breach, (Except.error.inj h).symm⟩

theorem breaksIff_toDecimal (value : Value) (kind : Kind) :
    BreaksIff (toDecimal value kind) (value.isDisplayable = false) := by
  have hread : BreaksIff (do orFail .decimal value kind (Decimal.read? (← value.displayed).toList))
      (value.isDisplayable = false) :=
    (breaksIff_displayed value).bind_sound fun _ => .orFail _ _ _ _ id
  cases value with
  | decimal number => exact .ok Bool.noConfusion
  | _ => exact hread

theorem breaksIff_toText (value : Value) :
    BreaksIff (toText value) (value.isDisplayable = false) := by
  have hshown : BreaksIff (value.displayed.map Value.text) (value.isDisplayable = false) :=
    (breaksIff_displayed value).map _
  cases value with
  | kind | operator | member => exact .ok Bool.noConfusion
  | _ => exact hshown

theorem breaksIff_toMoment (value : Value) (kind : Kind) :
    BreaksIff (toMoment value kind) (IsBeyond value) := by
  have hbreach : ∀ timestampFault, ∃ breach, timestampBreach timestampFault = .breach breach := by
    intro timestampFault
    cases timestampFault <;> exact ⟨_, rfl⟩
  cases value with
  | moment | date => exact .ok id
  | int seconds =>
      exact .mapError (Moment.exists_ofSeconds_iff.trans not_not.symm) hbreach
  | float seconds =>
      exact .mapError (Moment.exists_ofTimestamp_iff.trans not_not.symm) hbreach
  | _ =>
      simp only [toMoment]
      exact .orFail _ _ _ _ id

/-- A moment has no universal form exactly beyond the calendar. -/
theorem breaksIff_toUniversal (moment : Moment) :
    BreaksIff (toUniversal moment) ¬Moment.InCalendar moment.universalMicros := by
  rw [← Moment.exists_universal?_iff, toUniversal]
  cases moment.universal? with
  | none =>
      refine .of_breach ?_
      rintro ⟨_, h⟩
      cases h
  | some universal => exact .ok (not_not.2 ⟨universal, rfl⟩)

theorem breaksIff_jsonText (value : Value) :
    BreaksIff value.jsonText (Json.isWritable value = false) :=
  .mapError ((Json.exists_write_iff value).trans (Bool.not_eq_false _).to_iff.symm)
    fun _ => ⟨_, rfl⟩

theorem breaksIff_readJson [Json.Depth] (chars : String) :
    BreaksIff (readJson chars) (IsUnreadable chars) := by
  refine .mapError (by simp [IsUnreadable]) fun fault => ?_
  cases fault <;> exact ⟨_, rfl⟩

end Scalars

section Conversions

variable (value : Value) (kind : Kind)

/-- A text that is no JSON. -/
def IsUnreadableText [Json.Depth] (value : Value) : Prop :=
  ∃ chars, value.asText? = some chars ∧ IsUnreadable chars

/-- A text that is no JSON, or bytes that are no such text in any encoding. -/
def IsUnreadableDocument [Json.Depth] : Value → Prop
  | .bytes octets =>
    ∀ chars, Text.Encoding.decode? octets = some chars → IsUnreadable (String.ofList chars)
  | value => IsUnreadableText value

/-- What has no wire form for a kind without an element kind, and is not reported. -/
def BreaksPresentEncoding : Prop :=
  match kind with
  | .uint8 | .uint16 | .uint32 | .uint64 | .int8 | .int16 | .int32 | .int64 => HasNoWhole value
  | .float32 | .float64 => HasNoBinary value
  | .decimal | .string | .fixedString | .uuid | .ipv4 | .ipv6 | .enum8 | .enum16 =>
    value.isDisplayable = false
  | .date | .date32 | .dateTime | .dateTime64 =>
    IsBeyond value ∨
      ∃ moment, toMoment value kind = .ok moment ∧ ¬Moment.InCalendar moment.universalMicros
  | .map | .json => isStoredAsJson kind value = true ∧ Json.isWritable value = false
  | .boolean | .array | .tuple | .nested | .nullable | .lowCardinality => False

/-- What has no program form for a kind without an element kind, and is not reported. -/
def BreaksPresentDecoding [Json.Depth] : Prop :=
  match kind with
  | .uint8 | .uint16 | .uint32 | .uint64 | .int8 | .int16 | .int32 | .int64 => HasNoWhole value
  | .float32 | .float64 => HasNoBinary value
  | .decimal | .string | .fixedString | .uuid | .ipv4 | .ipv6 | .enum8 | .enum16 =>
    value.isDisplayable = false
  | .date | .date32 | .dateTime | .dateTime64 => IsBeyond value
  | .array => IsUnreadableText value
  | .map | .json => IsUnreadableDocument value
  | .boolean | .tuple | .nested | .nullable | .lowCardinality => False

theorem breaksIff_encodePresent :
    BreaksIff (encodePresent value kind) (BreaksPresentEncoding value kind) := by
  cases kind with
  | uint8 | uint16 | uint32 | uint64 | int8 | int16 | int32 | int64 =>
      exact (breaksIff_toInteger value _).map _
  | float32 | float64 => exact (breaksIff_toFloat value _).map _
  | decimal => exact (breaksIff_toDecimal value _).map _
  | string | fixedString | uuid | ipv4 | ipv6 | enum8 | enum16 => exact breaksIff_toText value
  | date | date32 | dateTime | dateTime64 =>
      refine (breaksIff_toMoment value _).bind fun moment _ => ?_
      rw [bind_pure_eq_map]
      exact (breaksIff_toUniversal moment).map _
  | map =>
      cases value with
      | map entries =>
          exact ((breaksIff_jsonText (.map entries)).map _).congr (and_iff_right rfl).symm
      | _ => exact .fail _ _ _ (fun h => nomatch h.1)
  | json =>
      cases value with
      | map entries =>
          exact ((breaksIff_jsonText (.map entries)).map _).congr (and_iff_right rfl).symm
      | list items =>
          exact ((breaksIff_jsonText (.list items)).map _).congr (and_iff_right rfl).symm
      | _ => exact .fail _ _ _ (fun h => nomatch h.1)
  | array | tuple => exact (BreaksIff.orFail _ _ _ _ id).map _
  | boolean | nested | nullable | lowCardinality => exact .ok id

variable {value} in
theorem not_isUnreadableText [Json.Depth] (h : value.asText? = none) : ¬IsUnreadableText value :=
  fun ⟨_, htext, _⟩ => nomatch h.symm.trans htext

variable {value} in
theorem isUnreadableText_iff [Json.Depth] {chars : String} (h : value.asText? = some chars) :
    IsUnreadable chars ↔ IsUnreadableText value := by
  simp [IsUnreadableText, h]

theorem breaksIff_receivedItems [Json.Depth] :
    BreaksIff (receivedItems value kind) (IsUnreadableText value) := by
  unfold receivedItems
  cases htext : value.asText? with
  | none => exact .orFail _ _ _ _ (not_isUnreadableText htext)
  | some chars =>
      have hitems : BreaksIff (readJson chars >>= fun received =>
          orFail .storedArray received kind received.asItems?) (IsUnreadable chars) :=
        (breaksIff_readJson chars).bind_sound fun _ => .orFail _ _ _ _ id
      exact hitems.congr (isUnreadableText_iff htext)

theorem breaksIff_readJsonBytes [Json.Depth] (octets : List UInt8) :
    BreaksIff (readJsonBytes octets) (IsUnreadableDocument (.bytes octets)) := by
  unfold readJsonBytes
  cases hdecoded : Text.Encoding.decode? octets with
  | none => exact .of_breach fun _ h => nomatch hdecoded.symm.trans h
  | some chars =>
      exact (breaksIff_readJson _).congr (by simp [IsUnreadableDocument, hdecoded])

/-- A received document is read from texts and bytes, and stands for itself otherwise. -/
theorem breaksIff_decodePresent_json [Json.Depth] :
    BreaksIff (decodePresent value .json) (IsUnreadableDocument value) := by
  cases value with
  | bytes octets => exact breaksIff_readJsonBytes octets
  | text | kind | operator => exact (breaksIff_readJson _).congr (isUnreadableText_iff rfl)
  | _ => exact .ok (not_isUnreadableText rfl)

variable {kind} in
/-- A received date is itself, and any other value is read as a moment. -/
theorem breaksIff_receivedDate [Json.Depth] (hkind : kind = .date ∨ kind = .date32) :
    BreaksIff (decodePresent value kind) (IsBeyond value) := by
  have hmoment : BreaksIff ((toMoment value kind).map fun moment => Value.date moment.date)
      (IsBeyond value) := (breaksIff_toMoment value kind).map _
  rcases hkind with rfl | rfl
  · cases value with
    | date known => exact .ok id
    | _ => exact hmoment
  · cases value with
    | date known => exact .ok id
    | _ => exact hmoment

theorem breaksIff_decodePresent [Json.Depth] :
    BreaksIff (decodePresent value kind) (BreaksPresentDecoding value kind) := by
  cases kind with
  | uint8 | uint16 | uint32 | uint64 | int8 | int16 | int32 | int64 =>
      exact (breaksIff_toInteger value _).map _
  | float32 | float64 => exact (breaksIff_toFloat value _).map _
  | decimal => exact (breaksIff_toDecimal value _).map _
  | string | fixedString | uuid | ipv4 | ipv6 | enum8 | enum16 =>
      exact (breaksIff_displayed value).map _
  | date => exact breaksIff_receivedDate value (.inl rfl)
  | date32 => exact breaksIff_receivedDate value (.inr rfl)
  | dateTime | dateTime64 => exact (breaksIff_toMoment value _).map _
  | array => exact (breaksIff_receivedItems value _).map _
  | map | json => exact breaksIff_decodePresent_json value
  | boolean | tuple | nested | nullable | lowCardinality => exact .ok id

end Conversions

section Elements

variable {value : Value} {broken : Prop}

/-- Null is converted; any other value breaks as the conversion of present values does. -/
theorem BreaksIff.unless_null {conversion : Except Fault Value} (h : BreaksIff conversion broken) :
    BreaksIff (if value.isNull then .ok .null else conversion) (value.isNull = false ∧ broken) := by
  cases value.isNull with
  | true => exact .ok fun hpresent => Bool.noConfusion hpresent.1
  | false => exact h.congr (and_iff_right rfl).symm

/-- What has no wire form for the kind of elements, and is not reported. -/
def BreaksElementEncoding (element : Kind) (value : Value) : Prop :=
  value.isNull = false ∧ BreaksPresentEncoding value element

/-- What has no program form for the kind of elements, and is not reported. -/
def BreaksElementDecoding [Json.Depth] (element : Kind) (value : Value) : Prop :=
  value.isNull = false ∧ BreaksPresentDecoding value element

/-- What has no wire form for a column kind and the kind of its elements, and is not reported. In an
array the first item that is not converted decides. -/
def BreaksEncoding (value : Value) (kind : Kind) (elementKind : Option Kind) : Prop :=
  value.isNull = false ∧
    match kind, elementKind with
    | .array, some element =>
      ∃ items, value.asItems? = some items ∧
        FirstBreaks (encodeElement element) (BreaksElementEncoding element) items
    | .lowCardinality, some element => BreaksElementEncoding element value
    | .nullable, some element => BreaksElementEncoding element value
    | _, _ => BreaksPresentEncoding value kind

/-- What has no program form for a column kind and the kind of its elements, and is not reported. An
array in a text has to be JSON, and the first item that is not converted decides. -/
def BreaksDecoding [Json.Depth] (value : Value) (kind : Kind) (elementKind : Option Kind) : Prop :=
  value.isNull = false ∧
    match kind, elementKind with
    | .array, some element =>
      IsUnreadableText value ∨
        ∃ items, receivedItems value kind = .ok items ∧
          FirstBreaks (decodeElement element) (BreaksElementDecoding element) items
    | .lowCardinality, some element => BreaksElementDecoding element value
    | .nullable, some element => BreaksElementDecoding element value
    | _, _ => BreaksPresentDecoding value kind

theorem breaksIff_encodeElement (element : Kind) (value : Value) :
    BreaksIff (encodeElement element value) (BreaksElementEncoding element value) :=
  (breaksIff_encodePresent value element).unless_null

theorem breaksIff_decodeElement [Json.Depth] (element : Kind) (value : Value) :
    BreaksIff (decodeElement element value) (BreaksElementDecoding element value) :=
  (breaksIff_decodePresent value element).unless_null

/-- Items are converted one by one, once there are items. -/
theorem BreaksIff.items {given : Except Fault (List Value)} {step : Value → Except Fault Value}
    {breaks : Value → Prop} (h : BreaksIff given broken)
    (hstep : ∀ item, BreaksIff (step item) (breaks item)) :
    BreaksIff (do return Value.list (← (← given).mapM step))
      (broken ∨ ∃ items, given = .ok items ∧ FirstBreaks step breaks items) := by
  refine h.bind fun items _ => ?_
  rw [bind_pure_eq_map]
  exact (mapM hstep items).map _

theorem breaksIff_encode (value : Value) (kind : Kind) (elementKind : Option Kind) :
    BreaksIff (encode value kind elementKind) (BreaksEncoding value kind elementKind) := by
  refine BreaksIff.unless_null ?_
  have hpresent := breaksIff_encodePresent value kind
  cases kind with
  | array =>
      cases elementKind with
      | none => exact hpresent
      | some element =>
          have hitems := (BreaksIff.orFail .array value .array value.asItems? id).items
            (breaksIff_encodeElement element)
          -- what is no list or tuple is reported, so that only items can break
          exact hitems.congr (by simp only [orFail_eq_ok, false_or])
  | lowCardinality | nullable =>
      cases elementKind with
      | none => exact hpresent
      | some element => exact breaksIff_encodeElement element value
  | _ => exact hpresent

theorem breaksIff_decode [Json.Depth] (value : Value) (kind : Kind) (elementKind : Option Kind) :
    BreaksIff (decode value kind elementKind) (BreaksDecoding value kind elementKind) := by
  refine BreaksIff.unless_null ?_
  have hpresent := breaksIff_decodePresent value kind
  cases kind with
  | array =>
      cases elementKind with
      | none => exact hpresent
      | some element =>
          exact (breaksIff_receivedItems value .array).items (breaksIff_decodeElement element)
  | lowCardinality | nullable =>
      cases elementKind with
      | none => exact hpresent
      | some element => exact breaksIff_decodeElement element value
  | _ => exact hpresent

/-- The conversions of a value for a kind and a kind of elements, to the wire and from it, give a
value or the report of a conversion exactly if they do not break. -/
theorem conversions_break_iff [Json.Depth] (value : Value) (kind : Kind)
    (elementKind : Option Kind) :
    ((∀ fault, encode value kind elementKind = .error fault → fault.isTypeMapping = true) ↔
      ¬BreaksEncoding value kind elementKind) ∧
      ((∀ fault, decode value kind elementKind = .error fault → fault.isTypeMapping = true) ↔
        ¬BreaksDecoding value kind elementKind) :=
  ⟨(breaksIff_encode value kind elementKind).reports_iff,
    (breaksIff_decode value kind elementKind).reports_iff⟩

/-- An infinite decimal for an integer column, and a text that is no JSON for a column of arrays,
break the conversions to the wire and from it. -/
theorem conversions_break :
    encode (.decimal (.infinity false)) .int32 none = .error (.breach .outOfRange) ∧
      decode (.text "x") .array none = .error (.breach .malformedJson) ∧
        Fault.isTypeMapping (.breach .outOfRange) = false ∧
          Fault.isTypeMapping (.breach .malformedJson) = false :=
  ⟨rfl, rfl, rfl, rfl⟩

end Elements

end Wire

end TypedSql
