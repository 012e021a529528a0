import TypedSql.Proofs.Calendar.Moment
import TypedSql.Proofs.Json.Writable
import TypedSql.Proofs.Number.Overflow
import TypedSql.Proofs.Number.Shortest
import TypedSql.Proofs.Value.Display
import TypedSql.Wire.Accept
import TypedSql.Wire.Encode

/-!
# Accepted values that can be sent

What a column accepts need not have a form that can be sent: acceptance looks neither at the items
of a container nor at the size of a number. `Column.Sends` says of an accepted value what acceptance
leaves open, and `exists_encode_iff` that nothing else does.
-/

namespace TypedSql

open TypedSql.Number TypedSql.Calendar TypedSql.Outcome

namespace Value

/-- Whether a value, where it is a binary number, is one of 53 bits and an exponent in range. -/
def IsProper : Value → Prop
  | float number => number.IsProper
  | _ => True

/-- Whether a number has a nearest binary number: large whole numbers and signaling NaNs have none.
-/
def HasNearest : Value → Prop
  | int number => number.natAbs < Binary64.overflowBound
  | decimal (.nan _ signaling _) => signaling = false
  | _ => True

end Value

namespace Wire

variable {value : Value} {kind : Kind}

/-- Whether every moment that a value stands for has a form in universal time. -/
def HasUniversal (value : Value) (kind : Kind) : Prop :=
  ∀ moment, toMoment value kind = .ok moment → ∃ universal : Moment, universal.IsUniversalOf moment

/-- What acceptance leaves open of a value for a kind without an element kind. -/
def IsSendable (value : Value) (kind : Kind) : Prop :=
  match kind with
  | .float32 | .float64 => value.HasNearest
  | .decimal => ∀ number, value = .int number → hasNumeral number = true
  | .date | .date32 | .dateTime | .dateTime64 => HasUniversal value kind
  | .map | .json => Json.isWritable value = true
  | _ => True

/-- What acceptance leaves open of a value for a column: no item of an array is looked at, nor what
stands inside of a wrapper. -/
def Sends (column : Column) (value : Value) : Prop :=
  match column.kind, column.elementKind with
  | .array, some element =>
    ∀ items, value.asItems? = some items →
      ∀ item ∈ items, ∃ wire, encodeElement element item = .ok wire
  | .lowCardinality, some element => ∃ wire, encodeElement element value = .ok wire
  | .nullable, some element => ∃ wire, encodeElement element value = .ok wire
  | kind, _ => IsSendable value kind

section Scalars

/-- What is read is the result, and nothing else is. -/
theorem orFail_eq_ok {α : Type} {expectation : Expectation} {read : Option α} {result : α} :
    orFail expectation value kind read = .ok result ↔ read = some result := by
  cases read with
  | none => exact iff_of_false (fun h => nomatch h) (fun h => nomatch h)
  | some known => rw [orFail, Except.ok.injEq, Option.some.injEq]

/-- A whole number is converted to a binary one exactly below the bound. -/
theorem exists_floatOfInt_iff {number : Int} :
    (∃ nearest, floatOfInt number = .ok nearest) ↔ number.natAbs < Binary64.overflowBound := by
  rw [← Binary64.ofInt_isFinite_iff, floatOfInt]
  cases Binary64.ofInt number <;> simp [Binary64.isFinite]

/-- A number is converted to a binary one exactly if one is nearest. -/
theorem exists_toFloat_iff (h : isNumber value = true) :
    (∃ nearest, toFloat value kind = .ok nearest) ↔ value.HasNearest := by
  cases value with
  | int number => exact exists_floatOfInt_iff
  | float number => exact iff_of_true ⟨number, rfl⟩ trivial
  | decimal number =>
      cases number with
      | nan negative signaling payload =>
          cases signaling with
          | false => exact iff_of_true ⟨_, rfl⟩ rfl
          | true => exact iff_of_false (fun ⟨_, h⟩ => nomatch h) Bool.noConfusion
      | _ => exact iff_of_true ⟨_, rfl⟩ trivial
  | _ => cases h

/-- A number is converted to a decimal exactly if it is none that has no numeral. -/
theorem exists_toDecimal_iff (h : isNumber value = true) (hproper : value.IsProper) :
    (∃ decimal, toDecimal value kind = .ok decimal) ↔
      ∀ number, value = .int number → hasNumeral number = true := by
  cases value with
  | decimal number => exact iff_of_true ⟨number, rfl⟩ (fun _ h => nomatch h)
  | float number =>
      obtain ⟨decimal, hread⟩ := Binary64.exists_read?_render hproper
      refine iff_of_true ⟨decimal, bind_eq_ok.2 ⟨number.render, rfl, ?_⟩⟩ (fun _ h => nomatch h)
      rw [hread, orFail]
  | int number =>
      have hinner : (∀ other, Value.int number = .int other → hasNumeral other = true) ↔
          hasNumeral number = true :=
        ⟨fun h => h number rfl, fun h other heq => Value.int.inj heq ▸ h⟩
      rw [hinner]
      constructor
      · rintro ⟨decimal, hdecimal⟩
        obtain ⟨text, htext, -⟩ := bind_eq_ok.1 hdecimal
        exact (Value.displayed_eq_ok.1 htext).1
      · intro hnumeral
        obtain ⟨decimal, hread⟩ := Decimal.exists_read?_toString hnumeral
        have hshown : (Value.int number).displayed = .ok (toString number) :=
          Value.displayed_eq_ok.2 ⟨hnumeral, rfl⟩
        refine ⟨decimal, bind_eq_ok.2 ⟨toString number, hshown, ?_⟩⟩
        rw [hread, orFail]
  | _ => cases h

/-- What is like a date stands for a moment. -/
theorem exists_toMoment (h : isDateLike value = true) :
    ∃ moment, toMoment value kind = .ok moment := by
  cases value with
  | moment known => exact ⟨known, rfl⟩
  | date known => exact ⟨_, rfl⟩
  | text | kind | operator =>
      simp only [isDateLike, Option.isSome_iff_exists] at h
      obtain ⟨moment, hmoment⟩ := h
      refine ⟨moment, ?_⟩
      simp only [toMoment, hmoment, orFail]
  | _ => cases h

/-- What is like a date is sent exactly if it has a form in universal time. -/
theorem exists_encodeMoment_iff (h : isDateLike value = true) :
    (∃ wire, (do
      let moment ← toMoment value kind
      return Value.text (momentText (← toUniversal moment) kind) : Except Fault Value) = .ok wire) ↔
        HasUniversal value kind := by
  obtain ⟨moment, hmoment⟩ : ∃ moment, toMoment value kind = .ok moment := exists_toMoment h
  simp only [HasUniversal, hmoment, bind_eq_ok, pure_eq_ok, Except.ok.injEq, exists_eq_left',
    forall_eq', ← Moment.universal?_eq_some_iff, toUniversal]
  cases moment.universal? <;> simp

/-- Whatever can be displayed has a text. -/
theorem exists_toText (h : value.isDisplayable = true) : ∃ wire, toText value = .ok wire := by
  cases value with
  | kind | operator | member => exact ⟨_, rfl⟩
  | _ =>
      obtain ⟨chars, hchars⟩ := Value.exists_displayed_iff.2 h
      simp [toText, hchars, Except.map]

end Scalars

section Columns

variable {column : Column}

/-- What passes the check of a column is null or accepted. -/
theorem accepts_of_check (h : check column value = .ok true) :
    value.isNull = true ∨ accepts column value = .ok true := by
  unfold check at h
  split at h
  · next hnull => exact .inl hnull
  · exact .inr h

/-- A column without a length accepts what its kind takes. -/
theorem acceptsKind_of_accepts (hkind : column.kind ≠ .fixedString)
    (h : accepts column value = .ok true) : acceptsKind column value = true := by
  unfold accepts at h
  split at h
  · next hfixed _ => exact absurd hfixed hkind
  · exact Except.ok.inj h

/-- What a column of fixed length accepts is text. -/
theorem isText_of_accepts (hkind : column.kind = .fixedString)
    (h : accepts column value = .ok true) : value.isText = true := by
  unfold accepts at h
  split at h
  · next htext => rw [Value.isText, htext, Option.isSome_some]
  · have hkept : acceptsKind column value = true := Except.ok.inj h
    simpa only [acceptsKind, hkind] using hkept

/-- What a column accepts is sent, for a kind without an element kind, exactly if it is sendable. -/
theorem exists_encodePresent_iff (h : accepts column value = .ok true) (hproper : value.IsProper) :
    (∃ wire, encodePresent value column.kind = .ok wire) ↔ IsSendable value column.kind := by
  have hvalue : column.kind ≠ .fixedString → acceptsKind column value = true := fun hkind =>
    acceptsKind_of_accepts hkind h
  have htext : value.isDisplayable = true →
      ((∃ wire, toText value = .ok wire) ↔ True) := fun hdisplayable =>
    iff_true_intro (exists_toText hdisplayable)
  cases hkind : column.kind with
  | uint8 | uint16 | uint32 | uint64 | int8 | int16 | int32 | int64 =>
      simp only [hkind, acceptsKind] at hvalue
      cases value with
      | int number => exact iff_of_true ⟨.int number, rfl⟩ trivial
      | _ => exact absurd (hvalue (by simp)) Bool.false_ne_true
  | float32 | float64 =>
      simp only [hkind, acceptsKind] at hvalue
      exact exists_map_iff.trans (exists_toFloat_iff (hvalue (by simp)))
  | decimal =>
      simp only [hkind, acceptsKind] at hvalue
      exact exists_map_iff.trans (exists_toDecimal_iff (hvalue (by simp)) hproper)
  | boolean => exact iff_of_true ⟨_, rfl⟩ trivial
  | date | date32 | dateTime | dateTime64 =>
      simp only [hkind, acceptsKind] at hvalue
      exact exists_encodeMoment_iff (hvalue (by simp))
  | fixedString => exact htext (Value.isDisplayable_of_isText (isText_of_accepts hkind h))
  | string =>
      simp only [hkind, acceptsKind] at hvalue
      exact htext (Value.isDisplayable_of_isText (hvalue (by simp)))
  | uuid | ipv4 | ipv6 =>
      simp only [hkind, acceptsKind] at hvalue
      refine htext ?_
      cases value with
      | uuid | ipv4 | ipv6 | text | kind | operator => rfl
      | _ => exact absurd (hvalue (by simp)) Bool.false_ne_true
  | enum8 | enum16 =>
      simp only [hkind, acceptsKind, isEnumValue] at hvalue
      refine htext ?_
      cases value with
      | member | text | kind | operator => rfl
      | _ => exact absurd (hvalue (by simp)) Bool.false_ne_true
  | array | tuple =>
      simp only [hkind, acceptsKind] at hvalue
      obtain ⟨items, hitems⟩ := Option.isSome_iff_exists.1 (hvalue (by simp))
      exact iff_of_true ⟨.list items, by rw [encodePresent, hitems]; rfl⟩ trivial
  | map =>
      simp only [hkind, acceptsKind] at hvalue
      cases value with
      | map entries => exact exists_map_iff.trans Json.exists_jsonText_iff
      | _ => exact absurd (hvalue (by simp)) Bool.false_ne_true
  | json =>
      simp only [hkind, acceptsKind] at hvalue
      cases value with
      | map | list => exact exists_map_iff.trans Json.exists_jsonText_iff
      | _ => exact absurd (hvalue (by simp)) Bool.false_ne_true
  | nested | nullable | lowCardinality => exact iff_of_true ⟨value, rfl⟩ trivial

/-- Null is sent as it is. -/
theorem sends_null (column : Column) : Sends column .null := by
  unfold Sends
  split
  · exact fun items hitems => nomatch hitems
  · exact ⟨.null, rfl⟩
  · exact ⟨.null, rfl⟩
  · unfold IsSendable
    split
    · trivial
    · trivial
    · exact fun number h => nomatch h
    · exact fun moment h => nomatch h
    · exact fun moment h => nomatch h
    · exact fun moment h => nomatch h
    · exact fun moment h => nomatch h
    · rfl
    · rfl
    · trivial

/-- What a column accepts has a form that can be sent exactly if it meets what acceptance leaves
open. -/
theorem exists_encode_iff (h : value.isNull = true ∨ accepts column value = .ok true)
    (hproper : value.IsProper) :
    (∃ wire, encode value column.kind column.elementKind = .ok wire) ↔ Sends column value := by
  cases hnull : value.isNull with
  | true =>
      cases value with
      | null => exact iff_of_true ⟨.null, rfl⟩ (sends_null column)
      | _ => cases hnull
  | false =>
      have haccepts : accepts column value = .ok true := by simpa [hnull] using h
      have hpresent := exists_encodePresent_iff haccepts hproper
      have hkept : column.kind ≠ .fixedString → acceptsKind column value = true := fun hkind =>
        acceptsKind_of_accepts hkind haccepts
      unfold encode Sends
      rw [if_neg (by simp [hnull])]
      -- an element kind changes the conversion of three kinds; all else is converted as it is
      cases hkind : column.kind with
      | array =>
          rw [hkind] at hpresent
          cases column.elementKind with
          | none => exact hpresent
          | some element =>
              simp only [hkind, acceptsKind] at hkept
              obtain ⟨items, hitems⟩ := Option.isSome_iff_exists.1 (hkept (by simp))
              simp only [hitems, Option.some.injEq, forall_eq', orFail]
              exact exists_bind_pure_iff.trans exists_mapM_iff
      | lowCardinality | nullable =>
          rw [hkind] at hpresent
          cases column.elementKind with
          | none => exact hpresent
          | some element => exact Iff.rfl
      | _ =>
          rw [hkind] at hpresent
          exact hpresent

end Columns

end Wire

end TypedSql
