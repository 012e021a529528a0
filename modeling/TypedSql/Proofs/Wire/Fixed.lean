import TypedSql.Runtime
import TypedSql.Proofs.Wire.Sendable
import TypedSql.Wire.Decode

/-!
# Wire values of scalars

What is sent for a scalar kind is of one form, and this form is fixed: sent again it stays as it is,
and so it does when it is received. `wire_values_fixed` says this of columns of scalars, and of
arrays and wrappers of them.
-/

namespace TypedSql

open TypedSql.Outcome

/-- Whether values of a kind are numbers, flags, texts or members of an enumeration. -/
def Kind.isScalar (kind : Kind) : Bool :=
  kind.isNumeric || kind = .boolean || kind.isText || kind.isEnum

namespace Value

/-- Whether a value is a member of an enumeration. -/
def isMember : Value → Bool
  | member _ _ | kind _ | operator _ => true
  | _ => false

/-- Whether a value is no member whose own value is a member again. -/
def isDirect : Value → Bool
  | member _ inner => !inner.isMember
  | _ => true

end Value

namespace Wire

variable {value wire : Value} {kind : Kind}

/-- The form of what is sent for a scalar kind. -/
def IsForm (kind : Kind) (wire : Value) : Prop :=
  match kind with
  | .uint8 | .uint16 | .uint32 | .uint64 | .int8 | .int16 | .int32 | .int64 =>
    ∃ number, wire = .int number
  | .float32 | .float64 => ∃ number, wire = .float number
  | .decimal => ∃ number, wire = .decimal number
  | .boolean => ∃ flag, wire = .bool flag
  | .string | .fixedString | .uuid | .ipv4 | .ipv6 | .enum8 | .enum16 => ∃ chars, wire = .text chars
  | _ => False

section Forms

/-- A changed outcome is of the form that it is changed to. -/
theorem form_of_map {α : Type} {change : α → Value} {outcome : Except Fault α}
    (h : outcome.map change = .ok wire) : ∃ result, wire = change result := by
  obtain ⟨result, -, rfl⟩ := map_eq_ok.1 h
  exact ⟨result, rfl⟩

/-- A text is sent for every value that is no member of a member. -/
theorem form_of_toText (hdirect : value.isDirect = true) (h : toText value = .ok wire) :
    ∃ chars, wire = .text chars := by
  unfold toText at h
  split at h
  · exact ⟨_, (Except.ok.inj h).symm⟩
  · exact ⟨_, (Except.ok.inj h).symm⟩
  · next name inner =>
      obtain rfl := Except.ok.inj h
      split
      · next htext =>
          -- of the values that count as text, the members of enumerations are excluded
          cases inner with
          | text chars => exact ⟨chars, rfl⟩
          | kind | operator => cases hdirect
          | _ => cases htext
      · exact ⟨name, rfl⟩
  · exact form_of_map h

/-- What is sent for a scalar kind has its form. -/
theorem isForm_of_encodePresent (hkind : kind.isScalar = true) (hdirect : value.isDirect = true)
    (h : encodePresent value kind = .ok wire) : IsForm kind wire := by
  cases kind with
  | uint8 | uint16 | uint32 | uint64 | int8 | int16 | int32 | int64 => exact form_of_map h
  | float32 | float64 | decimal => exact form_of_map h
  | boolean => exact ⟨_, (Except.ok.inj h).symm⟩
  | string | fixedString | uuid | ipv4 | ipv6 | enum8 | enum16 => exact form_of_toText hdirect h
  | _ => cases hkind

/-- What has the form of a scalar kind stays as it is, sent or received. -/
theorem fixed_of_isForm [Json.Depth] (h : IsForm kind wire) :
    encodePresent wire kind = .ok wire ∧ decodePresent wire kind = .ok wire := by
  cases kind with
  | uint8 | uint16 | uint32 | uint64 | int8 | int16 | int32 | int64 =>
      obtain ⟨number, rfl⟩ := h
      exact ⟨rfl, rfl⟩
  | float32 | float64 | decimal =>
      obtain ⟨number, rfl⟩ := h
      exact ⟨rfl, rfl⟩
  | boolean =>
      obtain ⟨flag, rfl⟩ := h
      exact ⟨rfl, rfl⟩
  | string | fixedString | uuid | ipv4 | ipv6 | enum8 | enum16 =>
      obtain ⟨chars, rfl⟩ := h
      exact ⟨rfl, rfl⟩
  | _ => exact h.elim

theorem isNull_of_isForm (h : IsForm kind wire) : wire.isNull = false := by
  cases wire with
  | null => cases kind <;> simp [IsForm] at h
  | _ => rfl

end Forms

section Elements

/-- What is sent for an element of a scalar kind stays as it is. -/
theorem fixed_of_encodeElement [Json.Depth] (hkind : kind.isScalar = true)
    (hdirect : value.isDirect = true) (h : encodeElement kind value = .ok wire) :
    encodeElement kind wire = .ok wire ∧ decodeElement kind wire = .ok wire := by
  unfold encodeElement at h
  split at h
  · cases h
    exact ⟨rfl, rfl⟩
  · have hform := isForm_of_encodePresent hkind hdirect h
    have hpresent := isNull_of_isForm hform
    obtain ⟨hencode, hdecode⟩ := fixed_of_isForm hform
    rw [encodeElement, decodeElement, hpresent]
    exact ⟨hencode, hdecode⟩

/-- What is sent for the items of an array of a scalar kind stays as it is, item by item. -/
theorem fixed_of_mapM [Json.Depth] {items wires : List Value} (hkind : kind.isScalar = true)
    (hdirect : ∀ item ∈ items, item.isDirect = true)
    (h : items.mapM (encodeElement kind) = .ok wires) :
    wires.mapM (encodeElement kind) = .ok wires ∧ wires.mapM (decodeElement kind) = .ok wires := by
  induction items generalizing wires with
  | nil =>
      cases h
      exact ⟨rfl, rfl⟩
  | cons item rest ih =>
      obtain ⟨first, others, hfirst, hothers, rfl⟩ := mapM_cons_eq_ok.1 h
      obtain ⟨hitem, hrest⟩ := List.forall_mem_cons.1 hdirect
      obtain ⟨hsent, hreceived⟩ := fixed_of_encodeElement hkind hitem hfirst
      obtain ⟨hsentRest, hreceivedRest⟩ := ih hrest hothers
      exact ⟨mapM_cons_eq_ok.2 ⟨first, others, hsent, hsentRest, rfl⟩,
        mapM_cons_eq_ok.2 ⟨first, others, hreceived, hreceivedRest, rfl⟩⟩

end Elements

section Columns

variable {elementKind : Option Kind}

/-- Whether a wire value stays as it is, sent again and received. -/
structure IsFixed [Json.Depth] (wire : Value) (kind : Kind) (elementKind : Option Kind) : Prop where
  encode_eq : encode wire kind elementKind = .ok wire
  decode_eq : decode wire kind elementKind = .ok wire

/-- Columns of a scalar kind have no use for a kind of elements. -/
theorem encode_of_isScalar (hkind : kind.isScalar = true) (value : Value)
    (elementKind : Option Kind) : encode value kind elementKind = encodeElement kind value := by
  cases kind with
  | array | lowCardinality | nullable => cases hkind
  | _ => cases elementKind <;> rfl

theorem decode_of_isScalar [Json.Depth] (hkind : kind.isScalar = true) (value : Value)
    (elementKind : Option Kind) : decode value kind elementKind = decodeElement kind value := by
  cases kind with
  | array | lowCardinality | nullable => cases hkind
  | _ => cases elementKind <;> rfl

/-- A wrapper sends what its kind of elements does. -/
theorem encode_of_isWrapper {wrapper : Kind} (h : wrapper = .lowCardinality ∨ wrapper = .nullable)
    (value : Value) (element : Kind) :
    encode value wrapper (some element) = encodeElement element value := by
  have hnull : encodeElement element value =
      if value.isNull then .ok .null else encodeElement element value := by
    unfold encodeElement
    split <;> rfl
  rw [hnull]
  rcases h with rfl | rfl <;> rfl

theorem decode_of_isWrapper [Json.Depth] {wrapper : Kind}
    (h : wrapper = .lowCardinality ∨ wrapper = .nullable) (value : Value) (element : Kind) :
    decode value wrapper (some element) = decodeElement element value := by
  have hnull : decodeElement element value =
      if value.isNull then .ok .null else decodeElement element value := by
    unfold decodeElement
    split <;> rfl
  rw [hnull]
  rcases h with rfl | rfl <;> rfl

/-- What is sent for an array of a scalar kind stays as it is. -/
theorem isFixed_array [Json.Depth] (hkind : kind.isScalar = true)
    (hdirect : ∀ items, value.asItems? = some items → ∀ item ∈ items, item.isDirect = true)
    (h : encode value .array (some kind) = .ok wire) : IsFixed wire .array (some kind) := by
  unfold encode at h
  split at h
  · cases h
    exact ⟨rfl, rfl⟩
  · obtain ⟨items, hitems, hrest⟩ := bind_eq_ok.1 h
    obtain ⟨wires, hwires, hwire⟩ := bind_eq_ok.1 hrest
    obtain rfl := pure_eq_ok.1 hwire
    obtain ⟨hsent, hreceived⟩ :=
      fixed_of_mapM hkind (hdirect items (orFail_eq_ok.1 hitems)) hwires
    have hsentList : encode (.list wires) .array (some kind) =
        (do return .list (← wires.mapM (encodeElement kind))) := rfl
    have hreceivedList : decode (.list wires) .array (some kind) =
        (do return .list (← wires.mapM (decodeElement kind))) := rfl
    rw [hsent] at hsentList
    rw [hreceived] at hreceivedList
    exact ⟨hsentList, hreceivedList⟩

/-- What is sent for a scalar kind is a fixed point of both conversions, and so it is inside of
wrappers and, item by item, of arrays. Members whose own values are members again are left out. -/
theorem wire_values_fixed [Json.Depth] (hkind : kind.isScalar = true) :
    (value.isDirect = true → ∀ elementKind, encode value kind elementKind = .ok wire →
      IsFixed wire kind elementKind) ∧
      (value.isDirect = true → ∀ wrapper : Kind, wrapper = .lowCardinality ∨ wrapper = .nullable →
        encode value wrapper (some kind) = .ok wire → IsFixed wire wrapper (some kind)) ∧
        ((∀ items, value.asItems? = some items → ∀ item ∈ items, item.isDirect = true) →
          encode value .array (some kind) = .ok wire → IsFixed wire .array (some kind)) := by
  refine ⟨fun hdirect elementKind h => ?_, fun hdirect wrapper hwrapper h => ?_,
    isFixed_array hkind⟩
  · rw [encode_of_isScalar hkind] at h
    obtain ⟨hsent, hreceived⟩ := fixed_of_encodeElement hkind hdirect h
    refine ⟨?_, ?_⟩
    · rwa [encode_of_isScalar hkind]
    · rwa [decode_of_isScalar hkind]
  · rw [encode_of_isWrapper hwrapper] at h
    obtain ⟨hsent, hreceived⟩ := fixed_of_encodeElement hkind hdirect h
    refine ⟨?_, ?_⟩
    · rwa [encode_of_isWrapper hwrapper]
    · rwa [decode_of_isWrapper hwrapper]

/-- A flag, null and a member of an enumeration are sent as two texts with null between them, which
stay as they are. -/
theorem mixed_texts_fixed :
    let items : List Value := [.bool true, .null, .member "RED" (.text "red")]
    let wires : List Value := [.text "True", .null, .text "red"]
    Kind.string.isScalar = true ∧ (∀ item ∈ items, item.isDirect = true) ∧
      encode (.tuple items) .array (some .string) = .ok (.list wires) ∧
        IsFixed (.list wires) .array (some .string) := by
  intro items wires
  have hdirect : ∀ item ∈ items, item.isDirect = true := by decide
  have hsent : encode (.tuple items) .array (some .string) = .ok (.list wires) := rfl
  refine ⟨rfl, hdirect, hsent, (wire_values_fixed rfl).2.2 ?_ hsent⟩
  intro given hgiven
  cases hgiven
  exact hdirect

/-- A member whose own value is a kind is sent as the kind, which is sent as a text. -/
example :
    let wire : Value := .kind .string
    encode (.member "KIND" wire) .string none = .ok wire ∧
      encode wire .string none = .ok (.text "String") := by
  exact ⟨rfl, rfl⟩

end Columns

end Wire

end TypedSql
