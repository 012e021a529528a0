import TypedSql.Proofs.Sql.Phrase

/-!
# Written pieces

How the text, the values and the parameters of pieces come apart where pieces are put together, and
which placeholders the parameters of pieces supply. `Provides` says that parameters give values
under the names that a numbering counts through; `provides_parameters` says that the parameters of
pieces do so for the values of the pieces.
-/

namespace TypedSql.Sql

namespace Piece

variable {name : Nat → String}

@[simp] theorem values_append (first second : List Piece) :
    values (first ++ second) = values first ++ values second := by
  induction first with
  | nil => rfl
  | cons piece rest ih => cases piece <;> simp [values, ih]

@[simp] theorem values_text (chars : String) (rest : List Piece) :
    values (text chars :: rest) = values rest := rfl

@[simp] theorem values_ofValue (value : Value) (rest : List Piece) :
    values (ofValue value :: rest) = value :: values rest := rfl

@[simp] theorem render_nil (distance : Nat) : render name distance [] = "" := rfl

@[simp] theorem render_text (distance : Nat) (chars : String) (rest : List Piece) :
    render name distance (text chars :: rest) = chars ++ render name distance rest := by
  simp [render, texts]

@[simp] theorem render_ofValue (distance : Nat) (value : Value) (rest : List Piece) :
    render name distance (ofValue value :: rest) =
      placeholderOf (name distance) (Wire.placeholderType value) ++
        render name (distance + 1) rest := by
  simp [render, texts, ofValue]

theorem texts_append (distance : Nat) (first second : List Piece) :
    texts name distance (first ++ second) =
      texts name distance first ++ texts name (distance + (values first).length) second := by
  induction first generalizing distance with
  | nil => rfl
  | cons piece rest ih =>
      cases piece with
      | text chars => simp [texts, values, ih]
      | bound type value =>
          simp only [List.cons_append, texts, values, ih, List.length_cons]
          rw [show distance + 1 + (values rest).length = distance + ((values rest).length + 1) by
            omega]

@[simp] theorem render_append (distance : Nat) (first second : List Piece) :
    render name distance (first ++ second) =
      render name distance first ++ render name (distance + (values first).length) second := by
  simp [render, texts_append]

/-- The parameters of pieces are their values under the names that the numbering gives in turn. -/
theorem parameters_eq (distance : Nat) (pieces : List Piece) :
    parameters name distance pieces =
      ((values pieces).zipIdx distance).map fun (value, place) => (name place, value) := by
  induction pieces generalizing distance with
  | nil => rfl
  | cons piece rest ih => cases piece <;> simp [parameters, values, ih]

end Piece

/-- `Provides parameters name distance values` says that parameters give the values under the names
that a numbering gives from a distance on. -/
def Provides (parameters : Parameters) (name : Nat → String) (distance : Nat)
    (values : List Value) : Prop :=
  ∀ place value, values[place]? = some value →
    parameters.lookup (name (distance + place)) = some value

section Provides

variable {parameters : Parameters} {name : Nat → String} {distance : Nat}
variable {value : Value} {values others : List Value}

theorem Provides.head (h : Provides parameters name distance (value :: values)) :
    parameters.lookup (name distance) = some value :=
  h 0 value rfl

theorem Provides.left (h : Provides parameters name distance (values ++ others)) :
    Provides parameters name distance values := by
  intro place known hknown
  have hplace := (List.getElem?_eq_some_iff.1 hknown).1
  exact h place known (by rw [List.getElem?_append_left hplace]; exact hknown)

theorem Provides.right (h : Provides parameters name distance (values ++ others)) :
    Provides parameters name (distance + values.length) others := by
  intro place known hknown
  have hlookup := h (values.length + place) known (by
    rw [List.getElem?_append_right (Nat.le_add_right _ _), Nat.add_sub_cancel_left]
    exact hknown)
  rwa [← Nat.add_assoc] at hlookup

theorem Provides.tail (h : Provides parameters name distance (value :: values)) :
    Provides parameters name (distance + 1) values := by
  have hsplit : Provides parameters name distance ([value] ++ values) := h
  exact hsplit.right

end Provides

/-- Values under different names are found under their names. -/
theorem lookup_zipIdx {name : Nat → String} (hname : ∀ first second, name first = name second →
    first = second) {values : List Value} {distance place : Nat} {value : Value}
    (h : values[place]? = some value) :
    ((values.zipIdx distance).map fun (value, place) => (name place, value)).lookup
      (name (distance + place)) = some value := by
  induction values generalizing distance place with
  | nil => cases h
  | cons first rest ih =>
      cases place with
      | zero =>
          cases h
          simp
      | succ place =>
          have hother : (name (distance + (place + 1)) == name distance) = false := by
            rw [beq_eq_false_iff_ne]
            intro heq
            have hplace := hname _ _ heq
            omega
          have hrest : ((rest.zipIdx (distance + 1)).map fun (value, place) =>
              (name place, value)).lookup (name (distance + 1 + place)) = some value := ih h
          rw [show distance + 1 + place = distance + (place + 1) by omega] at hrest
          simpa [List.lookup_cons, hother] using hrest

/-- The parameters of pieces provide the values of the pieces, where all names differ. -/
theorem provides_parameters {name : Nat → String} (hname : ∀ first second,
    name first = name second → first = second) (distance : Nat) (pieces : List Piece) :
    Provides (Piece.parameters name distance pieces) name distance (Piece.values pieces) := by
  intro place value hvalue
  rw [Piece.parameters_eq]
  exact lookup_zipIdx hname hvalue

end TypedSql.Sql
