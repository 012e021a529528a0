import TypedSql.Proofs.Condition.Clause
import TypedSql.Proofs.Condition.Marks
import TypedSql.Proofs.Statement.Placeholder

/-!
# Placeholders of clauses

A clause without raw SQL shows one placeholder for each of its values, numbered from the start:
`shows_ofPredicate`. No value is lost between the pieces of a predicate and its text.
-/

namespace TypedSql.Condition

open TypedSql.Sql TypedSql.Statement TypedSql.Identifier

/-- Whether a piece is text without braces, or a value with the type inferred for it. -/
def Fits : Piece → Prop
  | .text chars => IsPlain chars
  | .bound type value => type = Wire.placeholderType value

/-- The pieces of a proper predicate fit, given that its raw SQL has no braces. -/
theorem fits_pieces {sort : String → Prop} (hsort : ∀ sql, sort sql → IsPlain sql)
    {predicate : Predicate} (h : predicate.Proper sort) :
    ∀ piece ∈ predicate.pieces, Fits piece := by
  intro piece hpiece
  have hopening := lacks_pieces (by decide) (fun sql hsql => (hsort sql hsql).1) h piece hpiece
  have hclosing := lacks_pieces (by decide) (fun sql hsql => (hsort sql hsql).2) h piece hpiece
  cases piece with
  | text chars => exact ⟨hopening, hclosing⟩
  | bound type value => exact hopening

/-- Fitting pieces show a placeholder for each of their values, numbered from the start. -/
theorem shows_render {pieces : List Piece} (h : ∀ piece ∈ pieces, Fits piece) (index : Int)
    (distance : Nat) :
    Shows (Piece.render (Start.number index).name distance pieces)
      (slotsFrom (index + distance) ((Piece.values pieces).map Wire.placeholderType)) := by
  induction pieces generalizing distance with
  | nil =>
      rw [Piece.render_nil]
      exact Shows.plain (by decide)
  | cons piece rest ih =>
      have hrest := ih fun other hother => h other (List.mem_cons_of_mem piece hother)
      have hpiece := h piece List.mem_cons_self
      cases piece with
      | text chars =>
          rw [Piece.render_text, Piece.values_text]
          exact (Shows.plain hpiece).append (hrest distance)
      | bound type value =>
          cases hpiece
          have hnext := hrest (distance + 1)
          -- `distance` counts the values before, so the next placeholder is one further on
          rw [show index + ((distance + 1 : Nat) : Int) = index + distance + 1 by omega] at hnext
          have hslot := Shows.slot
            { name := parameter (index + distance), type := Wire.placeholderType value }
          rw [show Piece.bound (Wire.placeholderType value) value = .ofValue value from rfl,
            Piece.render_ofValue, Piece.values_ofValue]
          exact hslot.append hnext

/-- The parameters of pieces are their values, numbered from the start. -/
theorem parameters_eq_numbered (index : Int) (distance : Nat) (pieces : List Piece) :
    Piece.parameters (Start.number index).name distance pieces =
      numbered (index + distance) (Piece.values pieces) := by
  rw [Piece.parameters_eq]
  exact map_zipIdx_eq_numbered index distance (Piece.values pieces)

/-- The placeholders for parameters numbered from an index: the first ones are of given types, the
others of the types inferred for their values. -/
def slotsOf (index : Int) (types : List String) (parameters : List (String × Value)) : List Slot :=
  slotsFrom index (types ++
    (parameters.drop types.length).map fun parameter => Wire.placeholderType parameter.2)

/-- `Agrees index types sql parameters` says that a text shows a placeholder for each parameter and
no others, in the order of the parameters and numbered from an index without a gap. -/
structure Agrees (index : Int) (types : List String) (sql : String)
    (parameters : List (String × Value)) : Prop where
  shows : Shows sql (slotsOf index types parameters)
  names : parameters.map Prod.fst = (slotsOf index types parameters).map Slot.name

/-- Values of given types agree with a text, and so do the values after them. -/
theorem agrees_numbered {index : Int} {types : List String} {sql : String}
    {written values : List Value} (hlength : written.length = types.length)
    (h : Shows sql (slotsFrom index (types ++ values.map Wire.placeholderType))) :
    Agrees index types sql (numbered index (written ++ values)) := by
  have hvalues : ((numbered index (written ++ values)).drop types.length).map
      (fun parameter => Wire.placeholderType parameter.2) = values.map Wire.placeholderType := by
    have hdrop := congrArg (List.drop types.length) (map_snd_numbered index (written ++ values))
    rw [List.drop_left' hlength, ← List.map_drop] at hdrop
    have htypes := congrArg (List.map Wire.placeholderType) hdrop
    rw [List.map_map] at htypes
    exact htypes
  have hslots : slotsOf index types (numbered index (written ++ values)) =
      slotsFrom index (types ++ values.map Wire.placeholderType) := by
    rw [slotsOf, hvalues]
  constructor
  · rw [hslots]
    exact h
  · rw [hslots]
    exact map_fst_numbered (by simp [hlength]) index

/-- Values without a given type agree with a text that shows them. -/
theorem agrees_values {index : Int} {sql : String} {values : List Value}
    (h : Shows sql (slotsFrom index (values.map Wire.placeholderType))) :
    Agrees index [] sql (numbered index values) := by
  have hnone : ([] : List Value).length = ([] : List String).length := rfl
  exact agrees_numbered hnone h

namespace Agrees

variable {index : Int} {types : List String} {sql : String} {parameters : List (String × Value)}

/-- The parameters have different names. -/
theorem nodup_names (h : Agrees index types sql parameters) :
    (parameters.map Prod.fst).Nodup := by
  rw [h.names]
  exact nodup_names_slotsFrom index _

/-- Where no given type has a closing brace, the placeholders can be read off the text. -/
theorem placeholders_eq (h : Agrees index types sql parameters)
    (htypes : ∀ type ∈ types, '\x7d' ∉ type.toList) :
    placeholders sql = slotsOf index types parameters := by
  refine h.shows.placeholders_eq fun slot hslot => isReadable_of_mem_slotsFrom ?_ hslot
  intro type htype
  rcases List.mem_append.1 htype with htype | htype
  · exact htypes type htype
  · obtain ⟨parameter, -, rfl⟩ := List.mem_map.1 htype
    exact not_mem_placeholderType parameter.2

end Agrees

/-- The clause of a condition without raw SQL shows a placeholder for each of its values. -/
theorem shows_compile {condition : Value} {index : Int} {clause : Clause}
    (hraw : IsRawFree condition) (h : compile condition (.number index) = .ok clause) :
    ∃ values, Shows clause.sql (slotsFrom index (values.map Wire.placeholderType)) ∧
      clause.parameters = numbered index values := by
  obtain ⟨predicate, helaborate, rfl, -⟩ := compile_eq_ok.1 h
  have hproper := (elaborate_stands hraw helaborate).getD.1
  have hfits := fits_pieces (fun _ hsort => hsort.elim) hproper
  have hshows := shows_render hfits index 0
  have hparameters := parameters_eq_numbered index 0
    (predicate.getD (.constant true)).pieces
  rw [Int.natCast_zero, Int.add_zero] at hshows hparameters
  exact ⟨_, hshows, hparameters⟩

/-- The clause of a condition without raw SQL agrees with its parameters. -/
theorem agrees_compile {condition : Value} {index : Int} {clause : Clause}
    (hraw : IsRawFree condition) (h : compile condition (.number index) = .ok clause) :
    Agrees index [] clause.sql clause.parameters := by
  obtain ⟨values, hshows, hparameters⟩ := shows_compile hraw h
  rw [hparameters]
  exact agrees_values hshows

end TypedSql.Condition
