import TypedSql.Proofs.Column.Restored
import TypedSql.Proofs.Table.Reachable

/-!
# Tables that come back

A table that calls make is read back from its plain description as an equal table exactly if each of
its columns can be told from its written definition: `descriptions_restore`. Neither the name nor
the checks of the columns stand in the way, for what calls make has passed them already.
-/

namespace TypedSql.Table

open TypedSql.Outcome

variable {table next : Table}

/-- Tables are equal exactly if their names are and their columns, in order. -/
theorem same_iff {left right : Table} :
    left.same right = true ↔ left.name = right.name ∧
      List.Forall₂ (fun entry other => entry.1 = other.1 ∧ entry.2.same other.2 = true)
        left.columns right.columns := by
  rw [same, List.forall₂_iff_zip]
  simp only [Bool.and_eq_true, decide_eq_true_eq, List.all_eq_true, and_assoc]
  refine and_congr_right fun _ => and_congr_right fun _ => ?_
  exact ⟨fun h entry other hmem => h (entry, other) hmem, fun h pair hmem => h hmem⟩

section Checked

/-- The checks that a table passes when it is made, for the table itself. -/
structure Passes (table : Table) : Prop where
  name : Identifier.checkTableName (.text table.name) = .ok table.name
  nonempty : table.columns ≠ []
  primaryKeys : (table.columns.filter fun entry => entry.2.primaryKey).length ≤ 1
  columns : ∀ entry ∈ table.columns, entry.2.check (.text entry.1) = .ok ()

/-- The text of a name passes as the name does. -/
theorem checkTableName_text {name : Value} {text : String}
    (h : Identifier.checkTableName name = .ok text) :
    Identifier.checkTableName (.text text) = .ok text := by
  unfold Identifier.checkTableName at h
  split at h
  · cases h
  · split at h
    · cases h
    · split at h
      · cases h
      · split at h
        · cases h
        · next hempty hname hlength =>
            cases h
            simp only [Identifier.checkTableName, Value.asText?, hempty, hname, hlength]
            rfl

/-- A table that is made of a definition passes. -/
theorem passes_of_ofDefinition [Coercion] {name definition : Value}
    (h : ofDefinition name definition = .ok table) : table.Passes := by
  simp only [ofDefinition, bind_eq_ok, pure_eq_ok] at h
  obtain ⟨text, hname, columns, -, _, hcheck, rfl⟩ := h
  obtain ⟨hnonempty, hprimary, hcolumns⟩ := checkColumns_eq_ok.1 hcheck
  have htext : ∀ entry ∈ columns, ∃ known, entry.1.asText? = some known := by
    intro entry hentry
    have hvalue := (Column.check_eq_ok.1 (hcolumns entry hentry)).1
    rw [Identifier.isNameValue, Option.any_eq_true] at hvalue
    exact ⟨hvalue.choose, hvalue.choose_spec.1⟩
  refine ⟨checkTableName_text hname, ?_,
    Nat.le_trans (primaryKeys_withTextNames columns) hprimary, ?_⟩
  · obtain ⟨⟨key, column⟩, rest, rfl⟩ := List.exists_cons_of_ne_nil hnonempty
    obtain ⟨known, hknown⟩ := htext (key, column) List.mem_cons_self
    rw [withTextNames_cons hknown]
    exact List.cons_ne_nil _ _
  · rintro ⟨known, column⟩ hentry
    obtain ⟨key, hkey, hknown⟩ := mem_withTextNames.1 hentry
    obtain ⟨hvalue, hrule⟩ := Column.check_eq_ok.1 (hcolumns (key, column) hkey)
    rw [Identifier.isNameValue, hknown] at hvalue
    exact Column.check_eq_ok.2 ⟨hvalue, hrule⟩

/-- However a table is made, some definition makes it. -/
theorem ReachableFrom.exists_definition [Coercion] {admits : Column → Prop}
    (h : table.ReachableFrom admits) :
    ∃ name definition, ofDefinition name definition = .ok table := by
  cases h with
  | defined _ _ h => exact ⟨_, _, h⟩
  | described _ _ _ h =>
      simp only [ofDescription, bind_eq_ok] at h
      obtain ⟨name, -, columns, -, h⟩ := h
      exact ⟨_, _, h⟩
  | built before h => exact ⟨_, _, h⟩
  | derived before call =>
      cases call with
      | added _ h =>
          simp only [addColumn, bind_eq_ok] at h
          obtain ⟨isKnown, -, h⟩ := h
          split at h
          · cases h
          · obtain ⟨column, -, h⟩ := bind_eq_ok.1 h
            obtain ⟨-, -, h⟩ := bind_eq_ok.1 h
            exact ⟨_, _, h⟩
      | removed h =>
          simp only [removeColumn, bind_eq_ok] at h
          obtain ⟨-, -, h⟩ := h
          exact ⟨_, _, h⟩
      | changed h =>
          simp only [modifyColumn, bind_eq_ok] at h
          obtain ⟨-, -, -, -, column, -, -, -, h⟩ := h
          exact ⟨_, _, h⟩
      | cloned _ h => exact ⟨_, _, h⟩

/-- A reachable table passes. -/
theorem ReachableFrom.passes [Coercion] {admits : Column → Prop} (h : table.ReachableFrom admits) :
    table.Passes := by
  obtain ⟨name, definition, hdefined⟩ := h.exists_definition
  exact passes_of_ofDefinition hdefined

end Checked

section Described

/-- `IsReadAs entry copy` says that a column is read from its written definition under its name. -/
def IsReadAs [Coercion] (entry copy : String × Column) : Prop :=
  copy.1 = entry.1 ∧
    Column.ofDefinition (.map entry.2.toDefinition) (.text entry.1) = .ok copy.2

/-- The columns that are read from a plain description are read one by one. -/
theorem columnsOf_describe [Coercion] {columns : List (String × Column)} {copies : Keyed Column} :
    columnsOf (.map (columns.map fun (name, column) => (.text name, .map column.toDefinition))) =
        .ok copies ↔
      ∃ known, List.Forall₂ IsReadAs columns known ∧
        copies = known.map fun (name, column) => (.text name, column) := by
  rw [columnsOf, mapM_eq_ok_iff, List.forall₂_map_left_iff]
  simp only [bind_eq_ok, pure_eq_ok]
  induction columns generalizing copies with
  | nil => simp
  | cons entry rest ih =>
      simp only [List.forall₂_cons_left_iff, ih]
      constructor
      · rintro ⟨_, _, ⟨copy, hcopy, rfl⟩, ⟨known, hknown, rfl⟩, rfl⟩
        exact ⟨_, ⟨(entry.1, copy), known, ⟨rfl, hcopy⟩, hknown, rfl⟩, rfl⟩
      · rintro ⟨_, ⟨⟨_, copy⟩, known, ⟨rfl, hcopy⟩, hknown, rfl⟩, rfl⟩
        exact ⟨_, _, ⟨copy, hcopy, rfl⟩, ⟨known, hknown, rfl⟩, rfl⟩

/-- A plain description gives the table with the columns that are read one by one, if they pass. -/
theorem ofDescription_describe [Coercion] (h : table.Passes) {copy : Table} :
    ofDescription (.map table.describe) = .ok copy ↔
      copy.name = table.name ∧ List.Forall₂ IsReadAs table.columns copy.columns ∧
        checkColumns copy.keyed = .ok () := by
  have hread : ofDescription (.map table.describe) =
      ofDefinition (.text table.name) (.map (table.columns.map fun (name, column) =>
        (.text name, .map column.toDefinition))) := rfl
  rw [hread, ofDefinition, h.name]
  simp only [bind_eq_ok, pure_eq_ok, Except.ok.injEq, exists_eq_left', columnsOf_describe]
  constructor
  · rintro ⟨_, ⟨known, hknown, rfl⟩, _, hcheck, rfl⟩
    rw [withTextNames_texts]
    exact ⟨rfl, hknown, hcheck⟩
  · rintro ⟨hname, hknown, hcheck⟩
    refine ⟨_, ⟨copy.columns, hknown, rfl⟩, (), hcheck, ?_⟩
    rw [withTextNames_texts, ← hname]

/-- The table with other columns under the same names. -/
def withColumns (table : Table) (copy : String × Column → Column) : Table :=
  { table with columns := table.columns.map fun entry => (entry.1, copy entry) }

/-- Columns pass in place of those of a table that passes, if each of them does. -/
theorem Passes.checkColumns (h : table.Passes) {copy : String × Column → Column}
    (hprimary : ∀ entry ∈ table.columns, (copy entry).primaryKey = entry.2.primaryKey)
    (hcheck : ∀ entry ∈ table.columns, (copy entry).check (.text entry.1) = .ok ()) :
    checkColumns (table.withColumns copy).keyed = .ok () := by
  refine checkColumns_eq_ok.2 ⟨?_, ?_, ?_⟩
  · simpa [keyed, withColumns] using h.nonempty
  · have hfilter : (table.columns.filter fun entry => (copy entry).primaryKey) =
        table.columns.filter fun entry => entry.2.primaryKey :=
      List.filter_congr hprimary
    simpa [primaryKeysOf, keyed, withColumns, List.filter_map, Function.comp_def, hfilter]
      using h.primaryKeys
  · rintro ⟨name, column⟩ hentry
    simp only [keyed, withColumns, List.map_map, List.mem_map, Function.comp_def,
      Prod.mk.injEq] at hentry
    obtain ⟨entry, hmem, rfl, rfl⟩ := hentry
    exact hcheck entry hmem

/-- A reachable table is read back from its plain description as an equal table exactly if all its
columns can be told from their definitions: each literal default is one that a bare value is taken
for, and each dimension is read as an equal one. The same holds of each column by itself. -/
theorem descriptions_restore [Coercion] [LawfulCoercion] (h : table.Reachable) :
    ((∃ copy, ofDescription (.map table.describe) = .ok copy ∧ table.same copy = true) ↔
      ∀ entry ∈ table.columns, entry.2.IsRestorable) ∧
    ∀ entry ∈ table.columns, ∀ name,
      (∃ copy, Column.ofDefinition (.map entry.2.toDefinition) name = .ok copy ∧
        entry.2.same copy = true) ↔ entry.2.IsRestorable := by
  refine ⟨?_, fun entry _ name => Column.restores_iff name⟩
  constructor
  · rintro ⟨copy, hcopy, hsame⟩
    obtain ⟨-, hread, -⟩ := (ofDescription_describe h.passes).1 hcopy
    have htold := List.Forall₂.mp
      (fun entry other (hother : IsReadAs entry other) hequal =>
        And.intro ((Column.restores_iff (.text entry.1)).1 ⟨other.2, hother.2, hequal.2⟩) trivial)
      hread (same_iff.1 hsame).2
    exact ((List.forall₂_and_left _ _).1 htold).1
  · intro htold
    have : Nonempty Column := ⟨{ kind := .string }⟩
    choose! copy hread hsame using fun entry hentry =>
      (Column.restores_iff (.text (Prod.fst entry))).2 (htold entry hentry)
    have hpasses : ∀ entry ∈ table.columns, (copy entry).primaryKey = entry.2.primaryKey ∧
        (copy entry).check (.text entry.1) = .ok () := by
      intro entry hentry
      obtain ⟨read, hdimension, hcopy⟩ := Column.ofDefinition_toDefinition.1 (hread entry hentry)
      have hequal := (Column.same_iff.1 (hsame entry hentry)).2.2
      rw [hcopy] at hequal ⊢
      simp only [Column.dimension_restoredWith] at hequal
      exact ⟨rfl, Column.check_restoredWith hdimension hequal (h.passes.columns entry hentry)⟩
    have hcheck := h.passes.checkColumns (fun entry hentry => (hpasses entry hentry).1)
      fun entry hentry => (hpasses entry hentry).2
    refine ⟨table.withColumns copy, (ofDescription_describe h.passes).2 ⟨rfl, ?_, hcheck⟩,
      same_iff.2 ⟨rfl, ?_⟩⟩
    · exact List.forall₂_map_right_iff.2
        (List.forall₂_same.2 fun entry hentry => ⟨rfl, hread entry hentry⟩)
    · exact List.forall₂_map_right_iff.2
        (List.forall₂_same.2 fun entry hentry => ⟨rfl, hsame entry hentry⟩)

/-- A table whose columns have a generator and a literal as defaults, for the case below. -/
def prices : Table :=
  let numbers : Generator Value := { identity := 0, yield := .progression 1 1 }
  let id : Column := { kind := .uint32, primaryKey := true, default := some (.generator numbers) }
  let price : Column :=
    { kind := .decimal, precision := some 9, scale := some 2, default := some (.literal (.int 0)) }
  { name := "prices", columns := [("id", id), ("price", price)] }

/-- The table of prices comes of a definition. -/
theorem prices_reachable : prices.Reachable := by
  have hdefined : ofDefinition (.text "prices") (.map (prices.columns.map fun (name, column) =>
      (.text name, .map column.toDefinition))) = .ok prices := by rfl
  exact reachable_of_ofDefinition (by simp [prices, Value.HasDistinctKeys, Keyed.HasDistinctKeys,
    Value.isKey_of_asText, Value.asText?]) hdefined

/-- The table of prices comes back. -/
theorem prices_restore :
    prices.Reachable ∧
      ∃ copy, ofDescription (.map prices.describe) = .ok copy ∧ prices.same copy = true := by
  have hnull : ∃ read, Coercion.dimension .null = .ok read ∧
      Value.same .shared .null read = true :=
    ⟨.null, LawfulCoercion.dimension_null, Value.same_self .null⟩
  have hwhole : ∀ number : Int, ∃ read, Coercion.dimension (.int number) = .ok read ∧
      Value.same .shared (.int number) read = true := fun number =>
    ⟨.int number, LawfulCoercion.dimension_int number, Value.same_self (.int number)⟩
  refine ⟨prices_reachable, (descriptions_restore prices_reachable).1.2 ?_⟩
  intro entry hentry
  simp only [prices, List.mem_cons, List.not_mem_nil, or_false] at hentry
  rcases hentry with rfl | rfl
  · refine ⟨fun _ hvalue => (nomatch hvalue), fun dimension => ?_⟩
    cases dimension <;> exact hnull
  · refine ⟨fun _ hvalue => by cases hvalue; rfl, fun dimension => ?_⟩
    cases dimension with
    | precision => exact hwhole 9
    | scale => exact hwhole 2
    | length => exact hnull

/-- A table whose column has null as its literal default, for the case below. -/
def notes : Table :=
  let note : Column := { kind := .string, nullable := true, default := some (.literal .null) }
  { name := "notes", columns := [("note", note)] }

/-- A literal default that is null is lost: the table comes back without a default. -/
theorem nullDefault_is_lost :
    notes.Reachable ∧ (notes.columns.map fun entry => entry.2.hasDefault) = [true] ∧
      ∃ copy, ofDescription (.map notes.describe) = .ok copy ∧
        (copy.columns.map fun entry => entry.2.hasDefault) = [false] ∧
          notes.same copy = false := by
  have hkeys : Value.HasDistinctKeys (.map (definitionOf notes.keyed)) :=
    List.pairwise_singleton _ _
  have hdefined : ofDefinition (.text "notes") (.map (definitionOf notes.keyed)) = .ok notes := by
    rfl
  have hread : ofDescription (.map notes.describe) =
      .ok { name := "notes", columns := [("note", { kind := .string, nullable := true })] } := by
    rfl
  refine ⟨reachable_of_ofDefinition hkeys hdefined, rfl, _, hread, rfl, ?_⟩
  simp [notes, same, Column.same, Column.toValue, Value.same, Value.sameDefault]

end Described

end TypedSql.Table
