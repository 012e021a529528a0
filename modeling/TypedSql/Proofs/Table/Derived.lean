import TypedSql.Proofs.Column.Merged
import TypedSql.Proofs.Table.Lookup
import TypedSql.Proofs.Table.Restored

/-!
# Derived tables

A table with a column added, removed or changed differs from the table it is made of in that column
only, and in a changed column only what is named differs: `derivations_keep_others`. All settings of
a changed column are read again, which leaves them alone because they have been read before and
whole numbers are all that is read for dimensions.
-/

namespace TypedSql.Table

open TypedSql.Outcome

variable {table next : Table} {name : Value} {key : String} {column copy : Column}

section Columns

/-- The columns of a table that passes make the table again. -/
theorem Passes.ofColumns_eq_ok [Coercion] (h : table.Passes) {columns : Keyed Column} :
    ofColumns (.text table.name) columns = .ok next ↔
      Table.checkColumns columns = .ok () ∧
        next = { table with columns := withTextNames columns } := by
  rw [ofColumns, ofDefinition, h.name, columnsOf_definitionOf]
  simp only [bind_eq_ok, pure_eq_ok, Except.ok.injEq, exists_eq_left']
  constructor
  · rintro ⟨_, hcheck, rfl⟩
    exact ⟨hcheck, rfl⟩
  · rintro ⟨hcheck, rfl⟩
    exact ⟨(), hcheck, rfl⟩

/-- The columns of a table that passes pass. -/
theorem Passes.checkColumns_keyed (h : table.Passes) :
    Table.checkColumns table.keyed = .ok () := by
  have hsame : table.withColumns Prod.snd = table := by simp [withColumns]
  rw [← hsame]
  exact h.checkColumns (fun _ _ => rfl) h.columns

/-- A table that passes is made of its own columns. -/
theorem Passes.ofColumns_keyed [Coercion] (h : table.Passes) :
    ofColumns (.text table.name) table.keyed = .ok table := by
  refine h.ofColumns_eq_ok.2 ⟨h.checkColumns_keyed, ?_⟩
  rw [keyed, withTextNames_texts]

/-- A column that is required stands in the table under the text of its name. -/
theorem requireColumn_eq_ok :
    table.requireColumn name = .ok column ↔
      ∃ key, name.asText? = some key ∧ table.columnAt? key = some column := by
  have hrequired : table.requireColumn name = .ok column ↔
      table.find name = .ok (some column) := by
    rw [requireColumn, bind_eq_ok]
    constructor
    · rintro ⟨found, hfound, hcolumn⟩
      cases found with
      | none => cases hcolumn
      | some known =>
          cases hcolumn
          exact hfound
    · intro hfound
      exact ⟨_, hfound, rfl⟩
  rw [hrequired, find, column?_eq]
  constructor
  · intro h
    split at h
    · exact Option.bind_eq_some_iff.1 (Except.ok.inj h)
    · cases h
  · rintro ⟨key, hkey, hcolumn⟩
    rw [if_pos (Value.canBeKey_of_asText? hkey), hkey, Option.bind_some, hcolumn]

/-- A name finds a column exactly if its text is the name of one. -/
theorem hasColumn_of_asText? (h : name.asText? = some key) :
    table.hasColumn name = .ok (table.columnAt? key).isSome := by
  rw [hasColumn, find, if_pos (Value.canBeKey_of_asText? h), column?_eq, h]
  rfl

/-- A name without a column is not in use. -/
theorem has_keyed_eq_false (h : name.asText? = some key)
    (hnew : ∀ entry ∈ table.columns, entry.1 ≠ key) : table.keyed.has name = false := by
  rw [Keyed.has, keyed, List.any_map, List.any_eq_false]
  intro entry hentry hsame
  simp only [Function.comp_apply, Value.text_isKey, h, Option.some.injEq,
    decide_eq_true_eq] at hsame
  exact hnew entry hentry hsame.symm

/-- What is not found is the name of no column. -/
theorem ne_of_columnAt?_eq_none (h : table.columnAt? key = none) :
    ∀ entry ∈ table.columns, entry.1 ≠ key := by
  intro entry hentry
  exact (bne_iff_ne.1 (List.lookup_eq_none_iff.1 h entry hentry)).symm

/-- A column that is put under a name in use stands in the place of the one there. -/
theorem put_keyed (h : name.asText? = some key) (hmem : key ∈ table.columnNames) :
    table.keyed.put name copy =
      (table.withColumns fun entry => if entry.1 = key then copy else entry.2).keyed := by
  obtain ⟨entry, hentry, rfl⟩ := List.mem_map.1 hmem
  have hhas : table.keyed.has name = true := by
    rw [Keyed.has, keyed, List.any_map, List.any_eq_true]
    exact ⟨entry, hentry, by simp [Value.text_isKey, h]⟩
  rw [Keyed.put, if_pos hhas, keyed, keyed, withColumns, List.map_map, List.map_map]
  refine List.map_congr_left fun other _ => ?_
  by_cases hother : other.1 = entry.1
  · simp [Value.text_isKey, h, hother]
  · simp [Value.text_isKey, h, hother, Ne.symm hother]

/-- The columns under other names than one. -/
theorem filter_keyed (h : name.asText? = some key) :
    (table.keyed.filter fun entry => !entry.1.isKey name) =
      keyed { table with columns := table.columns.filter fun entry => entry.1 ≠ key } := by
  rw [keyed, keyed, List.filter_map]
  refine congrArg (List.map _) (List.filter_congr fun entry _ => ?_)
  simp [Value.text_isKey, h, eq_comm]

/-- A column of a valid table stands between columns with other names. -/
theorem Valid.exists_split (h : table.Valid) (hcolumn : table.columnAt? key = some column) :
    ∃ before after, table.columns = before ++ (key, column) :: after ∧
      ∀ entry ∈ before ++ after, entry.1 ≠ key := by
  obtain ⟨before, after, hcolumns, -⟩ := List.lookup_eq_some_iff.1 hcolumn
  refine ⟨before, after, hcolumns, ?_⟩
  have hdistinct := h.distinct
  rw [columnNames, hcolumns, List.map_append, List.map_cons, List.nodup_middle,
    List.nodup_cons, ← List.map_append] at hdistinct
  rintro entry hentry rfl
  exact hdistinct.1 (List.mem_map.2 ⟨entry, hentry, rfl⟩)

end Columns

section Derivations

/-- A column behind those of a table that passes can be removed again. -/
theorem Passes.removeColumn_concat [Coercion] (h : table.Passes) (hkey : name.asText? = some key)
    (hfresh : table.columnAt? key = none) (column : Column) :
    removeColumn { table with columns := table.columns ++ [(key, column)] } name = .ok table := by
  have hnew := ne_of_columnAt?_eq_none hfresh
  have hrequired : requireColumn { table with columns := table.columns ++ [(key, column)] } name =
      .ok column := by
    refine requireColumn_eq_ok.2 ⟨key, hkey, ?_⟩
    rw [columnAt?, List.lookup_append, ← columnAt?, hfresh]
    simp
  have hothers : (table.columns ++ [(key, column)]).filter (fun entry => entry.1 ≠ key) =
      table.columns := by
    have hkept : ∀ entry ∈ table.columns, decide (entry.1 ≠ key) = true := fun entry hentry => by
      simpa using hnew entry hentry
    rw [List.filter_append, List.filter_eq_self.2 hkept]
    simp
  rw [removeColumn, hrequired, filter_keyed hkey, hothers]
  exact h.ofColumns_keyed

/-- An added column stands behind the others, and the table without it is the table from before. -/
theorem Passes.of_addColumn [Coercion] (h : table.Passes) {definition : Value}
    (hadded : table.addColumn name definition = .ok next) :
    ∃ key column, name.asText? = some key ∧ Column.ofDefinition definition name = .ok column ∧
      next = { table with columns := table.columns ++ [(key, column)] } ∧
        next.removeColumn name = .ok table := by
  simp only [addColumn, bind_eq_ok] at hadded
  obtain ⟨isKnown, hknown, hadded⟩ := hadded
  split at hadded
  · cases hadded
  next hfresh =>
    obtain ⟨column, hcolumn, hadded⟩ := bind_eq_ok.1 hadded
    obtain ⟨_, hcheck, hadded⟩ := bind_eq_ok.1 hadded
    have hname := (Column.check_eq_ok.1 hcheck).1
    rw [Identifier.isNameValue, Option.any_eq_true] at hname
    obtain ⟨key, hkey, -⟩ := hname
    rw [hasColumn_of_asText? hkey, Except.ok.injEq] at hknown
    rw [← hknown, Option.not_isSome_iff_eq_none] at hfresh
    have hnew := has_keyed_eq_false hkey (ne_of_columnAt?_eq_none hfresh)
    rw [Keyed.put_of_has_eq_false hnew] at hadded
    obtain ⟨-, rfl⟩ := h.ofColumns_eq_ok.1 hadded
    have hcolumns : withTextNames (table.keyed ++ [(name, column)]) =
        table.columns ++ [(key, column)] := by
      rw [withTextNames, List.filterMap_append, keyed]
      exact congrArg₂ _ (withTextNames_texts _) (withTextNames_cons hkey column [])
    rw [hcolumns]
    exact ⟨key, column, hkey, hcolumn, rfl, h.removeColumn_concat hkey hfresh column⟩

/-- A table without a column has the others as they were. -/
theorem ReachableFrom.of_removeColumn [Coercion] {admits : Column → Prop}
    (h : table.ReachableFrom admits) (hremoved : table.removeColumn name = .ok next) :
    ∃ before key column after, name.asText? = some key ∧
      table.columns = before ++ (key, column) :: after ∧ key ∉ next.columnNames ∧
        next = { table with columns := before ++ after } := by
  obtain ⟨column, hrequired, hremoved⟩ := bind_eq_ok.1 hremoved
  obtain ⟨key, hkey, hcolumn⟩ := requireColumn_eq_ok.1 hrequired
  obtain ⟨before, after, hcolumns, hothers⟩ := h.valid.exists_split hcolumn
  rw [filter_keyed hkey] at hremoved
  obtain ⟨-, rfl⟩ := h.passes.ofColumns_eq_ok.1 hremoved
  have hkept : withTextNames
      (keyed { table with columns := table.columns.filter fun entry => entry.1 ≠ key }) =
        before ++ after := by
    rw [keyed, withTextNames_texts, hcolumns, List.filter_append, List.filter_cons_of_neg (by simp),
      ← List.filter_append, List.filter_eq_self]
    intro entry hentry
    simpa using hothers entry hentry
  rw [hkept]
  refine ⟨before, key, column, after, hkey, hcolumns, ?_, rfl⟩
  intro hmem
  obtain ⟨entry, hentry, hname⟩ := List.mem_map.1 hmem
  exact hothers entry hentry hname

/-- The table with a changed column in the place of the one there. -/
def withColumn (table : Table) (key : String) (copy : Column) : Table :=
  table.withColumns fun entry => if entry.1 = key then copy else entry.2

/-- A table is changed by merging one of its columns, if that and the whole pass. -/
theorem Passes.modifyColumn_eq_ok [Coercion] (h : table.Passes) {changes : Value}
    {named : Entries} :
    table.modifyColumn name changes named = .ok next ↔
      ∃ key column entries copy, name.asText? = some key ∧ table.columnAt? key = some column ∧
        optionalEntries changes = .ok entries ∧
          column.merged (Keyed.putAll entries named) name = .ok copy ∧ copy.check name = .ok () ∧
            Table.checkColumns (table.withColumn key copy).keyed = .ok () ∧
              next = table.withColumn key copy := by
  have hput : ∀ {key column} (copy : Column), name.asText? = some key →
      table.columnAt? key = some column →
        table.keyed.put name copy = (table.withColumn key copy).keyed := by
    intro key column copy hkey hcolumn
    obtain ⟨before, after, hcolumns, -⟩ := List.lookup_eq_some_iff.1 hcolumn
    refine put_keyed hkey ?_
    rw [columnNames, hcolumns]
    simp
  simp only [modifyColumn, bind_eq_ok, requireColumn_eq_ok]
  constructor
  · rintro ⟨column, ⟨key, hkey, hcolumn⟩, entries, hentries, copy, hcopy, _, hcheck, hnext⟩
    rw [hput copy hkey hcolumn, h.ofColumns_eq_ok, keyed, withTextNames_texts] at hnext
    exact ⟨key, column, entries, copy, hkey, hcolumn, hentries, hcopy, hcheck, hnext.1, hnext.2⟩
  · rintro ⟨key, column, entries, copy, hkey, hcolumn, hentries, hcopy, hcheck, hall, rfl⟩
    refine ⟨column, ⟨key, hkey, hcolumn⟩, entries, hentries, copy, hcopy, (), hcheck, ?_⟩
    rw [hput copy hkey hcolumn, h.ofColumns_eq_ok]
    refine ⟨hall, ?_⟩
    rw [keyed, withTextNames_texts]
    rfl

/-- A table with a changed column between the others. -/
theorem withColumn_of_split {before after : List (String × Column)}
    (hcolumns : table.columns = before ++ (key, column) :: after)
    (hothers : ∀ entry ∈ before ++ after, entry.1 ≠ key) :
    table.withColumn key copy = { table with columns := before ++ (key, copy) :: after } := by
  have hkept : ∀ entries : List (String × Column), (∀ entry ∈ entries, entry.1 ≠ key) →
      (entries.map fun entry => (entry.1, if entry.1 = key then copy else entry.2)) = entries := by
    intro entries hentries
    conv_rhs => rw [← List.map_id entries]
    refine List.map_congr_left fun entry hentry => ?_
    rw [if_neg (hentries entry hentry)]
    rfl
  obtain ⟨hbefore, hafter⟩ := List.forall_mem_append.1 hothers
  rw [withColumn, withColumns, hcolumns, List.map_append, List.map_cons, hkept before hbefore,
    hkept after hafter, if_pos rfl]

section Whole

variable [Coercion] [LawfulCoercion] [WholeDimensions]

/-- A changed table has the others of its columns as they were, and the changed one has what is not
named of it. -/
theorem ReachableFrom.of_modifyColumn (h : table.ReachableFrom Column.IsMade) {changes : Value}
    {named : Entries} (hchanged : table.modifyColumn name changes named = .ok next) :
    ∃ before key column after entries copy, name.asText? = some key ∧
      table.columns = before ++ (key, column) :: after ∧
        next = { table with columns := before ++ (key, copy) :: after } ∧
          optionalEntries changes = .ok entries ∧
            Column.Overrides (Keyed.putAll entries named) column copy := by
  obtain ⟨key, column, entries, copy, hkey, hcolumn, hentries, hcopy, -, -, rfl⟩ :=
    h.passes.modifyColumn_eq_ok.1 hchanged
  obtain ⟨before, after, hcolumns, hothers⟩ := h.valid.exists_split hcolumn
  have hloose : column.loose = [] :=
    (h.isMade (key, column) (by rw [hcolumns]; simp)).loose_eq_nil
  exact ⟨before, key, column, after, entries, copy, hkey, hcolumns,
    withColumn_of_split hcolumns hothers, hentries, Column.overrides_of_merged hloose hcopy⟩

/-- No changes to a column of a table leave the table as it is. -/
theorem ReachableFrom.modifyColumn_nil (h : table.ReachableFrom Column.IsMade)
    (hcolumn : table.column? name = some column) {changes : Value}
    (hnone : optionalEntries changes = .ok []) :
    table.modifyColumn name changes [] = .ok table := by
  rw [column?_eq] at hcolumn
  obtain ⟨key, hkey, hcolumn⟩ := Option.bind_eq_some_iff.1 hcolumn
  obtain ⟨before, after, hcolumns, hothers⟩ := h.valid.exists_split hcolumn
  have hmem : (key, column) ∈ table.columns := by
    rw [hcolumns]
    exact List.mem_append_right _ List.mem_cons_self
  have hsame : table.withColumn key column = table := by
    rw [withColumn_of_split hcolumns hothers, ← hcolumns]
  have hcopy := Column.merged_nil (h.isMade _ hmem).loose_eq_nil name
  obtain ⟨hname, hrule⟩ := Column.check_eq_ok.1 (h.passes.columns (key, column) hmem)
  have hpasses : column.check name = .ok () := by
    refine Column.check_eq_ok.2 ⟨?_, hrule⟩
    rwa [Identifier.isNameValue, hkey]
  refine h.passes.modifyColumn_eq_ok.2
    ⟨key, column, [], column, hkey, hcolumn, hnone, hcopy, hpasses, ?_, hsame.symm⟩
  rw [hsame]
  exact h.passes.checkColumns_keyed

/-- What is derived from a reachable table differs from it in the named column only. An added column
stands behind the others, and can be removed again. A removed one leaves the others as they were,
in their order. A changed one keeps its place, and every setting that the changes do not name;
changes that are given one by one count over those of a map under the same key. No changes give the
table again. -/
theorem derivations_keep_others (h : table.ReachableFrom Column.IsMade) :
    (∀ name definition next, table.addColumn name definition = .ok next →
      ∃ key column, name.asText? = some key ∧ Column.ofDefinition definition name = .ok column ∧
        next = { table with columns := table.columns ++ [(key, column)] } ∧
          next.removeColumn name = .ok table) ∧
      (∀ name next, table.removeColumn name = .ok next →
        ∃ before key column after, name.asText? = some key ∧
          table.columns = before ++ (key, column) :: after ∧ key ∉ next.columnNames ∧
            next = { table with columns := before ++ after }) ∧
      (∀ name changes named next, table.modifyColumn name changes named = .ok next →
        ∃ before key column after entries copy, name.asText? = some key ∧
          table.columns = before ++ (key, column) :: after ∧
            next = { table with columns := before ++ (key, copy) :: after } ∧
              optionalEntries changes = .ok entries ∧
                Column.Overrides (Keyed.putAll entries named) column copy ∧
                  ∀ text, (Keyed.putAll entries named).at? text =
                    (Keyed.at? named.reverse text).or (Keyed.at? entries text)) ∧
      ∀ name column changes, table.column? name = some column →
        optionalEntries changes = .ok [] → table.modifyColumn name changes [] = .ok table := by
  refine ⟨fun _ _ _ => h.passes.of_addColumn, fun _ _ => h.of_removeColumn, ?_,
    fun _ _ _ hcolumn => h.modifyColumn_nil hcolumn⟩
  intro name changes named next hchanged
  obtain ⟨before, key, column, after, entries, copy, hkey, hcolumns, hnext, hentries, hcopy⟩ :=
    h.of_modifyColumn hchanged
  exact ⟨before, key, column, after, entries, copy, hkey, hcolumns, hnext, hentries, hcopy,
    Keyed.at?_putAll entries named⟩

end Whole

/-- A column that is added to the table of prices can be removed again, and no changes to a price
change nothing. -/
theorem prices_keep_others :
    letI := Column.Lenient.strictCoercion
    prices.ReachableFrom Column.IsMade ∧
      (∃ next, prices.addColumn (.text "note") (.kind .string) = .ok next ∧
        next.removeColumn (.text "note") = .ok prices) ∧
      prices.modifyColumn (.text "price") (.map []) [] = .ok prices := by
  let _ := Column.Lenient.strictCoercion
  have hdefined : ofDefinition (.text "prices") (.map (prices.columns.map fun entry =>
      (.text entry.1, .map entry.2.toDefinition))) = .ok prices := by rfl
  have hreachable : prices.ReachableFrom Column.IsMade := by
    refine .defined ?_ ?_ hdefined
    · exact List.forall_mem_map.2 fun _ _ => Value.admitted_map _
    · simp [prices, Value.HasDistinctKeys, Keyed.HasDistinctKeys, Value.isKey_of_asText,
        Value.asText?]
  obtain ⟨hadd, -, -, hsame⟩ := derivations_keep_others hreachable
  have hadded : prices.addColumn (.text "note") (.kind .string) =
      .ok { prices with columns := prices.columns ++ [("note", { kind := .string })] } := by
    have hnew : prices.keyed.has (.text "note") = false :=
      has_keyed_eq_false (rfl : (Value.text "note").asText? = some "note") (by simp [prices])
    rw [addColumn, hasColumn_of_asText? (rfl : (Value.text "note").asText? = some "note")]
    show ofColumns (.text prices.name) (prices.keyed.put (.text "note") { kind := .string }) = _
    rw [Keyed.put_of_has_eq_false hnew]
    rfl
  obtain ⟨_, _, -, -, -, hremoved⟩ := hadd _ _ _ hadded
  have hprice := column?_eq prices (.text "price")
  exact ⟨hreachable, ⟨_, hadded, hremoved⟩, hsame _ _ (.map []) hprice rfl⟩

end Derivations

end TypedSql.Table
