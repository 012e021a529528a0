import TypedSql.Proofs.Sql.Cutting
import TypedSql.Proofs.Statement.Selection

/-!
# Where clauses end

The text of a selection is cut into its clauses again. A clause begins with its keyword, which tells
it from the clauses behind it, so that nobody mistakes one that is left out (`clause_cut`); where it
ends depends on what stands in it.
-/

namespace TypedSql.Statement

open TypedSql.Sql TypedSql.Outcome TypedSql.Identifier

section Clauses

variable {keywords items others : List String} {keyword separator : String}
  {behind rest : List Char}

/-- A clause behind a blank is its keyword, a blank and its joined items. -/
theorem led_clause (h : items ≠ []) (behind : List Char) :
    led " " (Builder.clause keyword separator items) ++ behind =
      ' ' :: (keyword.toList ++ ' ' :: ((separator.intercalate items).toList ++ behind)) := by
  cases items with
  | nil => exact absurd rfl h
  | cons text items => simp [Builder.clause, led]

/-- A clause that is left out has no text. -/
theorem led_clause_nil : led " " (Builder.clause keyword separator []) = [] := rfl

/-- What stands behind a blank is not looked at to tell keywords apart. -/
theorem firstWord_keyword (keyword : String) (rest : List Char) :
    firstWord (keyword.toList ++ ' ' :: rest) = firstWord keyword.toList :=
  firstWord_append rfl keyword.toList

/-- A clause, or what stands behind it if the clause is left out, follows with its keyword. -/
theorem follows_clause (h : Follows keywords behind) :
    Follows (keyword :: keywords)
      (led " " (Builder.clause keyword separator items) ++ behind) := by
  by_cases hitems : items = []
  · subst hitems
    rw [led_clause_nil, List.nil_append]
    obtain hnil | ⟨after, hafter, other, hother, hword⟩ := h
    · exact .inl hnil
    · exact .inr ⟨after, hafter, other, List.mem_cons_of_mem _ hother, hword⟩
  · rw [led_clause hitems]
    exact .inr ⟨_, rfl, keyword, List.mem_cons_self, firstWord_keyword keyword _⟩

/-- What follows with other keywords does not begin with a clause. -/
theorem ne_of_follows (hkeyword : ∀ other ∈ keywords,
      firstWord keyword.toList ≠ firstWord other.toList)
    (hitems : items ≠ []) (h : Follows keywords behind) :
    led " " (Builder.clause keyword separator items) ++ rest ≠ behind := by
  rintro rfl
  rw [led_clause hitems] at h
  obtain hnil | ⟨after, hafter, other, hother, hword⟩ := h
  · cases hnil
  · cases hafter
    exact hkeyword other hother ((firstWord_keyword keyword _).symm.trans hword)

/-- A clause has the same items as another one at the same place, if their joined items end where
what follows begins. -/
theorem clause_cut (hkeyword : ∀ other ∈ keywords,
      firstWord keyword.toList ≠ firstWord other.toList)
    (hbehind : Follows keywords behind) (hrest : Follows keywords rest)
    (hcut : items ≠ [] → others ≠ [] →
      (separator.intercalate items).toList ++ behind =
        (separator.intercalate others).toList ++ rest → items = others ∧ behind = rest)
    (h : led " " (Builder.clause keyword separator items) ++ behind =
      led " " (Builder.clause keyword separator others) ++ rest) :
    items = others ∧ behind = rest := by
  by_cases hitems : items = []
  · subst hitems
    by_cases hothers : others = []
    · subst hothers
      exact ⟨rfl, h⟩
    · exact absurd h.symm (ne_of_follows hkeyword hothers hbehind)
  · by_cases hothers : others = []
    · subst hothers
      exact absurd h (ne_of_follows hkeyword hitems hrest)
    · rw [led_clause hitems, led_clause hothers] at h
      have hjoined := List.append_cancel_left (List.cons.inj h).2
      exact hcut hitems hothers (List.cons.inj hjoined).2

end Clauses

section Items

variable {behind rest : List Char} {keywords : List String}

/-- What may be absent is determined by the list of it. -/
theorem eq_of_toList_eq {α : Type} {first second : Option α}
    (h : first.toList = second.toList) : first = second := by
  simpa only [Option.head?_toList] using congrArg List.head? h

/-- A number that may be absent is determined by its numeral. -/
theorem numerals_injective {count other : Option Int}
    (h : count.toList.map toString = other.toList.map toString) : count = other :=
  eq_of_toList_eq (List.map_injective_iff.2 (fun _ _ => toString_injective) h)

/-- A numeral ends where a blank or nothing follows. -/
theorem numerals_cut {count other : Option Int} (hbehind : Follows keywords behind)
    (hrest : Follows keywords rest) (hcount : count.toList.map toString ≠ [])
    (hother : other.toList.map toString ≠ [])
    (h : ("".intercalate (count.toList.map toString)).toList ++ behind =
      ("".intercalate (other.toList.map toString)).toList ++ rest) :
    count.toList.map toString = other.toList.map toString ∧ behind = rest := by
  cases count with
  | none => exact absurd rfl hcount
  | some number =>
      cases other with
      | none => exact absurd rfl hother
      | some another =>
          have hblank (number : Int) : ' ' ∉ (toString number).toList :=
            not_mem_numeral (by decide) (by decide) number
          obtain ⟨hnumeral, hends⟩ := word_cut (hblank number) (hblank another)
            hbehind.firstWord_eq_nil hrest.firstWord_eq_nil h
          exact ⟨congrArg (fun numeral => [numeral]) hnumeral, hends⟩

/-- Whether a text is that of a selected field. -/
def IsField (text : String) : Prop := text = "*" ∨ IsQuoted text

/-- No field is the beginning of another one. -/
theorem prefixFree_isField : PrefixFree IsField := by
  have hstar {text : String} (h : IsQuoted text) : ∃ rest, text.toList = '\x60' :: rest := by
    obtain ⟨name, rfl, -⟩ := h
    exact ⟨name.toList ++ ['\x60'], by simp [backquoted]⟩
  rintro text other (rfl | htext) (rfl | hother) h
  · rfl
  · obtain ⟨rest, hrest⟩ := hstar hother
    rw [hrest] at h
    exact absurd (List.cons_prefix_cons.1 h).1 (by decide)
  · obtain ⟨rest, hrest⟩ := hstar htext
    rw [hrest] at h
    exact absurd (List.cons_prefix_cons.1 h).1 (by decide)
  · exact prefixFree_isQuoted htext hother h

/-- Whether a text is that of a field in an ordering. -/
def IsOrdering (text : String) : Prop :=
  ∃ column, IsQuoted column ∧ ∃ known ∈ Action.directions, text = column ++ " " ++ known

/-- No field in an ordering is the beginning of another one. -/
theorem prefixFree_isOrdering : PrefixFree IsOrdering := by
  rintro _ _ ⟨column, hcolumn, known, hknown, rfl⟩ ⟨other, hother, another, hanother, rfl⟩
    ⟨rest, h⟩
  simp only [String.toList_append, List.append_assoc] at h
  obtain ⟨rfl, hdirection⟩ := prefixFree_isQuoted.cut hcolumn hother h
  have hdirections : ∀ known ∈ Action.directions, ∀ another ∈ Action.directions,
      known.toList <+: another.toList → known = another := by decide
  rw [hdirections known hknown another hanother ⟨rest, List.append_cancel_left hdirection⟩]

/-- A condition ends before the clauses behind it. -/
theorem condition_cut {condition other : Option String}
    (hscans : ∀ sql ∈ condition, ∃ tokens, Scans sql tokens)
    (hother : ∀ sql ∈ other, ∃ tokens, Scans sql tokens)
    (hstray : ∀ keyword ∈ keywords, IsStray (firstWord keyword.toList))
    (hbehind : Follows keywords behind) (hrest : Follows keywords rest)
    (hnonempty : condition.toList ≠ []) (hanother : other.toList ≠ [])
    (h : (" AND ".intercalate condition.toList).toList ++ behind =
      (" AND ".intercalate other.toList).toList ++ rest) :
    condition.toList = other.toList ∧ behind = rest := by
  cases condition with
  | none => exact absurd rfl hnonempty
  | some sql =>
      cases other with
      | none => exact absurd rfl hanother
      | some another =>
          obtain ⟨tokens, htokens⟩ := hscans sql rfl
          obtain ⟨others, hothers⟩ := hother another rfl
          simp only [Option.toList_some, String.intercalate_singleton] at h
          obtain ⟨rfl, hends⟩ := htokens.cut hstray hothers hbehind hrest h
          exact ⟨rfl, hends⟩

end Items

/-- No condition has the keywords of the clauses behind it. -/
theorem isStray_keywords : ∀ keyword ∈ ["GROUP BY", "ORDER BY", "LIMIT", "OFFSET"],
    IsStray (firstWord keyword.toList) := by decide +kernel

/-- The parts of a selection, all of which tell where they end. -/
@[ext] structure Selection where
  fields : List String
  table : String
  condition : Option String
  grouping : List String
  ordering : List String
  limit : Option Int
  offset : Option Int
  nonempty : fields ≠ []
  isField : ∀ text ∈ fields, IsField text
  isTable : IsQuoted table
  scans : ∀ sql ∈ condition, ∃ tokens, Scans sql tokens
  isGrouping : ∀ text ∈ grouping, IsQuoted text
  isOrdering : ∀ text ∈ ordering, IsOrdering text

namespace Selection

/-- The builder that a selection is written from. -/
def builder (selection : Selection) : Builder where
  verb := some .select
  table := some selection.table
  selected := selection.fields.map .text
  conditions := selection.condition.toList.map .text
  grouping := selection.grouping
  ordering := selection.ordering
  limit := selection.limit
  offset := selection.offset

/-- What stands behind the table. -/
def tail (selection : Selection) : List Char :=
  led " " (Builder.clause "WHERE" " AND " selection.condition.toList) ++
  (led " " (Builder.clause "GROUP BY" ", " selection.grouping) ++
  (led " " (Builder.clause "ORDER BY" ", " selection.ordering) ++
  (led " " (Builder.clause "LIMIT" "" (selection.limit.toList.map toString)) ++
  (led " " (Builder.clause "OFFSET" "" (selection.offset.toList.map toString)) ++ []))))

variable {selection other : Selection} {query another : Query}

/-- The text of a selection. -/
theorem toList_sql (h : selection.builder.build = .ok query) :
    query.sql.toList = "SELECT ".toList ++ ((Value.commaSeparated selection.fields).toList ++
      (" FROM ".toList ++ (selection.table.toList ++ selection.tail))) := by
  obtain ⟨parts, hparts, h⟩ := bind_eq_ok.1 h
  obtain rfl := pure_eq_ok.1 h
  obtain ⟨fields, hfields, hparts⟩ := bind_eq_ok.1 hparts
  obtain ⟨table, htable, hparts⟩ := bind_eq_ok.1 hparts
  obtain ⟨clauses, hclauses, hparts⟩ := bind_eq_ok.1 hparts
  obtain rfl := pure_eq_ok.1 hparts
  cases htable
  cases (selection_map_text rfl selection.nonempty).symm.trans hfields
  obtain ⟨conditions, hconditions, hclauses⟩ := bind_eq_ok.1 hclauses
  obtain ⟨limit, hlimit, hclauses⟩ := bind_eq_ok.1 hclauses
  obtain ⟨offset, hoffset, hclauses⟩ := bind_eq_ok.1 hclauses
  obtain ⟨endings, hendings, hclauses⟩ := bind_eq_ok.1 hclauses
  obtain rfl := pure_eq_ok.1 hclauses
  cases hendings
  cases (fragmentTexts_map_text _).symm.trans hconditions
  obtain rfl := numberClause_eq_ok hlimit
  obtain rfl := numberClause_eq_ok hoffset
  rw [toList_intercalate_cons, led_cons]
  simp only [led_append, tail, builder, String.toList_append, List.append_assoc]
  rfl

/-- The text of a selection determines all its parts. -/
theorem eq_of_sql_eq (h : selection.builder.build = .ok query)
    (hother : other.builder.build = .ok another) (hsql : query.sql = another.sql) :
    selection = other := by
  have hend : Follows [] [] := .inl rfl
  have hoffset (selection : Selection) : Follows ["OFFSET"]
      (led " " (Builder.clause "OFFSET" "" (selection.offset.toList.map toString)) ++ []) :=
    follows_clause hend
  have hlimit (selection : Selection) : Follows ["LIMIT", "OFFSET"]
      (led " " (Builder.clause "LIMIT" "" (selection.limit.toList.map toString)) ++ _) :=
    follows_clause (hoffset selection)
  have hordering (selection : Selection) : Follows ["ORDER BY", "LIMIT", "OFFSET"]
      (led " " (Builder.clause "ORDER BY" ", " selection.ordering) ++ _) :=
    follows_clause (hlimit selection)
  have hgrouping (selection : Selection) : Follows ["GROUP BY", "ORDER BY", "LIMIT", "OFFSET"]
      (led " " (Builder.clause "GROUP BY" ", " selection.grouping) ++ _) :=
    follows_clause (hordering selection)
  have htexts := congrArg String.toList hsql
  rw [toList_sql h, toList_sql hother] at htexts
  -- from the front to the end, one part after the other is cut off on both sides
  obtain ⟨hfields, htexts⟩ := prefixFree_isField.intercalate_cut selection.isField other.isField
    (by simp) (by simp) selection.nonempty other.nonempty (List.append_cancel_left htexts)
  obtain ⟨htable, htexts⟩ := prefixFree_isQuoted.cut selection.isTable other.isTable
    (List.append_cancel_left htexts)
  obtain ⟨hconditions, htexts⟩ := clause_cut (by decide) (hgrouping selection) (hgrouping other)
    (condition_cut selection.scans other.scans isStray_keywords (hgrouping selection)
      (hgrouping other)) htexts
  obtain ⟨hgroups, htexts⟩ := clause_cut (by decide) (hordering selection) (hordering other)
    (prefixFree_isQuoted.intercalate_cut selection.isGrouping other.isGrouping
      (hordering selection).not_comma (hordering other).not_comma) htexts
  obtain ⟨horders, htexts⟩ := clause_cut (by decide) (hlimit selection) (hlimit other)
    (prefixFree_isOrdering.intercalate_cut selection.isOrdering other.isOrdering
      (hlimit selection).not_comma (hlimit other).not_comma) htexts
  obtain ⟨hlimits, htexts⟩ := clause_cut (by decide) (hoffset selection) (hoffset other)
    (numerals_cut (hoffset selection) (hoffset other)) htexts
  obtain ⟨hoffsets, -⟩ := clause_cut (List.forall_mem_nil _) hend hend (numerals_cut hend hend)
    htexts
  exact Selection.ext hfields htable (eq_of_toList_eq hconditions) hgroups horders
    (numerals_injective hlimits) (numerals_injective hoffsets)

end Selection

end TypedSql.Statement
