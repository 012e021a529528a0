import TypedSql.Proofs.Json.Number
import TypedSql.Proofs.Outcome
import TypedSql.Proofs.Value.Display
import TypedSql.Proofs.Value.Keyed

/-!
# JSON documents

A document is made of null, flags, whole numbers, texts, arrays and objects. Every document has a
text (`write_document`), and that text denotes the document again, whatever may stand behind a value
stands behind it; only a document that nests too deep is refused: `read_of_denotes`.
-/

namespace TypedSql.Json

open TypedSql.Text TypedSql.Number

/-- Values that are JSON by themselves: whole numbers have a text, and the keys of an object are
different texts. -/
inductive IsDocument : Value → Prop
  | null : IsDocument .null
  | bool (flag : Bool) : IsDocument (.bool flag)
  | int {number : Int} (h : hasNumeral number = true) : IsDocument (.int number)
  | text (chars : String) : IsDocument (.text chars)
  | list {items : List Value} (h : ∀ item ∈ items, IsDocument item) : IsDocument (.list items)
  | map {entries : Entries} (hkeys : ∀ entry ∈ entries, ∃ chars, entry.1 = .text chars)
      (hdistinct : Keyed.HasDistinctKeys entries) (h : ∀ entry ∈ entries, IsDocument entry.2) :
      IsDocument (.map entries)

mutual

/-- How deep arrays and objects nest in a value. -/
def nesting : Value → Nat
  | .list items => nestingOfItems items + 1
  | .map entries => nestingOfEntries entries + 1
  | _ => 0

/-- How deep arrays and objects nest in the items of an array. -/
def nestingOfItems : List Value → Nat
  | [] => 0
  | item :: rest => max (nesting item) (nestingOfItems rest)

/-- How deep arrays and objects nest in the values of an object. -/
def nestingOfEntries : List (Value × Value) → Nat
  | [] => 0
  | (_, value) :: rest => max (nesting value) (nestingOfEntries rest)

end

/-- A result that is given unless it nests deeper than it may. -/
def within {α : Type} (depth nested : Nat) (result : α) : Except ReadFault α :=
  if nested ≤ depth then .ok result else .error .tooDeep

section Within

variable {α β : Type} {depth nested other : Nat} {result : α}

/-- What is read next counts only if the first result nests no deeper than it may. -/
theorem within_bind (next : α → Except ReadFault β) {final : β}
    (h : next result = within depth other final) :
    within depth nested result >>= next = within depth (max nested other) final := by
  unfold within at h ⊢
  by_cases hfirst : nested ≤ depth
  · rw [if_pos hfirst]
    show next result = _
    simp only [h, Nat.max_le, hfirst, true_and]
  · rw [if_neg hfirst, if_neg fun hboth => hfirst (Nat.max_le.1 hboth).1]
    rfl

theorem within_zero : within depth 0 result = .ok result := if_pos (Nat.zero_le depth)

theorem map_within (change : α → β) :
    (within depth nested result).map change = within depth nested (change result) := by
  unfold within
  split <;> rfl

theorem bind_within (change : α → β) :
    (do return change (← within depth nested result)) = within depth nested (change result) := by
  unfold within
  split <;> rfl

/-- Inside of brackets there is one level less. -/
theorem within_succ : within (depth + 1) (nested + 1) result = within depth nested result := by
  simp only [within, Nat.succ_le_succ_iff]

end Within

/-- A text that is read as a value, whatever may stand behind a value stands behind it. -/
structure Denotes (text : String) (value : Value) : Prop where
  starts : ∃ first others, text.toList = first :: others ∧ isSpace first = false ∧ first ≠ ']'
  reads : ∀ {fuel depth : Nat} {rest : List Char}, 2 * text.toList.length ≤ fuel → EndsValue rest →
    readValue fuel depth (text.toList ++ rest) = within depth (nesting value) (value, rest)

section Pieces

variable {c : Char} {rest : List Char} {value : Value}

/-- Nothing is skipped in front of a character that is no space. -/
theorem skipSpace_of_not_isSpace (h : isSpace c = false) (rest : List Char) :
    skipSpace (c :: rest) = c :: rest := by
  simp [skipSpace, h]

/-- The space behind a comma or a colon is skipped. -/
theorem skipSpace_space (h : isSpace c = false) (rest : List Char) :
    skipSpace (' ' :: c :: rest) = c :: rest := by
  have hspace : isSpace ' ' = true := rfl
  simp [skipSpace, h, hspace]

/-- A scalar that starts like no text, array or object is read as a scalar. -/
theorem denotes_of_readScalar {text : String} {first : Char} {others : List Char}
    (htext : text.toList = first :: others)
    (hfirst : first ≠ '"' ∧ first ≠ '[' ∧ first ≠ '\x7b' ∧ isSpace first = false ∧ first ≠ ']')
    (hnesting : nesting value = 0)
    (h : ∀ rest, EndsValue rest → readScalar (text.toList ++ rest) = .ok (value, rest)) :
    Denotes text value := by
  obtain ⟨hquote, hbracket, hbrace, hspace, hclose⟩ := hfirst
  refine ⟨⟨first, others, htext, hspace, hclose⟩, ?_⟩
  intro fuel depth rest hfuel hrest
  have hlength : text.toList.length = others.length + 1 := by rw [htext, List.length_cons]
  obtain ⟨fuel, rfl⟩ : ∃ less, fuel = less + 1 := Nat.exists_eq_add_one.2 (by omega)
  rw [hnesting, within_zero, ← h rest hrest, htext, List.cons_append, readValue]
  · intro _ hcons
    exact hquote (List.cons.inj hcons).1
  · intro _ hcons
    exact hbracket (List.cons.inj hcons).1
  · intro _ hcons
    exact hbrace (List.cons.inj hcons).1

/-- A written text is read as that text. -/
theorem denotes_quote (chars : String) : Denotes (quote chars) (.text chars) := by
  refine ⟨⟨'"', _, toList_quote chars, rfl, by decide⟩, ?_⟩
  intro fuel depth rest hfuel _
  rw [toList_quote] at hfuel ⊢
  obtain ⟨fuel, rfl⟩ : ∃ less, fuel = less + 1 :=
    Nat.exists_eq_add_one.2 (by simp only [List.length_cons] at hfuel; omega)
  rw [List.cons_append, List.append_assoc, readValue, List.singleton_append, readText_escaped,
    String.ofList_toList]
  exact within_zero.symm

/-- The brackets of an array are read around what is read inside of them. -/
theorem readValue_bracket {items : List Value} {inside : List Char} {nested depth fuel : Nat}
    (hstart : ∃ first others, inside = first :: others ∧ isSpace first = false ∧ first ≠ ']')
    (h : ∀ depth, readItems fuel depth inside = within depth nested (items, rest)) :
    readValue (fuel + 1) depth ('[' :: inside) = within depth (nested + 1) (.list items, rest) := by
  obtain ⟨first, others, rfl, hspace, hclose⟩ := hstart
  cases depth with
  | zero => rfl
  | succ depth =>
      rw [within_succ, readValue, if_neg (Nat.succ_ne_zero depth), skipSpace_of_not_isSpace hspace]
      split
      · next hcons => exact absurd (List.cons.inj hcons).1 hclose
      · rw [Nat.add_sub_cancel, h, map_within]

/-- The braces of an object are read around what is read inside of them. -/
theorem readValue_brace {entries : Entries} {inside : List Char} {nested depth fuel : Nat}
    (hstart : ∃ others, inside = '"' :: others) (hdistinct : Keyed.HasDistinctKeys entries)
    (h : ∀ depth, readEntries fuel depth inside = within depth nested (entries, rest)) :
    readValue (fuel + 1) depth ('\x7b' :: inside) =
      within depth (nested + 1) (.map entries, rest) := by
  obtain ⟨others, rfl⟩ := hstart
  cases depth with
  | zero => rfl
  | succ depth =>
      rw [within_succ, readValue, if_neg (Nat.succ_ne_zero depth), skipSpace_of_not_isSpace rfl]
      split
      · next hcons => cases hcons
      · rw [Nat.add_sub_cancel, h, map_within]
        exact congrArg (fun known => within depth nested (Value.map known, rest))
          (Keyed.ofPairs_eq hdistinct)

end Pieces

section Collections

variable {parts : List String} {items : List Value} {entries : Entries} {rest : List Char}

/-- Items between commas start like the first of them. -/
theorem starts_items (h : List.Forall₂ Denotes parts items)
    (hitems : items ≠ []) (rest : List Char) :
    ∃ first others, (Value.commaSeparated parts).toList ++ rest = first :: others ∧
      isSpace first = false ∧ first ≠ ']' := by
  cases h with
  | nil => exact absurd rfl hitems
  | cons hfirst hothers =>
      obtain ⟨first, others, hchars, hspace, hclose⟩ := hfirst.starts
      cases hothers with
      | nil =>
          refine ⟨first, others ++ rest, ?_, hspace, hclose⟩
          rw [Value.commaSeparated_singleton, hchars]
          rfl
      | cons _ _ =>
          rw [Value.toList_commaSeparated_cons, hchars]
          exact ⟨first, _, rfl, hspace, hclose⟩

/-- Items between commas are read up to the closing bracket. -/
theorem readItems_commaSeparated
    (h : List.Forall₂ Denotes parts items) (hitems : items ≠ [])
    {fuel : Nat} (hfuel : 2 * (Value.commaSeparated parts).toList.length < fuel) (depth : Nat) :
    readItems fuel depth ((Value.commaSeparated parts).toList ++ ']' :: rest) =
      within depth (nestingOfItems items) (items, rest) := by
  induction h generalizing fuel with
  | nil => exact absurd rfl hitems
  | cons hfirst hothers ih =>
      obtain ⟨fuel, rfl⟩ := Nat.exists_eq_add_one.2 (Nat.zero_lt_of_lt hfuel)
      cases hothers with
      | nil =>
          rw [Value.commaSeparated_singleton] at hfuel ⊢
          rw [readItems, hfirst.reads (by omega) (endsValue_cons (.inr (.inl rfl)) rest)]
          exact within_bind _ rfl
      | @cons second other parts items hsecond hothers =>
          have hrest := List.Forall₂.cons hsecond hothers
          obtain ⟨c, chars, hchars, hspace, -⟩ :=
            starts_items hrest (List.cons_ne_nil _ _) (']' :: rest)
          rw [Value.toList_commaSeparated_cons, List.length_append, List.length_cons,
            List.length_cons] at hfuel
          have hless :
              2 * (Value.commaSeparated (second :: parts)).toList.length + 1 < fuel + 1 := by
            omega
          rw [Value.toList_commaSeparated_cons, List.append_assoc, List.cons_append,
            List.cons_append, readItems, hfirst.reads (by omega) (endsValue_cons (.inl rfl) _)]
          refine within_bind _ ?_
          have hitems := ih (List.cons_ne_nil _ _) (Nat.lt_of_succ_lt_succ hless)
          rw [hchars] at hitems ⊢
          simp only [skipSpace_of_not_isSpace (c := ',') rfl, skipSpace_space hspace, hitems]
          exact bind_within _

/-- The text of an entry: a quoted key, a colon and the text of the value. -/
def DenotesEntry (part : String) (entry : Value × Value) : Prop :=
  ∃ key text, entry.1 = .text key ∧ part = quote key ++ ": " ++ text ∧ Denotes text entry.2

/-- The characters of an entry. -/
theorem toList_entry (key text : String) (rest : List Char) :
    (quote key ++ ": " ++ text).toList ++ rest =
      '"' :: (key.toList.flatMap escapeChar ++ '"' :: ':' :: ' ' :: (text.toList ++ rest)) := by
  simp [toList_quote]

/-- Entries between commas start with a quote. -/
theorem starts_entries (h : List.Forall₂ DenotesEntry parts entries) (hentries : entries ≠ [])
    (rest : List Char) : ∃ others, (Value.commaSeparated parts).toList ++ rest = '"' :: others := by
  cases h with
  | nil => exact absurd rfl hentries
  | cons hfirst hothers =>
      obtain ⟨key, text, -, rfl, -⟩ := hfirst
      cases hothers with
      | nil => exact ⟨_, by rw [Value.commaSeparated_singleton, toList_entry]⟩
      | cons _ _ =>
          exact ⟨_, by rw [Value.toList_commaSeparated_cons, List.append_assoc, toList_entry]⟩

/-- An object is read on behind the value of an entry: up to its closing brace, or with further
entries behind a comma. -/
def readBehindEntry (fuel depth : Nat) (entry : Value × Value) (rest : List Char) :
    Except ReadFault (Entries × List Char) :=
  match skipSpace rest with
  | ',' :: rest => do
    let (entries, rest) ← readEntries fuel depth (skipSpace rest)
    return (entry :: entries, rest)
  | '\x7d' :: rest => return ([entry], rest)
  | _ => .error .malformed

/-- An entry is read up to what stands behind its value, and then what follows is read. -/
theorem readEntries_entry {key text : String} {value : Value} (h : Denotes text value)
    {fuel depth : Nat} (hfuel : 2 * text.toList.length ≤ fuel) (hrest : EndsValue rest) :
    readEntries (fuel + 1) depth ((quote key ++ ": " ++ text).toList ++ rest) =
      within depth (nesting value) (value, rest) >>= fun (value, rest) =>
        readBehindEntry fuel depth (.text key, value) rest := by
  obtain ⟨c, chars, hchars, hspace, -⟩ := h.starts
  rw [← h.reads hfuel hrest, toList_entry, readEntries, readText_escaped, String.ofList_toList,
    hchars]
  simp only [bind, Except.bind, List.cons_append, skipSpace_of_not_isSpace (c := ':') rfl,
    skipSpace_space hspace]
  rfl

/-- Entries between commas are read up to the closing brace. -/
theorem readEntries_commaSeparated (h : List.Forall₂ DenotesEntry parts entries)
    (hentries : entries ≠ []) {fuel : Nat}
    (hfuel : 2 * (Value.commaSeparated parts).toList.length < fuel) (depth : Nat) :
    readEntries fuel depth ((Value.commaSeparated parts).toList ++ '\x7d' :: rest) =
      within depth (nestingOfEntries entries) (entries, rest) := by
  induction h generalizing fuel with
  | nil => exact absurd rfl hentries
  | @cons part entry parts entries hfirst hothers ih =>
      obtain ⟨fuel, rfl⟩ := Nat.exists_eq_add_one.2 (Nat.zero_lt_of_lt hfuel)
      obtain ⟨key, value⟩ := entry
      obtain ⟨chars, text, rfl, rfl, htext⟩ := hfirst
      have hlength : text.toList.length ≤ (quote chars ++ ": " ++ text).toList.length := by
        rw [String.toList_append, List.length_append]
        omega
      cases hothers with
      | nil =>
          rw [Value.commaSeparated_singleton] at hfuel ⊢
          rw [readEntries_entry htext (by omega) (endsValue_cons (.inr (.inr rfl)) rest)]
          exact within_bind _ rfl
      | @cons second other parts entries hsecond hothers =>
          have hrest := List.Forall₂.cons hsecond hothers
          rw [Value.toList_commaSeparated_cons, List.length_append, List.length_cons,
            List.length_cons] at hfuel
          have hless :
              2 * (Value.commaSeparated (second :: parts)).toList.length + 1 < fuel + 1 := by
            omega
          have hentries := ih (List.cons_ne_nil _ _) (Nat.lt_of_succ_lt_succ hless)
          obtain ⟨others, hothers⟩ := starts_entries hrest (List.cons_ne_nil _ _) ('\x7d' :: rest)
          rw [Value.toList_commaSeparated_cons, List.append_assoc, List.cons_append,
            List.cons_append, readEntries_entry htext (by omega) (endsValue_cons (.inl rfl) _)]
          refine within_bind _ ?_
          rw [hothers] at hentries ⊢
          simp only [readBehindEntry, skipSpace_of_not_isSpace (c := ',') rfl,
            skipSpace_space (c := '"') rfl, hentries]
          exact bind_within _

end Collections

section Writing

variable {fallback : Value → Option String} {value : Value}

theorem denotes_null : Denotes "null" .null :=
  denotes_of_readScalar (by simp : "null".toList = 'n' :: "ull".toList) (by decide) rfl
    fun rest _ => readScalar_null rest

theorem denotes_flagText (flag : Bool) : Denotes (flagText flag) (.bool flag) := by
  cases flag with
  | true =>
      exact denotes_of_readScalar
        (by simp [flagText] : (flagText true).toList = 't' :: "rue".toList)
        (by decide) rfl fun rest _ => readScalar_flagText true rest
  | false =>
      exact denotes_of_readScalar
        (by simp [flagText] : (flagText false).toList = 'f' :: "alse".toList) (by decide) rfl
        fun rest _ => readScalar_flagText false rest

/-- The text of a whole number denotes it. -/
theorem denotes_whole {number : Int} (h : hasNumeral number = true) :
    Denotes (toString number) (.int number) := by
  obtain ⟨digit, digits, hdigits, hdigit⟩ := exists_cons_toDigits number.natAbs
  have hne : ∀ other : Char, isAsciiDigit other = false → digit ≠ other := by
    intro other hother hsame
    rw [← hsame, hdigit] at hother
    cases hother
  have hchars := toList_toString_int number
  rw [hdigits] at hchars
  by_cases hsign : number < 0
  · rw [if_pos hsign] at hchars
    exact denotes_of_readScalar hchars (by decide) rfl fun rest => readScalar_whole h
  · rw [if_neg hsign] at hchars
    have hspace : isSpace digit = false := by
      simp [isSpace, hne ' ' rfl, hne '\t' rfl, hne '\n' rfl, hne '\r' rfl]
    exact denotes_of_readScalar hchars ⟨hne _ rfl, hne _ rfl, hne _ rfl, hspace, hne _ rfl⟩ rfl
      fun rest => readScalar_whole h

/-- Items that all have a text are written one after the other. -/
theorem writeItems_denotes {items : List Value}
    (h : ∀ item ∈ items, ∃ text, write fallback item = .ok text ∧ Denotes text item) :
    ∃ parts, writeItems fallback items = .ok parts ∧ List.Forall₂ Denotes parts items := by
  induction items with
  | nil => exact ⟨[], rfl, .nil⟩
  | cons item rest ih =>
      obtain ⟨text, htext, hdenotes⟩ := h item List.mem_cons_self
      obtain ⟨parts, hparts, hrest⟩ := ih fun other hother =>
        h other (List.mem_cons_of_mem item hother)
      refine ⟨text :: parts, ?_, .cons hdenotes hrest⟩
      rw [writeItems, htext, hparts]
      rfl

/-- Entries under texts whose values all have a text are written one after the other. -/
theorem writeEntries_denotes {entries : Entries}
    (hkeys : ∀ entry ∈ entries, ∃ chars, entry.1 = .text chars)
    (h : ∀ entry ∈ entries, ∃ text, write fallback entry.2 = .ok text ∧ Denotes text entry.2) :
    ∃ parts, writeEntries fallback entries = .ok parts ∧
      List.Forall₂ DenotesEntry parts entries := by
  induction entries with
  | nil => exact ⟨[], rfl, .nil⟩
  | cons entry rest ih =>
      obtain ⟨key, value⟩ := entry
      obtain ⟨chars, rfl⟩ : ∃ chars, key = .text chars := hkeys _ List.mem_cons_self
      obtain ⟨text, htext, hdenotes⟩ := h _ List.mem_cons_self
      obtain ⟨parts, hparts, hrest⟩ :=
        ih (fun other hother => hkeys other (List.mem_cons_of_mem _ hother))
          fun other hother => h other (List.mem_cons_of_mem _ hother)
      refine ⟨(quote chars ++ ": " ++ text) :: parts, ?_,
        .cons ⟨chars, text, rfl, rfl, hdenotes⟩ hrest⟩
      rw [writeEntries, show keyText (.text chars) = .ok chars from rfl, htext, hparts]
      rfl

/-- An array of items that all have a text is read back from its own. -/
theorem denotes_array {parts : List String} {items : List Value}
    (h : List.Forall₂ Denotes parts items) :
    Denotes ("[" ++ Value.commaSeparated parts ++ "]") (.list items) := by
  have hchars : ("[" ++ Value.commaSeparated parts ++ "]").toList =
      '[' :: ((Value.commaSeparated parts).toList ++ [']']) := by simp
  refine ⟨⟨'[', _, hchars, rfl, by decide⟩, ?_⟩
  intro fuel depth rest hfuel _
  rw [hchars, List.length_cons, List.length_append, List.length_singleton] at hfuel
  obtain ⟨fuel, rfl⟩ : ∃ less, fuel = less + 1 := Nat.exists_eq_add_one.2 (by omega)
  rw [hchars, List.cons_append, List.append_assoc, List.singleton_append]
  by_cases hitems : items = []
  · subst hitems
    cases h
    cases depth with
    | zero => rfl
    | succ depth =>
        rw [show nesting (.list []) = 0 + 1 from rfl, within_succ, within_zero]
        rfl
  · exact readValue_bracket (starts_items h hitems _) fun depth =>
      readItems_commaSeparated h hitems (by omega) depth

/-- An object whose values all have a text is read back from its own. -/
theorem denotes_object {parts : List String} {entries : Entries}
    (h : List.Forall₂ DenotesEntry parts entries) (hdistinct : Keyed.HasDistinctKeys entries) :
    Denotes ("\x7b" ++ Value.commaSeparated parts ++ "\x7d") (.map entries) := by
  have hchars : ("\x7b" ++ Value.commaSeparated parts ++ "\x7d").toList =
      '\x7b' :: ((Value.commaSeparated parts).toList ++ ['\x7d']) := by simp
  refine ⟨⟨'\x7b', _, hchars, rfl, by decide⟩, ?_⟩
  intro fuel depth rest hfuel _
  rw [hchars, List.length_cons, List.length_append, List.length_singleton] at hfuel
  obtain ⟨fuel, rfl⟩ : ∃ less, fuel = less + 1 := Nat.exists_eq_add_one.2 (by omega)
  rw [hchars, List.cons_append, List.append_assoc, List.singleton_append]
  by_cases hentries : entries = []
  · subst hentries
    cases h
    cases depth with
    | zero => rfl
    | succ depth =>
        rw [show nesting (.map []) = 0 + 1 from rfl, within_succ, within_zero]
        rfl
  · exact readValue_brace (starts_entries h hentries _) hdistinct fun depth =>
      readEntries_commaSeparated h hentries (by omega) depth

/-- Every document has a text, which denotes it. -/
theorem write_document (fallback : Value → Option String) (h : IsDocument value) :
    ∃ text, write fallback value = .ok text ∧ Denotes text value := by
  induction h with
  | null => exact ⟨"null", rfl, denotes_null⟩
  | bool flag => exact ⟨flagText flag, rfl, denotes_flagText flag⟩
  | @int number h =>
      refine ⟨toString number, ?_, denotes_whole h⟩
      rw [write, wholeText, if_pos h]
  | text chars => exact ⟨quote chars, rfl, denotes_quote chars⟩
  | list _ ih =>
      obtain ⟨parts, hparts, hdenotes⟩ := writeItems_denotes ih
      refine ⟨_, ?_, denotes_array hdenotes⟩
      rw [write, hparts]
      rfl
  | map hkeys hdistinct _ ih =>
      obtain ⟨parts, hparts, hdenotes⟩ := writeEntries_denotes hkeys ih
      refine ⟨_, ?_, denotes_object hdenotes hdistinct⟩
      rw [write, hparts]
      rfl

end Writing

/-- A text that denotes a value is read as that value, unless the value nests too deep. -/
theorem read_of_denotes [Depth] {text : String} {value : Value} (h : Denotes text value) :
    read text = within Depth.limit (nesting value) value := by
  obtain ⟨c, chars, hchars, hspace, -⟩ := h.starts
  have hreading : readValue (2 * text.toList.length + 2) Depth.limit (text.toList ++ []) = _ :=
    h.reads (Nat.le_add_right _ 2) endsValue_nil
  rw [List.append_nil] at hreading
  have hskip : skipSpace text.toList = text.toList := by
    rw [hchars, skipSpace_of_not_isSpace hspace]
  rw [read, hskip,
    hreading]
  unfold within
  split <;> rfl

end TypedSql.Json
