import TypedSql.Proofs.Text.Pattern

/-!
# The words of a pattern

A plain pattern looks at nothing outside the text that it matches, so its matches are words that do
not depend on what stands around them. `Pattern.Spells` says which words, constructor by
constructor, and `Pattern.leads_iff_spells` that the pattern leads from a place to those behind its
words.
-/

namespace TypedSql.Text

/-- Whether a word with a property stands between two places of a text. -/
def Stretches (text : List Char) (IsWord : List Char → Prop) (place target : Nat) : Prop :=
  ∃ word rest, text.drop place = word ++ rest ∧ target = place + word.length ∧ IsWord word

section Stretches

variable {text : List Char} {IsFirst IsSecond : List Char → Prop} {place target : Nat}

/-- One word after another is a word between the outer places. -/
theorem exists_stretches_iff :
    (∃ next, Stretches text IsFirst place next ∧ Stretches text IsSecond next target) ↔
      Stretches text (fun word => ∃ front back, word = front ++ back ∧ IsFirst front ∧
        IsSecond back) place target := by
  constructor
  · rintro ⟨_, ⟨front, behind, hfront, rfl, hfirst⟩, back, rest, hback, rfl, hsecond⟩
    rw [← List.drop_drop, hfront, List.drop_left] at hback
    refine ⟨front ++ back, rest, ?_, ?_, front, back, rfl, hfirst, hsecond⟩
    · rw [hfront, hback, List.append_assoc]
    · rw [List.length_append, Nat.add_assoc]
  · rintro ⟨_, rest, hdrop, rfl, front, back, rfl, hfirst, hsecond⟩
    rw [List.append_assoc] at hdrop
    refine ⟨place + front.length, ⟨front, back ++ rest, hdrop, rfl, hfirst⟩, back, rest, ?_, ?_,
      hsecond⟩
    · rw [← List.drop_drop, hdrop, List.drop_left]
    · rw [List.length_append, Nat.add_assoc]

theorem stretches_congr (h : ∀ word, IsFirst word ↔ IsSecond word) :
    Stretches text IsFirst place target ↔ Stretches text IsSecond place target := by
  simp only [Stretches, h]

theorem stretches_nil_iff : Stretches text (· = []) place target ↔ place = target := by
  constructor
  · rintro ⟨_, _, -, rfl, rfl⟩
    rfl
  · rintro rfl
    exact ⟨[], _, rfl, rfl, rfl⟩

/-- Steps between the places of words are the place behind as many words. -/
theorem steps_stretches_iff {Leads : Nat → Nat → Prop} {IsWord : List Char → Prop} {count : Nat}
    (h : ∀ place target, Leads place target ↔ Stretches text IsWord place target) :
    Steps Leads count place target ↔ Stretches text (fun word => ∃ words : List (List Char),
      words.length = count ∧ word = words.flatten ∧ ∀ word ∈ words, IsWord word) place target := by
  induction count generalizing place with
  | zero =>
      refine stretches_nil_iff.symm.trans (stretches_congr fun word =>
        ⟨fun hword => ⟨[], rfl, hword, by simp⟩, ?_⟩)
      rintro ⟨words, hlength, rfl, -⟩
      rw [List.eq_nil_of_length_eq_zero hlength, List.flatten_nil]
  | succ count ih =>
      simp only [Steps, h, ih]
      refine exists_stretches_iff.trans (stretches_congr fun word => ⟨?_, ?_⟩)
      · rintro ⟨front, _, rfl, hfront, words, rfl, rfl, hwords⟩
        exact ⟨front :: words, rfl, rfl, List.forall_mem_cons.2 ⟨hfront, hwords⟩⟩
      · rintro ⟨_ | ⟨front, words⟩, hlength, rfl, hwords⟩
        · exact absurd hlength.symm (Nat.succ_ne_zero count)
        · obtain ⟨hfront, hwords⟩ := List.forall_mem_cons.1 hwords
          exact ⟨front, words.flatten, rfl, hfront, words, Nat.succ.inj hlength, rfl, hwords⟩

end Stretches

namespace Pattern

/-- Whether a pattern looks at nothing outside the text that it matches. -/
def isPlain : Pattern → Bool
  | nothing | char _ _ => true
  | both first second | either first second => first.isPlain && second.isPlain
  | repeated pattern _ _ => pattern.isPlain
  | _ => false

/-- Whether a plain pattern matches a whole word. -/
def Spells : Pattern → (word : List Char) → Prop
  | nothing, word => word = []
  | char negated items, word =>
    ∃ c, word = [c] ∧ (items.any fun item => item.contains c) = !negated
  | both first second, word =>
    ∃ front back, word = front ++ back ∧ Spells first front ∧ Spells second back
  | either first second, word => Spells first word ∨ Spells second word
  | repeated pattern least most, word =>
    ∃ words : List (List Char), (least ≤ words.length ∧
      ∀ bound, most = some bound → words.length ≤ max least bound) ∧
        word = words.flatten ∧ ∀ word ∈ words, Spells pattern word
  | _, _ => False

variable {pattern : Pattern} {text word : List Char} {place target : Nat}

/-- A plain pattern leads from a place to those behind its words. -/
theorem leads_iff_spells (h : pattern.isPlain = true) :
    pattern.Leads text.toArray place target ↔ Stretches text pattern.Spells place target := by
  induction pattern generalizing place target with
  | nothing => exact stretches_nil_iff.symm
  | char negated items =>
      simp only [Leads, Spells, Stretches, List.getElem?_toArray]
      constructor
      · rintro ⟨rfl, c, hc, hitem⟩
        obtain ⟨hplace, hget⟩ := List.getElem?_eq_some_iff.1 hc
        exact ⟨[c], text.drop (place + 1), hget ▸ List.drop_eq_getElem_cons hplace, rfl, c, rfl,
          hitem⟩
      · rintro ⟨_, rest, hdrop, rfl, c, rfl, hitem⟩
        refine ⟨rfl, c, ?_, hitem⟩
        rw [← List.head?_drop, hdrop]
        rfl
  | both first second ihFirst ihSecond =>
      obtain ⟨hfirst, hsecond⟩ := Bool.and_eq_true_iff.1 h
      simp only [Leads, ihFirst hfirst, ihSecond hsecond]
      exact exists_stretches_iff
  | either first second ihFirst ihSecond =>
      obtain ⟨hfirst, hsecond⟩ := Bool.and_eq_true_iff.1 h
      simp only [Leads, ihFirst hfirst, ihSecond hsecond, Spells, Stretches, ← exists_or,
        ← and_or_left]
  | repeated pattern least most ih =>
      simp only [Leads, steps_stretches_iff fun _ _ => ih h]
      constructor
      · rintro ⟨_, hleast, hmost, word, rest, hdrop, rfl, words, rfl, rfl, hwords⟩
        exact ⟨_, rest, hdrop, rfl, words, ⟨hleast, hmost⟩, rfl, hwords⟩
      · rintro ⟨_, rest, hdrop, rfl, words, ⟨hleast, hmost⟩, rfl, hwords⟩
        exact ⟨words.length, hleast, hmost, _, rest, hdrop, rfl, words, rfl, rfl, hwords⟩
  | start | stop | last | boundary | ahead => exact absurd h Bool.false_ne_true

/-- The words of a repetition are those of a pattern one after the other. With a form for the words
of the pattern, the parts of that form are what is repeated. -/
theorem spells_repeated_iff {Part : Type} {IsPart : Part → Prop} {form : Part → List Char}
    {least : Nat} {most : Option Nat}
    (h : ∀ word, pattern.Spells word ↔ ∃ part, IsPart part ∧ word = form part) :
    (repeated pattern least most).Spells word ↔ ∃ parts : List Part, (least ≤ parts.length ∧
      ∀ bound, most = some bound → parts.length ≤ max least bound) ∧
        word = parts.flatMap form ∧ ∀ part ∈ parts, IsPart part := by
  simp only [Spells, h]
  constructor
  · rintro ⟨words, hcount, rfl, hwords⟩
    have hparts : ∃ parts : List Part, parts.map form = words ∧ ∀ part ∈ parts, IsPart part := by
      clear hcount
      induction words with
      | nil => exact ⟨[], rfl, by simp⟩
      | cons word words ih =>
          obtain ⟨⟨part, hpart, rfl⟩, hrest⟩ := List.forall_mem_cons.1 hwords
          obtain ⟨parts, rfl, hparts⟩ := ih hrest
          exact ⟨part :: parts, rfl, List.forall_mem_cons.2 ⟨hpart, hparts⟩⟩
    obtain ⟨parts, rfl, hparts⟩ := hparts
    rw [List.length_map] at hcount
    exact ⟨parts, hcount, rfl, hparts⟩
  · rintro ⟨parts, hcount, rfl, hparts⟩
    refine ⟨parts.map form, by rwa [List.length_map], rfl, fun word hword => ?_⟩
    obtain ⟨part, hpart, rfl⟩ := List.mem_map.1 hword
    exact ⟨part, hparts part hpart, rfl⟩

/-- The words of a repeated character are the texts of such characters. -/
theorem spells_repeated_char_iff {items : List CharItem} {least : Nat} {most : Option Nat} :
    (repeated (char false items) least most).Spells word ↔ (least ≤ word.length ∧
      ∀ bound, most = some bound → word.length ≤ max least bound) ∧
        ∀ c ∈ word, (items.any fun item => item.contains c) = true := by
  have hchar : ∀ word, (char false items).Spells word ↔
      ∃ c, (items.any fun item => item.contains c) = true ∧ word = [c] :=
    fun word => exists_congr fun c => and_comm
  rw [spells_repeated_iff hchar]
  constructor
  · rintro ⟨chars, hcount, rfl, hchars⟩
    rw [List.flatMap_singleton']
    exact ⟨hcount, hchars⟩
  · rintro ⟨hcount, hchars⟩
    exact ⟨word, hcount, (List.flatMap_singleton' word).symm, hchars⟩

theorem spells_single_iff {c : Char} : (single c).Spells word ↔ word = [c] := by
  have hcontains : ∀ other, ([CharItem.range c c].any fun item => item.contains other) = true ↔
      other = c := by
    intro other
    simp only [List.any_cons, List.any_nil, Bool.or_false, CharItem.contains, Bool.and_eq_true,
      decide_eq_true_eq]
    exact ⟨fun h => Char.le_antisymm h.2 h.1, fun h => h ▸ ⟨Char.le_refl _, Char.le_refl _⟩⟩
  simp only [single, Spells, Bool.not_false, hcontains]
  constructor
  · rintro ⟨_, rfl, rfl⟩
    rfl
  · rintro rfl
    exact ⟨c, rfl, rfl⟩

end Pattern

end TypedSql.Text
