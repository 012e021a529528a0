import TypedSql.Proofs.Identifier
import TypedSql.Proofs.Sql.Numbering
import TypedSql.Proofs.Sql.Piece
import TypedSql.Statement.Builder

/-!
# Placeholders of a text

Which placeholders stand in a text, from left to right. `placeholders` reads them off any text;
`Shows sql slots` says that a text consists of `slots` and of text without braces. The two agree
where no type has a brace in it: `Shows.placeholders_eq`.
-/

namespace TypedSql.Statement

open TypedSql.Sql

/-- The placeholder that the text between two braces is: a name and a type around a colon. -/
def slotOf (chars : List Char) : Slot :=
  { name := String.ofList (chars.takeWhile (· ≠ ':'))
    type := String.ofList ((chars.dropWhile (· ≠ ':')).drop 1) }

/-- The placeholders in characters. What has been read since an opening brace is kept until the
brace is closed. -/
def readSlots : Option (List Char) → List Char → List Slot
  | _, [] => []
  | none, c :: rest => if c = '\x7b' then readSlots (some []) rest else readSlots none rest
  | some chars, c :: rest =>
    if c = '\x7d' then slotOf chars :: readSlots none rest
    else readSlots (some (chars ++ [c])) rest

/-- The placeholders in a text, from left to right. -/
def placeholders (sql : String) : List Slot := readSlots none sql.toList

/-- Text without braces. -/
def IsPlain (text : String) : Prop := '\x7b' ∉ text.toList ∧ '\x7d' ∉ text.toList

instance (text : String) : Decidable (IsPlain text) := inferInstanceAs (Decidable (_ ∧ _))

/-- Plain texts put together are plain. -/
theorem IsPlain.append {text other : String} (htext : IsPlain text) (hother : IsPlain other) :
    IsPlain (text ++ other) := by
  obtain ⟨hopening, hclosing⟩ := htext
  obtain ⟨hotherOpening, hotherClosing⟩ := hother
  simp [IsPlain, hopening, hclosing, hotherOpening, hotherClosing]

theorem isPlain_of_isQuoted {text : String} (h : Identifier.IsQuoted text) : IsPlain text :=
  ⟨h.not_mem (by decide) (by decide), h.not_mem (by decide) (by decide)⟩

/-- `Shows sql slots` says that `sql` consists of placeholders, which are `slots` from left to
right, and of text without braces. -/
inductive Shows : String → List Slot → Prop
  | plain {text : String} (h : IsPlain text) : Shows text []
  | slot (slot : Slot) : Shows slot.render [slot]
  | append {text other : String} {slots others : List Slot} (htext : Shows text slots)
      (hother : Shows other others) : Shows (text ++ other) (slots ++ others)

/-- Text without braces shows no placeholder. -/
theorem Shows.eq_nil_of_isPlain {sql : String} {slots : List Slot} (h : Shows sql slots)
    (hplain : IsPlain sql) : slots = [] := by
  induction h with
  | plain => rfl
  | slot slot =>
      obtain ⟨hopening, -⟩ := hplain
      simp [Slot.render, placeholderOf] at hopening
  | append htext hother ihtext ihother =>
      obtain ⟨hopening, hclosing⟩ := hplain
      simp only [String.toList_append, List.mem_append, not_or] at hopening hclosing
      rw [ihtext ⟨hopening.1, hclosing.1⟩, ihother ⟨hopening.2, hclosing.2⟩]
      rfl

/-- Texts that each consist of placeholders, which are `slots` from the first text to the last, and
of text without braces. -/
inductive ShowsEach : List String → List Slot → Prop
  | nil : ShowsEach [] []
  | cons {text : String} {rest : List String} {slots others : List Slot} (htext : Shows text slots)
      (hrest : ShowsEach rest others) : ShowsEach (text :: rest) (slots ++ others)

namespace ShowsEach

variable {texts others : List String} {slots more : List Slot}

theorem append (htexts : ShowsEach texts slots) (hothers : ShowsEach others more) :
    ShowsEach (texts ++ others) (slots ++ more) := by
  induction htexts with
  | nil => exact hothers
  | cons htext _ ih =>
      rw [List.append_assoc]
      exact cons htext ih

/-- Plain texts show no placeholders. -/
theorem plain (h : ∀ text ∈ texts, IsPlain text) : ShowsEach texts [] := by
  induction texts with
  | nil => exact nil
  | cons text rest ih =>
      have hrest := ih fun other hother => h other (List.mem_cons_of_mem text hother)
      exact cons (Shows.plain (h text List.mem_cons_self)) hrest

theorem single {text : String} (h : Shows text slots) : ShowsEach [text] slots := by
  have h := cons h nil
  rwa [List.append_nil] at h

/-- Texts put together around a plain separator show what the texts show. -/
theorem intercalate {separator : String} (hseparator : IsPlain separator)
    (h : ShowsEach texts slots) : Shows (separator.intercalate texts) slots := by
  induction h with
  | nil =>
      rw [String.intercalate_nil]
      exact Shows.plain (by decide)
  | @cons text rest slots others htext hrest ih =>
      cases hrest with
      | nil => simpa using htext
      | cons =>
          rw [String.intercalate_cons_cons]
          have hfirst := htext.append (Shows.plain hseparator)
          rw [List.append_nil] at hfirst
          exact hfirst.append ih

end ShowsEach

/-- A placeholder that can be read back: its name ends at the colon and its type at the brace. -/
def Slot.IsReadable (slot : Slot) : Prop :=
  ':' ∉ slot.name.toList ∧ '\x7d' ∉ slot.name.toList ∧ '\x7d' ∉ slot.type.toList

/-- Text without an opening brace is passed over. -/
theorem readSlots_plain {chars : List Char} (h : '\x7b' ∉ chars) (rest : List Char) :
    readSlots none (chars ++ rest) = readSlots none rest := by
  induction chars with
  | nil => rfl
  | cons c others ih =>
      simp only [List.mem_cons, not_or] at h
      simp [readSlots, Ne.symm h.1, ih h.2]

/-- A placeholder is read up to its closing brace. -/
theorem readSlots_inside {chars : List Char} (h : '\x7d' ∉ chars) (read rest : List Char) :
    readSlots (some read) (chars ++ '\x7d' :: rest) =
      slotOf (read ++ chars) :: readSlots none rest := by
  induction chars generalizing read with
  | nil => simp [readSlots]
  | cons c others ih =>
      simp only [List.mem_cons, not_or] at h
      simp [readSlots, Ne.symm h.1, ih h.2]

/-- What stands between the braces of a placeholder is read as the placeholder. -/
theorem slotOf_eq {slot : Slot} (h : ':' ∉ slot.name.toList) :
    slotOf (slot.name.toList ++ ':' :: slot.type.toList) = slot := by
  obtain ⟨hname, htype⟩ := cut_at_colon h slot.type.toList
  simp only [slotOf, hname, htype, String.ofList_toList]

/-- A reader finds the placeholders that a text shows, whatever follows the text. -/
theorem Shows.readSlots_eq {sql : String} {slots : List Slot} (h : Shows sql slots)
    (hslots : ∀ slot ∈ slots, slot.IsReadable) (rest : List Char) :
    readSlots none (sql.toList ++ rest) = slots ++ readSlots none rest := by
  induction h generalizing rest with
  | plain h => exact readSlots_plain h.1 rest
  | slot slot =>
      obtain ⟨hcolon, hname, htype⟩ := hslots slot (List.mem_singleton_self slot)
      have hinside : '\x7d' ∉ slot.name.toList ++ ':' :: slot.type.toList := by
        simp [hname, htype]
      have htext : slot.render.toList ++ rest =
          '\x7b' :: ((slot.name.toList ++ ':' :: slot.type.toList) ++ '\x7d' :: rest) := by
        simp [Slot.render, placeholderOf]
      rw [htext]
      show readSlots (some []) _ = _
      rw [readSlots_inside hinside, List.nil_append, slotOf_eq hcolon]
      rfl
  | append htext hother ihtext ihother =>
      -- the second text is part of what follows the first one
      rw [String.toList_append, List.append_assoc,
        ihtext (fun slot hslot => hslots slot (List.mem_append_left _ hslot)),
        ihother (fun slot hslot => hslots slot (List.mem_append_right _ hslot)), List.append_assoc]

/-- The placeholders in a text are those that it shows. -/
theorem Shows.placeholders_eq {sql : String} {slots : List Slot} (h : Shows sql slots)
    (hslots : ∀ slot ∈ slots, slot.IsReadable) : placeholders sql = slots := by
  have hread := h.readSlots_eq hslots []
  rw [List.append_nil] at hread
  simpa [placeholders, readSlots] using hread

/-- Placeholders of some types whose parameters count up from a number. -/
def slotsFrom : Int → List String → List Slot
  | _, [] => []
  | index, type :: rest => { name := parameter index, type } :: slotsFrom (index + 1) rest

theorem slotsFrom_append (index : Int) (types others : List String) :
    slotsFrom index (types ++ others) =
      slotsFrom index types ++ slotsFrom (index + types.length) others := by
  induction types generalizing index with
  | nil => simp [slotsFrom]
  | cons type rest ih =>
      simp only [List.cons_append, slotsFrom, ih, List.length_cons]
      rw [show index + 1 + (rest.length : Int) = index + ((rest.length + 1 : Nat) : Int) by omega]

theorem length_slotsFrom (index : Int) (types : List String) :
    (slotsFrom index types).length = types.length := by
  induction types generalizing index with
  | nil => rfl
  | cons type rest ih => simp [slotsFrom, ih]

/-- Numbered placeholders can be read back where no type has a closing brace in it. -/
theorem isReadable_of_mem_slotsFrom {index : Int} {types : List String}
    (htypes : ∀ type ∈ types, '\x7d' ∉ type.toList) {slot : Slot}
    (hslot : slot ∈ slotsFrom index types) : slot.IsReadable := by
  induction types generalizing index with
  | nil => cases hslot
  | cons type rest ih =>
      rcases List.mem_cons.1 hslot with rfl | hslot
      · exact ⟨not_mem_parameter (by decide) (by decide) index,
          not_mem_parameter (by decide) (by decide) index, htypes type List.mem_cons_self⟩
      · exact ih (fun other hother => htypes other (List.mem_cons_of_mem type hother)) hslot

/-- The names of numbered placeholders differ. -/
theorem nodup_names_slotsFrom (index : Int) (types : List String) :
    ((slotsFrom index types).map Slot.name).Nodup := by
  have hlater : ∀ (first next : Int) (types : List String), first < next →
      parameter first ∉ (slotsFrom next types).map Slot.name := by
    intro first next types
    induction types generalizing next with
    | nil => simp [slotsFrom]
    | cons type rest ih =>
        intro hnext
        simp only [slotsFrom, List.map_cons, List.mem_cons, not_or]
        refine ⟨fun hsame => ?_, ih (next + 1) (by omega)⟩
        have hindex := parameter_injective hsame
        omega
  induction types generalizing index with
  | nil => simp [slotsFrom]
  | cons type rest ih =>
      simp only [slotsFrom, List.map_cons, List.nodup_cons]
      exact ⟨hlater index (index + 1) rest (by omega), ih (index + 1)⟩

/-- Values under the names of parameters that count up from a number. -/
def numbered : Int → List Value → List (String × Value)
  | _, [] => []
  | index, value :: rest => (parameter index, value) :: numbered (index + 1) rest

theorem numbered_append (index : Int) (values others : List Value) :
    numbered index (values ++ others) =
      numbered index values ++ numbered (index + values.length) others := by
  induction values generalizing index with
  | nil => simp [numbered]
  | cons value rest ih =>
      simp only [List.cons_append, numbered, ih, List.length_cons]
      rw [show index + 1 + (rest.length : Int) = index + ((rest.length + 1 : Nat) : Int) by omega]

/-- Values at their positions, under the parameters that the positions count to. -/
theorem map_zipIdx_eq_numbered (index : Int) (distance : Nat) (values : List Value) :
    ((values.zipIdx distance).map fun entry => (parameter (index + entry.2), entry.1)) =
      numbered (index + distance) values := by
  induction values generalizing distance with
  | nil => rfl
  | cons value rest ih =>
      rw [List.zipIdx_cons, List.map_cons, ih (distance + 1), numbered,
        show index + ((distance + 1 : Nat) : Int) = index + distance + 1 by omega]

theorem map_snd_numbered (index : Int) (values : List Value) :
    (numbered index values).map Prod.snd = values := by
  induction values generalizing index with
  | nil => rfl
  | cons value rest ih => simp [numbered, ih]

/-- As many values as placeholders have the names of the placeholders. -/
theorem map_fst_numbered {values : List Value} {types : List String}
    (hlength : values.length = types.length) (index : Int) :
    (numbered index values).map Prod.fst = (slotsFrom index types).map Slot.name := by
  induction values generalizing index types with
  | nil =>
      cases types with
      | nil => rfl
      | cons => cases hlength
  | cons value rest ih =>
      cases types with
      | nil => cases hlength
      | cons type others =>
          simp only [numbered, slotsFrom, List.map_cons, ih (Nat.succ_inj.1 hlength)]

end TypedSql.Statement
