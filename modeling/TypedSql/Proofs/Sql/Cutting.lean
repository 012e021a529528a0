import Mathlib.Data.List.TakeWhile
import TypedSql.Proofs.Identifier
import TypedSql.Proofs.Sql.Token

/-!
# Where texts end

A statement is written as texts one behind the other, and its text alone has to tell where each of
them ends. Texts of a sort that is `PrefixFree` end by themselves, also one behind the other with a
separator (`PrefixFree.intercalate_cut`); texts without blanks end at the first blank (`word_cut`);
and what is read as tokens ends before the first keyword that is none of a condition (`Scans.cut`).
-/

namespace TypedSql.Sql

open TypedSql.Identifier

section Words

variable {text other : String} {front behind rest : List Char}

/-- What stands before the first blank. -/
def firstWord (chars : List Char) : List Char := chars.takeWhile fun c => c ≠ ' '

/-- What stands behind a blank is not looked at. -/
theorem firstWord_append (h : firstWord behind = []) (front : List Char) :
    firstWord (front ++ behind) = firstWord front := by
  unfold firstWord at h ⊢
  rw [List.takeWhile_append, h]
  split
  · next hlength =>
      rw [List.append_nil]
      exact ((List.takeWhile_prefix _).eq_of_length hlength).symm
  · rfl

theorem firstWord_of_not_mem (h : ' ' ∉ front) : firstWord front = front :=
  List.takeWhile_eq_self_iff.2 fun c hc => by simpa using ne_of_mem_of_not_mem hc h

/-- Texts without blanks end where a blank or nothing follows. -/
theorem word_cut (htext : ' ' ∉ text.toList) (hother : ' ' ∉ other.toList)
    (hbehind : firstWord behind = []) (hrest : firstWord rest = [])
    (h : text.toList ++ behind = other.toList ++ rest) : text = other ∧ behind = rest := by
  have hword := congrArg firstWord h
  rw [firstWord_append hbehind, firstWord_append hrest, firstWord_of_not_mem htext,
    firstWord_of_not_mem hother] at hword
  rw [hword] at h
  exact ⟨String.toList_inj.1 hword, List.append_cancel_left h⟩

/-- `Follows keywords behind` says that nothing stands behind a text, or a blank and then what
begins with the first word of one of the keywords. -/
def Follows (keywords : List String) (behind : List Char) : Prop :=
  behind = [] ∨ ∃ after, behind = ' ' :: after ∧
    ∃ keyword ∈ keywords, firstWord after = firstWord keyword.toList

variable {keywords : List String}

theorem Follows.firstWord_eq_nil (h : Follows keywords behind) : firstWord behind = [] := by
  obtain rfl | ⟨after, rfl, -⟩ := h
  · rfl
  · rfl

/-- No comma stands behind a text that keywords follow. -/
theorem Follows.not_comma (h : Follows keywords behind) : ¬ ", ".toList <+: behind := by
  rintro ⟨after, rfl⟩
  obtain h | ⟨_, h, -⟩ := h <;> cases h

end Words

section PrefixFree

variable {sort : String → Prop} {text other separator : String} {items others : List String}
  {behind rest : List Char}

/-- Whether no text of a sort is the beginning of another one. -/
def PrefixFree (sort : String → Prop) : Prop :=
  ∀ ⦃text other⦄, sort text → sort other → text.toList <+: other.toList → text = other

/-- Texts, each behind a separator. -/
def led (separator : String) (texts : List String) : List Char :=
  texts.flatMap fun text => separator.toList ++ text.toList

theorem led_cons (separator text : String) (texts : List String) :
    led separator (text :: texts) = separator.toList ++ (text.toList ++ led separator texts) := by
  simp [led]

theorem led_append (separator : String) (texts others : List String) :
    led separator (texts ++ others) = led separator texts ++ led separator others :=
  List.flatMap_append

/-- Joined texts are the first one and the others, each behind the separator. -/
theorem toList_intercalate_cons (separator text : String) (texts : List String) :
    (separator.intercalate (text :: texts)).toList = text.toList ++ led separator texts := by
  induction texts generalizing text with
  | nil => simp [led]
  | cons next texts ih =>
      rw [String.intercalate_cons_cons, String.toList_append, String.toList_append, ih, led_cons,
        List.append_assoc]

/-- Texts of a sort without beginnings of one another end whatever stands behind them. -/
theorem PrefixFree.cut (h : PrefixFree sort) (htext : sort text) (hother : sort other)
    (hsame : text.toList ++ behind = other.toList ++ rest) : text = other ∧ behind = rest := by
  have hbegins : text.toList <+: other.toList ++ rest := ⟨behind, hsame⟩
  have htexts : text = other := by
    obtain hprefix | hprefix :=
      List.prefix_or_prefix_of_prefix hbegins (List.prefix_append other.toList rest)
    · exact h htext hother hprefix
    · exact (h hother htext hprefix).symm
  subst htexts
  exact ⟨rfl, List.append_cancel_left hsame⟩

/-- Texts behind separators end where no separator follows. -/
theorem PrefixFree.led_cut (h : PrefixFree sort) (hitems : ∀ text ∈ items, sort text)
    (hothers : ∀ text ∈ others, sort text) (hbehind : ¬ separator.toList <+: behind)
    (hrest : ¬ separator.toList <+: rest)
    (hsame : led separator items ++ behind = led separator others ++ rest) :
    items = others ∧ behind = rest := by
  induction items generalizing others with
  | nil =>
      cases others with
      | nil => exact ⟨rfl, hsame⟩
      | cons other others =>
          rw [led_cons, List.append_assoc] at hsame
          exact absurd ⟨_, hsame.symm⟩ hbehind
  | cons text items ih =>
      cases others with
      | nil =>
          rw [led_cons, List.append_assoc] at hsame
          exact absurd ⟨_, hsame⟩ hrest
      | cons other others =>
          rw [List.forall_mem_cons] at hitems hothers
          simp only [led_cons, List.append_assoc] at hsame
          obtain ⟨rfl, hafter⟩ := h.cut hitems.1 hothers.1 (List.append_cancel_left hsame)
          obtain ⟨rfl, hends⟩ := ih hitems.2 hothers.2 hafter
          exact ⟨rfl, hends⟩

/-- Joined texts end where no separator follows. -/
theorem PrefixFree.intercalate_cut (h : PrefixFree sort) (hitems : ∀ text ∈ items, sort text)
    (hothers : ∀ text ∈ others, sort text) (hbehind : ¬ separator.toList <+: behind)
    (hrest : ¬ separator.toList <+: rest) (hnonempty : items ≠ []) (hother : others ≠ [])
    (hsame : (separator.intercalate items).toList ++ behind =
      (separator.intercalate others).toList ++ rest) : items = others ∧ behind = rest := by
  obtain ⟨text, texts, rfl⟩ := List.exists_cons_of_ne_nil hnonempty
  obtain ⟨first, more, rfl⟩ := List.exists_cons_of_ne_nil hother
  -- the first texts stand behind no separator; put one before both
  refine h.led_cut hitems hothers hbehind hrest ?_
  simp only [toList_intercalate_cons] at hsame
  simp only [led_cons, List.append_assoc] at hsame ⊢
  rw [hsame]

/-- No quoted name is the beginning of another one. -/
theorem prefixFree_isQuoted : PrefixFree IsQuoted := by
  rintro _ _ ⟨name, rfl, hname⟩ ⟨other, rfl, hother⟩ ⟨rest, h⟩
  have hinside {name : String} (hname : ∀ c ∈ name.toList, isShown c = true) :
      '\x60' ∉ name.toList := fun hmem => absurd (hname _ hmem) (by decide)
  have hsame : other.toList ++ '\x60' :: [] = name.toList ++ '\x60' :: rest := by
    simpa [backquoted] using h.symm
  have hnames : other.toList = name.toList :=
    ((List.append_cons_inj_of_notMem (hinside hother) List.not_mem_nil).1 hsame).1
  rw [String.toList_inj.1 hnames]

end PrefixFree

section Tokens

variable {text other : String} {more others : List Token} {keywords : List String}
  {front behind rest : List Char}

/-- Whether characters are a word that no condition has. -/
def IsStray (word : List Char) : Prop :=
  word ≠ [] ∧ (word.all fun c => Run.of? c = some .word) ∧ Run.token? .word word = none

instance : DecidablePred IsStray := fun _ => inferInstanceAs (Decidable (_ ∧ _ ∧ _))

namespace Scan

/-- A character of a run begins it. -/
theorem start_of_run {run : Run} {c : Char} (h : Run.of? c = some run) (read : List Token) :
    start { read } c = some ⟨read, .run run [c]⟩ := by
  have hsymbol : symbolTokens? c = none := by
    unfold symbolTokens?
    split <;> first | rfl | cases h
  have hquote : c ≠ '\x60' := by
    rintro rfl
    cases h
  have hbrace : c ≠ '\x7b' := by
    rintro rfl
    cases h
  simp [start, hsymbol, hquote, hbrace, h]

/-- A state in the middle of a run goes on to its end. -/
theorem foldlM_run {run : Run} (read : List Token) (chars rest : List Char)
    (hchars : ∀ c ∈ chars, Run.of? c = some run) :
    chars.foldlM next ⟨read, .run run rest⟩ = some ⟨read, .run run (rest ++ chars)⟩ := by
  induction chars generalizing rest with
  | nil => simp
  | cons c chars ih =>
      obtain ⟨hc, hchars⟩ := List.forall_mem_cons.1 hchars
      have hnext : next ⟨read, .run run rest⟩ c = some ⟨read, .run run (rest ++ [c])⟩ := by
        simp [next, hc]
      rw [List.foldlM_cons, hnext]
      simpa using ih (rest ++ [c]) hchars

/-- What begins with a stray word is not read. -/
theorem foldlM_of_isStray (h : IsStray (firstWord front)) (read : List Token) :
    (front.foldlM next { read }).bind settle = none := by
  obtain ⟨hnonempty, hletters, hunknown⟩ := h
  rw [List.all_eq_true] at hletters
  have hword : (firstWord front).foldlM next { read } =
      some ⟨read, .run .word (firstWord front)⟩ := by
    revert hnonempty hletters
    cases firstWord front with
    | nil => exact fun hnonempty => absurd rfl hnonempty
    | cons c word =>
        intro _ hletters
        simp only [decide_eq_true_iff] at hletters
        obtain ⟨hc, hletters⟩ := List.forall_mem_cons.1 hletters
        have hstart : next { read } c = some ⟨read, .run .word [c]⟩ := start_of_run hc read
        rw [List.foldlM_cons, hstart]
        exact foldlM_run read word [c] hletters
  have hfront : front = firstWord front ++ front.dropWhile fun c => c ≠ ' ' :=
    List.takeWhile_append_dropWhile.symm
  have hblank := List.head?_dropWhile_not (fun c : Char => c ≠ ' ') front
  rw [hfront, List.foldlM_append, hword]
  -- the word ends at a blank or at the end; either way it has to be a token, which it is not
  cases hbehind : front.dropWhile fun c => c ≠ ' ' with
  | nil => simp [settle, hunknown]
  | cons c behind =>
      rw [hbehind] at hblank
      obtain rfl : c = ' ' := by simpa using hblank
      have hrun : Run.of? ' ' ≠ some .word := by decide
      simp [next, settle, hrun, hunknown]

end Scan

/-- What is read as tokens does not go on with the keywords that follow. -/
theorem Scans.eq_nil_of_follows (hstray : ∀ keyword ∈ keywords, IsStray (firstWord keyword.toList))
    (htext : Scans text more) (hother : Scans other others)
    (hlonger : other.toList = text.toList ++ front) (hbehind : Follows keywords (front ++ rest))
    (hrest : Follows keywords rest) : front = [] := by
  cases front with
  | nil => rfl
  | cons c front =>
      obtain hnil | ⟨after, hafter, keyword, hkeyword, hword⟩ := hbehind
      · cases hnil
      obtain ⟨rfl, rfl⟩ := List.cons_eq_cons.1 hafter
      replace hword : firstWord front = firstWord keyword.toList := by
        rw [← firstWord_append hrest.firstWord_eq_nil front]
        exact hword
      have hnone := Scan.foldlM_of_isStray (hword ▸ hstray keyword hkeyword) more
      obtain ⟨scan, hscan, hsettle⟩ := Option.bind_eq_some_iff.1 (htext [])
      have hnext : scan.next ' ' = some { read := more } := by
        rw [Scan.next_of_settle hsettle (by decide)]
        simp [Scan.start, symbolTokens?, Scan.push]
      have hread := hother []
      rw [Scan.through, hlonger, List.foldlM_append, hscan] at hread
      simp [hnext, hnone] at hread

/-- What is read as tokens ends before the keywords that follow, if conditions have none of
them. -/
theorem Scans.cut (hstray : ∀ keyword ∈ keywords, IsStray (firstWord keyword.toList))
    (htext : Scans text more) (hother : Scans other others) (hbehind : Follows keywords behind)
    (hrest : Follows keywords rest) (h : text.toList ++ behind = other.toList ++ rest) :
    text = other ∧ behind = rest := by
  obtain ⟨front, hlonger, rfl⟩ | ⟨front, hlonger, rfl⟩ := List.append_eq_append_iff.1 h
  · obtain rfl := htext.eq_nil_of_follows hstray hother hlonger hbehind hrest
    exact ⟨String.toList_inj.1 (by simpa using hlonger.symm), rfl⟩
  · obtain rfl := hother.eq_nil_of_follows hstray htext hlonger hrest hbehind
    exact ⟨String.toList_inj.1 (by simpa using hlonger), rfl⟩

end Tokens

end TypedSql.Sql
