import TypedSql.Proofs.Value.Key

/-!
# Different keys

Collections under keys have every key only once. `HasDistinctKeys` says so of entries; putting
things in, putting others over them and leaving some out keeps it. What is put in is found under the
text of its key, and nothing else is found in another place for it: `at?_put`.
-/

namespace TypedSql.Keyed

variable {α β : Type}

/-- Whether no two entries have the same key. -/
def HasDistinctKeys (entries : Keyed α) : Prop :=
  entries.Pairwise fun first second => first.1.isKey second.1 = false

theorem hasDistinctKeys_nil : HasDistinctKeys ([] : Keyed α) := List.Pairwise.nil

/-- Whether keys differ depends on nothing but the keys. -/
theorem HasDistinctKeys.congr {entries : Keyed α} {others : Keyed β}
    (h : HasDistinctKeys entries) (hkeys : others.map Prod.fst = entries.map Prod.fst) :
    HasDistinctKeys others := by
  have hpairs : (entries.map Prod.fst).Pairwise fun first second =>
      first.isKey second = false := List.pairwise_map.2 h
  rw [← hkeys] at hpairs
  exact List.pairwise_map.1 hpairs

/-- An entry that is put in has its key in common with at most one entry, which it replaces. -/
theorem HasDistinctKeys.put {entries : Keyed α} (h : HasDistinctKeys entries) (key : Value)
    (item : α) : HasDistinctKeys (entries.put key item) := by
  unfold Keyed.put
  split
  · refine h.congr ?_
    rw [List.map_map]
    refine List.map_congr_left fun entry _ => ?_
    simp only [Function.comp_apply]
    split <;> rfl
  · next hnew =>
      refine List.pairwise_append.2 ⟨h, List.pairwise_singleton _ _, ?_⟩
      intro entry hentry other hother
      rw [List.mem_singleton] at hother
      subst hother
      simp only [has, Bool.not_eq_true, List.any_eq_false] at hnew
      simpa using hnew entry hentry

/-- Entries that are put over others leave every key only once. -/
theorem HasDistinctKeys.putAll {entries : Keyed α} (h : HasDistinctKeys entries)
    (changes : Keyed α) : HasDistinctKeys (entries.putAll changes) := by
  induction changes generalizing entries with
  | nil => exact h
  | cons change rest ih => exact ih (h.put change.1 change.2)

theorem HasDistinctKeys.filter {entries : Keyed α} (h : HasDistinctKeys entries)
    (keep : Value × α → Bool) : HasDistinctKeys (entries.filter keep) :=
  List.Pairwise.filter keep h

/-- A new key is put in behind the others. -/
theorem put_of_has_eq_false {entries : Keyed α} {key : Value} (h : entries.has key = false)
    (item : α) : entries.put key item = entries ++ [(key, item)] := by
  rw [put, h]
  rfl

/-- Entries are put in one behind the other as long as all keys are different. -/
theorem putAll_eq_append {entries others : Keyed α} (h : HasDistinctKeys (entries ++ others)) :
    entries.putAll others = entries ++ others := by
  induction others generalizing entries with
  | nil => exact (List.append_nil entries).symm
  | cons entry rest ih =>
      have hnew : entries.has entry.1 = false := by
        rw [has, List.any_eq_false]
        intro other hother
        have hkeys := (List.pairwise_append.1 h).2.2 other hother entry List.mem_cons_self
        simp [hkeys]
      show (entries.put entry.1 entry.2).putAll rest = _
      rw [put_of_has_eq_false hnew, ih (by rwa [List.append_assoc]), List.append_assoc]
      rfl

/-- Pairs with different keys stay as they are. -/
theorem ofPairs_eq {entries : Keyed α} (h : HasDistinctKeys entries) : ofPairs entries = entries :=
  putAll_eq_append h

/-- Of entries with different keys every thing is found under the text of its key. -/
theorem HasDistinctKeys.at?_of_mem {entries : Keyed α} (h : HasDistinctKeys entries)
    {entry : Value × α} (hmem : entry ∈ entries) {chars : String}
    (hkey : entry.1.asText? = some chars) : entries.at? chars = some entry.2 := by
  induction h with
  | nil => cases hmem
  | @cons first rest hfirst _ ih =>
      rw [at?, List.find?_cons]
      rcases List.mem_cons.1 hmem with rfl | hmem
      · rw [decide_eq_true hkey]
        rfl
      · have hother := hfirst entry hmem
        rw [Value.isKey_of_asText hkey] at hother
        rw [hother]
        exact ih hmem

section Put

variable {entries : Keyed α} {key : Value} {known : String}

/-- A thing in the place of those under a key is found where there was one. -/
theorem at?_replaced (h : key.asText? = some known) (item : α) (chars : String) :
    at? (entries.map fun entry => if entry.1.isKey key then (entry.1, item) else entry) chars =
      if known = chars then (entries.at? chars).map fun _ => item else entries.at? chars := by
  induction entries with
  | nil => simp [at?]
  | cons entry rest ih =>
      simp only [at?, List.map_cons, List.find?_cons, Value.isKey_of_asText h] at ih ⊢
      by_cases hentry : entry.1.asText? = some chars
      · by_cases hchars : known = chars
        · simp [hentry, hchars]
        · simp [hentry, hchars, Ne.symm hchars]
      · have hkept : ∀ replaces : Bool,
            (if replaces = true then (entry.1, item) else entry).1.asText? ≠ some chars := by
          intro replaces
          cases replaces <;> exact hentry
        simp only [hentry, hkept, decide_false]
        exact ih

/-- A thing that is put in is found under the text of its key; other texts find what they found. -/
theorem at?_put (h : key.asText? = some known) (item : α) (chars : String) :
    (entries.put key item).at? chars = if known = chars then some item else entries.at? chars := by
  have hfound : entries.has key = (entries.at? known).isSome := by
    rw [← get?_eq_at? h, isSome_get?]
  cases hhas : entries.has key with
  | true =>
      rw [put, if_pos hhas, at?_replaced h]
      rw [hhas] at hfound
      obtain ⟨found, hsome⟩ := Option.isSome_iff_exists.1 hfound.symm
      by_cases hchars : known = chars
      · subst hchars
        simp [hsome]
      · simp [hchars]
  | false =>
      rw [hhas] at hfound
      have hnone : entries.at? known = none := Option.not_isSome_iff_eq_none.1 (by simp [← hfound])
      rw [put_of_has_eq_false hhas, at?, List.find?_append, Option.map_or]
      by_cases hchars : known = chars
      · subst hchars
        rw [← at?, hnone]
        simp [h]
      · rw [← at?]
        simp [h, hchars]

/-- A thing in the place of those under a key without a text is found under no text. -/
theorem at?_replaced_of_asText?_eq_none (h : key.asText? = none) (item : α) (chars : String) :
    at? (entries.map fun entry => if entry.1.isKey key then (entry.1, item) else entry) chars =
      entries.at? chars := by
  induction entries with
  | nil => rfl
  | cons entry rest ih =>
      simp only [at?, List.map_cons, List.find?_cons] at ih ⊢
      by_cases hentry : entry.1.asText? = some chars
      · simp [Value.isKey_of_left_asText hentry, hentry, h]
      · have hkept : ∀ replaces : Bool,
            (if replaces = true then (entry.1, item) else entry).1.asText? ≠ some chars := by
          intro replaces
          cases replaces <;> exact hentry
        simp only [hentry, hkept, decide_false]
        exact ih

/-- A thing that is put in under a key without a text is found under no text. -/
theorem at?_put_of_asText?_eq_none (h : key.asText? = none) (item : α) (chars : String) :
    (entries.put key item).at? chars = entries.at? chars := by
  cases hhas : entries.has key with
  | true => rw [put, if_pos hhas, at?_replaced_of_asText?_eq_none h]
  | false =>
      rw [put_of_has_eq_false hhas, at?, List.find?_append, Option.map_or, ← at?]
      simp [h]

/-- Of things that are put over others the last one under a text is found. -/
theorem at?_putAll (entries changes : Keyed α) (chars : String) :
    (entries.putAll changes).at? chars =
      (at? changes.reverse chars).or (entries.at? chars) := by
  induction changes generalizing entries with
  | nil => rfl
  | cons change rest ih =>
      have hput : (entries.put change.1 change.2).at? chars =
          (at? [change] chars).or (entries.at? chars) := by
        cases hkey : change.1.asText? with
        | none =>
            rw [at?_put_of_asText?_eq_none hkey]
            simp [at?, hkey]
        | some known =>
            rw [at?_put hkey]
            by_cases hchars : known = chars <;> simp [at?, hkey, hchars]
      show ((entries.put change.1 change.2).putAll rest).at? chars = _
      rw [ih, hput, List.reverse_cons, ← Option.or_assoc]
      congr 1
      rw [at?, at?, at?, List.find?_append, Option.map_or]

/-- What holds of all keys and of a new one holds of all keys when that is put in. -/
theorem forall_key_put (holds : Value → Prop) (hkeys : ∀ entry ∈ entries, holds entry.1)
    (hkey : holds key) (item : α) : ∀ entry ∈ entries.put key item, holds entry.1 := by
  unfold put
  split
  · rw [List.forall_mem_map]
    intro entry hentry
    split <;> exact hkeys entry hentry
  · rw [List.forall_mem_append]
    exact ⟨hkeys, List.forall_mem_singleton.2 hkey⟩

/-- What holds of all items and of a new one holds of all items when that is put in. -/
theorem forall_item_put {holds : α → Prop} (hitems : ∀ entry ∈ entries, holds entry.2)
    (key : Value) {item : α} (hitem : holds item) :
    ∀ entry ∈ entries.put key item, holds entry.2 := by
  unfold put
  split
  · rw [List.forall_mem_map]
    intro entry hentry
    split
    · exact hitem
    · exact hitems entry hentry
  · rw [List.forall_mem_append]
    exact ⟨hitems, List.forall_mem_singleton.2 hitem⟩

/-- What holds of all items and of those put over them holds of all items then. -/
theorem forall_item_putAll {holds : α → Prop} {changes : Keyed α}
    (hitems : ∀ entry ∈ entries, holds entry.2) (hchanges : ∀ entry ∈ changes, holds entry.2) :
    ∀ entry ∈ entries.putAll changes, holds entry.2 := by
  induction changes generalizing entries with
  | nil => exact hitems
  | cons change rest ih =>
      rw [List.forall_mem_cons] at hchanges
      exact ih (forall_item_put hitems change.1 hchanges.1) hchanges.2

end Put

/-- Of entries with different keys the value under a key is looked up, if it is kept. -/
theorem lookup_filter {κ : Type} [BEq κ] [LawfulBEq κ] {entries : List (κ × α)} {key : κ}
    {value : α}
    (hnodup : (entries.map Prod.fst).Nodup) (hmem : (key, value) ∈ entries)
    (keep : κ × α → Bool) :
    (entries.filter keep).lookup key = if keep (key, value) then some value else none := by
  induction entries with
  | nil => cases hmem
  | cons entry rest ih =>
      rw [List.map_cons, List.nodup_cons] at hnodup
      rcases List.mem_cons.1 hmem with rfl | hrest
      · have hother : (rest.filter keep).lookup key = none := by
          rw [List.lookup_eq_none_iff]
          intro other hother
          rw [bne_iff_ne]
          intro hsame
          exact hnodup.1 (List.mem_map.2 ⟨other, (List.mem_filter.1 hother).1, hsame.symm⟩)
        rw [List.filter_cons]
        cases keep (key, value) <;> simp [hother]
      · have hne : key ≠ entry.1 := by
          intro hsame
          exact hnodup.1 (List.mem_map.2 ⟨(key, value), hrest, hsame⟩)
        rw [List.filter_cons, ← ih hnodup.2 hrest]
        split
        · rw [List.lookup_cons, beq_false_of_ne hne]
        · rfl

/-- Of entries with different keys every value is looked up under its key. -/
theorem lookup_of_mem {κ : Type} [BEq κ] [LawfulBEq κ] {entries : List (κ × α)} {key : κ}
    {value : α}
    (hnodup : (entries.map Prod.fst).Nodup) (hmem : (key, value) ∈ entries) :
    entries.lookup key = some value := by
  have hkept := lookup_filter hnodup hmem fun _ => true
  rwa [List.filter_eq_self.2 fun _ _ => rfl, if_pos rfl] at hkept

end TypedSql.Keyed
