import Mathlib.Data.List.Forall2

/-!
# Outcomes

What it takes for a chain of steps that may fail to give a result. A step is opened by
`bind_eq_ok`, a step for every member of a list by `mapM_cons_eq_ok`. Two chains are compared step
by step: `Matching` outcomes are both faults or both results, and related as such.
-/

namespace TypedSql.Outcome

variable {ε α β : Type}

/-- Two steps give a result exactly if the first one does and the second one does from there. -/
theorem bind_eq_ok {first : Except ε α} {second : α → Except ε β} {result : β} :
    (first >>= second) = .ok result ↔ ∃ value, first = .ok value ∧ second value = .ok result := by
  cases first with
  | ok value => simp [bind, Except.bind]
  | error fault => simp [bind, Except.bind]

/-- Two steps end in a fault exactly if the first one does, or the second one from there. -/
theorem bind_eq_error {first : Except ε α} {second : α → Except ε β} {fault : ε} :
    (first >>= second) = .error fault ↔
      first = .error fault ∨ ∃ value, first = .ok value ∧ second value = .error fault := by
  cases first with
  | ok value => simp [bind, Except.bind]
  | error known => simp [bind, Except.bind]

/-- A changed outcome is a result exactly if the outcome is one. -/
theorem map_eq_ok {change : α → β} {first : Except ε α} {result : β} :
    first.map change = .ok result ↔ ∃ value, first = .ok value ∧ change value = result := by
  cases first with
  | ok value => simp [Except.map]
  | error fault => simp [Except.map]

/-- A changed outcome is some result exactly if the outcome is one. -/
theorem exists_map_iff {change : α → β} {first : Except ε α} :
    (∃ result, first.map change = .ok result) ↔ ∃ value, first = .ok value := by
  simp [map_eq_ok]

/-- Two steps give some result exactly if the first one does and what the second one needs holds,
where that is the same for all results of the first one. -/
theorem exists_bind_iff {first : Except ε α} {second : α → Except ε β} {needed : Prop}
    (h : ∀ value, first = .ok value → ((∃ result, second value = .ok result) ↔ needed)) :
    (∃ result, (first >>= second) = .ok result) ↔ (∃ value, first = .ok value) ∧ needed := by
  simp only [bind_eq_ok]
  constructor
  · rintro ⟨result, value, hvalue, hresult⟩
    exact ⟨⟨value, hvalue⟩, (h value hvalue).1 ⟨result, hresult⟩⟩
  · rintro ⟨⟨value, hvalue⟩, hneeded⟩
    obtain ⟨result, hresult⟩ := (h value hvalue).2 hneeded
    exact ⟨result, value, hvalue, hresult⟩

/-- A step with something made of its result gives some result exactly if the step does. -/
theorem exists_bind_pure_iff {change : α → β} {first : Except ε α} :
    (∃ result, (first >>= fun value => pure (change value)) = .ok result) ↔
      ∃ value, first = .ok value :=
  (exists_bind_iff fun _ _ => iff_true_intro ⟨_, rfl⟩).trans (and_iff_left trivial)

/-- A step with something made of its result is a changed outcome. -/
theorem bind_pure_eq_map (change : α → β) (first : Except ε α) :
    (first >>= fun value => pure (change value)) = first.map change := by
  cases first <;> rfl

/-- The result of an outcome is known exactly if it is one. -/
theorem toOption_eq_some {outcome : Except ε α} {result : α} :
    outcome.toOption = some result ↔ outcome = .ok result := by
  cases outcome with
  | ok value => simp [Except.toOption]
  | error fault => simp [Except.toOption]

/-- Something changed of a result is known exactly if there is a result that it is changed from. -/
theorem toOption_map_eq_some {change : α → β} {first : Except ε α} {result : β} :
    (first.map change).toOption = some result ↔
      ∃ value, first = .ok value ∧ change value = result := by
  rw [← map_eq_ok, toOption_eq_some]

/-- A step that cannot fail gives what it is given. -/
theorem pure_eq_ok {value result : α} : (pure value : Except ε α) = .ok result ↔ value = result :=
  ⟨Except.ok.inj, congrArg Except.ok⟩

/-- A step for every member of a list gives a result exactly if it does for the first member and
for the others. -/
theorem mapM_cons_eq_ok {step : α → Except ε β} {item : α} {items : List α} {results : List β} :
    (item :: items).mapM step = .ok results ↔
      ∃ result rest, step item = .ok result ∧ items.mapM step = .ok rest ∧
        results = result :: rest := by
  simp only [List.mapM_cons, bind_eq_ok, pure_eq_ok]
  constructor
  · rintro ⟨result, hresult, rest, hrest, rfl⟩
    exact ⟨result, rest, hresult, hrest, rfl⟩
  · rintro ⟨result, rest, hresult, hrest, rfl⟩
    exact ⟨result, hresult, rest, hrest, rfl⟩

/-- A step for every entry of a list that keeps the keys gives what the step gives for the items. -/
theorem mapM_keyed_eq_ok {κ : Type} {step : κ × α → Except ε β} {entries : List (κ × α)}
    {results : List (κ × β)}
    (h : (entries.mapM fun entry => do return (entry.1, ← step entry)) = .ok results) :
    results.map Prod.fst = entries.map Prod.fst ∧
      entries.mapM step = .ok (results.map Prod.snd) := by
  induction entries generalizing results with
  | nil =>
      cases h
      exact ⟨rfl, rfl⟩
  | cons entry rest ih =>
      obtain ⟨first, others, hfirst, hothers, rfl⟩ := mapM_cons_eq_ok.1 h
      simp only [bind_eq_ok, pure_eq_ok] at hfirst
      obtain ⟨value, hvalue, rfl⟩ := hfirst
      obtain ⟨hkeys, hvalues⟩ := ih hothers
      refine ⟨by simp [hkeys], mapM_cons_eq_ok.2 ⟨value, _, hvalue, hvalues, rfl⟩⟩

/-- What a step for every member of a list gives comes from a member of the list. -/
theorem exists_of_mem_mapM {step : α → Except ε β} {items : List α} {results : List β}
    (h : items.mapM step = .ok results) {result : β} (hresult : result ∈ results) :
    ∃ item ∈ items, step item = .ok result := by
  induction items generalizing results with
  | nil =>
      cases h
      cases hresult
  | cons item rest ih =>
      obtain ⟨first, others, hfirst, hothers, rfl⟩ := mapM_cons_eq_ok.1 h
      rcases List.mem_cons.1 hresult with rfl | hresult
      · exact ⟨item, List.mem_cons_self, hfirst⟩
      · obtain ⟨other, hother, hstep⟩ := ih hothers hresult
        exact ⟨other, List.mem_cons_of_mem item hother, hstep⟩

/-- A step for every member of a list gives as many results as there are members. -/
theorem length_of_mapM {step : α → Except ε β} {items : List α} {results : List β}
    (h : items.mapM step = .ok results) : results.length = items.length := by
  induction items generalizing results with
  | nil =>
      cases h
      rfl
  | cons item rest ih =>
      obtain ⟨first, others, -, hothers, rfl⟩ := mapM_cons_eq_ok.1 h
      rw [List.length_cons, List.length_cons, ih hothers]

/-- A step for every member of a list gives a result exactly if it does so for each member. -/
theorem exists_mapM_iff {step : α → Except ε β} {items : List α} :
    (∃ results, items.mapM step = .ok results) ↔
      ∀ item ∈ items, ∃ result, step item = .ok result := by
  induction items with
  | nil => exact iff_of_true ⟨[], rfl⟩ (by simp)
  | cons item rest ih =>
      rw [List.forall_mem_cons, ← ih]
      simp only [mapM_cons_eq_ok]
      constructor
      · rintro ⟨_, result, results, hresult, hresults, -⟩
        exact ⟨⟨result, hresult⟩, ⟨results, hresults⟩⟩
      · rintro ⟨⟨result, hresult⟩, ⟨results, hresults⟩⟩
        exact ⟨_, result, results, hresult, hresults, rfl⟩

/-- A step for every member of a list gives what it gives for each, in the order of the list. -/
theorem mapM_eq_ok_iff {step : α → Except ε β} {items : List α} {results : List β} :
    items.mapM step = .ok results ↔
      List.Forall₂ (fun item result => step item = .ok result) items results := by
  induction items generalizing results with
  | nil =>
      rw [List.forall₂_nil_left_iff, List.mapM_nil, pure_eq_ok]
      exact eq_comm
  | cons item rest ih =>
      rw [List.forall₂_cons_left_iff, mapM_cons_eq_ok]
      simp only [ih, exists_and_left]

/-- What belongs to lists whose members correspond corresponds to something. -/
theorem exists_of_mem_right {relates : α → β → Prop} {items : List α} {others : List β}
    (h : List.Forall₂ relates items others) {other : β} (hother : other ∈ others) :
    ∃ item ∈ items, relates item other := by
  induction h with
  | nil => cases hother
  | cons hfirst _ ih =>
      rcases List.mem_cons.1 hother with rfl | hother
      · exact ⟨_, List.mem_cons_self, hfirst⟩
      · obtain ⟨item, hitem, hrelates⟩ := ih hother
        exact ⟨item, List.mem_cons_of_mem _ hitem, hrelates⟩

/-- Steps that agree for every member of a list give the same for the list. -/
theorem mapM_congr {step other : α → Except ε β} {items : List α}
    (h : ∀ item ∈ items, step item = other item) : items.mapM step = items.mapM other := by
  induction items with
  | nil => rfl
  | cons item rest ih =>
      obtain ⟨hitem, hrest⟩ := List.forall_mem_cons.1 h
      rw [List.mapM_cons, List.mapM_cons, hitem, ih hrest]

/-- A step for every member of a list whose results are changed gives changed results. -/
theorem mapM_map_results {γ : Type} (change : β → γ) (step : α → Except ε β) (items : List α) :
    (items.mapM fun item => (step item).map change) =
      (items.mapM step).map (List.map change) := by
  induction items with
  | nil => rfl
  | cons item rest ih =>
      rw [List.mapM_cons, List.mapM_cons, ih]
      cases step item with
      | error fault => rfl
      | ok result => cases rest.mapM step <;> rfl

/-- Steps that give nothing all succeed exactly if each of them does. -/
theorem forM_eq_ok_iff {step : α → Except ε Unit} {items : List α} :
    items.forM step = .ok () ↔ ∀ item ∈ items, step item = .ok () := by
  induction items with
  | nil => exact iff_of_true rfl (by simp)
  | cons item rest ih =>
      rw [List.forall_mem_cons, ← ih, List.forM, bind_eq_ok]
      constructor
      · rintro ⟨_, hitem, hrest⟩
        exact ⟨hitem, hrest⟩
      · rintro ⟨hitem, hrest⟩
        exact ⟨(), hitem, hrest⟩

/-- Steps that give nothing end in a fault exactly if it is that of a step behind some that
succeed. -/
theorem forM_eq_error_iff {step : α → Except ε Unit} {items : List α} {fault : ε} :
    items.forM step = .error fault ↔ ∃ earlier item later, items = earlier ++ item :: later ∧
      (∀ other ∈ earlier, step other = .ok ()) ∧ step item = .error fault := by
  induction items with
  | nil =>
      refine iff_of_false (fun h => nomatch h) ?_
      rintro ⟨earlier, _, _, h, -⟩
      cases earlier <;> cases h
  | cons first rest ih =>
      rw [show (first :: rest).forM step = step first >>= fun _ => rest.forM step from rfl]
      cases hfirst : step first with
      | error known =>
          constructor
          · intro h
            cases h
            exact ⟨[], first, rest, rfl, by simp, hfirst⟩
          · rintro ⟨earlier, item, later, hitems, hearlier, hitem⟩
            cases earlier with
            | nil =>
                cases hitems
                rw [hfirst] at hitem
                cases hitem
                rfl
            | cons other others =>
                cases hitems
                rw [hearlier first List.mem_cons_self] at hfirst
                cases hfirst
      | ok =>
          refine ih.trans ⟨?_, ?_⟩
          · rintro ⟨earlier, item, later, rfl, hearlier, hitem⟩
            exact ⟨first :: earlier, item, later, rfl,
              List.forall_mem_cons.2 ⟨hfirst, hearlier⟩, hitem⟩
          · rintro ⟨earlier, item, later, hitems, hearlier, hitem⟩
            cases earlier with
            | nil =>
                cases hitems
                rw [hfirst] at hitem
                cases hitem
            | cons other others =>
                cases hitems
                exact ⟨others, item, later, rfl, (List.forall_mem_cons.1 hearlier).2, hitem⟩

/-- What a step gives for a list it gives as often as the list is repeated. -/
theorem mapM_replicate_eq_ok {step : α → Except ε β} {items : List α} {results : List β}
    (h : items.mapM step = .ok results) (count : Nat) :
    (List.replicate count items).flatten.mapM step =
      .ok (List.replicate count results).flatten := by
  induction count with
  | zero => rfl
  | succ count ih =>
      rw [List.replicate_succ, List.flatten_cons, List.mapM_append, h, ih]
      rfl

/-- What is kept of a list is put in front of what has been kept before, the last of it first. -/
theorem exists_of_filterAuxM {test : α → Except ε Bool} {items before kept : List α}
    (h : items.filterAuxM test before = .ok kept) :
    ∃ chosen, List.Sublist chosen items ∧ kept = chosen.reverse ++ before := by
  induction items generalizing before with
  | nil =>
      cases h
      exact ⟨[], .slnil, rfl⟩
  | cons item rest ih =>
      obtain ⟨keeps, -, h⟩ := bind_eq_ok.1 h
      obtain ⟨chosen, hchosen, rfl⟩ := ih h
      cases keeps with
      | true => exact ⟨item :: chosen, hchosen.cons_cons item, by simp⟩
      | false => exact ⟨chosen, hchosen.cons item, rfl⟩

/-- A test that may fail keeps some items, in their order. -/
theorem sublist_of_filterM {test : α → Except ε Bool} {items kept : List α}
    (h : items.filterM test = .ok kept) : kept.Sublist items := by
  obtain ⟨reversed, haux, h⟩ := bind_eq_ok.1 h
  obtain rfl := pure_eq_ok.1 h
  obtain ⟨chosen, hchosen, rfl⟩ := exists_of_filterAuxM haux
  simpa using hchosen

/-- `Matching faults relates first second` says that both outcomes are faults that `faults` relates,
or both are results that `relates` relates. -/
inductive Matching {γ : Type} (faults : ε → ε → Prop) (relates : α → γ → Prop) :
    Except ε α → Except ε γ → Prop
  | error {fault other : ε} (h : faults fault other) :
      Matching faults relates (.error fault) (.error other)
  | ok {result : α} {other : γ} (h : relates result other) :
      Matching faults relates (.ok result) (.ok other)

/-- `Parallel relates first second` says that both outcomes are faults of any sort, or both are
results that are related. -/
abbrev Parallel {γ : Type} (relates : α → γ → Prop) : Except ε α → Except ε γ → Prop :=
  Matching (fun _ _ => True) relates

namespace Matching

variable {γ δ : Type} {faults : ε → ε → Prop} {relates : α → γ → Prop} {relatesNext : β → δ → Prop}
variable {first : Except ε α} {second : Except ε γ}

/-- Matching steps with matching steps behind them match. -/
theorem bind {next : α → Except ε β} {other : γ → Except ε δ}
    (h : Matching faults relates first second)
    (hnext : ∀ result known, relates result known →
      Matching faults relatesNext (next result) (other known)) :
    Matching faults relatesNext (first >>= next) (second >>= other) := by
  cases h with
  | error h => exact .error h
  | ok h => exact hnext _ _ h

/-- Matching outcomes stay so under changes that keep results related. -/
theorem map {change : α → β} {other : γ → δ} (h : Matching faults relates first second)
    (hchange : ∀ result known, relates result known →
      relatesNext (change result) (other known)) :
    Matching faults relatesNext (first.map change) (second.map other) := by
  cases h with
  | error h => exact .error h
  | ok h => exact .ok (hchange _ _ h)

/-- Matching outcomes stay so under a change of the second that keeps results related. -/
theorem map_right {other : γ → δ} {relatesOther : α → δ → Prop}
    (h : Matching faults relates first second)
    (hchange : ∀ result known, relates result known → relatesOther result (other known)) :
    Matching faults relatesOther first (second.map other) := by
  cases h with
  | error h => exact .error h
  | ok h => exact .ok (hchange _ _ h)

/-- An outcome matches itself. -/
theorem refl {relates : α → α → Prop} (hfaults : ∀ fault, faults fault fault)
    (h : ∀ result, relates result result) (first : Except ε α) :
    Matching faults relates first first := by
  cases first with
  | error fault => exact .error (hfaults fault)
  | ok result => exact .ok (h result)

/-- Steps for the members of two lists match if they do for every two members in the same place. -/
theorem mapM {κ μ : Type} {step : κ → Except ε α} {other : μ → Except ε γ} {items : List κ}
    {others : List μ} (h : List.Forall₂ (fun item known =>
      Matching faults relates (step item) (other known)) items others) :
    Matching faults (List.Forall₂ relates) (items.mapM step) (others.mapM other) := by
  induction h with
  | nil => exact .ok .nil
  | cons hitem _ ih =>
      rw [List.mapM_cons, List.mapM_cons]
      exact hitem.bind fun result known hresult =>
        ih.bind fun rest knowns hrest => .ok (.cons hresult hrest)

end Matching

end TypedSql.Outcome
