import TypedSql.Text.Pattern

/-!
# Where matches end

A pattern leads from a place of a text to the places where its matches end. `Pattern.Leads` says
which ones, constructor by constructor and without sets of places; a repetition takes any number of
steps between its bounds. `Pattern.mem_ends_iff` is the main statement: the places that the search
finds are those. The search stops a repetition after as many steps as the text has characters, which
leaves nothing out, since a step that does not move on can be skipped.
-/

namespace TypedSql.Text

/-- A number of steps of a relation, one after the other. -/
def Steps (Leads : Nat → Nat → Prop) : (count : Nat) → (place target : Nat) → Prop
  | 0, place, target => place = target
  | count + 1, place, target => ∃ next, Leads place next ∧ Steps Leads count next target

section Steps

variable {Leads : Nat → Nat → Prop} {count place target size : Nat}

/-- What every step keeps, a number of steps keeps. -/
theorem Steps.keeps (Holds : Nat → Prop)
    (hstep : ∀ place target, Leads place target → Holds place → Holds target)
    (h : Steps Leads count place target) (hplace : Holds place) : Holds target := by
  induction count generalizing place with
  | zero => exact h ▸ hplace
  | succ count ih =>
      obtain ⟨next, hnext, hrest⟩ := h
      exact ih hrest (hstep _ _ hnext hplace)

theorem Steps.le (hforward : ∀ place target, Leads place target → place ≤ target)
    (h : Steps Leads count place target) : place ≤ target :=
  h.keeps (place ≤ ·) (fun _ _ hstep hle => Nat.le_trans hle (hforward _ _ hstep))
    (Nat.le_refl place)

theorem Steps.add {first second middle : Nat} (hfirst : Steps Leads first place middle)
    (hsecond : Steps Leads second middle target) :
    Steps Leads (first + second) place target := by
  induction first generalizing place with
  | zero => rwa [show place = middle from hfirst, Nat.zero_add]
  | succ first ih =>
      obtain ⟨next, hnext, hrest⟩ := hfirst
      rw [Nat.succ_add]
      exact ⟨next, hnext, ih hrest⟩

theorem Steps.split {first second : Nat} (h : Steps Leads (first + second) place target) :
    ∃ middle, Steps Leads first place middle ∧ Steps Leads second middle target := by
  induction first generalizing place with
  | zero => exact ⟨place, rfl, by rwa [Nat.zero_add] at h⟩
  | succ first ih =>
      rw [Nat.succ_add] at h
      obtain ⟨next, hnext, hrest⟩ := h
      obtain ⟨middle, hmiddle, htarget⟩ := ih hrest
      exact ⟨middle, ⟨next, hnext, hmiddle⟩, htarget⟩

/-- Without the steps that do not move on there are no more steps than places passed. -/
theorem Steps.shorten (hforward : ∀ place target, Leads place target → place ≤ target)
    (h : Steps Leads count place target) :
    ∃ fewer, fewer ≤ count ∧ fewer ≤ target - place ∧ Steps Leads fewer place target := by
  induction count generalizing place with
  | zero => exact ⟨0, Nat.le_refl 0, Nat.zero_le _, h⟩
  | succ count ih =>
      obtain ⟨next, hnext, hrest⟩ := h
      obtain ⟨fewer, hcount, hpassed, hfewer⟩ := ih hrest
      rcases Nat.eq_or_lt_of_le (hforward _ _ hnext) with rfl | hmoves
      · exact ⟨fewer, by omega, hpassed, hfewer⟩
      · have hle := Steps.le hforward hfewer
        exact ⟨fewer + 1, by omega, by omega, next, hnext, hfewer⟩

end Steps

/-- Whether places of a text of some size stand in order, the furthest first. -/
structure Places.IsOrdered (size : Nat) (places : Places) : Prop where
  sorted : places.Pairwise (· > ·)
  le_size : ∀ place ∈ places, place ≤ size

namespace Places

variable {size place target : Nat} {places others : Places}

theorem isOrdered_nil : IsOrdered size [] := ⟨.nil, by simp⟩

theorem isOrdered_singleton (h : place ≤ size) : IsOrdered size [place] :=
  ⟨List.pairwise_singleton _ place, by simpa using h⟩

theorem IsOrdered.tail (h : IsOrdered size (place :: places)) : IsOrdered size places :=
  ⟨h.sorted.of_cons, fun other hother => h.le_size other (List.mem_cons_of_mem _ hother)⟩

theorem IsOrdered.sublist (h : IsOrdered size places) (hsub : others.Sublist places) :
    IsOrdered size others :=
  ⟨h.sorted.sublist hsub, fun other hother => h.le_size other (hsub.subset hother)⟩

theorem mem_takeWhile_iff (h : IsOrdered size places) :
    target ∈ places.takeWhile (place < ·) ↔ target ∈ places ∧ place < target := by
  induction places with
  | nil => simp
  | cons first places ih =>
      have hbelow := (List.pairwise_cons.1 h.sorted).1
      by_cases hfirst : place < first
      · rw [List.takeWhile_cons_of_pos (by simpa using hfirst)]
        grind [ih h.tail]
      · rw [List.takeWhile_cons_of_neg (by simpa using hfirst)]
        grind

/-- What is left behind the furthest places up to one that none is beyond. -/
theorem mem_dropWhile_iff {passed : Nat → Bool} (h : IsOrdered size places)
    (hpassed : ∀ place target, target < place → passed target = true → passed place = true) :
    target ∈ places.dropWhile passed ↔ target ∈ places ∧ passed target = false := by
  induction places with
  | nil => simp
  | cons first places ih =>
      have hbelow := (List.pairwise_cons.1 h.sorted).1
      by_cases hfirst : passed first = true
      · rw [List.dropWhile_cons_of_pos hfirst]
        grind [ih h.tail]
      · rw [List.dropWhile_cons_of_neg hfirst]
        grind

theorem IsOrdered.dropWhile (h : IsOrdered size places) (passed : Nat → Bool) :
    IsOrdered size (places.dropWhile passed) :=
  h.sublist (List.dropWhile_sublist passed)

theorem mem_union_iff (h : IsOrdered size places) (hothers : IsOrdered size others) :
    target ∈ union places others ↔ target ∈ places ∨ target ∈ others := by
  induction places generalizing others with
  | nil => simp [union]
  | cons place places ih =>
      have hdrop : ∀ other, other ∈ others.dropWhile (place ≤ ·) ↔
          other ∈ others ∧ other < place := fun other => by
        rw [mem_dropWhile_iff hothers (by grind)]
        simp
      rw [union, List.mem_append, List.mem_cons, mem_takeWhile_iff hothers,
        ih h.tail (hothers.dropWhile _), hdrop, List.mem_cons]
      grind

theorem IsOrdered.union (h : IsOrdered size places) (hothers : IsOrdered size others) :
    IsOrdered size (union places others) := by
  refine ⟨?_, fun place hplace => ?_⟩
  · induction places generalizing others with
    | nil => exact hothers.sorted
    | cons place places ih =>
        have hbelow := (List.pairwise_cons.1 h.sorted).1
        have hdrop : ∀ other, other ∈ others.dropWhile (place ≤ ·) → other < place := by
          intro other hother
          rw [mem_dropWhile_iff hothers (by grind)] at hother
          simpa using hother.2
        have hrest : ∀ other ∈ Places.union places (others.dropWhile (place ≤ ·)),
            other < place := by
          intro other hother
          rw [mem_union_iff h.tail (hothers.dropWhile _)] at hother
          exact hother.elim (hbelow other) (hdrop other)
        rw [Places.union, List.pairwise_append, List.pairwise_cons]
        refine ⟨hothers.sorted.sublist (List.takeWhile_sublist _),
          ⟨hrest, ih h.tail (hothers.dropWhile _)⟩, fun far hfar near hnear => ?_⟩
        have hbeyond := ((mem_takeWhile_iff hothers).1 hfar).2
        rcases List.mem_cons.1 hnear with rfl | hnear
        · exact hbeyond
        · exact Nat.lt_trans (hrest near hnear) hbeyond
  · rcases (mem_union_iff h hothers).1 hplace with hplace | hplace
    · exact h.le_size place hplace
    · exact hothers.le_size place hplace

theorem mem_without_iff (h : IsOrdered size places) (hothers : IsOrdered size others) :
    target ∈ without places others ↔ target ∈ places ∧ target ∉ others := by
  induction places generalizing others with
  | nil => simp [without]
  | cons place places ih =>
      have hbelow := (List.pairwise_cons.1 h.sorted).1
      have hdrop : ∀ other, other ∈ others.dropWhile (place < ·) ↔
          other ∈ others ∧ other ≤ place := fun other => by
        rw [mem_dropWhile_iff hothers (by grind)]
        simp
      have hhead : (others.dropWhile (place < ·)).head? = some place ↔ place ∈ others := by
        have hsorted := (hothers.dropWhile (place < ·)).sorted
        have hplace : place ∈ others.dropWhile (place < ·) ↔ place ∈ others := by
          rw [hdrop, and_iff_left (Nat.le_refl place)]
        rw [← hplace]
        cases hbehind : others.dropWhile (place < ·) with
        | nil => simp
        | cons first behind =>
            rw [hbehind, List.pairwise_cons] at hsorted
            have hfirst : first ≤ place := ((hdrop first).1 (hbehind ▸ List.mem_cons_self)).2
            rw [List.head?_cons, Option.some.injEq, List.mem_cons]
            exact ⟨fun h => .inl h.symm, fun h => h.elim Eq.symm fun hmem =>
              absurd (hsorted.1 place hmem) (Nat.not_lt.2 hfirst)⟩
      rw [without]
      split
      · next hmem =>
          rw [ih h.tail (hothers.dropWhile _), hdrop]
          grind
      · next hmem =>
          rw [List.mem_cons, ih h.tail (hothers.dropWhile _), hdrop]
          grind

theorem without_sublist (places others : Places) : (without places others).Sublist places := by
  induction places generalizing others with
  | nil => exact List.Sublist.slnil
  | cons place places ih =>
      rw [without]
      split
      · exact (ih _).cons place
      · exact (ih _).cons_cons place

/-- Whether a step of the search finds the places that a relation leads to. -/
def Finds (size : Nat) (step : Places → Places) (Leads : Nat → Nat → Prop) : Prop :=
  ∀ places, IsOrdered size places → IsOrdered size (step places) ∧
    ∀ target, target ∈ step places ↔ ∃ place ∈ places, Leads place target

variable {step : Places → Places} {Leads : Nat → Nat → Prop} {reached latest : Places}

theorem Finds.step_nil (h : Finds size step Leads) : step [] = [] := by
  refine List.eq_nil_iff_forall_not_mem.2 fun target htarget => ?_
  simpa using (((h [] isOrdered_nil).2 target).1 htarget)

/-- The places after a number of steps. -/
theorem Finds.after (h : Finds size step Leads) (count : Nat) :
    Finds size (after step count) (Steps Leads count) := by
  intro places hplaces
  induction count generalizing places with
  | zero => exact ⟨hplaces, fun target => by simp [Places.after, Steps]⟩
  | succ count ih =>
      obtain ⟨hordered, hmem⟩ := h places hplaces
      obtain ⟨hafter, hreach⟩ := ih (step places) hordered
      rw [Places.after]
      split
      · next hempty =>
          rw [List.isEmpty_iff] at hempty
          exact ⟨isOrdered_nil, fun target => by simp [hempty]⟩
      · refine ⟨hafter, fun target => ?_⟩
        rw [hreach]
        constructor
        · rintro ⟨next, hnext, hrest⟩
          obtain ⟨place, hplace, hleads⟩ := (hmem next).1 hnext
          exact ⟨place, hplace, next, hleads, hrest⟩
        · rintro ⟨place, hplace, next, hleads, hrest⟩
          exact ⟨next, (hmem next).2 ⟨place, hplace, hleads⟩, hrest⟩

/-- A search without latest places has ended. -/
theorem Finds.spread_nil (h : Finds size step Leads) (count : Nat) :
    spread step count reached [] = reached := by
  cases count with
  | zero => rfl
  | succ count => rw [spread, h.step_nil]; rfl

theorem Finds.spread_succ (h : Finds size step Leads) (count : Nat) :
    spread step (count + 1) reached latest =
      spread step count (union (without (step latest) reached) reached)
        (without (step latest) reached) := by
  rw [spread]
  split
  · next hfresh =>
      rw [hfresh, h.spread_nil]
      rfl
  · rfl

/-- Whether every place that one step leads to from the places reached, the latest ones apart, is
reached. -/
def IsClosed (Leads : Nat → Nat → Prop) (reached latest : Places) : Prop :=
  ∀ place ∈ reached, place ∉ latest → ∀ target, Leads place target → target ∈ reached

/-- The places that a search reaches in a number of rounds: those that as many steps lead to. The
places reached before the latest ones lead to nothing new. -/
theorem Finds.mem_spread_iff (h : Finds size step Leads) (count : Nat)
    (hreached : IsOrdered size reached) (hlatest : IsOrdered size latest)
    (hsub : ∀ place ∈ latest, place ∈ reached) (hclosed : IsClosed Leads reached latest) :
    IsOrdered size (spread step count reached latest) ∧
      ∀ target, target ∈ spread step count reached latest ↔
        ∃ steps, steps ≤ count ∧ ∃ place ∈ reached, Steps Leads steps place target := by
  induction count generalizing reached latest with
  | zero =>
      refine ⟨hreached, fun target => ⟨fun htarget => ⟨0, Nat.le_refl 0, target, htarget, rfl⟩, ?_⟩⟩
      rintro ⟨steps, hsteps, place, hplace, hleads⟩
      obtain rfl := Nat.le_zero.1 hsteps
      exact show target ∈ reached from (show place = target from hleads) ▸ hplace
  | succ count ih =>
      obtain ⟨hordered, hmem⟩ := h latest hlatest
      have hfresh : IsOrdered size (without (step latest) reached) :=
        hordered.sublist (without_sublist _ _)
      have hmemFresh : ∀ target, target ∈ without (step latest) reached ↔
          target ∈ step latest ∧ target ∉ reached := fun _ => mem_without_iff hordered hreached
      have hmemUnion : ∀ target, target ∈ union (without (step latest) reached) reached ↔
          target ∈ without (step latest) reached ∨ target ∈ reached :=
        fun _ => mem_union_iff hfresh hreached
      -- one step from the places reached leads to places reached in the next round
      have hnext : ∀ place ∈ reached, ∀ target, Leads place target →
          target ∈ union (without (step latest) reached) reached := by
        intro place hplace target hleads
        rw [hmemUnion, hmemFresh]
        by_cases hlate : place ∈ latest
        · have hstep := (hmem target).2 ⟨place, hlate, hleads⟩
          exact (Decidable.em (target ∈ reached)).elim .inr fun hnew => .inl ⟨hstep, hnew⟩
        · exact .inr (hclosed place hplace hlate target hleads)
      have hclosedNext : IsClosed Leads (union (without (step latest) reached) reached)
          (without (step latest) reached) := by
        intro place hplace hlate target hleads
        exact hnext place (((hmemUnion place).1 hplace).resolve_left hlate) target hleads
      obtain ⟨hspread, hreach⟩ := ih (hfresh.union hreached) hfresh
        (fun place hplace => (hmemUnion place).2 (.inl hplace)) hclosedNext
      rw [h.spread_succ]
      refine ⟨hspread, fun target => (hreach target).trans ⟨?_, ?_⟩⟩
      · rintro ⟨steps, hsteps, place, hplace, hrest⟩
        rcases (hmemUnion place).1 hplace with hplace | hplace
        · obtain ⟨before, hbefore, hleads⟩ := (hmem place).1 ((hmemFresh place).1 hplace).1
          exact ⟨steps + 1, by omega, before, hsub before hbefore, place, hleads, hrest⟩
        · exact ⟨steps, by omega, place, hplace, hrest⟩
      · rintro ⟨_ | steps, hsteps, place, hplace, hrest⟩
        · exact ⟨0, Nat.zero_le _, place, (hmemUnion place).2 (.inr hplace), hrest⟩
        · obtain ⟨next, hleads, hrest⟩ := hrest
          exact ⟨steps, by omega, next, hnext place hplace next hleads, hrest⟩

/-- The places after a least number of steps and up to some more. -/
theorem Finds.repeated (h : Finds size step Leads) (least more : Nat) :
    Finds size (fun places => spread step more (Places.after step least places)
        (Places.after step least places))
      fun place target => ∃ count, least ≤ count ∧ count ≤ least + more ∧
        Steps Leads count place target := by
  intro places hplaces
  obtain ⟨hordered, hmem⟩ := h.after least places hplaces
  obtain ⟨hspread, hreach⟩ := h.mem_spread_iff more hordered hordered (fun _ => id)
    (fun place hplace hlate => absurd hplace hlate)
  refine ⟨hspread, fun target => (hreach target).trans ⟨?_, ?_⟩⟩
  · rintro ⟨steps, hsteps, middle, hmiddle, hrest⟩
    obtain ⟨place, hplace, hfirst⟩ := (hmem middle).1 hmiddle
    exact ⟨place, hplace, least + steps, by omega, by omega, hfirst.add hrest⟩
  · rintro ⟨place, hplace, count, hleast, hmost, hsteps⟩
    obtain ⟨steps, rfl⟩ := Nat.exists_eq_add_of_le hleast
    obtain ⟨middle, hfirst, hrest⟩ := hsteps.split
    exact ⟨steps, by omega, middle, (hmem middle).2 ⟨place, hplace, hfirst⟩, hrest⟩

end Places

namespace Pattern

/-- Whether a match that starts at a place may end at another. -/
def Leads (text : Array Char) : Pattern → (place target : Nat) → Prop
  | nothing, place, target => place = target
  | char negated items, place, target =>
    target = place + 1 ∧
      ∃ c, text[place]? = some c ∧ (items.any fun item => item.contains c) = !negated
  | start, place, target => place = 0 ∧ place = target
  | stop, place, target => isStop text place = true ∧ place = target
  | last, place, target => place = text.size ∧ place = target
  | boundary negated, place, target =>
    (isBoundary text place = !negated ∧ text.isEmpty = false) ∧ place = target
  | ahead negated pattern, place, target =>
    (negated = false ↔ ∃ next, Leads text pattern place next) ∧ place = target
  | both first second, place, target =>
    ∃ next, Leads text first place next ∧ Leads text second next target
  | either first second, place, target =>
    Leads text first place target ∨ Leads text second place target
  | repeated pattern least most, place, target =>
    ∃ count, least ≤ count ∧ (∀ bound, most = some bound → count ≤ max least bound) ∧
      Steps (Leads text pattern) count place target

variable {text : Array Char} {pattern : Pattern} {place target : Nat}

theorem Leads.le (h : pattern.Leads text place target) : place ≤ target := by
  induction pattern generalizing place target with
  | nothing => exact Nat.le_of_eq h
  | char negated items => exact h.1 ▸ Nat.le_succ place
  | start | stop | last | boundary | ahead => exact Nat.le_of_eq h.2
  | both first second ihFirst ihSecond =>
      obtain ⟨next, hfirst, hsecond⟩ := h
      exact Nat.le_trans (ihFirst hfirst) (ihSecond hsecond)
  | either first second ihFirst ihSecond => exact h.elim ihFirst ihSecond
  | repeated pattern least most ih =>
      obtain ⟨count, -, -, hsteps⟩ := h
      exact hsteps.le fun _ _ => ih

/-- A match ends inside the text that it starts in. -/
theorem Leads.le_size (h : pattern.Leads text place target) (hplace : place ≤ text.size) :
    target ≤ text.size := by
  induction pattern generalizing place target with
  | char negated items =>
      obtain ⟨rfl, c, hc, -⟩ := h
      exact (Array.getElem?_eq_some_iff.1 hc).1
  | nothing => exact h ▸ hplace
  | start | stop | last | boundary | ahead => exact h.2 ▸ hplace
  | both first second ihFirst ihSecond =>
      obtain ⟨next, hfirst, hsecond⟩ := h
      exact ihSecond hsecond (ihFirst hfirst hplace)
  | either first second ihFirst ihSecond =>
      exact h.elim (ihFirst · hplace) (ihSecond · hplace)
  | repeated pattern least most ih =>
      obtain ⟨count, -, -, hsteps⟩ := h
      exact hsteps.keeps (· ≤ text.size) (fun _ _ => ih) hplace

/-- Steps beyond the size of the text can be left out of a repetition. -/
theorem leads_repeated_iff {least : Nat} {most : Option Nat} (hplace : place ≤ text.size) :
    (repeated pattern least most).Leads text place target ↔
      ∃ count, least ≤ count ∧
        count ≤ least + (match most with
          | some most => min (most - least) text.size
          | none => text.size) ∧
        Steps (pattern.Leads text) count place target := by
  have hforward : ∀ place target, pattern.Leads text place target → place ≤ target :=
    fun _ _ => Leads.le
  constructor
  · rintro ⟨count, hleast, hmost, hsteps⟩
    obtain ⟨more, rfl⟩ := Nat.exists_eq_add_of_le hleast
    obtain ⟨middle, hfirst, hrest⟩ := hsteps.split
    obtain ⟨fewer, hfewer, hpassed, hshort⟩ := hrest.shorten hforward
    have hsize : target ≤ text.size :=
      hsteps.keeps (· ≤ text.size) (fun _ _ => Leads.le_size) hplace
    refine ⟨least + fewer, by omega, ?_, hfirst.add hshort⟩
    cases most with
    | none =>
        simp only
        omega
    | some most =>
        have hbound := hmost most rfl
        simp only
        omega
  · rintro ⟨count, hleast, hmost, hsteps⟩
    refine ⟨count, hleast, ?_, hsteps⟩
    rintro bound rfl
    simp only at hmost
    omega

/-- A search that keeps some of its places. -/
theorem finds_filter {size : Nat} {Holds : Nat → Prop} (keep : Nat → Bool)
    (hkeep : ∀ place, place ≤ size → (keep place = true ↔ Holds place)) :
    Places.Finds size (List.filter keep) fun place target => Holds place ∧ place = target := by
  intro places hplaces
  refine ⟨hplaces.sublist List.filter_sublist, fun target => ?_⟩
  rw [List.mem_filter]
  constructor
  · rintro ⟨htarget, hkept⟩
    exact ⟨target, htarget, (hkeep target (hplaces.le_size target htarget)).1 hkept, rfl⟩
  · rintro ⟨place, hplace, hholds, rfl⟩
    exact ⟨hplace, (hkeep place (hplaces.le_size place hplace)).2 hholds⟩

/-- A search that moves from the places of some characters to those behind them. -/
theorem finds_char (text : Array Char) (negated : Bool) (items : List CharItem) :
    Places.Finds text.size (ends text (char negated items)) (Leads text (char negated items)) := by
  have hholds : ∀ place : Nat, (text[place]?.any fun c =>
      (items.any fun item => item.contains c) != negated) = true ↔
        ∃ c, text[place]? = some c ∧ (items.any fun item => item.contains c) = !negated := by
    intro place
    rw [Option.any_eq_true]
    refine exists_congr fun c => and_congr_right fun _ => ?_
    cases negated <;> simp
  intro places hplaces
  refine ⟨⟨?_, ?_⟩, fun target => ?_⟩
  · rw [ends]
    exact (hplaces.sorted.sublist List.filter_sublist).map _ fun _ _ hlt => Nat.succ_lt_succ hlt
  · intro target htarget
    simp only [ends, List.mem_map, List.mem_filter] at htarget
    obtain ⟨place, ⟨-, hplace⟩, rfl⟩ := htarget
    obtain ⟨c, hc, -⟩ := (hholds place).1 hplace
    exact (Array.getElem?_eq_some_iff.1 hc).1
  · simp only [ends, List.mem_map, List.mem_filter, hholds, Leads]
    constructor
    · rintro ⟨place, ⟨hplace, hc⟩, rfl⟩
      exact ⟨place, hplace, rfl, hc⟩
    · rintro ⟨place, hplace, rfl, hc⟩
      exact ⟨place, ⟨hplace, hc⟩, rfl⟩

/-- The search for a pattern finds the places where its matches end. -/
theorem finds_ends (text : Array Char) (pattern : Pattern) :
    Places.Finds text.size (ends text pattern) (Leads text pattern) := by
  induction pattern with
  | nothing => exact fun places hplaces => ⟨hplaces, fun target => by simp [ends, Leads]⟩
  | char negated items => exact finds_char text negated items
  | start => exact finds_filter _ fun place _ => by simp
  | stop => exact finds_filter _ fun place _ => Iff.rfl
  | last => exact finds_filter _ fun place _ => by simp
  | boundary negated =>
      refine finds_filter _ fun place _ => ?_
      cases negated <;> simp
  | ahead negated pattern ih =>
      refine finds_filter _ fun place hplace => ?_
      have hmem := (ih [place] (Places.isOrdered_singleton hplace)).2
      have hempty : (ends text pattern [place]).isEmpty = false ↔
          ∃ next, Leads text pattern place next := by
        rw [List.isEmpty_eq_false_iff_exists_mem]
        exact exists_congr fun next => (hmem next).trans (by simp)
      rw [← hempty]
      cases negated <;> cases (ends text pattern [place]).isEmpty <;> simp
  | both first second ihFirst ihSecond =>
      intro places hplaces
      obtain ⟨hfirst, hmemFirst⟩ := ihFirst places hplaces
      obtain ⟨hsecond, hmemSecond⟩ := ihSecond _ hfirst
      refine ⟨hsecond, fun target => (hmemSecond target).trans ⟨?_, ?_⟩⟩
      · rintro ⟨next, hnext, htarget⟩
        obtain ⟨place, hplace, hleads⟩ := (hmemFirst next).1 hnext
        exact ⟨place, hplace, next, hleads, htarget⟩
      · rintro ⟨place, hplace, next, hleads, htarget⟩
        exact ⟨next, (hmemFirst next).2 ⟨place, hplace, hleads⟩, htarget⟩
  | either first second ihFirst ihSecond =>
      intro places hplaces
      obtain ⟨hfirst, hmemFirst⟩ := ihFirst places hplaces
      obtain ⟨hsecond, hmemSecond⟩ := ihSecond places hplaces
      refine ⟨hfirst.union hsecond, fun target => ?_⟩
      rw [ends, Places.mem_union_iff hfirst hsecond, hmemFirst, hmemSecond, ← exists_or]
      exact exists_congr fun place => and_or_left.symm
  | repeated pattern least most ih =>
      intro places hplaces
      obtain ⟨hordered, hmem⟩ := ih.repeated least _ places hplaces
      refine ⟨hordered, fun target => (hmem target).trans ?_⟩
      refine exists_congr fun place => and_congr_right fun hplace => ?_
      exact (leads_repeated_iff (hplaces.le_size place hplace)).symm

/-- The places that the search for a pattern finds from places in order are those where a match ends
that starts at one of them. -/
theorem mem_ends_iff {places : Places} (h : places.IsOrdered text.size) :
    target ∈ pattern.ends text places ↔ ∃ place ∈ places, pattern.Leads text place target :=
  (finds_ends text pattern places h).2 target

/-- A text starts with a match of a pattern exactly if a match leads somewhere from its start. -/
theorem startsIn_iff {text : List Char} :
    pattern.startsIn text = true ↔ ∃ target, pattern.Leads text.toArray 0 target := by
  rw [startsIn, Bool.not_eq_true', List.isEmpty_eq_false_iff_exists_mem]
  refine exists_congr fun target => ?_
  rw [mem_ends_iff (Places.isOrdered_singleton (Nat.zero_le _))]
  simp

end Pattern

end TypedSql.Text
