import TypedSql.Session.Run

/-!
# Sessions, step by step

What a session gives and what it leaves in the journal, one lemma for each way to make a session.
`run_bind` puts two steps together; a session that is `Silent` hands no call to the executor.
-/

namespace TypedSql.Session

variable {α β : Type} {executor : Executor} {before : Journal}

/-- A session goes on from the journal of its first step, and it ends with its first fault. -/
theorem run_bind (first : Session α) (next : α → Session β) :
    run (first >>= next) executor before =
      match run first executor before with
      | (.ok value, between) => run (next value) executor between
      | (.error fault, between) => (.error fault, between) := by
  unfold run
  rw [ReaderT.run_bind, ExceptT.run_bind, StateT.run_bind]
  cases (ReaderT.run first executor).run.run before with
  | mk outcome between => cases outcome <;> rfl

@[simp] theorem run_pure (value : α) :
    run (pure value : Session α) executor before = (.ok value, before) := rfl

@[simp] theorem run_throw (fault : Fault) :
    run (throw fault : Session α) executor before = (.error fault, before) := rfl

@[simp] theorem run_ofExcept (outcome : Except Fault α) :
    run (ofExcept outcome) executor before = (outcome, before) := by
  cases outcome <;> rfl

@[simp] theorem run_log (level : Level) (message : String) :
    run (log level message) executor before =
      (.ok (), { before with logs := before.logs ++ [{ level, message }] }) := rfl

@[simp] theorem run_drawing (action : StateM Draws α) :
    run (drawing action) executor before =
      (.ok (action.run before.draws).1,
        { before with draws := (action.run before.draws).2 }) := rfl

@[simp] theorem run_call (statement : Call) :
    run (call statement) executor before =
      (.ok (executor before.calls statement),
        { before with calls := before.calls ++ [statement] }) := rfl

/-- A step after which the session goes on. -/
theorem run_bind_ok {first : Session α} {next : α → Session β} {value : α} {between : Journal}
    (h : run first executor before = (.ok value, between)) :
    run (first >>= next) executor before = run (next value) executor between := by
  rw [run_bind, h]

/-- A step with which the session ends. -/
theorem run_bind_error {first : Session α} {next : α → Session β} {fault : Fault}
    {between : Journal} (h : run first executor before = (.error fault, between)) :
    run (first >>= next) executor before = (.error fault, between) := by
  rw [run_bind, h]

/-- A session ends with the fault of its first step or goes on behind it. -/
theorem run_bind_cases {first : Session α} {next : α → Session β} {outcome : Except Fault β}
    {after : Journal} (h : run (first >>= next) executor before = (outcome, after)) :
    (∃ fault, run first executor before = (.error fault, after) ∧ outcome = .error fault) ∨
      ∃ value between, run first executor before = (.ok value, between) ∧
        run (next value) executor between = (outcome, after) := by
  rw [run_bind] at h
  cases hfirst : run first executor before with
  | mk known between =>
      rw [hfirst] at h
      cases known with
      | ok value => exact .inr ⟨value, between, rfl, h⟩
      | error fault =>
          cases h
          exact .inl ⟨fault, rfl, rfl⟩

/-- A step that does nothing but fail or give a value leaves the journal as it is. -/
theorem run_ofExcept_bind_cases {first : Except Fault α} {next : α → Session β}
    {outcome : Except Fault β} {after : Journal}
    (h : run (ofExcept first >>= next) executor before = (outcome, after)) :
    (∃ fault, outcome = .error fault ∧ after = before) ∨
      ∃ value, first = .ok value ∧ run (next value) executor before = (outcome, after) := by
  rcases run_bind_cases h with ⟨fault, hfirst, rfl⟩ | ⟨value, between, hfirst, hnext⟩
  · rw [run_ofExcept] at hfirst
    exact .inl ⟨fault, rfl, (Prod.mk.inj hfirst).2.symm⟩
  · rw [run_ofExcept] at hfirst
    obtain ⟨hvalue, rfl⟩ := Prod.mk.inj hfirst
    exact .inr ⟨value, hvalue, hnext⟩

/-- A session with a result got there by a result of its first step. -/
theorem exists_of_run_bind {first : Session α} {next : α → Session β} {result : β}
    {after : Journal} (h : run (first >>= next) executor before = (.ok result, after)) :
    ∃ value between, run first executor before = (.ok value, between) ∧
      run (next value) executor between = (.ok result, after) :=
  (run_bind_cases h).resolve_left fun ⟨_, _, herror⟩ => nomatch herror

/-- A session hands no call to the executor. -/
def Silent (session : Session α) : Prop :=
  ∀ executor before, (run session executor before).2.calls = before.calls

namespace Silent

theorem calls_eq {session : Session α} (h : Silent session) {outcome : Except Fault α}
    {after : Journal} (hrun : run session executor before = (outcome, after)) :
    after.calls = before.calls := by
  have hcalls := h executor before
  rwa [hrun] at hcalls

theorem bind {first : Session α} {next : α → Session β} (hfirst : Silent first)
    (hnext : ∀ value, Silent (next value)) : Silent (first >>= next) := by
  intro executor before
  have hcalls := hfirst executor before
  rw [run_bind]
  cases hrun : run first executor before with
  | mk outcome between =>
      rw [hrun] at hcalls
      cases outcome with
      | ok value => exact (hnext value executor between).trans hcalls
      | error fault => exact hcalls

/-- A step behind which nothing is sent decides the calls. -/
theorem calls_bind {first : Session α} {next : α → Session β}
    (h : ∀ value, Silent (next value)) :
    (run (first >>= next) executor before).2.calls = (run first executor before).2.calls := by
  rw [run_bind]
  cases run first executor before with
  | mk outcome between =>
      cases outcome with
      | ok value => exact h value executor between
      | error fault => rfl

theorem pure (value : α) : Silent (pure value) := fun _ _ => rfl

theorem ofExcept (outcome : Except Fault α) : Silent (ofExcept outcome) := by
  intro executor before
  rw [run_ofExcept]

theorem drawing (action : StateM Draws α) : Silent (drawing action) := fun _ _ => rfl

theorem mapM {session : α → Session β} (h : ∀ item, Silent (session item)) (items : List α) :
    Silent (items.mapM session) := by
  induction items with
  | nil => exact pure []
  | cons item rest ih =>
      rw [List.mapM_cons]
      exact (h item).bind fun _ => ih.bind fun _ => pure _

theorem forM {session : α → Session Unit} (h : ∀ item, Silent (session item)) (items : List α) :
    Silent (items.forM session) := by
  induction items with
  | nil => exact pure ()
  | cons item rest ih => exact (h item).bind fun _ => ih

end Silent

end TypedSql.Session
