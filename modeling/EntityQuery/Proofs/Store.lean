import EntityQuery.Store

/-!
# Runs on the store in memory

What is asked of the store in memory is a function of the tables. When it succeeds, each of its steps
has, and only changes have altered the tables.
-/

namespace EntityQuery.Store

variable {α β : Type} {t t' : Tables}

/-! ## Steps -/

theorem run_bind_ok {x : ExceptT QueryError (StateM Tables) α}
    {f : α → ExceptT QueryError (StateM Tables) β} {b : β} :
    (x >>= f).run.run t = (.ok b, t') ↔
      ∃ a t'', x.run.run t = (.ok a, t'') ∧ (f a).run.run t'' = (.ok b, t') := by
  rw [ExceptT.run_bind, StateT.run_bind]
  -- Only the answer of the first step matters.
  generalize x.run.run t = r
  obtain ⟨answer, t₁⟩ := r
  cases answer with
  | error e =>
    constructor
    · intro h
      cases h
    · rintro ⟨a, t'', h, -⟩
      cases h
  | ok a =>
    constructor
    · intro h
      exact ⟨a, t₁, rfl, h⟩
    · rintro ⟨a', t'', ha, h⟩
      cases ha
      exact h

/-- What fails has failed in its first step, or in the second one on what the first gave. -/
theorem run_bind_error {x : ExceptT QueryError (StateM Tables) α}
    {f : α → ExceptT QueryError (StateM Tables) β} {err : QueryError} :
    (x >>= f).run.run t = (.error err, t') ↔
      x.run.run t = (.error err, t') ∨
        ∃ a t'', x.run.run t = (.ok a, t'') ∧ (f a).run.run t'' = (.error err, t') := by
  rw [ExceptT.run_bind, StateT.run_bind]
  generalize x.run.run t = r
  obtain ⟨answer, t₁⟩ := r
  -- A first step that has failed is the whole run.
  cases answer with
  | error e =>
    constructor
    · intro h
      cases h
      exact .inl rfl
    · rintro (h | ⟨a, t'', h, -⟩)
      · cases h
        rfl
      · cases h
  | ok a =>
    constructor
    · intro h
      exact .inr ⟨a, t₁, rfl, h⟩
    · rintro (h | ⟨a', t'', ha, h⟩)
      · cases h
      · cases ha
        exact h

/-- What has succeeded is passed on. -/
theorem run_bind_of_ok {x : ExceptT QueryError (StateM Tables) α}
    {f : α → ExceptT QueryError (StateM Tables) β} {a : α} (h : x.run.run t = (.ok a, t')) :
    (x >>= f).run.run t = (f a).run.run t' := by
  rw [ExceptT.run_bind, StateT.run_bind, h]
  rfl

theorem run_pure_ok {a b : α} :
    (pure a : ExceptT QueryError (StateM Tables) α).run.run t = (.ok b, t') ↔ a = b ∧ t = t' := by
  constructor
  · intro h
    cases h
    exact ⟨rfl, rfl⟩
  · rintro ⟨rfl, rfl⟩
    rfl

/-- A check does not look at the tables. -/
theorem run_check_ok {x : Except QueryError α} {a : α} :
    (liftM x : ExceptT QueryError (StateM Tables) α).run.run t = (.ok a, t') ↔
      x = .ok a ∧ t = t' := by
  cases x with
  | error e =>
    constructor
    · intro h
      cases h
    · rintro ⟨h, -⟩
      cases h
  | ok b =>
    constructor
    · intro h
      cases h
      exact ⟨rfl, rfl⟩
    · rintro ⟨h, rfl⟩
      cases h
      rfl

theorem run_check_error {x : Except QueryError α} {err : QueryError} :
    (liftM x : ExceptT QueryError (StateM Tables) α).run.run t = (.error err, t') ↔
      x = .error err ∧ t = t' := by
  cases x with
  | error e =>
    constructor
    · intro h
      cases h
      exact ⟨rfl, rfl⟩
    · rintro ⟨h, rfl⟩
      cases h
      rfl
  | ok a =>
    constructor
    · intro h
      cases h
    · rintro ⟨h, -⟩
      cases h

/-! ## Answers of the store -/

theorem run_lift_ok {x : StateM Tables (Except StoreError α)} {a : α} :
    (lift x).run.run t = (.ok a, t') ↔ x.run t = (.ok a, t') := by
  have hrun : (lift x).run.run t = ((x.run t).1.mapError .store, (x.run t).2) := rfl
  rw [hrun]
  -- The error of the store is wrapped, a result is not.
  generalize x.run t = r
  obtain ⟨answer, t₁⟩ := r
  cases answer with
  | error e =>
    constructor
    · intro h
      cases h
    · intro h
      cases h
  | ok b =>
    constructor
    · intro h
      cases h
      rfl
    · intro h
      cases h
      rfl

/-- A failure of the store is passed on as such. -/
theorem run_lift_error {x : StateM Tables (Except StoreError α)} {err : QueryError}
    (h : (lift x).run.run t = (.error err, t')) : ∃ e, err = .store e := by
  have hrun : (lift x).run.run t = ((x.run t).1.mapError .store, (x.run t).2) := rfl
  rw [hrun] at h
  generalize x.run t = r at h
  obtain ⟨answer, t₁⟩ := r
  cases answer with
  | error e =>
    cases h
    exact ⟨e, rfl⟩
  | ok a => cases h

theorem run_fetch_ok {q : Plan} {rows : List Row} :
    (lift (memory.fetch q)).run.run t = (.ok rows, t') ↔ t.fetch q = .ok rows ∧ t = t' := by
  have hrun : (memory.fetch q).run t = (t.fetch q, t) := rfl
  rw [run_lift_ok, hrun, Prod.mk.injEq]

/-- Whether there is a row is seen from the first one. -/
theorem run_hasRow_ok {q : Plan} {found : Bool} :
    (lift (memory.hasRow q)).run.run t = (.ok found, t') ↔
      ∃ rows, t.fetch { q with window := some ⟨1, 0⟩ } = .ok rows ∧ (!rows.isEmpty) = found ∧
        t = t' := by
  have hrun : (memory.hasRow q).run t =
      ((t.fetch { q with window := some ⟨1, 0⟩ }).map fun rows => !rows.isEmpty, t) := rfl
  rw [run_lift_ok, hrun, Prod.mk.injEq]
  cases t.fetch { q with window := some ⟨1, 0⟩ } with
  | error e => simp [Except.map]
  | ok rows => simp [Except.map]

theorem run_count_ok {q : Plan} {n : Nat} :
    (lift (memory.count q)).run.run t = (.ok n, t') ↔ t.count q = .ok n ∧ t = t' := by
  have hrun : (memory.count q).run t = (t.count q, t) := rfl
  rw [run_lift_ok, hrun, Prod.mk.injEq]

/-- A change that fails leaves the tables alone. -/
theorem memory_execute_error {c : Change} {err : StoreError} (h : t.apply c = .error err) :
    (memory.execute c).run t = (.error err, t) := by
  simp only [memory, StateT.run_bind, StateT.run_get, pure_bind, h]
  exact rfl

theorem memory_execute_ok {c : Change} {n : Nat} (h : t.apply c = .ok (n, t')) :
    (memory.execute c).run t = (.ok n, t') := by
  simp only [memory, StateT.run_bind, StateT.run_get, pure_bind, h]
  exact rfl

theorem run_execute_ok {c : Change} {n : Nat} :
    (lift (memory.execute c)).run.run t = (.ok n, t') ↔ t.apply c = .ok (n, t') := by
  rw [run_lift_ok]
  constructor
  · intro h
    cases happly : t.apply c with
    | error err =>
      rw [memory_execute_error happly] at h
      cases h
    | ok r =>
      rw [memory_execute_ok happly] at h
      cases h
      rfl
  · exact memory_execute_ok

end EntityQuery.Store
