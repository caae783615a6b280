import EntityQuery.Engine.Pages
import EntityQuery.Store.Journal
import EntityQuery.Proofs.Evaluation.Widths

/-!
# Conduct towards a store

A store is observed by noting each call with its failure, if it fails. Of what asks the store one
can then say which kinds of calls it makes in which order: either all of them are made and answered,
or it stops with an error, and a call that fails is the last one and its failure is the error. What
is asked part by part has the calls of its parts one after the other.
-/

namespace EntityQuery

variable {σ α β : Type}

/-! ## Observed stores -/

/-- The failure that an answer is, if it is one. -/
def failure? {ε : Type} : Except ε α → Option ε
  | .ok _ => none
  | .error err => some err

theorem failure?_eq_some {ε : Type} {r : Except ε α} {err : ε} :
    failure? r = some err ↔ r = .error err := by
  cases r with
  | ok a =>
    constructor
    · intro h
      cases h
    · intro h
      cases h
  | error err' =>
    constructor
    · intro h
      rw [Option.some.inj h]
    · intro h
      exact congrArg some (Except.error.inj h)

/-- A call of a store, and its failure if it failed. -/
structure Exchange where
  call : Call
  failure? : Option StoreError

namespace Store

/-- Note a call with its failure behind those noted before. -/
def note (call : Call) (answer : StateM σ (Except StoreError α)) :
    StateM (σ × List Exchange) (Except StoreError α) := do
  let (s, exchanges) ← get
  let (a, s) := answer.run s
  set (s, exchanges ++ [⟨call, failure? a⟩])
  return a

/-- A store all of whose calls are noted. -/
def observed (store : Store (StateM σ)) : Store (StateM (σ × List Exchange)) where
  fetch q := note (.fetch q) (store.fetch q)
  count q := note (.count q) (store.count q)
  execute c := note (.execute c) (store.execute c)

/-- A store that gives rows as wide as the selection of their plan. -/
def Fitting (store : Store (StateM σ)) : Prop :=
  ∀ (q : Plan) (s : σ) (rows : List Row), ((store.fetch q).run s).1 = .ok rows →
    ∀ row ∈ rows, row.cells.length = q.projection.width

/-- To look for a row is to fetch one. -/
theorem lift_hasRow (store : Store (StateM σ)) (q : Plan) :
    lift (store.hasRow q) = (do
      let rows ← lift (store.fetch { q with window := some ⟨1, 0⟩ })
      return !rows.isEmpty) := by
  refine ExceptT.ext (StateT.ext fun s => ?_)
  rw [ExceptT.run_bind, StateT.run_bind]
  show ((((store.fetch _).run s).1.map _).mapError _, ((store.fetch _).run s).2) = _
  have hlift : (lift (store.fetch { q with window := some ⟨1, 0⟩ })).run.run s =
      (((store.fetch { q with window := some ⟨1, 0⟩ }).run s).1.mapError .store,
        ((store.fetch { q with window := some ⟨1, 0⟩ }).run s).2) := rfl
  rw [hlift]
  cases ((store.fetch { q with window := some ⟨1, 0⟩ }).run s).1 with
  | error err => rfl
  | ok rows => rfl

end Store

/-! ## Calls that are made to fail -/

namespace Watched

/-- What makes calls fail, in view of the tables and the calls before. -/
abbrev Injection := Watched → Call → Option StoreError

/-- Note a call, and answer it from the tables unless it is made to fail. -/
def answerUnless (inject : Injection) (call : Call) (run : StateM Tables (Except StoreError α)) :
    StateM Watched (Except StoreError α) := do
  let s ← get
  match inject s call with
  | some e => do
    set { s with calls := s.calls ++ [call] }
    return .error e
  | none => do
    let (a, tables) := run.run s.tables
    set { tables, calls := s.calls ++ [call] : Watched }
    return a

/-- The store in memory, watched and with calls that are made to fail. -/
def failing (inject : Injection) : Store (StateM Watched) where
  fetch q := answerUnless inject (.fetch q) (Store.memory.fetch q)
  count q := answerUnless inject (.count q) (Store.memory.count q)
  execute c := answerUnless inject (.execute c) (Store.memory.execute c)

/-- Whichever calls are made to fail, those that are answered are answered from the tables. -/
theorem failing_fitting (inject : Injection) : (failing inject).Fitting := by
  intro q s rows h row hrow
  have hrun : ((failing inject).fetch q).run s = match inject s (.fetch q) with
      | some e => (.error e, { s with calls := s.calls ++ [.fetch q] })
      | none => (s.tables.fetch q, ⟨s.tables, s.calls ++ [.fetch q]⟩) := by
    simp only [failing, answerUnless, StateT.run_bind, StateT.run_get, pure_bind]
    cases inject s (.fetch q) <;> rfl
  rw [hrun] at h
  cases hinject : inject s (.fetch q) with
  | some e =>
    rw [hinject] at h
    cases h
  | none =>
    rw [hinject] at h
    exact Plan.length_cells h hrow

end Watched

/-! ## Courses of calls -/

/-- Whether an error is about what is asked for, and not about what the store answers. -/
def QueryError.isRequest : QueryError → Bool
  | invalidPage _ => true
  | err => err.isPlanning

theorem QueryError.isRequest_of_isReading {err : QueryError} (h : err.isReading = true) :
    err.isRequest = false := by
  cases err <;> first | rfl | cases h

/-- How calls of given kinds went, and what came of them. -/
inductive Course (kinds : List CallKind) (Q : α → Prop) :
    List Exchange → Except QueryError α → Prop
  /-- All of them were made and answered. -/
  | done {made : List Exchange} {a : α} : (∀ x ∈ made, x.failure? = none) →
      made.map (·.call.kind) = kinds → Q a → Course kinds Q made (.ok a)
  /-- Those that were made were answered, but nothing could be made of the answers. -/
  | refused {made : List Exchange} {err : QueryError} : (∀ x ∈ made, x.failure? = none) →
      made.map (·.call.kind) <+: kinds → err.isRequest = false → Course kinds Q made (.error err)
  /-- The last of those that were made failed. -/
  | failed {made : List Exchange} {x : Exchange} {err : StoreError} :
      (∀ y ∈ made, y.failure? = none) → (made ++ [x]).map (·.call.kind) <+: kinds →
      x.failure? = some err → Course kinds Q (made ++ [x]) (.error (.store err))

namespace Course

variable {kinds kinds' : List CallKind} {Q : α → Prop} {R : β → Prop} {made : List Exchange}

/-- What ends with an error ends all that was to come after it. -/
theorem stopped {err : QueryError} (h : Course kinds Q made (.error err)) :
    Course (kinds ++ kinds') R made (.error err) := by
  cases h with
  | refused hall hkinds herr => exact .refused hall (hkinds.trans (List.prefix_append _ _)) herr
  | failed hall hkinds hx => exact .failed hall (hkinds.trans (List.prefix_append _ _)) hx

/-- Calls go on behind others that were all answered. -/
theorem after {before : List Exchange} {r : Except QueryError β} (h : Course kinds' R made r)
    (hall : ∀ x ∈ before, x.failure? = none) (hkinds : before.map (·.call.kind) = kinds) :
    Course (kinds ++ kinds') R (before ++ made) r := by
  -- Neither being answered nor the order of kinds is lost by going on.
  have hboth : ∀ {made : List Exchange}, (∀ x ∈ made, x.failure? = none) →
      ∀ x ∈ before ++ made, x.failure? = none := by
    intro made hmade x hx
    rcases List.mem_append.mp hx with hx | hx
    · exact hall x hx
    · exact hmade x hx
  have hkept : ∀ {made : List Exchange}, made.map (·.call.kind) <+: kinds' →
      (before ++ made).map (·.call.kind) <+: kinds ++ kinds' := by
    intro made hmade
    rw [List.map_append, hkinds]
    exact (List.prefix_append_right_inj kinds).mpr hmade
  cases h with
  | done hmade hkinds' ha =>
    refine .done (hboth hmade) ?_ ha
    rw [List.map_append, hkinds, hkinds']
  | refused hmade hkinds' herr => exact .refused (hboth hmade) (hkept hkinds') herr
  | failed hmade hkinds' hx =>
    rw [← List.append_assoc]
    refine .failed (hboth hmade) ?_ hx
    rw [List.append_assoc]
    exact hkept hkinds'

theorem prefix_kinds {r : Except QueryError α} (h : Course kinds Q made r) :
    made.map (·.call.kind) <+: kinds := by
  cases h with
  | done _ hkinds _ => exact hkinds ▸ List.prefix_refl _
  | refused _ hkinds _ | failed _ hkinds _ => exact hkinds

theorem kinds_eq {a : α} (h : Course kinds Q made (.ok a)) : made.map (·.call.kind) = kinds := by
  cases h with
  | done _ hkinds _ => exact hkinds

theorem isRequest_eq_false {err : QueryError} (h : Course kinds Q made (.error err)) :
    err.isRequest = false := by
  cases h with
  | refused _ _ herr => exact herr
  | failed _ _ _ => rfl

/-- No call comes after one that failed, and its failure is the error. -/
theorem last_of_failure {r : Except QueryError α} {before after : List Exchange} {y : Exchange}
    {err : StoreError} (h : Course kinds Q (before ++ y :: after) r) (hy : y.failure? = some err) :
    after = [] ∧ r = .error (.store err) := by
  have hmem : y ∈ before ++ y :: after := by simp
  generalize hmade : before ++ y :: after = made at h hmem
  cases h with
  | done hall _ _ | refused hall _ _ =>
    rw [hall y hmem] at hy
    cases hy
  | @failed init x err' hall _ hx =>
    rcases List.eq_nil_or_concat after with rfl | ⟨rest, z, rfl⟩
    · obtain ⟨-, hlast⟩ := List.append_inj' hmade rfl
      obtain rfl := List.singleton_inj.mp hlast
      rw [hy] at hx
      exact ⟨rfl, Option.some.inj hx ▸ rfl⟩
    · -- Were there a call after it, it would be among those that were answered.
      rw [List.concat_eq_append, ← List.cons_append, ← List.append_assoc] at hmade
      obtain ⟨rfl, -⟩ := List.append_inj' hmade rfl
      rw [hall y (by simp)] at hy
      cases hy

end Course

/-! ## Conduct -/

/-- What asks a store makes calls of given kinds in order, as far as it comes, and has a result with
a property if it comes to the end. It is given twice, asking the store and asking it observed: to be
observed changes nothing. -/
def Conducts (kinds : List CallKind) (Q : α → Prop)
    (x : ExceptT QueryError (StateM (σ × List Exchange)) α) (y : ExceptT QueryError (StateM σ) α) :
    Prop :=
  ∀ s exchanges, ∃ made,
    x.run.run (s, exchanges) = ((y.run.run s).1, (y.run.run s).2, exchanges ++ made) ∧
      Course kinds Q made (y.run.run s).1

namespace Conducts

variable {kinds kinds' : List CallKind} {Q : α → Prop} {R : β → Prop}
  {x : ExceptT QueryError (StateM (σ × List Exchange)) α} {y : ExceptT QueryError (StateM σ) α}
  {f : α → ExceptT QueryError (StateM (σ × List Exchange)) β}
  {g : α → ExceptT QueryError (StateM σ) β}

theorem pure {a : α} :
    Conducts (σ := σ) [] (fun _ => True) (Pure.pure a) (Pure.pure a) := by
  intro s exchanges
  refine ⟨[], ?_, .done (by simp) rfl trivial⟩
  rw [List.append_nil]
  rfl

/-- A step that does not ask the store must not find fault with the request any more. -/
theorem check {r : Except QueryError α} (h : ∀ err, r = .error err → err.isRequest = false) :
    Conducts (σ := σ) [] (fun _ => True) (liftM r) (liftM r) := by
  intro s exchanges
  refine ⟨[], ?_, ?_⟩
  · rw [List.append_nil]
    rfl
  · cases r with
    | ok a => exact .done (by simp) rfl trivial
    | error err => exact .refused (by simp) List.nil_prefix (h err rfl)

theorem throw {err : QueryError} (h : err.isRequest = false) :
    Conducts (σ := σ) (α := α) [] (fun _ => True) (MonadExcept.throw err)
      (MonadExcept.throw err) := by
  apply check (r := .error err)
  intro err' herr
  rw [← Except.error.inj herr]
  exact h

/-- A call is made, and its failure is passed on. -/
theorem call (call : Call) {answer : StateM σ (Except StoreError α)}
    (h : ∀ s a, (answer.run s).1 = .ok a → Q a) :
    Conducts [call.kind] Q (Store.lift (Store.note call answer)) (Store.lift answer) := by
  intro s exchanges
  refine ⟨[⟨call, failure? (answer.run s).1⟩], rfl, ?_⟩
  show Course _ _ _ ((answer.run s).1.mapError .store)
  cases hanswer : (answer.run s).1 with
  | ok a => exact .done (by simp [failure?]) rfl (h s a hanswer)
  | error err =>
    have hone : Course [call.kind] Q ([] ++ [⟨call, some err⟩]) (.error (.store err)) :=
      .failed (by simp) (List.prefix_refl _) rfl
    exact hone

theorem bind (hx : Conducts kinds Q x y) (hf : ∀ a, Q a → Conducts kinds' R (f a) (g a)) :
    Conducts (kinds ++ kinds') R (x >>= f) (y >>= g) := by
  intro s exchanges
  obtain ⟨made, hrun, hcourse⟩ := hx s exchanges
  rw [ExceptT.run_bind, StateT.run_bind, ExceptT.run_bind, StateT.run_bind, hrun]
  generalize y.run.run s = answer at hcourse
  obtain ⟨r, s'⟩ := answer
  cases r with
  | error err => exact ⟨made, rfl, hcourse.stopped⟩
  | ok a =>
    cases hcourse with
    | done hall hkinds ha =>
      obtain ⟨made', hrun', hcourse'⟩ := hf a ha s' (exchanges ++ made)
      rw [List.append_assoc] at hrun'
      exact ⟨made ++ made', hrun', hcourse'.after hall hkinds⟩

/-- What comes after the last call adds none. -/
theorem bind_nil (hx : Conducts kinds Q x y) (hf : ∀ a, Q a → Conducts [] R (f a) (g a)) :
    Conducts kinds R (x >>= f) (y >>= g) := by
  have h := hx.bind hf
  rw [List.append_nil] at h
  exact h

end Conducts

/-- A request is checked before calls of given kinds are made in order: it either ends without a
call, or goes on by conduct. -/
def Obeys (kinds : List CallKind) (x : ExceptT QueryError (StateM (σ × List Exchange)) α)
    (y : ExceptT QueryError (StateM σ) α) : Prop :=
  ∀ s exchanges, ∃ made,
    x.run.run (s, exchanges) = ((y.run.run s).1, (y.run.run s).2, exchanges ++ made) ∧
      (Course kinds (fun _ => True) made (y.run.run s).1 ∨
        made = [] ∧ ∃ err, (y.run.run s).1 = .error err)

namespace Obeys

variable {kinds : List CallKind} {x : ExceptT QueryError (StateM (σ × List Exchange)) α}
  {y : ExceptT QueryError (StateM σ) α}
  {f : α → ExceptT QueryError (StateM (σ × List Exchange)) β}
  {g : α → ExceptT QueryError (StateM σ) β}

theorem of_conducts (h : Conducts kinds (fun _ => True) x y) : Obeys kinds x y := by
  intro s exchanges
  obtain ⟨made, hrun, hcourse⟩ := h s exchanges
  exact ⟨made, hrun, .inl hcourse⟩

/-- A check comes before all calls. -/
theorem check {r : Except QueryError α} (h : ∀ a, r = .ok a → Obeys kinds (f a) (g a)) :
    Obeys kinds ((liftM r : ExceptT QueryError (StateM (σ × List Exchange)) α) >>= f)
      ((liftM r : ExceptT QueryError (StateM σ) α) >>= g) := by
  intro s exchanges
  cases r with
  | error err =>
    refine ⟨[], ?_, .inr ⟨rfl, err, rfl⟩⟩
    rw [List.append_nil]
    rfl
  | ok a => exact h a rfl s exchanges

/-- What can be said of the calls of what obeys. They are of the given kinds in order, all of them
if there is a result; one that fails is the last one, and its failure is the error; and there are
none if the error is about the request. -/
theorem calls (h : Obeys kinds x y) (s : σ) :
    ∃ r s' made, y.run.run s = (r, s') ∧ x.run.run (s, []) = (r, s', made) ∧
      made.map (·.call.kind) <+: kinds ∧
      (∀ a, r = .ok a → made.map (·.call.kind) = kinds) ∧
      (∀ before z after err, made = before ++ z :: after → z.failure? = some err →
        after = [] ∧ r = .error (.store err)) ∧
      ∀ err, r = .error err → err.isRequest = true → made = [] := by
  -- Either calls have been made in order, or the request was refused before any.
  obtain ⟨made, hrun, hcourse⟩ := h s []
  generalize y.run.run s = answer at hrun hcourse
  obtain ⟨r, s'⟩ := answer
  refine ⟨r, s', made, rfl, hrun, ?_⟩
  rcases hcourse with hcourse | ⟨rfl, err, herr⟩
  · refine ⟨hcourse.prefix_kinds, ?_, ?_, ?_⟩
    · rintro a rfl
      exact hcourse.kinds_eq
    · rintro before z after err rfl hz
      exact hcourse.last_of_failure hz
    · rintro err rfl hrequest
      rw [hcourse.isRequest_eq_false] at hrequest
      cases hrequest
  · obtain rfl : r = .error err := herr
    refine ⟨List.nil_prefix, ?_, ?_, fun _ _ _ => rfl⟩
    · intro a h
      cases h
    · intro before z after err h
      cases before <;> cases h

end Obeys

end EntityQuery
