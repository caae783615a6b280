import EntityQuery.Proofs.Engine.Conduct
import EntityQuery.Proofs.Engine.Pages

/-!
# Going from page to page

Between two calls for the next page the data of a store may change, and the store may answer a fetch
with any rows or with any failure. Whatever it answers, a traversal that has come so far is before
the page that many pages on, or it is over for good: it fetches each page once and in order, and it
ends with the first one that is not full.
-/

namespace EntityQuery

variable {σ : Type} {t : RowType}

/-! ## Observing -/

section Observing

variable {α β : Type}

/-- A run is observed by another: what it gives is the same, and the calls that it makes are noted
behind those before. -/
def Observed (x : StateM (σ × List Exchange) α) (y : StateM σ α) : Prop :=
  ∀ s made, x.run (s, made) = ((y.run s).1, (y.run s).2, made ++ (x.run (s, [])).2.2)

namespace Observed

variable {x : StateM (σ × List Exchange) α} {y : StateM σ α}
  {f : α → StateM (σ × List Exchange) β} {g : α → StateM σ β}

theorem pure (a : α) : Observed (σ := σ) (Pure.pure a) (Pure.pure a) := by
  intro s made
  show _ = (_, _, made ++ [])
  rw [List.append_nil]
  rfl

theorem note (call : Call) (answer : StateM σ (Except StoreError α)) :
    Observed (Store.note call answer) answer :=
  fun _ _ => rfl

theorem bind (hx : Observed x y) (hf : ∀ a, Observed (f a) (g a)) :
    Observed (x >>= f) (y >>= g) := by
  intro s made
  have hnil := hx s []
  rw [List.nil_append] at hnil
  rw [StateT.run_bind, StateT.run_bind, StateT.run_bind, hx s made, hnil]
  generalize y.run s = r
  generalize (x.run (s, [])).2.2 = first
  show (f r.1).run (r.2, made ++ first) = (_, _, made ++ ((f r.1).run (r.2, first)).2.2)
  rw [hf r.1 r.2 (made ++ first), hf r.1 r.2 first, List.append_assoc]
  rfl

theorem bindExcept {x : ExceptT QueryError (StateM (σ × List Exchange)) α}
    {y : ExceptT QueryError (StateM σ) α}
    {f : α → ExceptT QueryError (StateM (σ × List Exchange)) β}
    {g : α → ExceptT QueryError (StateM σ) β} (hx : Observed x.run y.run)
    (hf : ∀ a, Observed (f a).run (g a).run) : Observed (x >>= f).run (y >>= g).run := by
  rw [ExceptT.run_bind, ExceptT.run_bind]
  refine hx.bind fun r => ?_
  cases r with
  | error err => exact .pure _
  | ok a => exact hf a

theorem fetchPage (store : Store (StateM σ)) (q : Plan) (request : PageRequest) :
    Observed (fetchPage store.observed t q request).run (fetchPage store t q request).run := by
  refine .bindExcept (.pure request.window) fun w => ?_
  refine .bindExcept (.bind (.note _ _) fun _ => .pure _) fun rows => ?_
  exact .pure (Engine.readRows t rows)

end Observed

end Observing

/-! ## Turns -/

/-- A call for the next page: what it gives, and the calls of the store that it makes. -/
structure Turn (t : RowType) where
  answer : Option (Except QueryError (List t.Carrier))
  made : List Exchange

/-- The turn of a traversal that is over. -/
def Turn.over : Turn t := ⟨none, []⟩

namespace Cursor

variable (store : Store (StateM σ))

/-- The turn of a cursor that finds the store in a state. -/
def turn (c : Cursor t) (s : σ) : Turn t :=
  let r := (c.next store.observed).run (s, [])
  ⟨r.1.1, r.2.2⟩

/-- The cursor behind so many turns, each of which finds the store in a state of its own. -/
def after : Cursor t → (Nat → σ) → Nat → Cursor t
  | c, _, 0 => c
  | c, found, n + 1 => after ((c.next store).run (found 0)).1.2 (fun k => found (k + 1)) n

/-- The turn behind so many others. -/
def turnAt (c : Cursor t) (found : Nat → σ) (n : Nat) : Turn t :=
  (c.after store found n).turn store (found n)

/-- So many turns. -/
def turns (c : Cursor t) (found : Nat → σ) (n : Nat) : List (Turn t) :=
  (List.range n).map (c.turnAt store found)

/-- The states in which turns find a store that nobody else uses. -/
def states : Cursor t → σ → Nat → σ
  | _, s, 0 => s
  | c, s, n + 1 =>
    let r := (c.next store).run s
    states r.1.2 r.2 n

variable {store} {c : Cursor t} {s : σ} {found : Nat → σ}

theorem after_succ (n : Nat) :
    c.after store found (n + 1) = (((c.after store found n).next store).run (found n)).1.2 := by
  induction n generalizing c found with
  | zero => rfl
  | succ n ih => exact @ih _ fun k => found (k + 1)

theorem turns_succ_eq_cons (n : Nat) :
    c.turns store found (n + 1) = c.turn store (found 0) ::
      ((c.next store).run (found 0)).1.2.turns store (fun k => found (k + 1)) n := by
  rw [turns, List.range_succ_eq_map, List.map_cons, List.map_map]
  rfl

theorem turns_succ (n : Nat) :
    c.turns store found (n + 1) = c.turns store found n ++ [c.turnAt store found n] := by
  rw [turns, List.range_succ, List.map_append]
  rfl

theorem next_observed (store : Store (StateM σ)) (c : Cursor t) :
    Observed (c.next store.observed) (c.next store) := by
  unfold next
  split
  · exact .pure _
  · refine .bind ?_ fun rows => ?_
    · unfold rows
      split
      · exact .pure _
      · exact .fetchPage store _ _
    · split <;> exact .pure _

/-- A turn follows on others, and is the same when it is not observed. -/
theorem run_next (made : List Exchange) :
    (c.next store.observed).run (s, made) =
      (((c.turn store s).answer, ((c.next store).run s).1.2), ((c.next store).run s).2,
        made ++ (c.turn store s).made) := by
  have hanswer : (c.turn store s).answer = ((c.next store).run s).1.1 := by
    rw [turn, next_observed store c s []]
  rw [hanswer]
  exact next_observed store c s made

/-- A cursor that is done stays as it is, and leaves the store alone. -/
theorem turn_done (h : c.done = true) : c.turn store s = .over := by
  unfold turn next
  rw [if_pos h]
  rfl

theorem next_done (h : c.done = true) : ((c.next store).run s).1.2 = c := by
  unfold next
  rw [if_pos h]
  rfl

/-- A client that goes on has the turns of a store that nobody else uses. -/
theorem run_nexts (n : Nat) (made : List Exchange) :
    (c.nexts store.observed n).run (s, made) =
      (((c.turns store (c.states store s) n).map (·.answer), c.after store (c.states store s) n),
        c.states store s n, made ++ (c.turns store (c.states store s) n).flatMap (·.made)) := by
  induction n generalizing c s made with
  | zero =>
    show _ = (_, _, made ++ [])
    rw [List.append_nil]
    rfl
  | succ n ih =>
    rw [nexts, StateT.run_bind, run_next, turns_succ_eq_cons, List.map_cons, List.flatMap_cons,
      ← List.append_assoc]
    have hrest := ih (c := ((c.next store).run s).1.2) (s := ((c.next store).run s).2)
      (made ++ (c.turn store s).made)
    show ((_ >>= _ : StateM (σ × List Exchange) _).run
      (((c.next store).run s).2, made ++ (c.turn store s).made) : _) = _
    rw [StateT.run_bind, hrest]
    rfl

/-! ## Visits -/

/-- How a visitor sees the pages that turns give, and what comes of it. -/
inductive Visits {α : Type} (visitor : α → List t.Carrier → α × Bool) :
    α → List (Turn t) → α → Except QueryError Unit → Prop
  /-- There is no page any more. -/
  | ended {a : α} {made : List Exchange} : Visits visitor a [⟨none, made⟩] a (.ok ())
  /-- The next page cannot be had. -/
  | failed {a : α} {err : QueryError} {made : List Exchange} :
      Visits visitor a [⟨some (.error err), made⟩] a (.error err)
  /-- The visitor has seen enough. -/
  | stopped {a a' : α} {rows : List t.Carrier} {made : List Exchange} :
      visitor a rows = (a', true) → Visits visitor a [⟨some (.ok rows), made⟩] a' (.ok ())
  /-- The visitor goes on to the next page. -/
  | visited {a a' b : α} {rows : List t.Carrier} {made : List Exchange} {turns : List (Turn t)}
      {r : Except QueryError Unit} :
      visitor a rows = (a', false) → Visits visitor a' turns b r →
      Visits visitor a (⟨some (.ok rows), made⟩ :: turns) b r

theorem run_visit_succ {α : Type} {visitor : α → List t.Carrier → α × Bool} {steps : Nat} (a : α)
    (made : List Exchange) :
    (c.visit store.observed visitor (steps + 1) a).run (s, made) =
      (match (c.turn store s).answer with
        | none => pure (a, .ok ())
        | some (.error err) => pure (a, .error err)
        | some (.ok rows) =>
          match visitor a rows with
          | (b, true) => pure (b, .ok ())
          | (b, false) => visit store.observed visitor steps b ((c.next store).run s).1.2 :
        StateM (σ × List Exchange) (α × Except QueryError Unit)).run
        (((c.next store).run s).2, made ++ (c.turn store s).made) := by
  rw [visit, StateT.run_bind, run_next]
  rcases (c.turn store s).answer with - | err | rows <;> rfl

/-- A visit that may take more steps than there are turns with a page sees the turns of a store that
nobody else uses. -/
theorem run_visit {α : Type} (visitor : α → List t.Carrier → α × Bool) {steps : Nat}
    (hsteps : 0 < steps)
    (hover : ∀ n, steps ≤ n + 1 → (c.turnAt store (c.states store s) n).answer = none) (a : α)
    (made : List Exchange) :
    ∃ n b r, (c.visit store.observed visitor steps a).run (s, made) =
        ((b, r), c.states store s n,
          made ++ (c.turns store (c.states store s) n).flatMap (·.made)) ∧
      Visits visitor a (c.turns store (c.states store s) n) b r := by
  induction steps generalizing c s a made with
  | zero => exact absurd hsteps (Nat.lt_irrefl 0)
  | succ steps ih =>
    have hturns : ∀ n, c.turns store (c.states store s) (n + 1) = c.turn store s ::
        ((c.next store).run s).1.2.turns store
          (((c.next store).run s).1.2.states store ((c.next store).run s).2) n :=
      turns_succ_eq_cons
    have hfirst : steps = 0 → (c.turn store s).answer = none := fun h => hover 0 (by omega)
    have hrest := ih (c := ((c.next store).run s).1.2) (s := ((c.next store).run s).2)
    rw [run_visit_succ]
    generalize c.turn store s = turn at hturns hfirst
    obtain ⟨answer, m⟩ := turn
    -- The last turn of a visit is the only one of it, or comes behind the turns of the rest.
    have hlast : made ++ m = made ++ (c.turns store (c.states store s) 1).flatMap (·.made) := by
      rw [hturns]
      show _ = made ++ (m ++ [])
      rw [List.append_nil]
    match answer with
    | none => exact ⟨1, a, .ok (), by rw [← hlast]; rfl, by rw [hturns]; exact .ended⟩
    | some (.error err) =>
      exact ⟨1, a, .error err, by rw [← hlast]; rfl, by rw [hturns]; exact .failed⟩
    | some (.ok rows) =>
      cases hvisitor : visitor a rows with
      | mk b enough =>
        cases enough with
        | true =>
          refine ⟨1, b, .ok (), ?_, ?_⟩
          · rw [← hlast]
            simp only [hvisitor]
            rfl
          · rw [hturns]
            exact .stopped hvisitor
        | false =>
          have hsteps' : 0 < steps := Nat.pos_of_ne_zero fun h => by cases hfirst h
          obtain ⟨n, b', r, hrun, hvisits⟩ :=
            hrest hsteps' (fun n hn => hover (n + 1) (by omega)) b (made ++ m)
          refine ⟨n + 1, b', r, ?_, ?_⟩
          · rw [hturns, List.flatMap_cons, ← List.append_assoc]
            simp only [hvisitor]
            exact hrun
          · rw [hturns]
            exact .visited hvisitor hvisits

end Cursor

/-! ## Pages ahead -/

namespace Page

section Ahead

variable (p : Page t) (store : Store (StateM σ)) (s : σ)

/-- The plan of the page so many pages on. -/
def planAt (n : Nat) : Plan :=
  { p.plan with window := some ⟨p.request.size, (p.request.index + n) * p.request.size⟩ }

/-- What is had of the page so many pages on: the rows that are held, or those of what a store found
in a state answers, if the offset of the page is a word. -/
def rowsAt : Nat → Except QueryError (List t.Carrier)
  | 0 => .ok p.rows
  | n + 1 =>
    if (p.request.index + (n + 1)) * p.request.size ≤ maxWord then
      ((store.fetch (p.planAt (n + 1))).run s).1.mapError .store >>= Engine.readRows t
    else .error (.invalidPage (.offsetOverflow (p.request.index + (n + 1)) p.request.size))

/-- The calls that the page so many pages on takes. -/
def callsAt : Nat → List Exchange
  | 0 => []
  | n + 1 =>
    if (p.request.index + (n + 1)) * p.request.size ≤ maxWord then
      [⟨.fetch (p.planAt (n + 1)), failure? ((store.fetch (p.planAt (n + 1))).run s).1⟩]
    else []

/-- The turn for the page so many pages on, which gives nothing if the page is empty. -/
def turnAt (n : Nat) : Turn t where
  answer :=
    match p.rowsAt store s n with
    | .ok [] => none
    | r => some r
  made := p.callsAt store s n

/-- Whether there may be more behind the page so many pages on: it is a full one that is not empty,
and its index is not the last word. -/
def LeadsOn (n : Nat) : Prop :=
  ∃ rows, p.rowsAt store s n = .ok rows ∧ rows ≠ [] ∧ p.request.size ≤ rows.length ∧
    p.request.index + n < maxWord

/-- The cursor before the page so many pages on. -/
def before (n : Nat) : Cursor t where
  plan := p.plan
  request := { p.request with index := p.request.index + n }
  pending :=
    match n with
    | 0 => some p.rows
    | _ + 1 => none
  done := false

/-- The cursor behind it. -/
def behind (n : Nat) : Cursor t :=
  match p.rowsAt store s n with
  | .ok (row :: rows) => (p.before n).advance (row :: rows)
  | _ => { p.before n with pending := none, done := true }

end Ahead

variable {p : Page t} {store : Store (StateM σ)} {s : σ} {found : Nat → σ} {n : Nat}

theorem run_fetch (q : Plan) :
    (Engine.run store.observed t q).run.run (s, []) =
      (((store.fetch q).run s).1.mapError .store >>= Engine.readRows t, ((store.fetch q).run s).2,
        [⟨.fetch q, failure? ((store.fetch q).run s).1⟩]) := by
  have hfetch : (Store.lift (store.observed.fetch q)).run.run (s, []) =
      (((store.fetch q).run s).1.mapError .store, ((store.fetch q).run s).2,
        [⟨.fetch q, failure? ((store.fetch q).run s).1⟩]) := rfl
  rw [Engine.run, ExceptT.run_bind, StateT.run_bind, hfetch]
  cases ((store.fetch q).run s).1 <;> rfl

variable (p store s n) in
theorem run_rows_before :
    ∃ s', ((p.before n).rows store.observed).run.run (s, []) =
      (p.rowsAt store s n, s', p.callsAt store s n) := by
  cases n with
  | zero => exact ⟨s, rfl⟩
  | succ n =>
    show ∃ s', (fetchPage store.observed t p.plan (p.before (n + 1)).request).run.run (s, []) = _
    unfold fetchPage PageRequest.window
    -- An offset that is no word is refused before the store is asked.
    by_cases hword : (p.request.index + (n + 1)) * p.request.size ≤ maxWord
    · have hoffset : (p.before (n + 1)).request.offset =
          .ok ((p.request.index + (n + 1)) * p.request.size) := if_pos hword
      have hrows : p.rowsAt store s (n + 1) = _ := if_pos hword
      have hcalls : p.callsAt store s (n + 1) = _ := if_pos hword
      rw [hoffset, hrows, hcalls]
      exact ⟨_, run_fetch (p.planAt (n + 1))⟩
    · have hoffset : (p.before (n + 1)).request.offset = _ := if_neg hword
      have hrows : p.rowsAt store s (n + 1) = _ := if_neg hword
      have hcalls : p.callsAt store s (n + 1) = _ := if_neg hword
      rw [hoffset, hrows, hcalls]
      exact ⟨s, rfl⟩

variable (p store s n) in
theorem run_next_before :
    ∃ s', ((p.before n).next store.observed).run (s, []) =
      (((p.turnAt store s n).answer, p.behind store s n), s', (p.turnAt store s n).made) := by
  obtain ⟨s', hrows⟩ := run_rows_before p store s n
  refine ⟨s', ?_⟩
  unfold Cursor.next turnAt behind
  have hdone : ¬ (p.before n).done = true := Bool.false_ne_true
  rw [if_neg hdone, StateT.run_bind, hrows]
  rcases p.rowsAt store s n with err | _ | ⟨row, rows⟩ <;> rfl

theorem turn_before : (p.before n).turn store s = p.turnAt store s n := by
  obtain ⟨s', hnext⟩ := run_next_before p store s n
  rw [Cursor.turn, hnext]

theorem next_before : (((p.before n).next store).run s).1.2 = p.behind store s n := by
  obtain ⟨s', hnext⟩ := run_next_before p store s n
  rw [Cursor.next_observed store _ s []] at hnext
  exact congrArg (·.1.2) hnext

theorem behind_of_leadsOn (h : p.LeadsOn store s n) : p.behind store s n = p.before (n + 1) := by
  obtain ⟨rows, hrows, hne, hsize, hindex⟩ := h
  obtain ⟨row, rest, rfl⟩ := List.exists_cons_of_ne_nil hne
  have hlast : p.request.index + n ≠ maxWord := by omega
  have hshort : ¬ (row :: rest).length < p.request.size := by omega
  unfold behind
  rw [hrows]
  simp only [Cursor.advance, before, hlast, hshort, decide_false, Bool.or_self, if_false]
  rfl

theorem done_behind (hindex : p.request.index + n ≤ maxWord) (h : ¬ p.LeadsOn store s n) :
    (p.behind store s n).done = true := by
  unfold behind
  split
  · next row rest hrows =>
    refine Bool.or_eq_true_iff.mpr ?_
    by_cases hshort : (row :: rest).length < p.request.size
    · exact .inl (decide_eq_true hshort)
    · by_cases hlast : p.request.index + n = maxWord
      · exact .inr (decide_eq_true hlast)
      · exact absurd ⟨row :: rest, hrows, List.cons_ne_nil _ _, by omega, by omega⟩ h
  · rfl

/-- A traversal that was led on so many times is before the page that many pages on. -/
theorem after_of_leadsOn (h : ∀ k < n, p.LeadsOn store (found k) k) :
    (Cursor.ofPage p).after store found n = p.before n := by
  induction n with
  | zero => rfl
  | succ n ih =>
    rw [Cursor.after_succ, ih fun k hk => h k (Nat.lt_succ_of_lt hk), next_before,
      behind_of_leadsOn (h n (Nat.lt_succ_self n))]

theorem index_of_leadsOn (hindex : p.request.index ≤ maxWord)
    (h : ∀ k < n, p.LeadsOn store (found k) k) : p.request.index + n ≤ maxWord := by
  cases n with
  | zero => exact hindex
  | succ n =>
    obtain ⟨_, -, -, -, hlt⟩ := h n (Nat.lt_succ_self n)
    omega

/-- A traversal that was once not led on is over. -/
theorem done_after (hindex : p.request.index ≤ maxWord)
    (h : ∃ k < n, ¬ p.LeadsOn store (found k) k) :
    ((Cursor.ofPage p).after store found n).done = true := by
  induction n with
  | zero =>
    obtain ⟨k, hk, -⟩ := h
    exact absurd hk (Nat.not_lt_zero k)
  | succ n ih =>
    rw [Cursor.after_succ]
    by_cases hover : ∃ k < n, ¬ p.LeadsOn store (found k) k
    · -- It was over before, and a cursor that is done stays where it is.
      rw [Cursor.next_done (ih hover)]
      exact ih hover
    · have hled : ∀ k < n, p.LeadsOn store (found k) k := by
        intro k hk
        by_contra hk'
        exact hover ⟨k, hk, hk'⟩
      -- It is the last page that does not lead on, and the turn behind it closes the cursor.
      have hnot : ¬ p.LeadsOn store (found n) n := by
        obtain ⟨k, hk, hk'⟩ := h
        obtain hlt | rfl := Nat.lt_succ_iff_lt_or_eq.mp hk
        · exact absurd (hled k hlt) hk'
        · exact hk'
      rw [after_of_leadsOn hled, next_before]
      exact done_behind (index_of_leadsOn hindex hled) hnot

/-- So far as a traversal is led on, its turns are those for the pages ahead. -/
theorem turnAt_of_leadsOn (h : ∀ k < n, p.LeadsOn store (found k) k) :
    (Cursor.ofPage p).turnAt store found n = p.turnAt store (found n) n := by
  rw [Cursor.turnAt, after_of_leadsOn h, turn_before]

theorem turnAt_over (hindex : p.request.index ≤ maxWord)
    (h : ∃ k < n, ¬ p.LeadsOn store (found k) k) :
    (Cursor.ofPage p).turnAt store found n = .over := by
  rw [Cursor.turnAt, Cursor.turn_done (done_after hindex h)]

/-- Where there are no indices any more, a traversal is over. -/
theorem turnAt_behind (hindex : p.request.index ≤ maxWord) (h : maxWord < p.request.index + n) :
    (Cursor.ofPage p).turnAt store found n = .over := by
  refine turnAt_over hindex ⟨n - 1, by omega, ?_⟩
  rintro ⟨_, -, -, -, hlt⟩
  omega

variable (p store s n) in
/-- A page ahead is fetched unless its offset is no word, and then it does not lead on. -/
theorem callsAt_cases :
    (p.callsAt store s n).map (·.call) = [] ∧ (p.LeadsOn store s n → n = 0) ∨
      0 < n ∧ (p.callsAt store s n).map (·.call) = [.fetch (p.planAt n)] := by
  cases n with
  | zero => exact .inl ⟨rfl, fun _ => rfl⟩
  | succ n =>
    by_cases hword : (p.request.index + (n + 1)) * p.request.size ≤ maxWord
    · have hcalls : p.callsAt store s (n + 1) = _ := if_pos hword
      rw [hcalls]
      exact .inr ⟨Nat.succ_pos n, rfl⟩
    · have hcalls : p.callsAt store s (n + 1) = _ := if_neg hword
      have hrows : p.rowsAt store s (n + 1) = _ := if_neg hword
      rw [hcalls]
      refine .inl ⟨rfl, ?_⟩
      rintro ⟨rows, hok, -⟩
      rw [hrows] at hok
      cases hok

variable (store found) in
/-- The calls of a traversal fetch the pages ahead one after the other. -/
theorem calls_turns (hindex : p.request.index ≤ maxWord) (n : Nat) :
    ∃ m ≤ n - 1, (((Cursor.ofPage p).turns store found n).flatMap (·.made)).map (·.call) =
        ((List.range' 1 m).map fun k => Call.fetch (p.planAt k)) ∧
      ((∀ k < n, p.LeadsOn store (found k) k) → m = n - 1) := by
  induction n with
  | zero => exact ⟨0, Nat.le_refl 0, rfl, fun _ => rfl⟩
  | succ n ih =>
    obtain ⟨m, hm, hcalls, hled⟩ := ih
    rw [Cursor.turns_succ, List.flatMap_append, List.map_append, hcalls, List.flatMap_singleton]
    by_cases hall : ∀ k < n, p.LeadsOn store (found k) k
    · rw [turnAt_of_leadsOn hall]
      -- The turn is one for the page ahead: the first page is at hand, the others are fetched.
      have hlast : m = n - 1 := hled hall
      obtain ⟨hnone, hzero⟩ | ⟨hpos, hone⟩ := callsAt_cases p store (found n) n
      · refine ⟨m, by omega, ?_, fun h => ?_⟩
        · rw [show (p.turnAt store (found n) n).made = p.callsAt store (found n) n from rfl, hnone,
            List.append_nil]
        · have hn : n = 0 := hzero (h n (Nat.lt_succ_self n))
          omega
      · refine ⟨n, Nat.le_refl n, ?_, fun _ => rfl⟩
        have hrange : List.range' 1 n = List.range' 1 m ++ [n] := by
          rw [show n = m + 1 by omega, List.range'_1_concat, Nat.add_comm 1 m]
        rw [show (p.turnAt store (found n) n).made = p.callsAt store (found n) n from rfl, hone,
          hrange, List.map_append]
        rfl
    · -- The traversal is over, so the last turn makes no call.
      have hover : ∃ k < n, ¬ p.LeadsOn store (found k) k := by
        simpa only [not_forall, exists_prop] using hall
      rw [turnAt_over hindex hover]
      refine ⟨m, by omega, List.append_nil _, fun h => ?_⟩
      exact absurd (fun k hk => h k (Nat.lt_succ_of_lt hk)) hall

/-- However a store answers and whatever becomes of its data in between, a traversal goes through
the pages ahead in order. As long as the pages lead on, each turn gives the rows of the next one,
which is fetched unless it is the first. Behind the first page that does not lead on, and where there
are no indices any more, turns give nothing and make no calls. A client that has the store for itself
has just these turns, and a visit sees the pages that they give until the visitor stops. -/
theorem traversal_correct (store : Store (StateM σ)) (hindex : p.request.index ≤ maxWord) :
    (∀ (found : Nat → σ) (n : Nat),
      ((∀ k < n, p.LeadsOn store (found k) k) →
        (Cursor.ofPage p).turnAt store found n = p.turnAt store (found n) n) ∧
      ((∃ k < n, ¬ p.LeadsOn store (found k) k) →
        (Cursor.ofPage p).turnAt store found n = .over) ∧
      (maxWord < p.request.index + n → (Cursor.ofPage p).turnAt store found n = .over) ∧
      ∃ m ≤ n - 1, (((Cursor.ofPage p).turns store found n).flatMap (·.made)).map (·.call) =
        (List.range' 1 m).map fun k => .fetch (p.planAt k)) ∧
    ∀ s, let turns := (Cursor.ofPage p).turns store ((Cursor.ofPage p).states store s)
      (∀ n, ∃ c s', ((Cursor.ofPage p).nexts store.observed n).run (s, []) =
        (((turns n).map (·.answer), c), s', (turns n).flatMap (·.made))) ∧
      ∀ (α : Type) (visitor : α → List t.Carrier → α × Bool) (a : α), ∃ n b r s',
        (p.visitUntil store.observed visitor a).run (s, []) =
          ((b, r), s', (turns n).flatMap (·.made)) ∧
        Cursor.Visits visitor a (turns n) b r := by
  refine ⟨fun found n => ⟨turnAt_of_leadsOn, turnAt_over hindex, turnAt_behind hindex, ?_⟩,
    fun s => ⟨fun n => ?_, fun α visitor a => ?_⟩⟩
  · obtain ⟨m, hm, hcalls, -⟩ := calls_turns store found hindex n
    exact ⟨m, hm, hcalls⟩
  · exact ⟨_, _, Cursor.run_nexts n []⟩
  · -- There are fewer turns with a page than steps, because every such turn takes an index.
    have hover : ∀ n, maxWord + 2 ≤ n + 1 → ((Cursor.ofPage p).turnAt store
        ((Cursor.ofPage p).states store s) n).answer = none := by
      intro n hn
      rw [turnAt_behind hindex (by omega)]
      rfl
    obtain ⟨n, b, r, hrun, hvisits⟩ :=
      Cursor.run_visit visitor (Nat.succ_pos _) hover a []
    exact ⟨n, b, r, _, hrun, hvisits⟩

end Page

namespace Sample

/-- A store that gives prepared answers to fetches, one after the other. -/
def scripted : Store (StateM (List (Except StoreError (List Row)))) where
  fetch _ := do
    match ← get with
    | [] => return .ok []
    | answer :: answers => do
      set answers
      return answer
  count _ := return .ok 0
  execute _ := return .ok 0

/-- The fourth page of logins, two on a page. -/
def fourthLogins : Page (.single (.base .string)) :=
  ⟨⟨3, 2, []⟩, 8, ["aaa", "bbb"], .all "User"⟩

/-- The first fetch is answered with more rows than a page has, and the second one fails. -/
def answersAt : Nat → List (Except StoreError (List Row))
  | 1 => [.ok (["ccc", "ddd", "eee"].map fun login => ⟨[.value (.string login)]⟩)]
  | 2 => [.error (.timeout 5)]
  | _ => []

theorem fourthLogins_leadsOn : ∀ k < 2, fourthLogins.LeadsOn scripted (answersAt k) k := by
  intro k hk
  match k with
  | 0 => exact ⟨["aaa", "bbb"], rfl, List.cons_ne_nil _ _, by decide, by decide⟩
  | 1 => exact ⟨["ccc", "ddd", "eee"], rfl, List.cons_ne_nil _ _, by decide, by decide⟩

end Sample

namespace Page

theorem traversal_correct_sample :
    Sample.fourthLogins.request.index ≤ maxWord ∧
      (Cursor.ofPage Sample.fourthLogins).turnAt Sample.scripted Sample.answersAt 1 =
        ⟨some (.ok ["ccc", "ddd", "eee"]),
          [⟨.fetch { Plan.all "User" with window := some ⟨2, 8⟩ }, none⟩]⟩ ∧
      (Cursor.ofPage Sample.fourthLogins).turnAt Sample.scripted Sample.answersAt 2 =
        ⟨some (.error (.store (.timeout 5))),
          [⟨.fetch { Plan.all "User" with window := some ⟨2, 10⟩ }, some (.timeout 5)⟩]⟩ ∧
      (Cursor.ofPage Sample.fourthLogins).turnAt Sample.scripted Sample.answersAt 9 = .over := by
  have hindex : Sample.fourthLogins.request.index ≤ maxWord := by decide
  obtain ⟨hturns, -⟩ := traversal_correct Sample.scripted hindex
  have hled := Sample.fourthLogins_leadsOn
  have hnot : ¬ Sample.fourthLogins.LeadsOn Sample.scripted (Sample.answersAt 2) 2 := by
    rintro ⟨rows, hrows, -⟩
    cases hrows
  refine ⟨hindex, ?_, ?_, ?_⟩
  · exact (hturns Sample.answersAt 1).1 fun k hk => hled k (Nat.lt_succ_of_lt hk)
  · exact (hturns Sample.answersAt 2).1 hled
  · exact (hturns Sample.answersAt 9).2.1 ⟨2, by decide, hnot⟩

end Page

end EntityQuery
