import EntityQuery.Proofs.Evaluation.Inlining
import EntityQuery.Proofs.Planning.Reordering

/-!
# Planning side by side

Two steps of the planner may be run from the same frames, the first with parameters and the second
without any. The two are parallel if both fail, or both succeed with related results and leave the
same frames. What reads the frames alone is parallel to itself, names in messages being ignored, and
a parameter may be bound on the one side where nothing is done on the other.
-/

namespace EntityQuery

/-! ## Steps side by side -/

namespace Scopes

/-- The scopes without the parameters bound so far. -/
def bare (s : Scopes) : Scopes :=
  { s with parameters := [] }

/-- Every parameter is bound to the value that it is known to have. -/
def Draws (values : String → Option Value) (s : Scopes) : Prop :=
  ∀ name v, s.parameters.lookup name = some v → values name = some v

end Scopes

namespace Planner

variable {α β γ δ : Type} {values : String → Option Value}

/-- Two failures, or two successes with related results in the same frames. -/
inductive Outcomes (values : String → Option Value) (R : α → β → Prop) :
    Except QueryError (α × Scopes) → Except QueryError (β × Scopes) → Prop
  | ok {a : α} {b : β} {s : Scopes} : R a b → s.Draws values →
      Outcomes values R (.ok (a, s)) (.ok (b, s.bare))
  | error {e e' : QueryError} : Outcomes values R (.error e) (.error e')

/-- Steps that do the same, apart from the parameters that only the first one binds. -/
def Parallel (values : String → Option Value) (R : α → β → Prop) (x : Planner α)
    (y : Planner β) : Prop :=
  ∀ s, s.Draws values → Outcomes values R (x.run s) (y.run s.bare)

namespace Parallel

variable {R : α → β → Prop} {S : γ → δ → Prop} {x : Planner α} {y : Planner β}

/-- Steps that are run from nothing. -/
theorem run_nil (h : Parallel values R x y) :
    (∃ a b s, x.run ⟨[], []⟩ = .ok (a, s) ∧ y.run ⟨[], []⟩ = .ok (b, s.bare) ∧ R a b) ∨
      ∃ e e', x.run ⟨[], []⟩ = .error e ∧ y.run ⟨[], []⟩ = .error e' := by
  have hxy := h ⟨[], []⟩ fun name v hv => by cases hv
  rw [show (⟨[], []⟩ : Scopes).bare = ⟨[], []⟩ from rfl] at hxy
  generalize x.run ⟨[], []⟩ = outcome at hxy ⊢
  generalize y.run ⟨[], []⟩ = outcome' at hxy ⊢
  cases hxy with
  | ok hab _ => exact .inl ⟨_, _, _, rfl, rfl, hab⟩
  | error => exact .inr ⟨_, _, rfl, rfl⟩

theorem pure {a : α} {b : β} (h : R a b) : Parallel values R (pure a) (pure b) :=
  fun _ hs => .ok h hs

theorem throw (e e' : QueryError) : Parallel values R (throw e) (throw e') :=
  fun _ _ => .error

theorem bind {k : α → Planner γ} {l : β → Planner δ} (h : Parallel values R x y)
    (hkl : ∀ a b, R a b → Parallel values S (k a) (l b)) :
    Parallel values S (x >>= k) (y >>= l) := by
  intro s hs
  rw [StateT.run_bind, StateT.run_bind]
  have hxy := h s hs
  generalize x.run s = outcome at hxy
  generalize y.run s.bare = outcome' at hxy
  cases hxy with
  | ok hab hs' => exact hkl _ _ hab _ hs'
  | error => exact .error

/-- A step beside which nothing is done. -/
theorem bind_left {b : β} {k : α → Planner γ} {z : Planner δ}
    (h : Parallel values R x (Pure.pure b)) (hk : ∀ a, R a b → Parallel values S (k a) z) :
    Parallel values S (x >>= k) z := by
  intro s hs
  rw [StateT.run_bind]
  have hx := h s hs
  generalize x.run s = outcome at hx
  generalize hnothing : (Pure.pure b : Planner β).run s.bare = outcome' at hx
  cases hx with
  | ok hab hs' =>
    obtain ⟨rfl, hbare⟩ := run_pure_ok.mp hnothing
    rw [hbare]
    exact hk _ hab _ hs'
  | error => cases hnothing

theorem mono {R' : α → β → Prop} (h : Parallel values R x y) (hR : ∀ a b, R a b → R' a b) :
    Parallel values R' x y := by
  intro s hs
  have hxy := h s hs
  generalize x.run s = outcome at hxy ⊢
  generalize y.run s.bare = outcome' at hxy ⊢
  cases hxy with
  | ok hab hs' => exact .ok (hR _ _ hab) hs'
  | error => exact .error

theorem mapM_map {f : γ → Planner α} {g : γ → γ} {xs : List γ}
    (h : ∀ x ∈ xs, Parallel values Eq (f x) (f (g x))) :
    Parallel values Eq (xs.mapM f) ((xs.map g).mapM f) := by
  induction xs with
  | nil =>
    rw [List.map_nil, List.mapM_nil]
    exact pure rfl
  | cons x xs ih =>
    rw [List.map_cons, List.mapM_cons, List.mapM_cons]
    refine (h x List.mem_cons_self).bind ?_
    rintro y _ rfl
    refine (ih fun x' hx' => h x' (List.mem_cons_of_mem x hx')).bind ?_
    rintro ys _ rfl
    exact pure rfl

theorem lift (z : Except QueryError α) :
    Parallel values (fun a b => b = a ∧ z = .ok a) (liftM z : Planner α) (liftM z : Planner α) := by
  intro s hs
  cases z with
  | ok a => exact .ok ⟨rfl, rfl⟩ hs
  | error e => exact .error

/-! ## State -/

theorem get : Parallel values (fun s u => s.Draws values ∧ u = s.bare) get get :=
  fun _ hs => .ok ⟨hs, rfl⟩ hs

theorem set {s : Scopes} (h : s.Draws values) : Parallel values Eq (set s) (set s.bare) :=
  fun _ _ => .ok rfl h

theorem modifyFrame (level : Nat) (f : Frame → Frame) :
    Parallel values Eq (Planner.modifyFrame level f) (Planner.modifyFrame level f) :=
  fun _ hs => .ok rfl hs

theorem isOptional (level slot : Nat) :
    Parallel values Eq (Planner.isOptional level slot) (Planner.isOptional level slot) :=
  fun _ hs => .ok rfl hs

theorem scopeEntity : Parallel values Eq Planner.scopeEntity Planner.scopeEntity :=
  fun _ hs => .ok rfl hs

/-- Scopes that are opened with the same frame are closed with the same frame. -/
theorem inScope (f : Frame) (h : Parallel values R x y) :
    Parallel values (fun r r' => R r.1 r'.1 ∧ r.2 = r'.2) (Planner.inScope f x)
      (Planner.inScope f y) := by
  have hopen : Parallel values Eq
      (modify fun s : Scopes => { s with frames := f :: s.frames } : Planner Unit)
      (modify fun s : Scopes => { s with frames := f :: s.frames } : Planner Unit) :=
    fun _ hs => .ok rfl hs
  refine hopen.bind fun _ _ _ => h.bind fun a b hab => get.bind ?_
  rintro ⟨frames, parameters⟩ _ ⟨hs, rfl⟩
  cases frames with
  | nil => exact throw _ _
  | cons g frames =>
    have hclose : Parallel values Eq (MonadStateOf.set (⟨frames, parameters⟩ : Scopes) : Planner Unit)
        (MonadStateOf.set (⟨frames, []⟩ : Scopes)) := set (s := ⟨frames, parameters⟩) hs
    exact hclose.bind fun _ _ _ => pure ⟨hab, rfl⟩

/-- A parameter is bound where all its occurrences have one value. -/
theorem bindParameter {name : String} {v : Value} (hv : values name = some v)
    (hid : v.identical v = true) :
    Parallel values (fun _ _ => True) (Planner.bindParameter name v) (Pure.pure ()) := by
  intro s hs
  obtain ⟨bound, hbound, hdraws⟩ : ∃ bound, bindParameter? s.parameters (name, v) = some bound ∧
      (⟨s.frames, bound⟩ : Scopes).Draws values := by
    -- The name is new, or bound to this very value already.
    unfold bindParameter?
    cases hname : s.parameters.lookup name with
    | none =>
      refine ⟨_, rfl, fun other w hw => ?_⟩
      rw [lookup_append_singleton hname] at hw
      split at hw
      · rename_i hother
        rw [hother, ← hw]
        exact hv
      · exact hs other w hw
    | some w =>
      obtain rfl : w = v := Option.some.inj ((hs name w hname).symm.trans hv)
      exact ⟨s.parameters, if_pos hid, hs⟩
  have hrun : (Planner.bindParameter name v).run s = .ok ((), ⟨s.frames, bound⟩) :=
    run_bindParameter_iff.mpr ⟨hbound, rfl⟩
  rw [hrun]
  exact .ok trivial hdraws

/-! ## Checks

A check depends on types and items. The names in its message may differ. -/

theorem checkComparable (label label' : String) (op : Comparison) (left right : StaticType) :
    Parallel values (fun _ _ => True) (Planner.checkComparable label op left right)
      (Planner.checkComparable label' op left right) := by
  unfold Planner.checkComparable
  split
  · exact pure trivial
  · exact throw _ _

theorem checkText (label label' : String) (t : StaticType) :
    Parallel values (fun _ _ => True) (Planner.checkText label t) (Planner.checkText label' t) := by
  unfold Planner.checkText
  split
  · split
    · exact pure trivial
    · exact throw _ _
  · split
    · exact pure trivial
    · exact throw _ _
  · exact pure trivial

theorem checkCandidates (label label' : String) (vs : List Value) (t : StaticType) :
    Parallel values (fun _ _ => True) (Planner.checkCandidates label vs t)
      (Planner.checkCandidates label' vs t) := by
  unfold Planner.checkCandidates
  split
  · split
    · exact throw _ _
    · exact pure trivial
  · exact pure trivial

theorem checkElement (label label' : String) (element : FieldType) (t : StaticType) :
    Parallel values (fun _ _ => True) (Planner.checkElement label element t)
      (Planner.checkElement label' element t) := by
  unfold Planner.checkElement
  split
  · split
    · exact pure trivial
    · exact throw _ _
  · exact pure trivial

end Parallel

end Planner

/-! ## Paths -/

section Paths

open Planner (Parallel)

variable {c : Catalog} {values : String → Option Value}

theorem Path.hop_parallel (p : Path) (level parent : Nat) (r : Relation) :
    Parallel values Eq (p.hop level parent r) (p.hop level parent r) := by
  refine Parallel.get.bind ?_
  rintro s _ ⟨-, rfl⟩
  dsimp only [Scopes.bare]
  cases s.frames[level]? with
  | none => exact .throw _ _
  | some frame =>
    dsimp only
    cases frame.joinAlong? parent r.name with
    | some slot => exact .pure rfl
    | none =>
      dsimp only
      split
      · exact .throw _ _
      · exact (Parallel.modifyFrame _ _).bind fun _ _ _ => .pure rfl

theorem Path.follow_parallel (p : Path) (level slot : Nat) (entity : String) (hops : List String) :
    Parallel values Eq (p.follow c level slot entity hops) (p.follow c level slot entity hops) := by
  induction hops generalizing slot entity with
  | nil => exact .pure rfl
  | cons name rest ih =>
    cases rest with
    | nil =>
      unfold follow
      split
      · exact .pure rfl
      · exact .pure rfl
      · exact .throw _ _
    | cons next rest =>
      unfold follow
      split
      · refine (p.hop_parallel _ _ _).bind ?_
        rintro slot _ rfl
        exact ih _ _
      · exact .throw _ _
      · exact .throw _ _

theorem Path.resolve_parallel (p : Path) :
    Parallel values Eq (p.resolve c) (p.resolve c) := by
  refine Parallel.get.bind ?_
  rintro s _ ⟨-, rfl⟩
  dsimp only [Scopes.bare]
  cases Frame.locate? p.scope s.frames with
  | none => exact .throw _ _
  | some located =>
    dsimp only
    cases located.2.slotOf? p.origin with
    | none => exact .throw _ _
    | some slot =>
      dsimp only
      cases located.2.entityOf? slot with
      | none => exact .throw _ _
      | some entity => exact p.follow_parallel _ _ _ _

/-- A path is planned to a column, in which there are no parameters. -/
theorem Path.operand_parallel (p : Path) :
    Parallel values (fun r r' => r' = r ∧ ∃ column t, r = (.column column, t)) (p.operand c)
      (p.operand c) := by
  refine p.resolve_parallel.bind ?_
  rintro r _ rfl
  cases r with
  | field column f => exact .pure ⟨rfl, column, _, rfl⟩
  | relation | record => exact .throw _ _

theorem Path.collection_parallel (p : Path) :
    Parallel values Eq (p.collection c) (p.collection c) := by
  refine p.resolve_parallel.bind ?_
  rintro r _ rfl
  cases r with
  | field column f =>
    dsimp only
    split
    · exact .pure rfl
    · exact .throw _ _
  | relation level slot r =>
    dsimp only
    split
    · -- The catalog is asked alike on both sides.
      refine (Parallel.lift _).bind ?_
      rintro target _ ⟨rfl, -⟩
      refine (Parallel.lift _).bind ?_
      rintro identity _ ⟨rfl, -⟩
      refine (Parallel.lift _).bind ?_
      rintro rows _ ⟨rfl, -⟩
      exact .pure rfl
    · exact .throw _ _
  | record => exact .throw _ _

theorem Aggregate.plan_parallel (f : Aggregate) (p : Option Path) :
    Parallel values (fun r r' => r' = (r.1.inline values, r.2)) (f.plan c p) (f.plan c p) := by
  refine Parallel.scopeEntity.bind ?_
  rintro entity _ rfl
  cases p with
  | none =>
    refine (Parallel.lift _).bind ?_
    rintro t _ ⟨rfl, -⟩
    exact .pure rfl
  | some p =>
    refine p.resolve_parallel.bind ?_
    rintro r _ rfl
    cases r with
    | field =>
      refine (Parallel.lift _).bind ?_
      rintro t _ ⟨rfl, -⟩
      exact .pure rfl
    | relation | record => exact .throw _ _

/-- A selected item with literals in place of parameters. -/
def SelectedItem.inline (values : String → Option Value) (x : SelectedItem) : SelectedItem :=
  { x with item := x.item.inline values }

theorem selectRecord_parallel (slot : Nat) (entity : String) :
    Parallel values (fun x y => y = x.inline values) (selectRecord slot entity)
      (selectRecord slot entity) := by
  refine (Parallel.isOptional _ _).bind ?_
  rintro optional _ rfl
  exact .pure rfl

theorem Path.select_parallel (p : Path) :
    Parallel values (fun x y => y = x.inline values) (p.select c) (p.select c) := by
  refine p.resolve_parallel.bind ?_
  rintro r _ rfl
  cases r with
  | field column f =>
    refine (Parallel.isOptional _ _).bind ?_
    rintro optional _ rfl
    exact .pure rfl
  | relation level slot r =>
    dsimp only
    split
    · exact .throw _ _
    · split
      · exact .throw _ _
      · -- The hop is the same on both sides.
        refine (p.hop_parallel _ _ _).bind ?_
        rintro slot _ rfl
        exact selectRecord_parallel _ _
  | record level slot entity =>
    dsimp only
    split
    · exact .throw _ _
    · exact selectRecord_parallel _ _

theorem Planner.declareJoin_parallel (root : String) (d : JoinDeclaration) :
    Parallel values Eq (declareJoin c root d) (declareJoin c root d) := by
  refine Parallel.get.bind ?_
  rintro s _ ⟨-, rfl⟩
  dsimp only [Scopes.bare]
  cases s.frames with
  | nil => exact .throw _ _
  | cons frame frames =>
    dsimp only
    cases frame.slotOf? d.parent with
    | none => exact .throw _ _
    | some parent =>
      dsimp only
      cases frame.entityOf? parent with
      | none => exact .throw _ _
      | some owner =>
        refine (Parallel.lift _).bind ?_
        rintro r _ ⟨rfl, -⟩
        exact Parallel.modifyFrame _ _

theorem Planner.declareJoins_parallel (root : String) (ds : List JoinDeclaration) :
    Parallel values Eq (declareJoins c root ds) (declareJoins c root ds) := by
  induction ds with
  | nil => exact .pure rfl
  | cons d ds ih => exact (declareJoin_parallel root d).bind fun _ _ _ => ih

end Paths

end EntityQuery
