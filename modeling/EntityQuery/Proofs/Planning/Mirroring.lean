import EntityQuery.Planning
import EntityQuery.Proofs.Evaluation.Outcomes

/-!
# Mirrored steps

The number of a scope ties paths to the body that they start in, and means nothing else. If scopes are
renumbered apart, each step of the planner is mirrored by the same step over renumbered frames, with
the same result or the same failure. Nor does it matter how a catalog keeps what it is asked for: the
mirrored step may ask another one that gives the same answers.
-/

namespace EntityQuery

/-! ## Renumbered scopes -/

def Path.rename (ρ : Nat → Nat) (p : Path) : Path :=
  { p with scope := ρ p.scope }

def Frame.rename (ρ : Nat → Nat) (f : Frame) : Frame :=
  { f with scope := ρ f.scope }

def Scopes.rename (ρ : Nat → Nat) (s : Scopes) : Scopes :=
  { s with frames := s.frames.map (Frame.rename ρ) }

section Frames

variable {ρ : Nat → Nat}

/-- Scopes that are numbered apart are found at the same level. -/
theorem Frame.locate?_rename (hρ : Function.Injective ρ) (scope : Nat) (frames : List Frame) :
    locate? (ρ scope) (frames.map (rename ρ)) =
      (locate? scope frames).map fun r => (r.1, r.2.rename ρ) := by
  induction frames with
  | nil => rfl
  | cons f frames ih =>
    rw [List.map_cons, locate?, locate?, ih]
    by_cases hscope : f.scope = scope
    · rw [if_pos hscope, if_pos (show (f.rename ρ).scope = ρ scope from congrArg ρ hscope)]
      rfl
    · have hscope' : (f.rename ρ).scope ≠ ρ scope := fun h => hscope (hρ h)
      rw [if_neg hscope, if_neg hscope', Option.map_map, Option.map_map]
      rfl

theorem Frame.map_modify_rename {f : Frame → Frame} (hf : ∀ g, f (g.rename ρ) = (f g).rename ρ)
    (level : Nat) (frames : List Frame) :
    (frames.map (rename ρ)).modify level f = (frames.modify level f).map (rename ρ) := by
  induction frames generalizing level with
  | nil => cases level <;> rfl
  | cons g frames ih =>
    cases level with
    | zero => exact congrArg (· :: _) (hf g)
    | succ level => exact congrArg (_ :: ·) (ih level)

end Frames

/-! ## Catalogs that agree -/

/-- Entities with the same fields under the same names. -/
structure Entity.Agrees (e e' : Entity) : Prop where
  name : e'.name = e.name
  identityField : e'.identityField = e.identityField
  field? : ∀ name, e'.field? name = e.field? name

/-- Catalogs that give the same answers. -/
structure Catalog.Agrees (c c' : Catalog) : Prop where
  entity? : ∀ name, Option.Rel Entity.Agrees (c.entity? name) (c'.entity? name)
  relation? : ∀ entity name, c'.relation? entity name = c.relation? entity name

theorem Entity.Agrees.refl (e : Entity) : e.Agrees e :=
  ⟨rfl, rfl, fun _ => rfl⟩

namespace Catalog.Agrees

variable {c c' : Catalog}

theorem refl (c : Catalog) : c.Agrees c where
  entity? name := by
    cases c.entity? name with
    | none => exact .none
    | some e => exact .some (Entity.Agrees.refl e)
  relation? _ _ := rfl

theorem entity (hc : c.Agrees c') (name : String) :
    Alike Entity.Agrees (c.entity name) (c'.entity name) := by
  have hentity := hc.entity? name
  unfold Catalog.entity
  generalize c.entity? name = found at hentity
  generalize c'.entity? name = found' at hentity
  cases hentity with
  | none => exact rfl
  | some h => exact h

theorem attribute? (hc : c.Agrees c') (entity name : String) :
    c'.attribute? entity name = c.attribute? entity name := by
  have hentity := hc.entity? entity
  unfold Catalog.attribute?
  generalize c.entity? entity = found at hentity
  generalize c'.entity? entity = found' at hentity
  cases hentity with
  | none => rfl
  | some h => rw [Option.bind_some, Option.bind_some, h.field? name, hc.relation? entity name]

theorem relatedRows (hc : c.Agrees c') (level slot : Nat) (r : Relation) :
    Alike Eq (c.relatedRows level slot r) (c'.relatedRows level slot r) := by
  refine (hc.entity r.toEntity).bind fun e e' he => ?_
  rw [he.identityField]
  exact rfl

theorem identityType {e e' : Entity} (he : e.Agrees e') :
    Alike Eq (Catalog.identityType e) (Catalog.identityType e') := by
  unfold Catalog.identityType Entity.identity?
  rw [he.identityField, he.field?, he.name]
  exact Alike.refl _

theorem relationIsNull (hc : c.Agrees c') (ρ : Nat → Nat) (p : Path) (level slot : Nat)
    (r : Relation) (negated : Bool) :
    Alike Eq (c.relationIsNull p level slot r negated)
      (c'.relationIsNull (p.rename ρ) level slot r negated) := by
  refine (hc.entity r.fromEntity).bind fun e e' he => ?_
  rw [he.identityField]
  split
  · exact rfl
  · split
    · exact rfl
    · refine (hc.relatedRows level slot r).bind ?_
      rintro rows _ rfl
      exact rfl

theorem declaredRelation (hc : c.Agrees c') (owner : String) (d : JoinDeclaration) :
    Alike Eq (Planner.declaredRelation c owner d) (Planner.declaredRelation c' owner d) := by
  unfold Planner.declaredRelation
  rw [hc.relation?]
  exact Alike.refl _

end Catalog.Agrees

/-! ## Mirrored steps -/

namespace Planner

variable {α β γ δ : Type} {ρ : Nat → Nat}

/-- Over renumbered frames, the second step fails as the first one does, or gives a related result
and leaves the frames that the first one leaves, renumbered. -/
def Mirrored (ρ : Nat → Nat) (R : α → β → Prop) (x : Planner α) (y : Planner β) : Prop :=
  ∀ s, Alike (fun r r' => R r.1 r'.1 ∧ r'.2 = r.2.rename ρ) (x.run s) (y.run (s.rename ρ))

namespace Mirrored

variable {R : α → β → Prop} {S : γ → δ → Prop} {x : Planner α} {y : Planner β}

theorem pure {a : α} {b : β} (h : R a b) : Mirrored ρ R (pure a) (pure b) :=
  fun _ => ⟨h, rfl⟩

theorem throw (e : QueryError) : Mirrored ρ R (throw e) (throw e) :=
  fun _ => rfl

theorem bind {k : α → Planner γ} {l : β → Planner δ} (h : Mirrored ρ R x y)
    (hkl : ∀ a b, R a b → Mirrored ρ S (k a) (l b)) : Mirrored ρ S (x >>= k) (y >>= l) := by
  intro s
  rw [StateT.run_bind, StateT.run_bind]
  refine (h s).bind ?_
  rintro ⟨a, s'⟩ ⟨b, _⟩ ⟨hab, rfl⟩
  exact hkl a b hab s'

/-- Steps with the same result, each before others. -/
theorem bind_eq {y : Planner α} {k : α → Planner γ} {l : α → Planner δ} (h : Mirrored ρ Eq x y)
    (hkl : ∀ a, Mirrored ρ S (k a) (l a)) : Mirrored ρ S (x >>= k) (y >>= l) := by
  refine h.bind ?_
  rintro a _ rfl
  exact hkl a

theorem lift {z : Except QueryError α} {z' : Except QueryError β} (h : Alike R z z') :
    Mirrored ρ R (liftM z : Planner α) (liftM z' : Planner β) := by
  intro s
  cases z with
  | ok a =>
    obtain ⟨b, rfl, hab⟩ := h.of_ok
    exact ⟨hab, rfl⟩
  | error e =>
    cases z' with
    | ok b => exact h.elim
    | error e' => exact h

theorem mapM_map {f f' : γ → Planner α} {g : γ → γ} (h : ∀ x, Mirrored ρ Eq (f x) (f' (g x)))
    (xs : List γ) : Mirrored ρ Eq (xs.mapM f) ((xs.map g).mapM f') := by
  induction xs with
  | nil =>
    rw [List.map_nil, List.mapM_nil, List.mapM_nil]
    exact pure rfl
  | cons x xs ih =>
    rw [List.map_cons, List.mapM_cons, List.mapM_cons]
    refine (h x).bind_eq fun y => ?_
    refine ih.bind_eq fun ys => ?_
    exact pure rfl

/-! ### State -/

theorem get : Mirrored ρ (fun s u => u = s.rename ρ) get get :=
  fun _ => ⟨rfl, rfl⟩

theorem set (s : Scopes) : Mirrored ρ Eq (set s) (set (s.rename ρ)) :=
  fun _ => ⟨rfl, rfl⟩

/-- A change of frames that does not touch their scopes. -/
theorem modifyFrame {f : Frame → Frame} (hf : ∀ g, f (g.rename ρ) = (f g).rename ρ)
    (level : Nat) : Mirrored ρ Eq (Planner.modifyFrame level f) (Planner.modifyFrame level f) := by
  intro s
  refine ⟨rfl, ?_⟩
  exact congrArg (Scopes.mk · s.parameters) (Frame.map_modify_rename hf level s.frames)

theorem isOptional (level slot : Nat) :
    Mirrored ρ Eq (Planner.isOptional level slot) (Planner.isOptional level slot) := by
  refine get.bind ?_
  rintro s _ rfl
  refine pure ?_
  rw [Scopes.rename, List.getElem?_map, Option.any_map]
  rfl

theorem scopeEntity : Mirrored ρ Eq Planner.scopeEntity Planner.scopeEntity := by
  refine get.bind ?_
  rintro s _ rfl
  refine pure ?_
  rw [Scopes.rename, List.head?_map, Option.map_map]
  rfl

theorem bindParameter (name : String) (v : Value) :
    Mirrored ρ Eq (Planner.bindParameter name v) (Planner.bindParameter name v) := by
  refine get.bind ?_
  rintro s _ rfl
  dsimp only [Scopes.rename]
  cases s.parameters.lookup name with
  | none => exact set ⟨s.frames, s.parameters ++ [(name, v)]⟩
  | some bound =>
    dsimp only
    split
    · exact pure rfl
    · exact throw _

/-- A scope is opened with a renumbered frame, and closed with one. -/
theorem inScope (f : Frame) (h : Mirrored ρ R x y) :
    Mirrored ρ (fun r r' => R r.1 r'.1 ∧ r'.2 = r.2.rename ρ) (Planner.inScope f x)
      (Planner.inScope (f.rename ρ) y) := by
  have hopen : Mirrored ρ Eq
      (modify fun s : Scopes => { s with frames := f :: s.frames } : Planner Unit)
      (modify fun s : Scopes => { s with frames := f.rename ρ :: s.frames } : Planner Unit) :=
    fun _ => ⟨rfl, rfl⟩
  refine hopen.bind_eq fun _ => h.bind fun a b hab => get.bind ?_
  rintro ⟨frames, parameters⟩ _ rfl
  cases frames with
  | nil => exact throw _
  | cons g frames => exact (set ⟨frames, parameters⟩).bind_eq fun _ => pure ⟨hab, rfl⟩

/-! ### Checks -/

theorem checkComparable (label : String) (op : Comparison) (left right : StaticType) :
    Mirrored ρ Eq (Planner.checkComparable label op left right)
      (Planner.checkComparable label op left right) := by
  unfold Planner.checkComparable
  split
  · exact pure rfl
  · exact throw _

theorem checkText (label : String) (t : StaticType) :
    Mirrored ρ Eq (Planner.checkText label t) (Planner.checkText label t) := by
  unfold Planner.checkText
  split
  · split
    · exact pure rfl
    · exact throw _
  · split
    · exact pure rfl
    · exact throw _
  · exact pure rfl

theorem checkCandidates (label : String) (vs : List Value) (t : StaticType) :
    Mirrored ρ Eq (Planner.checkCandidates label vs t) (Planner.checkCandidates label vs t) := by
  unfold Planner.checkCandidates
  split
  · split
    · exact throw _
    · exact pure rfl
  · exact pure rfl

theorem checkElement (label : String) (element : FieldType) (t : StaticType) :
    Mirrored ρ Eq (Planner.checkElement label element t)
      (Planner.checkElement label element t) := by
  unfold Planner.checkElement
  split
  · split
    · exact pure rfl
    · exact throw _
  · exact pure rfl

theorem checkReturned (entity label : String) (x : SelectedItem) :
    Mirrored ρ Eq (Planner.checkReturned entity label x)
      (Planner.checkReturned entity label x) := by
  unfold Planner.checkReturned
  split
  · exact throw _
  · exact pure rfl

theorem projection (entity : String) (labels : List String) (xs : List SelectedItem) :
    Mirrored ρ Eq (Planner.projection entity labels xs)
      (Planner.projection entity labels xs) := by
  cases xs with
  | nil => exact pure rfl
  | cons x xs =>
    have hcheck : Mirrored ρ Eq
        (Planner.checkAggregates entity labels ((x :: xs).map SelectedItem.item))
        (Planner.checkAggregates entity labels ((x :: xs).map SelectedItem.item)) := by
      unfold Planner.checkAggregates
      split
      · exact throw _
      · exact pure rfl
    exact hcheck.bind_eq fun _ => pure rfl

end Mirrored

end Planner

/-! ## Paths -/

section Paths

open Planner (Mirrored)

variable {c c' : Catalog} {ρ : Nat → Nat}

theorem Path.hop_mirrored (p : Path) (level parent : Nat) (r : Relation) :
    Mirrored ρ Eq (p.hop level parent r) ((p.rename ρ).hop level parent r) := by
  refine Mirrored.get.bind ?_
  rintro s _ rfl
  rw [Scopes.rename, List.getElem?_map]
  cases s.frames[level]? with
  | none => exact .throw _
  | some frame =>
    dsimp only [Option.map_some]
    rw [show (frame.rename ρ).joinAlong? parent r.name = frame.joinAlong? parent r.name from rfl]
    cases frame.joinAlong? parent r.name with
    | some slot => exact .pure rfl
    | none =>
      dsimp only
      split
      · exact .throw _
      · exact (Mirrored.modifyFrame (f := (·.pushJoin parent r .inner)) (fun _ => rfl) level).bind_eq
          fun _ => .pure rfl

theorem Path.follow_mirrored (hc : c.Agrees c') (p : Path) (level slot : Nat) (entity : String)
    (hops : List String) :
    Mirrored ρ Eq (p.follow c level slot entity hops)
      ((p.rename ρ).follow c' level slot entity hops) := by
  induction hops generalizing slot entity with
  | nil => exact .pure rfl
  | cons name rest ih =>
    cases rest with
    | nil =>
      -- Only the last hop may stop at an attribute.
      unfold follow
      rw [hc.attribute?]
      split
      · exact .pure rfl
      · exact .pure rfl
      · exact .throw _
    | cons next rest =>
      unfold follow
      rw [hc.attribute?]
      split
      · refine (p.hop_mirrored _ _ _).bind_eq fun slot => ?_
        exact ih _ _
      · exact .throw _
      · exact .throw _

theorem Path.resolve_mirrored (hc : c.Agrees c') (hρ : Function.Injective ρ) (p : Path) :
    Mirrored ρ Eq (p.resolve c) ((p.rename ρ).resolve c') := by
  refine Mirrored.get.bind ?_
  rintro s _ rfl
  rw [Scopes.rename, rename, Frame.locate?_rename hρ]
  cases Frame.locate? p.scope s.frames with
  | none => exact .throw _
  | some located =>
    obtain ⟨level, frame⟩ := located
    dsimp only [Option.map_some]
    rw [show (frame.rename ρ).slotOf? p.origin = frame.slotOf? p.origin by cases p.origin <;> rfl]
    cases frame.slotOf? p.origin with
    | none => exact .throw _
    | some slot =>
      dsimp only
      rw [show (frame.rename ρ).entityOf? slot = frame.entityOf? slot from rfl]
      cases frame.entityOf? slot with
      | none => exact .throw _
      | some entity => exact p.follow_mirrored hc _ _ _ _

theorem Path.operand_mirrored (hc : c.Agrees c') (hρ : Function.Injective ρ) (p : Path) :
    Mirrored ρ Eq (p.operand c) ((p.rename ρ).operand c') := by
  refine (p.resolve_mirrored hc hρ).bind_eq fun r => ?_
  cases r with
  | field => exact .pure rfl
  | relation | record => exact .throw _

theorem Path.collection_mirrored (hc : c.Agrees c') (hρ : Function.Injective ρ) (p : Path) :
    Mirrored ρ Eq (p.collection c) ((p.rename ρ).collection c') := by
  refine (p.resolve_mirrored hc hρ).bind_eq fun r => ?_
  cases r with
  | field column f =>
    dsimp only
    split
    · exact .pure rfl
    · exact .throw _
  | relation level slot r =>
    dsimp only
    split
    · refine (Mirrored.lift (hc.entity r.toEntity)).bind fun target target' htarget => ?_
      refine (Mirrored.lift (Catalog.Agrees.identityType htarget)).bind_eq fun identity => ?_
      refine (Mirrored.lift (hc.relatedRows level slot r)).bind_eq fun rows => ?_
      exact .pure rfl
    · exact .throw _
  | record => exact .throw _

theorem Aggregate.plan_mirrored (hc : c.Agrees c') (hρ : Function.Injective ρ) (f : Aggregate)
    (p : Option Path) :
    Mirrored ρ Eq (f.plan c p) (f.plan c' (p.map (Path.rename ρ))) := by
  refine Mirrored.scopeEntity.bind_eq fun entity => ?_
  cases p with
  | none =>
    refine (Mirrored.lift (Alike.refl _)).bind_eq fun t => ?_
    exact .pure rfl
  | some p =>
    refine (p.resolve_mirrored hc hρ).bind_eq fun r => ?_
    cases r with
    | field =>
      refine (Mirrored.lift (Alike.refl _)).bind_eq fun t => ?_
      exact .pure rfl
    | relation | record => exact .throw _

theorem selectRecord_mirrored (slot : Nat) (entity : String) :
    Mirrored ρ Eq (selectRecord slot entity) (selectRecord slot entity) := by
  refine (Mirrored.isOptional _ _).bind_eq fun optional => ?_
  exact .pure rfl

theorem Path.select_mirrored (hc : c.Agrees c') (hρ : Function.Injective ρ) (p : Path) :
    Mirrored ρ Eq (p.select c) ((p.rename ρ).select c') := by
  refine (p.resolve_mirrored hc hρ).bind_eq fun r => ?_
  cases r with
  | field column f =>
    refine (Mirrored.isOptional _ _).bind_eq fun optional => ?_
    exact .pure rfl
  | relation level slot r =>
    dsimp only
    split
    · exact .throw _
    · -- The record of a relation is selected in the query itself alone.
      split
      · exact .throw _
      · refine (p.hop_mirrored _ _ _).bind_eq fun slot => ?_
        exact selectRecord_mirrored _ _
  | record level slot entity =>
    dsimp only
    split
    · exact .throw _
    · exact selectRecord_mirrored _ _

theorem Planner.declareJoin_mirrored (hc : c.Agrees c') (root : String) (d : JoinDeclaration) :
    Mirrored ρ Eq (declareJoin c root d) (declareJoin c' root d) := by
  refine Mirrored.get.bind ?_
  rintro ⟨frames, parameters⟩ _ rfl
  cases frames with
  | nil => exact .throw _
  | cons frame frames =>
    rw [Scopes.rename, List.map_cons]
    dsimp only
    -- Renaming changes scopes, and slots are not found by these.
    rw [show (frame.rename ρ).slotOf? d.parent = frame.slotOf? d.parent by
      cases d.parent <;> rfl]
    cases frame.slotOf? d.parent with
    | none => exact .throw _
    | some parent =>
      dsimp only
      rw [show (frame.rename ρ).entityOf? parent = frame.entityOf? parent from rfl]
      cases frame.entityOf? parent with
      | none => exact .throw _
      | some owner =>
        refine (Mirrored.lift (hc.declaredRelation owner d)).bind_eq fun r => ?_
        exact Mirrored.modifyFrame (f := (·.declare parent r d.kind)) (fun _ => rfl) 0

theorem Planner.declareJoins_mirrored (hc : c.Agrees c') (root : String)
    (ds : List JoinDeclaration) :
    Mirrored ρ Eq (declareJoins c root ds) (declareJoins c' root ds) := by
  induction ds with
  | nil => exact .pure rfl
  | cons d ds ih => exact (declareJoin_mirrored hc root d).bind_eq fun _ => ih

end Paths

end EntityQuery
