import EntityQuery.Proofs.Planning.Binding
import EntityQuery.Proofs.Planning.Closed
import EntityQuery.Proofs.Planning.Recorded

/-!
# Guarded steps

Some failures of the planner do not blame the body: a faulty schema, an entity that only a relation
mentions, a join or a scope that the planner itself has lost. The steps of the planner are guarded
against them as long as frames are complete, which they are once the joins of their bodies are
declared. What a catalog leads to it has.
-/

namespace EntityQuery

/-! ## Internal failures -/

namespace PathFault

/-- The faults of paths that are the planner's own, in the words of their messages. -/
def internalMessages : List String := [
  "no query scope is open", "join parent is not declared", "join parent is not bound",
  "join is not declared", "alias is not bound"]

/-- The faults of paths that are the planner's own, or in any other words. -/
def isInternal : PathFault → Bool
  | noOpenScope | undeclaredParent | unboundParent | undeclaredJoin | unboundSlot | other _ => true
  | _ => false

theorem append_notMem_internalMessages (start : String) {c : Char}
    (hstart : start.toList.head? = some c)
    (hc : ∀ message ∈ internalMessages, message.toList.head? ≠ some c) (rest : String) :
    start ++ rest ∉ internalMessages := by
  intro h
  refine hc _ h ?_
  rw [String.toList_append, List.head?_append, hstart]
  rfl

/-- No other fault has the message of an internal one, whatever names it quotes. -/
theorem message_notMem_internalMessages {fault : PathFault} (h : fault.isInternal = false) :
    fault.message ∉ internalMessages := by
  cases fault with
  | noOpenScope | undeclaredParent | unboundParent | undeclaredJoin | unboundSlot | other => cases h
  | unknownAttribute name =>
    -- No internal message begins with the same character, whatever the name is.
    have hmessage := append_notMem_internalMessages "unknown attribute `" (c := 'u')
      (by simp) (by simp [internalMessages]) (name ++ "`")
    rwa [← String.append_assoc] at hmessage
  | notRelation name =>
    have hmessage := append_notMem_internalMessages "`" (c := '`')
      (by simp) (by simp [internalMessages]) (name ++ "` is not a relation")
    rwa [← String.append_assoc] at hmessage
  | toManyHop relation =>
    have hmessage := append_notMem_internalMessages "`" (c := '`')
      (by simp) (by simp [internalMessages])
      (relation ++ "` is a to-many relation and must be joined explicitly")
    rwa [← String.append_assoc] at hmessage
  | relationAsValue relation =>
    have hmessage := append_notMem_internalMessages "relation `" (c := 'r')
      (by simp) (by simp [internalMessages]) (relation ++ "` is not a value")
    rwa [← String.append_assoc] at hmessage
  | _ => decide

end PathFault

namespace QueryError

/-- Failures that do not blame the body: of the schema, of an entity that is not the root of the body or
of a query nested in it, or of the planner itself. -/
def Internal (b : Body) : QueryError → Prop
  | invalidSchema _ => True
  | unknownEntity name => ∀ b', Mention.body b' ∈ b.mentions → b'.entity ≠ name
  | path _ _ fault => fault.message ∈ PathFault.internalMessages
  | _ => False

/-- Failures that blame the body, where its roots are known. -/
def Blames (roots : String → Prop) : QueryError → Prop
  | invalidSchema _ => False
  | unknownEntity name => roots name
  | path _ _ fault => fault.isInternal = false
  | _ => True

theorem Blames.not_internal {b : Body} {e : QueryError}
    (h : e.Blames fun name => ∃ b', Mention.body b' ∈ b.mentions ∧ b'.entity = name) :
    ¬ e.Internal b := by
  cases e with
  | invalidSchema => exact h.elim
  | unknownEntity name =>
    obtain ⟨b', hb', hname⟩ := h
    exact fun hinternal => hinternal b' hb' hname
  | path => exact PathFault.message_notMem_internalMessages h
  | _ => exact fun hinternal => hinternal

end QueryError

/-! ## Complete frames -/

namespace Frame

variable {count : Nat → Nat}

/-- The joins counted for a scope are all declared in its frame, and bound. -/
structure Complete (count : Nat → Nat) (f : Frame) : Prop where
  length : f.declared.length = count f.scope
  bound : ∀ slot ∈ f.declared, ∃ entity, f.entityOf? slot = some entity

theorem Complete.extend {f g : Frame} (h : f.Complete count) (hext : f.Extends g) :
    g.Complete count where
  length := by
    rw [← hext.declared, ← hext.scope]
    exact h.length
  bound slot hslot := by
    obtain ⟨entity, hentity⟩ := h.bound slot (hext.declared.symm ▸ hslot)
    exact ⟨entity, hext.entityOf? hentity⟩

/-- A path from a counted join starts at a bound slot. -/
theorem Complete.origin {f : Frame} (h : f.Complete count) (origin : Origin)
    (horigin : ∀ i, origin = .join i → i < count f.scope) :
    ∃ slot entity, f.slotOf? origin = some slot ∧ f.entityOf? slot = some entity := by
  cases origin with
  | root => exact ⟨0, f.entity, rfl, rfl⟩
  | join i =>
    have hi : i < f.declared.length := h.length ▸ horigin i rfl
    obtain ⟨entity, hentity⟩ := h.bound f.declared[i] (List.getElem_mem hi)
    exact ⟨f.declared[i], entity, List.getElem?_eq_getElem hi, hentity⟩

/-- The next slot is bound by the join that takes it. -/
theorem entityOf?_nextSlot (f : Frame) (parent : Nat) (r : Relation) (kind : JoinKind) :
    ∃ entity, (f.pushJoin parent r kind).entityOf? f.nextSlot = some entity := by
  have hslot : f.nextSlot ≠ 0 := Nat.succ_ne_zero _
  rw [entityOf?, if_neg hslot, pushJoin, List.find?_append]
  cases f.joins.find? fun j => j.slot == f.nextSlot with
  | some j => exact ⟨j.entity, rfl⟩
  | none =>
    refine ⟨r.toEntity, ?_⟩
    rw [Option.none_or, List.find?_cons_of_pos (by simp)]
    rfl

theorem ExtendAll.modify {f : Frame → Frame} (hf : ∀ g : Frame, g.Extends (f g)) (level : Nat)
    (frames : List Frame) : ExtendAll frames (frames.modify level f) := by
  induction frames generalizing level with
  | nil => cases level <;> exact .nil
  | cons g frames ih =>
    cases level with
    | zero => exact .cons (hf g) (refl frames)
    | succ level => exact .cons (.refl g) (ih level)

theorem ExtendAll.complete {frames frames' : List Frame} (h : ExtendAll frames frames')
    (hframes : ∀ f ∈ frames, f.Complete count) : ∀ f ∈ frames', f.Complete count := by
  intro g hg
  obtain ⟨f, hf, hext⟩ := forall₂_mem h.flip hg
  exact (hframes f hf).extend hext

theorem locate?_scope {scope level : Nat} {frames : List Frame} {f : Frame}
    (h : locate? scope frames = some (level, f)) : f.scope = scope := by
  induction frames generalizing level with
  | nil => cases h
  | cons g frames ih =>
    unfold locate? at h
    split at h
    · cases h
      assumption
    · obtain ⟨⟨i, f'⟩, hf', heq⟩ := Option.map_eq_some_iff.mp h
      cases heq
      exact ih hf'

end Frame

/-! ## Guarded steps -/

/-- A result with a property, or a failure with one. -/
def Ends (E : ε → Prop) (P : α → Prop) : Except ε α → Prop
  | .ok a => P a
  | .error e => E e

theorem Ends.mono {ε α : Type} {E : ε → Prop} {P Q : α → Prop} {x : Except ε α} (h : Ends E P x)
    (hPQ : ∀ a, P a → Q a) : Ends E Q x := by
  cases x with
  | error e => exact h
  | ok a => exact hPQ a h

namespace Planner

variable {α β γ : Type} {count : Nat → Nat} {roots : String → Prop}

/-- From complete frames, a step leads to such with a result that has a property, or fails and blames
the body. -/
def Guarded (count : Nat → Nat) (roots : String → Prop) (P : α → Prop) (x : Planner α) : Prop :=
  ∀ s, (∀ f ∈ s.frames, f.Complete count) →
    Ends (QueryError.Blames roots) (fun r => P r.1 ∧ Frame.ExtendAll s.frames r.2.frames) (x.run s)

namespace Guarded

variable {P : α → Prop} {Q : β → Prop} {x : Planner α}

theorem pure {a : α} (h : P a) : Guarded count roots P (pure a) :=
  fun s _ => ⟨h, .refl s.frames⟩

theorem throw {e : QueryError} (h : e.Blames roots) : Guarded count roots P (throw e) :=
  fun _ _ => h

theorem bind {k : α → Planner β} (h : Guarded count roots P x)
    (hk : ∀ a, P a → Guarded count roots Q (k a)) : Guarded count roots Q (x >>= k) := by
  intro s hs
  have hx := h s hs
  rw [StateT.run_bind]
  generalize x.run s = outcome at hx
  cases outcome with
  | error e => exact hx
  | ok r =>
    obtain ⟨hr, hext⟩ := hx
    have hkr := hk r.1 hr r.2 (hext.complete hs)
    show Ends _ _ ((k r.1).run r.2)
    generalize (k r.1).run r.2 = outcome' at hkr ⊢
    cases outcome' with
    | error e => exact hkr
    | ok r' => exact ⟨hkr.1, hext.trans hkr.2⟩

theorem lift {z : Except QueryError α} (h : Ends (QueryError.Blames roots) P z) :
    Guarded count roots P (liftM z : Planner α) := by
  intro s _
  cases z with
  | error e => exact h
  | ok a => exact ⟨h, .refl s.frames⟩

/-- A step that cannot fail, before others. -/
theorem bind_lift {z : Except QueryError α} {a : α} {k : α → Planner β} (hz : z = .ok a)
    (hk : Guarded count roots Q (k a)) :
    Guarded count roots Q ((liftM z : Planner α) >>= k) := by
  rw [hz]
  exact fun s hs => hk s hs

theorem mapM {f : γ → Planner α} {xs : List γ} (h : ∀ x ∈ xs, Guarded count roots P (f x)) :
    Guarded count roots (fun _ => True) (xs.mapM f) := by
  induction xs with
  | nil =>
    rw [List.mapM_nil]
    exact pure trivial
  | cons x xs ih =>
    rw [List.mapM_cons]
    refine (h x List.mem_cons_self).bind fun _ _ => ?_
    exact (ih fun x' hx' => h x' (List.mem_cons_of_mem x hx')).bind fun _ _ => pure trivial

/-! ### State -/

theorem get : Guarded count roots (fun s => ∀ f ∈ s.frames, f.Complete count) get :=
  fun s hs => ⟨hs, .refl s.frames⟩

theorem modifyFrame {f : Frame → Frame} (hf : ∀ g : Frame, g.Extends (f g)) (level : Nat) :
    Guarded count roots (fun _ => True) (Planner.modifyFrame level f) :=
  fun s _ => ⟨trivial, .modify hf level s.frames⟩

theorem isOptional (level slot : Nat) :
    Guarded count roots (fun _ => True) (Planner.isOptional level slot) :=
  fun s _ => ⟨trivial, .refl s.frames⟩

theorem scopeEntity : Guarded count roots (fun _ => True) Planner.scopeEntity :=
  fun s _ => ⟨trivial, .refl s.frames⟩

theorem bindParameter (name : String) (v : Value) :
    Guarded count roots (fun _ => True) (Planner.bindParameter name v) := by
  intro s hs
  have hget : (MonadState.get : Planner Scopes).run s = .ok (s, s) := rfl
  unfold Planner.bindParameter
  rw [run_bind_of_ok hget]
  cases s.parameters.lookup name with
  | none => exact ⟨trivial, .refl s.frames⟩
  | some bound =>
    dsimp only
    split
    · exact ⟨trivial, .refl s.frames⟩
    · exact throw (P := fun _ => True) (e := .mismatch ..) trivial s hs

/-- A scope is closed with the frames around it, whatever is done to its own. -/
theorem inScope {f : Frame}
    (h : ∀ s : Scopes, (∀ g ∈ s.frames, g.Complete count) →
      Ends (QueryError.Blames roots)
        (fun r => P r.1 ∧ ∃ g frames, r.2.frames = g :: frames ∧ Frame.ExtendAll s.frames frames)
        (x.run { s with frames := f :: s.frames })) :
    Guarded count roots (fun r => P r.1) (Planner.inScope f x) := by
  intro s hs
  have hx := h s hs
  cases hrun : x.run { s with frames := f :: s.frames } with
  | error e =>
    rw [hrun] at hx
    -- Opening the scope does not fail, so the failure is that of the step itself.
    have hopen : (modify fun s : Scopes => { s with frames := f :: s.frames } : Planner Unit).run s =
        .ok ((), { s with frames := f :: s.frames }) := rfl
    rw [Planner.inScope, run_bind_of_ok hopen, StateT.run_bind, hrun]
    exact hx
  | ok r =>
    obtain ⟨a, frames', parameters⟩ := r
    rw [hrun] at hx
    obtain ⟨ha, g, frames, rfl, hext⟩ := hx
    have hclose : (Planner.inScope f x).run s = .ok ((a, g), ⟨frames, parameters⟩) :=
      run_inScope_ok.mpr hrun
    rw [hclose]
    exact ⟨ha, hext⟩

/-- Complete frames stay in their order. -/
theorem run_cons (h : Guarded count roots P x) {f : Frame} {frames : List Frame}
    (hf : f.Complete count) (hframes : ∀ g ∈ frames, g.Complete count)
    (parameters : List (String × Value)) :
    Ends (QueryError.Blames roots)
      (fun r => P r.1 ∧ ∃ g frames', r.2.frames = g :: frames' ∧ Frame.ExtendAll frames frames')
      (x.run ⟨f :: frames, parameters⟩) := by
  refine (h ⟨f :: frames, parameters⟩ fun g hg => ?_).mono fun r hr => ⟨hr.1, ?_⟩
  · rcases List.mem_cons.mp hg with rfl | hg
    · exact hf
    · exact hframes g hg
  · obtain ⟨-, hext⟩ := hr
    generalize r.2.frames = frames' at hext
    cases hext with
    | cons _ hrest => exact ⟨_, _, rfl, hrest⟩

/-! ### Checks -/

theorem checkComparable (label : String) (op : Comparison) (left right : StaticType) :
    Guarded count roots (fun _ => True) (Planner.checkComparable label op left right) := by
  unfold Planner.checkComparable
  split
  · exact pure trivial
  · exact throw trivial

theorem checkText (label : String) (t : StaticType) :
    Guarded count roots (fun _ => True) (Planner.checkText label t) := by
  unfold Planner.checkText
  split
  · split
    · exact pure trivial
    · exact throw trivial
  · split
    · exact pure trivial
    · exact throw trivial
  · exact pure trivial

theorem checkCandidates (label : String) (vs : List Value) (t : StaticType) :
    Guarded count roots (fun _ => True) (Planner.checkCandidates label vs t) := by
  unfold Planner.checkCandidates
  split
  · split
    · exact throw trivial
    · exact pure trivial
  · exact pure trivial

theorem checkElement (label : String) (element : FieldType) (t : StaticType) :
    Guarded count roots (fun _ => True) (Planner.checkElement label element t) := by
  unfold Planner.checkElement
  split
  · split
    · exact pure trivial
    · exact throw trivial
  · exact pure trivial

theorem checkReturned (entity label : String) (x : SelectedItem) :
    Guarded count roots (fun _ => True) (Planner.checkReturned entity label x) := by
  unfold Planner.checkReturned
  split
  · exact throw rfl
  · exact pure trivial

theorem projection (entity : String) (labels : List String) (xs : List SelectedItem) :
    Guarded count roots (fun _ => True) (Planner.projection entity labels xs) := by
  cases xs with
  | nil => exact pure trivial
  | cons x xs =>
    have hcheck : Guarded count roots (fun _ => True)
        (Planner.checkAggregates entity labels ((x :: xs).map SelectedItem.item)) := by
      unfold Planner.checkAggregates
      split
      · exact throw rfl
      · exact pure trivial
    exact hcheck.bind fun _ _ => pure trivial

end Guarded

end Planner

/-! ## What a catalog leads to -/

section Catalogs

variable {c : Catalog} {roots : String → Prop}

theorem Catalog.entity_blames (c : Catalog) {name : String} (h : roots name) :
    Ends (QueryError.Blames roots) (fun _ => True) (c.entity name) := by
  unfold entity
  split
  · exact trivial
  · exact h

/-- A relation of the catalog. -/
def Relation.Of (c : Catalog) (r : Relation) : Prop :=
  ∃ entity name, c.relation? entity name = some r

namespace Relation.Of

variable {r : Relation}

theorem owner (h : r.Of c) : ∃ owner, c.entity r.fromEntity = .ok owner := by
  obtain ⟨entity, name, hr⟩ := h
  obtain ⟨owner, howner⟩ := Catalog.relation?_owner hr
  rw [← (Schema.relation?_name hr).1] at howner
  exact ⟨owner, Catalog.entity_ok.mpr howner⟩

/-- The target of a relation is known, and identified by a field. -/
theorem target (h : r.Of c) : ∃ target t, c.entity r.toEntity = .ok target ∧
    Catalog.identityType target = .ok t := by
  obtain ⟨entity, name, hr⟩ := h
  obtain ⟨target, htarget⟩ := Catalog.relation?_target hr
  obtain ⟨e, f, he, hf⟩ := Catalog.stores_identity htarget
  obtain rfl : target = e := Option.some.inj (htarget.symm.trans he)
  refine ⟨target, f.type, Catalog.entity_ok.mpr htarget, ?_⟩
  rw [Catalog.identityType, Entity.identity?, hf]
  rfl

theorem relatedRows (h : r.Of c) (level slot : Nat) :
    ∃ rows, c.relatedRows level slot r = .ok rows := by
  obtain ⟨target, -, htarget, -⟩ := h.target
  rw [Catalog.relatedRows, htarget]
  exact ⟨_, rfl⟩

theorem relationIsNull (h : r.Of c) (p : Path) (level slot : Nat) (negated : Bool) :
    Ends (QueryError.Blames roots) (fun _ => True) (c.relationIsNull p level slot r negated) := by
  obtain ⟨owner, howner⟩ := h.owner
  obtain ⟨rows, hrows⟩ := h.relatedRows level slot
  rw [Catalog.relationIsNull, howner]
  show Ends _ _ (if r.isToMany then _ else if r.fromField ≠ owner.identityField then _ else _)
  split
  · exact trivial
  · split
    · exact trivial
    · rw [hrows]
      exact trivial

end Relation.Of

end Catalogs

/-! ## Paths -/

section Paths

open Planner (Guarded)

variable {c : Catalog} {count : Nat → Nat} {roots : String → Prop} {p : Path}

/-- What a path stands for is no relation unless the catalog has it. -/
def Resolved.Of (c : Catalog) : Resolved → Prop
  | relation _ _ r => r.Of c
  | _ => True

theorem Path.hop_guarded (level parent : Nat) (r : Relation) :
    Guarded count roots (fun _ => True) (p.hop level parent r) := by
  refine Guarded.get.bind fun s _ => ?_
  cases s.frames[level]? with
  | none => exact .throw rfl
  | some frame =>
    dsimp only
    cases frame.joinAlong? parent r.name with
    | some slot => exact .pure trivial
    | none =>
      dsimp only
      split
      · exact .throw rfl
      · exact (Guarded.modifyFrame (fun g => .pushJoin g parent r .inner) level).bind
          fun _ _ => .pure trivial

theorem Path.follow_guarded (level slot : Nat) (entity : String) (hops : List String) :
    Guarded count roots (Resolved.Of c) (p.follow c level slot entity hops) := by
  induction hops generalizing slot entity with
  | nil => exact .pure trivial
  | cons name rest ih =>
    cases rest with
    | nil =>
      unfold follow
      split
      · exact .pure trivial
      · rename_i r hr
        exact .pure ⟨entity, name, Catalog.attribute?_relation hr⟩
      · exact .throw rfl
    | cons next rest =>
      unfold follow
      split
      · exact (p.hop_guarded _ _ _).bind fun slot _ => ih _ _
      · exact .throw rfl
      · exact .throw rfl

/-- A path whose origin is counted starts at a bound slot of its scope, if this is open. -/
theorem Path.resolve_guarded (hp : p.Counted count) :
    Guarded count roots (Resolved.Of c) (p.resolve c) := by
  refine Guarded.get.bind fun s hs => ?_
  cases hlocate : Frame.locate? p.scope s.frames with
  | none => exact .throw rfl
  | some located =>
    obtain ⟨level, frame⟩ := located
    have hframe := hs frame (List.mem_of_getElem? (Frame.locate?_getElem? hlocate))
    have horigin : ∀ i, p.origin = .join i → i < count frame.scope := by
      rw [Frame.locate?_scope hlocate]
      exact hp
    obtain ⟨slot, entity, hslot, hentity⟩ := hframe.origin p.origin horigin
    dsimp only
    rw [hslot]
    dsimp only
    rw [hentity]
    exact p.follow_guarded _ _ _ _

theorem Path.operand_guarded (hp : p.Counted count) :
    Guarded count roots (fun _ => True) (p.operand c) := by
  refine (p.resolve_guarded hp).bind fun r _ => ?_
  cases r with
  | field => exact .pure trivial
  | relation | record => exact .throw rfl

theorem Path.collection_guarded (hp : p.Counted count) :
    Guarded count roots (fun _ => True) (p.collection c) := by
  refine (p.resolve_guarded hp).bind fun r hr => ?_
  cases r with
  | field column f =>
    dsimp only
    split
    · exact .pure trivial
    · exact .throw trivial
  | relation level slot r =>
    dsimp only
    split
    · obtain ⟨target, t, htarget, ht⟩ := Relation.Of.target hr
      obtain ⟨rows, hrows⟩ := Relation.Of.relatedRows hr level slot
      exact .bind_lift htarget (.bind_lift ht (.bind_lift hrows (.pure trivial)))
    · exact .throw trivial
  | record => exact .throw trivial

theorem Aggregate.type_guarded (f : Aggregate) (entity label : String) (of : Option FieldType) :
    Ends (QueryError.Blames roots) (fun _ => True) (f.type entity label of) := by
  unfold Aggregate.type
  split
  · exact trivial
  · exact rfl
  · split
    · split
      · split <;> exact trivial
      · exact trivial
    · exact trivial
  · split
    · split
      · split <;> exact trivial
      · exact trivial
    · exact trivial
  · split <;> exact trivial
  · split <;> exact trivial

theorem Aggregate.plan_guarded (f : Aggregate) {p : Option Path} (hp : ∀ q ∈ p, q.Counted count) :
    Guarded count roots (fun _ => True) (f.plan c p) := by
  refine Guarded.scopeEntity.bind fun entity _ => ?_
  cases p with
  | none => exact (Guarded.lift (f.type_guarded ..)).bind fun _ _ => .pure trivial
  | some p =>
    refine (p.resolve_guarded (hp p rfl)).bind fun r _ => ?_
    cases r with
    | field => exact (Guarded.lift (f.type_guarded ..)).bind fun _ _ => .pure trivial
    | relation | record => exact .throw rfl

theorem selectRecord_guarded (slot : Nat) (entity : String) :
    Guarded count roots (fun _ => True) (selectRecord slot entity) :=
  (Guarded.isOptional _ _).bind fun _ _ => .pure trivial

theorem Path.select_guarded (hp : p.Counted count) :
    Guarded count roots (fun _ => True) (p.select c) := by
  refine (p.resolve_guarded hp).bind fun r _ => ?_
  cases r with
  | field => exact (Guarded.isOptional _ _).bind fun _ _ => .pure trivial
  | relation level slot r =>
    dsimp only
    split
    · exact .throw rfl
    · split
      · exact .throw rfl
      · exact (p.hop_guarded _ _ _).bind fun _ _ => selectRecord_guarded _ _
  | record level slot entity =>
    dsimp only
    split
    · exact .throw rfl
    · exact selectRecord_guarded _ _

end Paths

/-! ## Declared joins -/

section Joins

variable {c : Catalog}

theorem Planner.declaredRelation_blames (roots : String → Prop) (owner : String) (d : JoinDeclaration) :
    Ends (QueryError.Blames roots) (fun _ => True) (declaredRelation c owner d) := by
  unfold declaredRelation
  split
  · exact rfl
  · split
    · exact trivial
    · split
      · show PathFault.isInternal (if d.many then _ else _) = false
        split <;> rfl
      · exact trivial

/-- Of a join whose parent is bound only the relation can be at fault. -/
theorem Planner.run_declareJoin {root owner : String} {d : JoinDeclaration} {f : Frame} {parent : Nat}
    (hparent : f.slotOf? d.parent = some parent) (howner : f.entityOf? parent = some owner)
    (frames : List Frame) (parameters : List (String × Value)) :
    (declareJoin c root d).run ⟨f :: frames, parameters⟩ =
      (declaredRelation c owner d).map fun r =>
        ((), ⟨f.declare parent r d.kind :: frames, parameters⟩) := by
  unfold declareJoin
  have hget : (get : Planner Scopes).run ⟨f :: frames, parameters⟩ =
      .ok (⟨f :: frames, parameters⟩, ⟨f :: frames, parameters⟩) := rfl
  rw [run_bind_of_ok hget]
  dsimp only
  rw [hparent]
  dsimp only
  rw [howner]
  dsimp only
  rw [StateT.run_bind]
  cases declaredRelation c owner d <;> rfl

/-- The slots of declared joins stay bound when one more is declared. -/
theorem Frame.entityOf?_declare {f : Frame} {parent : Nat} {r : Relation} {kind : JoinKind}
    (hbound : ∀ slot ∈ f.declared, ∃ entity, f.entityOf? slot = some entity) :
    ∀ slot ∈ (f.declare parent r kind).declared,
      ∃ entity, (f.declare parent r kind).entityOf? slot = some entity := by
  intro slot hslot
  rcases List.mem_append.mp hslot with hslot | hslot
  · obtain ⟨entity, hentity⟩ := hbound slot hslot
    exact ⟨entity, (Frame.Extends.pushJoin f parent r kind).entityOf? hentity⟩
  · obtain rfl := List.mem_singleton.mp hslot
    exact f.entityOf?_nextSlot parent r kind

/-- Joins that are declared behind their parents are all bound, unless the body is to blame. -/
theorem Planner.declareJoins_blames (c : Catalog) (roots : String → Prop) (root : String)
    {ds : List JoinDeclaration} {f : Frame} (frames : List Frame) (parameters : List (String × Value))
    (hparents : ∀ (k : Nat) (d : JoinDeclaration) (i : Nat), ds[k]? = some d →
      d.parent = .join i → i < f.declared.length + k)
    (hbound : ∀ slot ∈ f.declared, ∃ entity, f.entityOf? slot = some entity) :
    Ends (QueryError.Blames roots)
      (fun r => ∃ g, r.2 = ⟨g :: frames, parameters⟩ ∧ g.scope = f.scope ∧
        g.declared.length = f.declared.length + ds.length ∧
        ∀ slot ∈ g.declared, ∃ entity, g.entityOf? slot = some entity)
      ((declareJoins c root ds).run ⟨f :: frames, parameters⟩) := by
  induction ds generalizing f with
  | nil => exact ⟨f, rfl, rfl, rfl, hbound⟩
  | cons d ds ih =>
    -- The parent is the root or a join that is declared already, so it is bound.
    have hcomplete : f.Complete fun _ => f.declared.length := ⟨rfl, hbound⟩
    obtain ⟨parent, owner, hparent, howner⟩ :=
      hcomplete.origin d.parent fun i hi => hparents 0 d i rfl hi
    have hrun : (declareJoin c root d).run ⟨f :: frames, parameters⟩ = _ :=
      run_declareJoin hparent howner frames parameters
    have hrelation := declaredRelation_blames roots (c := c) owner d
    unfold declareJoins
    cases hr : declaredRelation c owner d with
    | error e =>
      rw [hr] at hrun hrelation
      rw [StateT.run_bind, hrun]
      exact hrelation
    | ok r =>
      rw [hr] at hrun
      rw [run_bind_of_ok hrun]
      have hdeclared : (f.declare parent r d.kind).declared.length = f.declared.length + 1 :=
        List.length_append
      refine (ih (fun k d' i hd' hi => ?_) (Frame.entityOf?_declare hbound)).mono fun u hu => ?_
      · -- A parent of a later join is one of the joins before it, this one included.
        have := hparents (k + 1) d' i hd' hi
        omega
      · obtain ⟨g, hg, hscope, hlength, hslots⟩ := hu
        refine ⟨g, hg, hscope, ?_, hslots⟩
        rw [hlength, hdeclared, List.length_cons]
        omega

/-- The frame of a scope is complete once its joins are declared. -/
theorem Planner.Guarded.inScope_declared {count : Nat → Nat} {roots : String → Prop} {α : Type}
    {P : α → Prop} {x : Planner α} {scope : Nat} {joins : List JoinDeclaration} (entity : String)
    (hlength : joins.length = count scope)
    (hparents : ∀ (k : Nat) (d : JoinDeclaration) (i : Nat), joins[k]? = some d →
      d.parent = .join i → i < k)
    (hx : Guarded count roots P x) :
    Guarded count roots (fun r => P r.1)
      (Planner.inScope (.new scope entity) do
        declareJoins c entity joins
        x) := by
  refine Guarded.inScope fun s hs => ?_
  -- The declared joins only go back to earlier ones, and the fresh frame has bound nothing yet.
  have hjoins := declareJoins_blames c roots entity (f := .new scope entity) s.frames s.parameters
    (fun k d i hd hi => Nat.lt_of_lt_of_eq (hparents k d i hd hi) (Nat.zero_add k).symm)
    fun slot hslot => absurd hslot List.not_mem_nil
  rw [StateT.run_bind]
  generalize (declareJoins c entity joins).run _ = outcome at hjoins
  cases outcome with
  | error e => exact hjoins
  | ok r =>
    obtain ⟨_, _⟩ := r
    obtain ⟨g, rfl, hscope, hdeclared, hbound⟩ := hjoins
    -- In the frame with all the joins the step runs as it would in a complete one.
    refine hx.run_cons ⟨?_, hbound⟩ hs s.parameters
    rw [hdeclared, hscope]
    exact (Nat.zero_add _).trans hlength

end Joins

end EntityQuery
