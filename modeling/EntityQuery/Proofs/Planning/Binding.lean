import EntityQuery.Proofs.Planning.BodyRuns
import EntityQuery.Proofs.Planning.Frames
import EntityQuery.Proofs.Records
import Mathlib.Data.List.Forall2

/-!
# What planning binds

Planning changes the open frames in one way only: it binds the hops of the paths that it meets. Which
paths these are, and in which order, can be read off an expression, a clause or a body. So the frames
after a step of planning are known without running it.
-/

namespace EntityQuery

/-! ## Paths in a stack of frames -/

namespace Path

/-- Bind the hops of a path in the frame of its scope. -/
def bind (c : Catalog) (p : Path) : List Frame → List Frame
  | [] => []
  | f :: frames =>
    if f.scope = p.scope then f.bindFrom c p.origin p.hops :: frames
    else f :: p.bind c frames

/-- Bind the hops of paths one after the other. -/
def bindAll (c : Catalog) (ps : List Path) (frames : List Frame) : List Frame :=
  ps.foldl (fun frames p => p.bind c frames) frames

/-- What a path stands for in frames that have all its hops. -/
def target? (c : Catalog) (frames : List Frame) (p : Path) : Option Resolved :=
  match Frame.locate? p.scope frames with
  | none => none
  | some (level, f) =>
    match f.slotOf? p.origin with
    | none => none
    | some slot =>
      match f.entityOf? slot with
      | none => none
      | some entity => f.trace? c level slot entity p.hops

end Path

namespace Frame

/-- Frames that differ by joins appended to each. -/
abbrev ExtendAll (frames frames' : List Frame) : Prop :=
  List.Forall₂ Extends frames frames'

namespace ExtendAll

variable {frames frames' frames'' : List Frame}

theorem refl (frames : List Frame) : ExtendAll frames frames :=
  List.forall₂_same.mpr fun f _ => .refl f

theorem trans (h : ExtendAll frames frames') (h' : ExtendAll frames' frames'') :
    ExtendAll frames frames'' := by
  induction h generalizing frames'' with
  | nil => exact h'
  | cons hf _ ih =>
    cases h' with
    | cons hg h' => exact .cons (hf.trans hg) (ih h')

theorem set {level : Nat} {f g : Frame} (hf : frames[level]? = some f) (h : f.Extends g) :
    ExtendAll frames (frames.set level g) := by
  induction frames generalizing level with
  | nil => cases hf
  | cons k frames ih =>
    cases level with
    | zero =>
      cases hf
      exact .cons h (refl frames)
    | succ level => exact .cons (.refl k) (ih hf)

/-- The frame of a scope keeps its level. -/
theorem locate? (h : ExtendAll frames frames') {scope level : Nat} {f : Frame}
    (hf : Frame.locate? scope frames = some (level, f)) :
    ∃ g, Frame.locate? scope frames' = some (level, g) ∧ f.Extends g := by
  induction h generalizing level with
  | nil => cases hf
  | @cons k k' ks ks' hk _ ih =>
    unfold Frame.locate? at hf ⊢
    rw [← hk.scope]
    split at hf
    · cases hf
      rw [if_pos ‹_›]
      exact ⟨k', rfl, hk⟩
    · rw [if_neg ‹_›]
      obtain ⟨⟨i, f'⟩, hf', heq⟩ := Option.map_eq_some_iff.mp hf
      cases heq
      obtain ⟨g, hg, hext⟩ := ih hf'
      exact ⟨g, by rw [hg]; rfl, hext⟩

theorem bind (c : Catalog) (p : Path) (frames : List Frame) :
    ExtendAll frames (p.bind c frames) := by
  induction frames with
  | nil => exact .nil
  | cons f frames ih =>
    unfold Path.bind
    split
    · exact .cons (bindFrom_extends c f p.origin p.hops) (refl frames)
    · exact .cons (.refl f) ih

theorem bindAll (c : Catalog) (ps : List Path) (frames : List Frame) :
    ExtendAll frames (Path.bindAll c ps frames) := by
  induction ps generalizing frames with
  | nil => exact refl frames
  | cons p ps ih => exact (bind c p frames).trans (ih (p.bind c frames))

/-- What a path stands for does not change any more. -/
theorem target? (h : ExtendAll frames frames') {c : Catalog} {p : Path} {r : Resolved}
    (hr : p.target? c frames = some r) : p.target? c frames' = some r := by
  unfold Path.target? at hr ⊢
  split at hr
  · cases hr
  · rename_i level f hf
    obtain ⟨g, hg, hext⟩ := h.locate? hf
    split at hr
    · cases hr
    · rename_i slot hslot
      split at hr
      · cases hr
      · rename_i entity hentity
        simp only [hg, ← hext.slotOf?, hslot, hext.entityOf? hentity]
        exact trace?_of_extends hext hr

end ExtendAll

theorem locate?_getElem? {scope level : Nat} {frames : List Frame} {f : Frame}
    (h : locate? scope frames = some (level, f)) : frames[level]? = some f := by
  induction frames generalizing level with
  | nil => cases h
  | cons g frames ih =>
    unfold locate? at h
    split at h
    · cases h
      rfl
    · obtain ⟨⟨i, f'⟩, hf, heq⟩ := Option.map_eq_some_iff.mp h
      cases heq
      exact ih hf

end Frame

namespace Path

variable {c : Catalog}

/-- Only the frame in which a path is located changes. -/
theorem bind_eq_set {p : Path} {frames : List Frame} {level : Nat} {f : Frame}
    (h : Frame.locate? p.scope frames = some (level, f)) :
    p.bind c frames = frames.set level (f.bindFrom c p.origin p.hops) := by
  induction frames generalizing level with
  | nil => cases h
  | cons g frames ih =>
    unfold Frame.locate? at h
    unfold bind
    split at h
    · cases h
      rw [if_pos ‹_›]
      rfl
    · obtain ⟨⟨i, f'⟩, hf, heq⟩ := Option.map_eq_some_iff.mp h
      cases heq
      rw [if_neg ‹_›, ih hf]
      rfl

/-- A path of no open scope binds nothing. -/
theorem bind_eq_self {p : Path} {frames : List Frame} (h : Frame.locate? p.scope frames = none) :
    p.bind c frames = frames := by
  induction frames with
  | nil => rfl
  | cons g frames ih =>
    unfold Frame.locate? at h
    unfold bind
    split at h
    · cases h
    · rw [if_neg ‹_›, ih (Option.map_eq_none_iff.mp h)]

/-- Where a path is found again after it has been bound. -/
theorem locate?_bind {p : Path} {frames : List Frame} {level : Nat} {f : Frame}
    (h : Frame.locate? p.scope frames = some (level, f)) :
    Frame.locate? p.scope (p.bind c frames) = some (level, f.bindFrom c p.origin p.hops) := by
  induction frames generalizing level with
  | nil => cases h
  | cons g frames ih =>
    unfold Frame.locate? at h
    unfold bind
    split at h
    · rename_i hscope
      cases h
      rw [if_pos hscope, Frame.locate?, if_pos]
      rw [← (Frame.bindFrom_extends c f p.origin p.hops).scope]
      exact hscope
    · rename_i hscope
      obtain ⟨⟨i, f'⟩, hf, heq⟩ := Option.map_eq_some_iff.mp h
      cases heq
      rw [if_neg hscope, Frame.locate?, if_neg hscope, ih hf]
      rfl

theorem bindAll_append (ps qs : List Path) (frames : List Frame) :
    bindAll c (ps ++ qs) frames = bindAll c qs (bindAll c ps frames) := by
  rw [bindAll, List.foldl_append]
  rfl

end Path

namespace Frame

/-- Bind in a frame the hops of those among paths that belong to its scope. -/
def bindOwn (c : Catalog) (f : Frame) : List Path → Frame
  | [] => f
  | p :: ps =>
    if f.scope = p.scope then (f.bindFrom c p.origin p.hops).bindOwn c ps else f.bindOwn c ps

theorem Built.bindOwn {c : Catalog} {scope : Nat} {entity : String} {ds : List JoinDeclaration}
    {f : Frame} (h : Built c scope entity ds f) (ps : List Path) :
    Built c scope entity ds (f.bindOwn c ps) := by
  induction ps generalizing f with
  | nil => exact h
  | cons p ps ih =>
    unfold Frame.bindOwn
    split
    · exact ih (h.bindFrom p.origin p.hops)
    · exact ih h

end Frame

namespace Path

/-- The innermost frame takes its own paths and leaves all others to the frames around it. -/
theorem bindAll_cons (c : Catalog) (ps : List Path) (f : Frame) (frames : List Frame) :
    bindAll c ps (f :: frames) = f.bindOwn c ps :: bindAll c (leaving f.scope ps) frames := by
  induction ps generalizing f frames with
  | nil => rfl
  | cons p ps ih =>
    rw [bindAll, List.foldl_cons, ← bindAll, bind, Frame.bindOwn]
    by_cases h : f.scope = p.scope
    · -- A frame that has bound hops keeps its scope, so the paths behind are told apart alike.
      have hscope := (Frame.bindFrom_extends c f p.origin p.hops).scope
      rw [if_pos h, if_pos h, ih, ← hscope]
      simp [leaving, h]
    · rw [if_neg h, if_neg h, ih]
      have hother : p.scope ≠ f.scope := fun h' => h h'.symm
      simp [leaving, hother, bindAll]

end Path

/-! ## The place of what a path stands for -/

/-- How many queries out a path leads. -/
def Resolved.level : Resolved → Nat
  | field column _ => column.level
  | relation level _ _ => level
  | record level _ _ => level

/-- The slot that a path reads. -/
def Resolved.slot : Resolved → Nat
  | field column _ => column.slot
  | relation _ slot _ => slot
  | record _ slot _ => slot

theorem Frame.trace?_level {c : Catalog} {f : Frame} {level slot : Nat} {entity : String}
    {hops : List String} {r : Resolved} (h : f.trace? c level slot entity hops = some r) :
    r.level = level := by
  induction hops generalizing slot entity with
  | nil =>
    cases h
    rfl
  | cons name rest ih =>
    -- The last hop decides what is found. Earlier ones only move the slot.
    cases rest with
    | nil =>
      unfold trace? at h
      split at h
      · cases h
        rfl
      · cases h
        rfl
      · cases h
    | cons next rest =>
      unfold trace? at h
      split at h
      · split at h
        · exact ih h
        · cases h
      · cases h

/-- A place that exists: its slot is bound to an entity that has the attribute. -/
def Resolved.BoundIn (c : Catalog) (f : Frame) : Resolved → Prop
  | field column stored => ∃ owner, f.entityOf? column.slot = some owner ∧
      c.attribute? owner stored.name = some (.field stored) ∧ column.field = stored.name
  | relation _ slot r => ∃ owner, f.entityOf? slot = some owner ∧ c.relation? owner r.name = some r
  | record _ slot entity => f.entityOf? slot = some entity

theorem Frame.Sound.trace?_boundIn {c : Catalog} {f : Frame} (hf : f.Sound c) {level slot : Nat}
    {entity : String} {hops : List String} {r : Resolved} (hentity : f.entityOf? slot = some entity)
    (h : f.trace? c level slot entity hops = some r) : r.BoundIn c f := by
  induction hops generalizing slot entity with
  | nil =>
    cases h
    exact hentity
  | cons name rest ih =>
    cases rest with
    | nil =>
      unfold trace? at h
      split at h
      · rename_i field hname
        cases h
        obtain ⟨e, -, hfield⟩ := Catalog.attribute?_field hname
        obtain rfl := (Entity.field?_mem hfield).2
        exact ⟨entity, hentity, hname, rfl⟩
      · rename_i r hname
        cases h
        have hr := Catalog.attribute?_relation hname
        obtain rfl := (Schema.relation?_name hr).2
        exact ⟨entity, hentity, hr⟩
      · cases h
    | cons next rest =>
      unfold trace? at h
      split at h
      · -- A hop on the way is joined, so the next slot is bound to the entity it leads to.
        rename_i r hname
        split at h
        · rename_i slot' hslot
          have hr := Catalog.attribute?_relation hname
          rw [(Schema.relation?_name hr).2] at hslot
          exact ih (hf.entityOf?_joinAlong? hentity hr hslot) h
        · cases h
      · cases h

namespace Path

variable {c : Catalog} {p : Path} {frames : List Frame} {r : Resolved}

/-- A path stands for something in the frame of its scope. -/
theorem target?_eq_some (h : p.target? c frames = some r) :
    ∃ f slot entity, Frame.locate? p.scope frames = some (r.level, f) ∧
      f.slotOf? p.origin = some slot ∧ f.entityOf? slot = some entity ∧
      f.trace? c r.level slot entity p.hops = some r := by
  unfold target? at h
  split at h
  · cases h
  · rename_i level f hf
    split at h
    · cases h
    · rename_i slot hslot
      split at h
      · cases h
      · rename_i entity hentity
        obtain rfl := Frame.trace?_level h
        exact ⟨f, slot, entity, hf, hslot, hentity, h⟩

/-- A path binds the record that it reads, and then what it ends in. -/
theorem bind_eq_bindEnd (h : p.target? c (p.holder.bind c frames) = some r) :
    ∃ f, (p.holder.bind c frames)[r.level]? = some f ∧
      p.bind c frames = (p.holder.bind c frames).set r.level (f.bindEnd r) := by
  obtain ⟨g, slot, entity, hg, hslot, hentity, htrace⟩ := target?_eq_some h
  cases hf : Frame.locate? p.scope frames with
  | none => simp [bind_eq_self (p := p.holder) hf, hf] at hg
  | some found =>
    obtain ⟨level, f⟩ := found
    have hbound := locate?_bind (c := c) (p := p.holder) hf
    -- The frame with the holder bound is where the path is traced.
    have heq : (r.level, g) = (level, f.bindFrom c p.origin p.hops.dropLast) :=
      Option.some.inj (hg.symm.trans hbound)
    cases heq
    have hext := Frame.bindFrom_extends c f p.origin p.hops.dropLast
    rw [← hext.slotOf?] at hslot
    refine ⟨_, Frame.locate?_getElem? hg, ?_⟩
    rw [bind_eq_set hf, bind_eq_set (p := p.holder) hf, List.set_set]
    -- Both sides set the frame at one level, which leaves an equation between two frames.
    suffices f.bindFrom c p.origin p.hops =
        (f.bindFrom c p.origin p.hops.dropLast).bindEnd r by rw [this]
    cases hf' : f.entityOf? slot with
    | none =>
      have hself : f.bindFrom c p.origin p.hops.dropLast = f := by
        simp [Frame.bindFrom, hslot, hf']
      rw [hself, hf'] at hentity
      cases hentity
    | some entity' =>
      obtain rfl := Option.some.inj ((hext.entityOf? hf').symm.trans hentity)
      simp only [Frame.bindFrom, hslot, hf'] at htrace ⊢
      exact Frame.bindHops_eq_bindEnd htrace

end Path

end EntityQuery
