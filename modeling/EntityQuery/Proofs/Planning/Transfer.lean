import EntityQuery.Proofs.Evaluation.Outcomes
import EntityQuery.Proofs.Planning.Parameters

/-!
# Planning in other frames

How far paths have grown a frame changes the slots that planning gives, but not whether it succeeds.
Two frames grown from the same declared joins know the same relations to one record, so a step that
succeeds in one of them succeeds in the other, if its parameters can be bound there.
-/

namespace EntityQuery

namespace Frame

/-! ## Frames with the same declared joins -/

/-- A frame that has grown from a base by relations that lead to one record. -/
structure Grown (c : Catalog) (base f : Frame) : Prop where
  ext : base.Extends f
  sound : f.Sound c
  declared : ∀ k ∈ base.declared, k ≤ base.joins.length
  hops : ∀ (i : Nat) (j : Join), base.joins.length ≤ i → f.joins[i]? = some j →
    ∃ owner r, f.entityOf? j.parent = some owner ∧ c.relation? owner j.relation = some r ∧
      r.isToMany = false

/-- Slots of two frames with one base: the same slot of the base, or any two slots behind it. -/
def SameSlot (base : Frame) (k k' : Nat) : Prop :=
  (k = k' ∧ k ≤ base.joins.length) ∨ (base.joins.length < k ∧ base.joins.length < k')

namespace Grown

variable {c : Catalog} {base f g : Frame} {k k' slot : Nat} {owner name : String} {r : Relation}

/-- A base has grown from itself. -/
theorem refl (h : f.Sound c) (hdeclared : ∀ k ∈ f.declared, k ≤ f.joins.length) : f.Grown c f :=
  ⟨.refl f, h, hdeclared, fun i j hi hj => absurd (List.getElem?_eq_some_iff.mp hj).1 (by omega)⟩

theorem length_le (h : base.Grown c f) : base.joins.length ≤ f.joins.length :=
  h.ext.joins.length_le

theorem pushJoin (h : base.Grown c f) (howner : f.entityOf? k = some owner)
    (hr : c.relation? owner r.name = some r) (hmany : r.isToMany = false) :
    base.Grown c (f.pushJoin k r .inner) := by
  have hext := Extends.pushJoin f k r .inner
  refine ⟨h.ext.trans hext, ⟨?_, ?_, h.sound.root⟩, h.declared, fun i j hi hj => ?_⟩
  · exact h.sound.ordered.pushJoin (h.sound.ordered.slot_le howner) r .inner
  · exact h.sound.relational.pushJoin howner hr .inner
  · have hj' : (f.joins ++ [_])[i]? = some j := hj
    rw [List.getElem?_append] at hj'
    split at hj'
    · obtain ⟨owner', r', howner', hr'⟩ := h.hops i j hi hj'
      exact ⟨owner', r', hext.entityOf? howner', hr'⟩
    · rw [List.getElem?_singleton] at hj'
      split at hj'
      · cases hj'
        exact ⟨owner, r, hext.entityOf? howner, hr, hmany⟩
      · cases hj'

/-- What a path pushes stands behind the base. -/
theorem pushed (h : base.Grown c f) (howner : f.entityOf? k = some owner)
    (hr : c.relation? owner r.name = some r) (hnone : f.joinAlong? k r.name = none)
    (hmany : r.isToMany = false) :
    base.Grown c (f.pushJoin k r .inner) ∧
      (f.pushJoin k r .inner).entityOf? f.nextSlot = some r.toEntity ∧
      base.joins.length < f.nextSlot := by
  have hgrown := h.pushJoin howner hr hmany
  have howner' := (Extends.pushJoin f k r .inner).entityOf? howner
  refine ⟨hgrown, ?_, Nat.lt_succ_of_le h.length_le⟩
  exact hgrown.sound.entityOf?_joinAlong? howner' hr (joinAlong?_pushJoin hnone)

/-- A join along a relation is one of the base, or stands behind it and leads to one record. -/
theorem joinAlong?_cases (h : base.Grown c f) (howner : f.entityOf? k = some owner)
    (hr : c.relation? owner name = some r) (hslot : f.joinAlong? k name = some slot) :
    (base.joinAlong? k name = some slot ∧ slot ≤ base.joins.length) ∨
      (base.joinAlong? k name = none ∧ base.joins.length < slot ∧ r.isToMany = false) := by
  obtain ⟨more, hmore⟩ := h.ext.joins
  obtain ⟨j, hj, rfl⟩ := Option.map_eq_some_iff.mp hslot
  rw [← hmore, List.find?_append] at hj
  unfold joinAlong?
  cases hbase : base.joins.find? fun j => j.parent == k && j.relation == name with
  | some j' =>
    rw [hbase, Option.some_or, Option.some.injEq] at hj
    subst hj
    refine .inl ⟨rfl, ?_⟩
    obtain ⟨i, hi⟩ := List.mem_iff_getElem?.mp (List.mem_of_find?_eq_some hbase)
    have hlt := (List.getElem?_eq_some_iff.mp hi).1
    have hi' : f.joins[i]? = some j' := by rw [← hmore, List.getElem?_append_left hlt, hi]
    rw [(h.sound.ordered i j' hi').1]
    omega
  | none =>
    rw [hbase, Option.none_or] at hj
    obtain ⟨i, hi⟩ := List.mem_iff_getElem?.mp (List.mem_of_find?_eq_some hj)
    have hi' : f.joins[base.joins.length + i]? = some j := by
      rw [← hmore, List.getElem?_append_right (by omega), Nat.add_sub_cancel_left, hi]
    obtain ⟨hslot, -⟩ := h.sound.ordered _ j hi'
    obtain ⟨owner', r', howner', hr', hmany⟩ := h.hops _ j (by omega) hi'
    -- The join is one along the relation, so it copies this relation.
    have htest := List.find?_some hj
    simp only [Bool.and_eq_true, beq_iff_eq] at htest
    rw [htest.1, howner] at howner'
    cases howner'
    rw [htest.2, hr] at hr'
    cases hr'
    exact .inr ⟨rfl, by omega, hmany⟩

/-- Behind the base there is nothing that the base joins. -/
theorem joinAlong?_base_of_lt (h : base.Grown c f) (hk : base.joins.length < k) :
    base.joinAlong? k name = none := by
  rw [joinAlong?, Option.map_eq_none_iff, List.find?_eq_none]
  intro j hj
  obtain ⟨i, hi⟩ := List.mem_iff_getElem?.mp hj
  have hlt := (List.getElem?_eq_some_iff.mp hi).1
  obtain ⟨more, hmore⟩ := h.ext.joins
  have hi' : f.joins[i]? = some j := by rw [← hmore, List.getElem?_append_left hlt, hi]
  have hparent := (h.sound.ordered i j hi').2
  simp only [Bool.and_eq_true, beq_iff_eq, not_and]
  omega

theorem joinAlong?_base_congr (h : base.Grown c f) (hk : base.SameSlot k k') :
    base.joinAlong? k name = base.joinAlong? k' name := by
  rcases hk with ⟨rfl, -⟩ | ⟨hk, hk'⟩
  · rfl
  · rw [h.joinAlong?_base_of_lt hk, h.joinAlong?_base_of_lt hk']

/-- The slots where paths start are those of the base. -/
theorem slotOf?_le (h : base.Grown c f) {origin : Origin} (hslot : f.slotOf? origin = some k) :
    base.slotOf? origin = some k ∧ k ≤ base.joins.length := by
  rw [← h.ext.slotOf?] at hslot
  refine ⟨hslot, ?_⟩
  cases origin with
  | root =>
    cases hslot
    exact Nat.zero_le _
  | join index => exact h.declared k (List.mem_of_getElem? hslot)

/-- Slots of the base are bound to the same entities in all frames grown from it. -/
theorem entityOf?_of_le (h : base.Grown c f) (h' : base.Grown c g) (hk : k ≤ base.joins.length)
    (howner : f.entityOf? k = some owner) : g.entityOf? k = some owner := by
  cases k with
  | zero =>
    rw [entityOf?, if_pos rfl] at howner ⊢
    rw [← h'.ext.entity, h.ext.entity, howner]
  | succ i =>
    obtain ⟨more, hmore⟩ := h.ext.joins
    obtain ⟨more', hmore'⟩ := h'.ext.joins
    rw [h.sound.ordered.entityOf?_succ, ← hmore, List.getElem?_append_left hk] at howner
    rw [h'.sound.ordered.entityOf?_succ, ← hmore', List.getElem?_append_left hk, howner]

/-- What a join of the base leads to is found in every frame grown from it. -/
theorem joinAlong?_of_base (h : base.Grown c f) (hslot : base.joinAlong? k name = some slot) :
    f.joinAlong? k name = some slot :=
  h.ext.joinAlong? hslot

end Grown

/-- Frames that have grown from bases, one from each. -/
abbrev GrownAll (c : Catalog) (bases frames : List Frame) : Prop :=
  List.Forall₂ (Grown c) bases frames

theorem GrownAll.set {c : Catalog} {bases frames : List Frame} (h : GrownAll c bases frames)
    {level : Nat} {base f : Frame} (hbase : bases[level]? = some base) (hf : base.Grown c f) :
    GrownAll c bases (frames.set level f) := by
  induction h generalizing level with
  | nil => exact .nil
  | cons hg h ih =>
    cases level with
    | zero =>
      cases hbase
      exact .cons hf h
    | succ level => exact .cons hg (ih hbase)

theorem GrownAll.grown {c : Catalog} {bases frames : List Frame} (h : GrownAll c bases frames)
    {level : Nat} {base f : Frame} (hbase : bases[level]? = some base)
    (hf : frames[level]? = some f) : base.Grown c f := by
  obtain ⟨f', hf', hgrown⟩ := forall₂_getElem? h hbase
  obtain rfl : f = f' := Option.some.inj (hf.symm.trans hf')
  exact hgrown

end Frame

/-! ## Paths -/

section Paths

variable {c : Catalog} {bases : List Frame} {s s' u : Scopes} {p : Path}
  {level k k' : Nat} {owner : String}

/-- Two states with the same bases, and in one of their frames two slots that are the same and bound
to the same entity. -/
structure Scopes.Meet (c : Catalog) (bases : List Frame) (s u : Scopes) (level k k' : Nat)
    (owner : String) : Prop where
  left : Frame.GrownAll c bases s.frames
  right : Frame.GrownAll c bases u.frames
  slots : ∃ base f g, bases[level]? = some base ∧ s.frames[level]? = some f ∧
    u.frames[level]? = some g ∧ base.SameSlot k k' ∧ f.entityOf? k = some owner ∧
    g.entityOf? k' = some owner

/-- What a path stands for in two states. -/
inductive Resolved.Like (c : Catalog) (bases : List Frame) (s u : Scopes) :
    Resolved → Resolved → Prop
  | field {level k k' : Nat} {owner name : String} {f : Field} :
      s.Meet c bases u level k k' owner →
      Like c bases s u (.field ⟨level, k, name⟩ f) (.field ⟨level, k', name⟩ f)
  | relation {level k k' : Nat} {owner : String} {r : Relation} :
      s.Meet c bases u level k k' owner → c.relation? owner r.name = some r →
      Like c bases s u (.relation level k r) (.relation level k' r)
  | record {level k k' : Nat} {owner : String} : s.Meet c bases u level k k' owner →
      Like c bases s u (.record level k owner) (.record level k' owner)

theorem Path.run_hop_joined {f : Frame} {r : Relation} (hf : s.frames[level]? = some f)
    (hjoin : f.joinAlong? k r.name = some k') : (p.hop level k r).run s = .ok (k', s) := by
  simp only [hop, Planner.run_bind_ok, Planner.run_get_ok]
  refine ⟨s, s, ⟨rfl, rfl⟩, ?_⟩
  simp only [hf, hjoin, Planner.run_pure_ok, and_self]

theorem Path.run_hop_pushed {f : Frame} {r : Relation} (hf : s.frames[level]? = some f)
    (hjoin : f.joinAlong? k r.name = none) (hmany : r.isToMany = false) :
    (p.hop level k r).run s =
      .ok (f.nextSlot, { s with frames := s.frames.set level (f.pushJoin k r .inner) }) := by
  simp only [hop, Planner.run_bind_ok, Planner.run_get_ok]
  refine ⟨s, s, ⟨rfl, rfl⟩, ?_⟩
  simp only [hf, hjoin, hmany, Bool.false_eq_true, if_false, Planner.run_bind_ok,
    Planner.run_modifyFrame_ok, Planner.run_pure_ok]
  refine ⟨(), _, rfl, trivial, ?_⟩
  rw [List.modify_eq_set_getElem?, hf]
  rfl

/-- Where the base has no join, a hop leads behind the base, joined before or pushed. -/
theorem Path.run_hop_behind {base f : Frame} {r : Relation} (h : Frame.GrownAll c bases s.frames)
    (hbase : bases[level]? = some base) (hf : s.frames[level]? = some f) (hgrown : base.Grown c f)
    (howner : f.entityOf? k = some owner) (hr : c.relation? owner r.name = some r)
    (hnone : base.joinAlong? k r.name = none) (hmany : r.isToMany = false) :
    ∃ slot s' f', (p.hop level k r).run s = .ok (slot, s') ∧ s'.parameters = s.parameters ∧
      Frame.GrownAll c bases s'.frames ∧ s'.frames[level]? = some f' ∧
      base.joins.length < slot ∧ f'.entityOf? slot = some r.toEntity := by
  cases hjoin : f.joinAlong? k r.name with
  | some slot =>
    have hentity := hgrown.sound.entityOf?_joinAlong? howner hr hjoin
    -- The base has no such join, so the frame has one of its own behind it.
    have hlt : base.joins.length < slot := by
      rcases hgrown.joinAlong?_cases howner hr hjoin with ⟨hslot, -⟩ | ⟨-, hlt, -⟩
      · rw [hnone] at hslot
        cases hslot
      · exact hlt
    exact ⟨slot, s, f, run_hop_joined hf hjoin, rfl, h, hf, hlt, hentity⟩
  | none =>
    obtain ⟨hgrown', hentity, hlt⟩ := hgrown.pushed howner hr hjoin hmany
    have hset := List.getElem?_set_self (a := f.pushJoin k r .inner)
      (List.getElem?_eq_some_iff.mp hf).1
    exact ⟨f.nextSlot, _, _, run_hop_pushed hf hjoin hmany, rfl, h.set hbase hgrown', hset, hlt,
      hentity⟩

/-- A hop that can be taken from a slot can be taken from the same slot of another state. -/
theorem Path.run_hop_meet {r : Relation} {slot : Nat} (h : s.Meet c bases u level k k' owner)
    (hr : c.relation? owner r.name = some r) (hhop : (p.hop level k r).run s = .ok (slot, s')) :
    ∃ slot' u', (p.hop level k' r).run u = .ok (slot', u') ∧ u'.parameters = u.parameters ∧
      s'.Meet c bases u' level slot slot' r.toEntity := by
  obtain ⟨hleft, hright, base, f, g, hbase, hf, hg, hk, howner, howner'⟩ := h
  have hfbase : base.Grown c f := hleft.grown hbase hf
  have hgbase : base.Grown c g := hright.grown hbase hg
  have hsame : base.joinAlong? k r.name = base.joinAlong? k' r.name :=
    hfbase.joinAlong?_base_congr hk
  obtain ⟨f', hf', hcases⟩ := run_hop_ok hhop
  obtain rfl : f = f' := Option.some.inj (hf.symm.trans hf')
  cases hdeclared : base.joinAlong? k r.name with
  | some slot₀ =>
    -- A declared join is the same in both.
    have hjoin := hfbase.joinAlong?_of_base hdeclared
    have hjoin' := hgbase.joinAlong?_of_base (hsame ▸ hdeclared)
    have hle : slot₀ ≤ base.joins.length := by
      rcases hfbase.joinAlong?_cases howner hr hjoin with ⟨-, hle⟩ | ⟨hnone, -⟩
      · exact hle
      · rw [hnone] at hdeclared
        cases hdeclared
    rw [run_hop_joined hf hjoin] at hhop
    cases hhop
    exact ⟨slot, u, run_hop_joined hg hjoin', rfl, hleft, hright, base, f, g, hbase, hf, hg,
      .inl ⟨rfl, hle⟩, hfbase.sound.entityOf?_joinAlong? howner hr hjoin,
      hgbase.sound.entityOf?_joinAlong? howner' hr hjoin'⟩
  | none =>
    -- The slots may differ, but both stand behind the base.
    have hmany : r.isToMany = false := by
      rcases hcases with ⟨hjoin, -⟩ | ⟨-, hmany, -⟩
      · rcases hfbase.joinAlong?_cases howner hr hjoin with ⟨hslot, -⟩ | ⟨-, -, hmany⟩
        · rw [hslot] at hdeclared
          cases hdeclared
        · exact hmany
      · exact hmany
    obtain ⟨slot₁, s₁, f₁, hrun, -, hleft', hf₁, hlt, hentity⟩ :=
      run_hop_behind (p := p) hleft hbase hf hfbase howner hr hdeclared hmany
    rw [hhop] at hrun
    cases hrun
    obtain ⟨slot', u', g', hhop', hparameters, hright', hg', hlt', hentity'⟩ :=
      run_hop_behind (p := p) hright hbase hg hgbase howner' hr (hsame ▸ hdeclared) hmany
    exact ⟨slot', u', hhop', hparameters, hleft', hright', base, f₁, g', hbase, hf₁, hg',
      .inr ⟨hlt, hlt'⟩, hentity, hentity'⟩

/-- A path that can be followed from a slot can be followed from the same slot of another state. -/
theorem Path.run_follow_meet {hops : List String} {r : Resolved}
    (h : s.Meet c bases u level k k' owner)
    (hrun : (p.follow c level k owner hops).run s = .ok (r, s')) :
    ∃ r' u', (p.follow c level k' owner hops).run u = .ok (r', u') ∧
      u'.parameters = u.parameters ∧ r.Like c bases s' u' r' := by
  induction hops generalizing s u k k' owner with
  | nil =>
    obtain ⟨rfl, rfl⟩ := Planner.run_pure_ok.mp hrun
    exact ⟨_, u, rfl, rfl, .record h⟩
  | cons name rest ih =>
    -- The last name may be that of any attribute, and a name before it is hopped along.
    cases rest with
    | nil =>
      simp only [follow] at hrun ⊢
      cases hname : c.attribute? owner name with
      | none =>
        rw [hname] at hrun
        exact (Planner.run_failPath_ok.mp hrun).elim
      | some named =>
        rw [hname] at hrun
        cases named with
        | field f =>
          obtain ⟨rfl, rfl⟩ := Planner.run_pure_ok.mp hrun
          exact ⟨_, u, rfl, rfl, .field h⟩
        | relation r =>
          obtain ⟨rfl, rfl⟩ := Planner.run_pure_ok.mp hrun
          have hr := Catalog.attribute?_relation hname
          rw [← (Schema.relation?_name hr).2] at hr
          exact ⟨_, u, rfl, rfl, .relation h hr⟩
    | cons next rest =>
      simp only [follow] at hrun ⊢
      cases hname : c.attribute? owner name with
      | none =>
        rw [hname] at hrun
        exact (Planner.run_failPath_ok.mp hrun).elim
      | some named =>
        rw [hname] at hrun
        cases named with
        | field f => exact (Planner.run_failPath_ok.mp hrun).elim
        | relation r =>
          have hr := Catalog.attribute?_relation hname
          rw [← (Schema.relation?_name hr).2] at hr
          obtain ⟨slot, s₁, hhop, hrun⟩ := Planner.run_bind_ok.mp hrun
          obtain ⟨slot', u₁, hhop', hparameters, hmeet⟩ := run_hop_meet h hr hhop
          obtain ⟨r', u', hrun', hparameters', hlike⟩ := ih hmeet hrun
          exact ⟨r', u', Planner.run_bind_ok.mpr ⟨slot', u₁, hhop', hrun'⟩,
            hparameters'.trans hparameters, hlike⟩

/-- Two states whose frames have grown from the same bases. -/
structure Scopes.Kin (c : Catalog) (bases : List Frame) (s u : Scopes) : Prop where
  left : Frame.GrownAll c bases s.frames
  right : Frame.GrownAll c bases u.frames

theorem Scopes.Meet.kin (h : s.Meet c bases u level k k' owner) : s.Kin c bases u :=
  ⟨h.left, h.right⟩

theorem Resolved.Like.kin {r r' : Resolved} (h : r.Like c bases s u r') : s.Kin c bases u := by
  cases h with
  | field h | relation h _ | record h => exact h.kin

/-- A scope stands at one level in all frames grown from the same bases. -/
theorem Frame.GrownAll.locate? {frames frames' : List Frame} {scope : Nat} {f : Frame}
    (h : GrownAll c bases frames) (h' : GrownAll c bases frames')
    (hf : Frame.locate? scope frames = some (level, f)) :
    ∃ base g, bases[level]? = some base ∧ frames[level]? = some f ∧ frames'[level]? = some g ∧
      Frame.locate? scope frames' = some (level, g) ∧ base.Grown c f ∧ base.Grown c g := by
  induction h generalizing frames' level with
  | nil => cases hf
  | @cons base k bases frames hk h ih =>
    cases h' with
    | @cons _ k' _ frames' hk' h' =>
      -- Growing keeps the scope, so both frames are found or passed by together.
      have hscope : k.scope = k'.scope := hk.ext.scope.symm.trans hk'.ext.scope
      unfold Frame.locate? at hf ⊢
      rw [← hscope]
      split at hf
      · rename_i heq
        cases hf
        exact ⟨base, k', rfl, rfl, rfl, if_pos heq, hk, hk'⟩
      · rename_i hne
        rw [if_neg hne]
        obtain ⟨⟨level, f⟩, hf, heq⟩ := Option.map_eq_some_iff.mp hf
        cases heq
        obtain ⟨base, g, hbase, hframe, hframe', hg, hgrown⟩ := ih h' hf
        exact ⟨base, g, hbase, hframe, hframe', by rw [hg]; rfl, hgrown⟩

/-- A path that can be resolved in one state can be resolved in the other. -/
theorem Path.run_resolve_kin {r : Resolved} (h : s.Kin c bases u)
    (hrun : (p.resolve c).run s = .ok (r, s')) :
    ∃ r' u', (p.resolve c).run u = .ok (r', u') ∧ u'.parameters = u.parameters ∧
      r.Like c bases s' u' r' := by
  obtain ⟨level, f, slot, entity, hf, hslot, hentity, hfollow⟩ := run_resolve_ok.mp hrun
  obtain ⟨base, g, hbase, hframe, hframe', hg, hgrown, hgrown'⟩ := h.left.locate? h.right hf
  obtain ⟨hbaseSlot, hle⟩ := hgrown.slotOf?_le hslot
  have hslot' : g.slotOf? p.origin = some slot := by rw [← hgrown'.ext.slotOf?, hbaseSlot]
  have hentity' := hgrown.entityOf?_of_le hgrown' hle hentity
  have hmeet : s.Meet c bases u level slot slot entity :=
    ⟨h.left, h.right, base, f, g, hbase, hframe, hframe', .inl ⟨rfl, hle⟩, hentity, hentity'⟩
  obtain ⟨r', u', hfollow', hrest⟩ := run_follow_meet hmeet hfollow
  exact ⟨r', u', run_resolve_ok.mpr ⟨level, g, slot, entity, hg, hslot', hentity', hfollow'⟩, hrest⟩

end Paths

/-! ## Steps that transfer -/

/-- A step that succeeds in one of two states whose frames have grown from the same bases succeeds in
the other too, if its parameters can be bound there. -/
def Planner.Transfers {α : Type} (c : Catalog) (bases : List Frame) (R : α → α → Prop)
    (ps : List (String × Value)) (x : Planner α) : Prop :=
  ∀ ⦃s u s' : Scopes⦄ ⦃a : α⦄ ⦃bound : List (String × Value)⦄, s.Kin c bases u →
    x.run s = .ok (a, s') → bindParameters? u.parameters ps = some bound →
    ∃ b u', x.run u = .ok (b, u') ∧ R a b ∧ s'.Kin c bases u' ∧ u'.parameters = bound

/-- Operands of one type, of which both or neither aggregate. -/
def SameKind (r r' : Operand × StaticType) : Prop :=
  r.2 = r'.2 ∧ r.1.isAggregate = r'.1.isAggregate

/-- Items of one type, of which both or neither aggregate. -/
structure SelectedItem.Like (x y : SelectedItem) : Prop where
  type : x.type = y.type
  isAggregate : x.item.isAggregate = y.item.isAggregate
  expr : (∃ o, x.item = .expr o) → ∃ o, y.item = .expr o

section Steps

variable {c : Catalog} {bases : List Frame} {p : Path}

theorem Path.resolve_transfers {s u s' : Scopes} {r : Resolved} {bound : List (String × Value)}
    (h : s.Kin c bases u) (hrun : (p.resolve c).run s = .ok (r, s'))
    (hbound : bindParameters? u.parameters [] = some bound) :
    ∃ r' u', (p.resolve c).run u = .ok (r', u') ∧ r.Like c bases s' u' r' ∧
      u'.parameters = bound := by
  obtain ⟨r', u', hrun', hparameters, hlike⟩ := run_resolve_kin h hrun
  exact ⟨r', u', hrun', hlike, hparameters.trans (Option.some.inj hbound)⟩

theorem Path.operand_transfers : Planner.Transfers c bases SameKind [] (p.operand c) := by
  intro s u s' ⟨o, t⟩ bound h hrun hbound
  obtain ⟨column, f, hr, rfl, rfl⟩ := run_operand_ok.mp hrun
  obtain ⟨r', u', hr', hlike, hparameters⟩ := resolve_transfers h hr hbound
  have hkin := hlike.kin
  cases hlike with
  | field hmeet =>
    have hrun' := run_operand_ok.mpr ⟨_, f, hr', rfl, rfl⟩
    exact ⟨_, u', hrun', ⟨rfl, rfl⟩, hkin, hparameters⟩

theorem Catalog.relatedRows_transfer {level slot : Nat} {r : Relation} {rows : RelatedRows}
    (h : c.relatedRows level slot r = .ok rows) (level' slot' : Nat) :
    ∃ rows', c.relatedRows level' slot' r = .ok rows' := by
  obtain ⟨target, htarget, -⟩ := relatedRows_ok.mp h
  exact ⟨_, relatedRows_ok.mpr ⟨target, htarget, rfl⟩⟩

theorem Catalog.relationIsNull_transfer {path : Path} {level slot : Nat} {r : Relation}
    {negated : Bool} {q : Predicate} (h : c.relationIsNull path level slot r negated = .ok q)
    (level' slot' : Nat) :
    ∃ q', c.relationIsNull path level' slot' r negated = .ok q' := by
  obtain ⟨owner, howner, hmany, ⟨hfield, -⟩ | ⟨hfield, rows, hrows, -⟩⟩ := relationIsNull_ok.mp h
  · exact ⟨_, relationIsNull_ok.mpr ⟨owner, howner, hmany, .inl ⟨hfield, rfl⟩⟩⟩
  · obtain ⟨rows', hrows'⟩ := relatedRows_transfer hrows level' slot'
    exact ⟨_, relationIsNull_ok.mpr ⟨owner, howner, hmany, .inr ⟨hfield, rows', hrows', rfl⟩⟩⟩

theorem Path.collection_transfers :
    Planner.Transfers c bases (fun r r' => r.2 = r'.2) [] (p.collection c) := by
  intro s u s' ⟨rows, element⟩ bound h hrun hbound
  rcases run_collection_ok hrun with ⟨column, f, t, hr, ht, rfl, rfl⟩ |
    ⟨level, slot, r, target, identity, rows, hr, hmany, htarget, hidentity, hrows, rfl, rfl⟩
  · obtain ⟨r', u', hr', hlike, hparameters⟩ := resolve_transfers h hr hbound
    have hkin := hlike.kin
    cases hlike with
    | @field level _ slot' _ name _ hmeet =>
      refine ⟨(.stored ⟨level, slot', name⟩, .scalar t), u',
        Planner.run_bind_ok.mpr ⟨_, u', hr', ?_⟩, rfl, hkin, hparameters⟩
      simp only [ht, Planner.run_pure_ok, and_self]
  · obtain ⟨r', u', hr', hlike, hparameters⟩ := resolve_transfers h hr hbound
    have hkin := hlike.kin
    cases hlike with
    | @relation _ _ slot' _ _ hmeet hr =>
      obtain ⟨rows', hrows'⟩ := Catalog.relatedRows_transfer hrows level slot'
      refine ⟨(.related rows', identity.type), u', Planner.run_bind_ok.mpr ⟨_, u', hr', ?_⟩, rfl,
        hkin, hparameters⟩
      simp only [hmany, if_true, Planner.run_bind_ok, Planner.run_lift_ok, Planner.run_pure_ok]
      refine ⟨target, u', ⟨Catalog.entity_ok.mpr htarget, rfl⟩, identity.type, u', ⟨?_, rfl⟩, rows',
        u', ⟨hrows', rfl⟩, rfl, rfl⟩
      rw [Catalog.identityType, hidentity]
      rfl

/-- A record of the query itself is selected in any state. -/
theorem selectRecord_transfer {slot slot' : Nat} {entity entity' : String} {x : SelectedItem}
    {s s' u : Scopes} (hrun : (selectRecord slot entity).run s = .ok (x, s')) :
    s = s' ∧ ∃ y, (selectRecord slot' entity').run u = .ok (y, u) ∧ x.Like y := by
  obtain ⟨rfl, rfl⟩ := run_selectRecord_ok.mp hrun
  exact ⟨rfl, _, run_selectRecord_ok.mpr ⟨rfl, rfl⟩, rfl, rfl, nofun⟩

theorem Path.select_transfers : Planner.Transfers c bases SelectedItem.Like [] (p.select c) := by
  intro s u s' x bound h hrun hbound
  obtain ⟨r, s₁, hr, hrun⟩ := Planner.run_bind_ok.mp hrun
  obtain ⟨r', u₁, hr', hlike, hparameters⟩ := resolve_transfers h hr hbound
  have hkin := hlike.kin
  cases hlike with
  | @field level _ slot' _ name f hmeet =>
    simp only [Planner.run_bind_ok, Planner.run_isOptional_ok, Planner.run_pure_ok] at hrun
    obtain ⟨b, _, ⟨-, rfl⟩, rfl, rfl⟩ := hrun
    refine ⟨⟨.expr (.column ⟨level, slot', name⟩),
      (Shape.ofFieldType f.type).inSlot u₁.frames level slot', .field f.type⟩, u₁,
      Planner.run_bind_ok.mpr ⟨_, u₁, hr', ?_⟩, ⟨rfl, rfl, fun _ => ⟨_, rfl⟩⟩, hkin, hparameters⟩
    simp only [Planner.run_bind_ok, Planner.run_isOptional_ok, Planner.run_pure_ok]
    exact ⟨_, u₁, ⟨rfl, rfl⟩, rfl, rfl⟩
  | @relation level _ _ _ r hmeet hrelation =>
    simp only at hrun
    split at hrun
    · exact (Planner.run_failPath_ok.mp hrun).elim
    · rename_i hmany
      split at hrun
      · exact (Planner.run_failPath_ok.mp hrun).elim
      · rename_i hlevel
        obtain rfl : level = 0 := by omega
        -- The other frame takes the same hop, to a slot that meets this one.
        obtain ⟨slot, s₂, hhop, hrecord⟩ := Planner.run_bind_ok.mp hrun
        obtain ⟨slot', u₂, hhop', hparameters', hmeet'⟩ := run_hop_meet hmeet hrelation hhop
        obtain ⟨rfl, y, hrecord', hxy⟩ := selectRecord_transfer hrecord
        refine ⟨y, u₂, Planner.run_bind_ok.mpr ⟨_, u₁, hr', ?_⟩, hxy, hmeet'.kin,
          hparameters'.trans hparameters⟩
        simp only [hmany, Bool.false_eq_true, if_false, Nat.lt_irrefl]
        exact Planner.run_bind_ok.mpr ⟨slot', u₂, hhop', hrecord'⟩
  | @record level _ _ _ hmeet =>
    simp only at hrun
    split at hrun
    · exact (Planner.run_failPath_ok.mp hrun).elim
    · rename_i hlevel
      obtain rfl : level = 0 := by omega
      obtain ⟨rfl, y, hrecord', hxy⟩ := selectRecord_transfer hrun
      refine ⟨y, u₁, Planner.run_bind_ok.mpr ⟨_, u₁, hr', ?_⟩, hxy, hkin, hparameters⟩
      simp only [Nat.lt_irrefl, if_false]
      exact hrecord'

/-- The type of an aggregate does not depend on the names in its errors. -/
theorem Aggregate.type_transfer {f : Aggregate} {entity label entity' label' : String}
    {of : Option FieldType} {t : FieldType} (h : f.type entity label of = .ok t) :
    f.type entity' label' of = .ok t := by
  cases f with
  | count => exact h
  | sum | avg | min | max =>
    cases of with
    | none => cases h
    | some t =>
      simp only [type, throw, throwThe, MonadExceptOf.throw] at h ⊢
      grind

theorem Aggregate.plan_transfers {f : Aggregate} {path : Option Path} :
    Planner.Transfers c bases SameKind [] (f.plan c path) := by
  intro s u s' ⟨o, t⟩ bound h hrun hbound
  rcases run_plan_ok hrun with ⟨rfl, rfl, rfl, rfl, rfl⟩ |
    ⟨p, column, field, ft, entity, label, rfl, hr, htype, rfl, rfl⟩
  · exact ⟨_, u, rfl, ⟨rfl, rfl⟩, h, Option.some.inj hbound⟩
  · obtain ⟨r', u', hr', hlike, hparameters⟩ := Path.resolve_transfers h hr hbound
    have hkin := hlike.kin
    cases hlike with
    | @field level _ slot' _ name _ hmeet =>
      refine ⟨(.aggregate f (some ⟨level, slot', name⟩), .field ft), u', ?_, ⟨rfl, rfl⟩, hkin,
        hparameters⟩
      simp only [plan, Planner.run_bind_ok, Planner.run_scopeEntity_ok]
      refine ⟨_, u, ⟨rfl, rfl⟩, _, u', hr', ?_⟩
      simp only [Planner.run_bind_ok, Planner.run_lift_ok, Planner.run_pure_ok]
      exact ⟨ft, u', ⟨type_transfer htype, rfl⟩, rfl, rfl⟩

theorem Planner.orderTerm_transfers {entity : String} {t : OrderTerm} :
    Planner.Transfers c bases (fun _ _ => True) [] (orderTerm c entity t) := by
  intro s u s' key bound h hrun hbound
  obtain ⟨p, column, f, hp, hr, hord, hlevel, rfl⟩ := run_orderTerm_ok hrun
  obtain ⟨r', u', hr', hlike, hparameters⟩ := Path.resolve_transfers h hr hbound
  have hkin := hlike.kin
  cases hlike with
  | @field level _ slot' _ name _ hmeet =>
    obtain rfl : level = 0 := hlevel
    refine ⟨⟨⟨0, slot', name⟩, t.direction⟩, u', ?_, trivial, hkin, hparameters⟩
    rw [orderTerm, hp]
    refine run_bind_ok.mpr ⟨_, u', Path.run_operand_ok.mpr ⟨_, f, hr', rfl, rfl⟩, ?_⟩
    simp only [StaticType.unorderable?, hord, if_true, run_pure_ok, and_self]

/-- A null test can be planned where its operand can. -/
theorem Expr.isNullWith_transfers {entity : String} {e : Expr} {negated : Bool}
    (h : Planner.Transfers c bases SameKind e.parameters (e.plan c entity)) :
    Planner.Transfers c bases (fun _ _ => True) e.parameters
      (e.isNullWith c (e.plan c entity) negated) := by
  intro s u s' q bound hkin hrun hbound
  cases e with
  | path p =>
    obtain ⟨r, s₁, hr, hrun⟩ := Planner.run_bind_ok.mp hrun
    -- Both frames resolve the path to the same kind of thing.
    obtain ⟨r', u₁, hr', hlike, hparameters⟩ := Path.resolve_transfers hkin hr hbound
    have hkin' := hlike.kin
    cases hlike with
    | field hmeet =>
      obtain ⟨-, rfl⟩ := Planner.run_pure_ok.mp hrun
      exact ⟨_, u₁, Planner.run_bind_ok.mpr ⟨_, u₁, hr', rfl⟩, trivial, hkin', hparameters⟩
    | relation hmeet hrelation =>
      obtain ⟨hnull, rfl⟩ := Planner.run_lift_ok.mp hrun
      obtain ⟨q', hnull'⟩ := Catalog.relationIsNull_transfer hnull _ _
      refine ⟨q', u₁, Planner.run_bind_ok.mpr ⟨_, u₁, hr', ?_⟩, trivial, hkin', hparameters⟩
      exact Planner.run_lift_ok.mpr ⟨hnull', rfl⟩
    | record hmeet => exact (Planner.run_failPath_ok.mp hrun).elim
  | literal | parameter | subquery | aggregate =>
    obtain ⟨r, s₁, hr, hrun⟩ := Planner.run_bind_ok.mp hrun
    obtain ⟨-, rfl⟩ := Planner.run_pure_ok.mp hrun
    obtain ⟨r', u', hr', -, hrest⟩ := h hkin hr hbound
    exact ⟨_, u', Planner.run_bind_ok.mpr ⟨r', u', hr', rfl⟩, trivial, hrest⟩

end Steps

end EntityQuery
