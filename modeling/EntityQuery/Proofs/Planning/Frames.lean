import EntityQuery.Planning.Resolve
import EntityQuery.Proofs.Catalog

/-!
# Growing frames

Once its declared joins are bound, a frame only ever gets joins appended, and whatever has been
resolved in it stays resolved in the same way. `Frame.bindHops` says which joins a path appends,
`Frame.trace?` what a path stands for in a frame that has all its hops, and `Frame.Built` how a
frame can come about at all; the numbering of slots follows from the last.
-/

namespace EntityQuery

namespace Frame

/-! ## Extension -/

/-- A frame that differs by joins appended. -/
structure Extends (f g : Frame) : Prop where
  scope : f.scope = g.scope
  entity : f.entity = g.entity
  declared : f.declared = g.declared
  joins : f.joins <+: g.joins

namespace Extends

variable {f g k : Frame}

theorem refl (f : Frame) : f.Extends f :=
  ⟨rfl, rfl, rfl, List.prefix_refl _⟩

theorem trans (hfg : f.Extends g) (hgk : g.Extends k) : f.Extends k where
  scope := hfg.scope.trans hgk.scope
  entity := hfg.entity.trans hgk.entity
  declared := hfg.declared.trans hgk.declared
  joins := hfg.joins.trans hgk.joins

theorem pushJoin (f : Frame) (parent : Nat) (r : Relation) (kind : JoinKind) :
    f.Extends (f.pushJoin parent r kind) :=
  ⟨rfl, rfl, rfl, List.prefix_append _ _⟩

/-- The first join that passes a test stays the first one. -/
theorem find?_joins (h : f.Extends g) {test : Join → Bool} {j : Join}
    (hj : f.joins.find? test = some j) : g.joins.find? test = some j := by
  obtain ⟨more, hmore⟩ := h.joins
  rw [← hmore, List.find?_append, hj]
  rfl

theorem joinAlong? (h : f.Extends g) {parent slot : Nat} {relation : String}
    (hslot : f.joinAlong? parent relation = some slot) :
    g.joinAlong? parent relation = some slot := by
  unfold Frame.joinAlong? at hslot ⊢
  obtain ⟨j, hj, rfl⟩ := Option.map_eq_some_iff.mp hslot
  rw [h.find?_joins hj]
  rfl

theorem entityOf? (h : f.Extends g) {slot : Nat} {entity : String}
    (hentity : f.entityOf? slot = some entity) : g.entityOf? slot = some entity := by
  unfold Frame.entityOf? at hentity ⊢
  split at hentity
  · rename_i hslot
    rw [if_pos hslot, ← h.entity]
    exact hentity
  · rename_i hslot
    rw [if_neg hslot]
    obtain ⟨j, hj, rfl⟩ := Option.map_eq_some_iff.mp hentity
    rw [h.find?_joins hj]
    rfl

theorem slotOf? (h : f.Extends g) (origin : Origin) : f.slotOf? origin = g.slotOf? origin := by
  cases origin with
  | root => rfl
  | join index => simp only [Frame.slotOf?, h.declared]

end Extends

/-! ## The hops of a path -/

/-- Bind the target of a relation from a slot, unless it is joined already or leads to many rows. -/
def bindRelation (f : Frame) (parent : Nat) (r : Relation) : Frame :=
  match f.joinAlong? parent r.name with
  | some _ => f
  | none => if r.isToMany then f else f.pushJoin parent r .inner

/-- Bind the hops of a path from a slot bound to an entity. It ends at what is no relation, and at a
to-many relation that is not joined. -/
def bindHops (c : Catalog) (f : Frame) (slot : Nat) (entity : String) : List String → Frame
  | [] => f
  | name :: rest =>
    match c.attribute? entity name with
    | some (.relation r) =>
      match (f.bindRelation slot r).joinAlong? slot r.name with
      | some next => (f.bindRelation slot r).bindHops c next r.toEntity rest
      | none => f
    | _ => f

/-- Bind the hops of a path from its origin. -/
def bindFrom (c : Catalog) (f : Frame) (origin : Origin) (hops : List String) : Frame :=
  match f.slotOf? origin with
  | none => f
  | some slot =>
    match f.entityOf? slot with
    | none => f
    | some entity => f.bindHops c slot entity hops

/-- What a path stands for in a frame that has all its hops. -/
def trace? (c : Catalog) (f : Frame) (level : Nat) : (slot : Nat) → (entity : String) →
    (hops : List String) → Option Resolved
  | slot, entity, [] => some (.record level slot entity)
  | slot, entity, [last] =>
    match c.attribute? entity last with
    | some (.field field) => some (.field ⟨level, slot, field.name⟩ field)
    | some (.relation r) => some (.relation level slot r)
    | none => none
  | slot, entity, name :: rest =>
    match c.attribute? entity name with
    | some (.relation r) =>
      match f.joinAlong? slot r.name with
      | some next => f.trace? c level next r.toEntity rest
      | none => none
    | _ => none

/-- A new join is found if there was none along its relation. -/
theorem joinAlong?_pushJoin {f : Frame} {parent : Nat} {r : Relation} {kind : JoinKind}
    (h : f.joinAlong? parent r.name = none) :
    (f.pushJoin parent r kind).joinAlong? parent r.name = some f.nextSlot := by
  unfold joinAlong? at h ⊢
  rw [Option.map_eq_none_iff] at h
  simp only [pushJoin, List.find?_append, h, List.find?_singleton, BEq.rfl, Bool.and_self, if_true]
  rfl

theorem bindRelation_extends (f : Frame) (parent : Nat) (r : Relation) :
    f.Extends (f.bindRelation parent r) := by
  unfold bindRelation
  split
  · exact .refl f
  · split
    · exact .refl f
    · exact .pushJoin f parent r .inner

/-- A frame in which the target is not found afterwards is the same as before. -/
theorem bindRelation_eq_self {f : Frame} {parent : Nat} {r : Relation}
    (h : (f.bindRelation parent r).joinAlong? parent r.name = none) :
    f.bindRelation parent r = f := by
  cases hf : f.joinAlong? parent r.name with
  | some k => simp only [bindRelation, hf]
  | none =>
    simp only [bindRelation, hf] at h ⊢
    split at h
    · rw [if_pos ‹_›]
    · rw [joinAlong?_pushJoin hf] at h
      cases h

theorem bindHops_extends (c : Catalog) (f : Frame) (slot : Nat) (entity : String)
    (hops : List String) : f.Extends (f.bindHops c slot entity hops) := by
  induction hops generalizing f slot entity with
  | nil => exact .refl f
  | cons name rest ih =>
    unfold bindHops
    split
    · rename_i r _
      split
      · exact (bindRelation_extends f slot r).trans (ih _ _ _)
      · exact .refl f
    · exact .refl f

theorem bindFrom_extends (c : Catalog) (f : Frame) (origin : Origin) (hops : List String) :
    f.Extends (f.bindFrom c origin hops) := by
  unfold bindFrom
  split
  · exact .refl f
  · split
    · exact .refl f
    · exact bindHops_extends c f _ _ hops

theorem trace?_of_extends {c : Catalog} {f g : Frame} (h : f.Extends g) {level slot : Nat}
    {entity : String} {hops : List String} {r : Resolved}
    (hr : f.trace? c level slot entity hops = some r) :
    g.trace? c level slot entity hops = some r := by
  induction hops generalizing slot entity with
  | nil => exact hr
  | cons name rest ih =>
    cases rest with
    | nil => exact hr
    | cons next rest =>
      unfold trace? at hr ⊢
      split at hr
      · split at hr
        · rename_i hnext
          simp only [h.joinAlong? hnext]
          exact ih hr
        · cases hr
      · cases hr

/-- Bind what a path ends in, if that is a relation. -/
def bindEnd (f : Frame) : Resolved → Frame
  | .relation _ parent r => f.bindRelation parent r
  | _ => f

/-- A path binds what it binds without its last name, and then what it ends in. -/
theorem bindHops_eq_bindEnd {c : Catalog} {level : Nat} {r : Resolved} {hops : List String}
    {f : Frame} {slot : Nat} {entity : String}
    (h : (f.bindHops c slot entity hops.dropLast).trace? c level slot entity hops = some r) :
    f.bindHops c slot entity hops = (f.bindHops c slot entity hops.dropLast).bindEnd r := by
  induction hops generalizing f slot entity with
  | nil =>
    cases h
    rfl
  | cons name rest ih =>
    -- A path ends in its last name; the names before it are hops in either case.
    cases rest with
    | nil =>
      simp only [List.dropLast_singleton, bindHops, trace?] at h ⊢
      cases hname : c.attribute? entity name with
      | none => simp [hname] at h
      | some a =>
        cases a with
        | field field =>
          simp only [hname, Option.some.injEq] at h
          subst h
          rfl
        | relation r =>
          simp only [hname, Option.some.injEq] at h
          subst h
          simp only [bindEnd]
          cases hjoin : (f.bindRelation slot r).joinAlong? slot r.name with
          | some k => rfl
          | none => exact (bindRelation_eq_self hjoin).symm
    | cons next rest =>
      simp only [List.dropLast_cons_cons, bindHops, trace?] at h ⊢
      cases hname : c.attribute? entity name with
      | none => simp [hname] at h
      | some a =>
        cases a with
        | field field => simp [hname] at h
        | relation r =>
          simp only [hname] at h ⊢
          cases hjoin : (f.bindRelation slot r).joinAlong? slot r.name with
          | none =>
            -- Without the join the path would not be traced.
            have hnone : f.joinAlong? slot r.name = none := by
              cases hf : f.joinAlong? slot r.name with
              | none => rfl
              | some k => simp [(bindRelation_extends f slot r).joinAlong? hf] at hjoin
            simp [hjoin, hnone] at h
          | some k =>
            simp only [hjoin, (bindHops_extends c (f.bindRelation slot r) k r.toEntity _).joinAlong?
              hjoin] at h ⊢
            exact ih h

/-! ## Numbering -/

/-- The joins have the slots 1, 2, … in order, each behind its parent. -/
def Ordered (f : Frame) : Prop :=
  ∀ i j, f.joins[i]? = some j → j.slot = i + 1 ∧ j.parent ≤ i

namespace Ordered

variable {f : Frame}

theorem new (scope : Nat) (entity : String) : (Frame.new scope entity).Ordered := by
  intro i j h
  simp [Frame.new] at h

theorem pushJoin (h : f.Ordered) {parent : Nat} (hparent : parent ≤ f.joins.length) (r : Relation)
    (kind : JoinKind) : (f.pushJoin parent r kind).Ordered := by
  intro i j hj
  simp only [Frame.pushJoin, List.getElem?_append, List.getElem?_singleton] at hj
  split at hj
  · exact h i j hj
  · rename_i hi
    split at hj
    · cases hj
      refine ⟨?_, ?_⟩
      · show f.joins.length + 1 = i + 1
        omega
      · show parent ≤ i
        omega
    · cases hj

theorem find?_slot (h : f.Ordered) (i : Nat) :
    f.joins.find? (·.slot == i + 1) = f.joins[i]? := by
  cases hi : f.joins[i]? with
  | none =>
    rw [List.find?_eq_none]
    intro j hj
    obtain ⟨k, hk⟩ := List.mem_iff_getElem?.mp hj
    -- The slot of a join says its position, so no other join has this one.
    have hslot := (h k j hk).1
    have : k ≠ i := by
      rintro rfl
      rw [hk] at hi
      cases hi
    simp only [beq_iff_eq]
    omega
  | some j =>
    obtain ⟨hlt, rfl⟩ := List.getElem?_eq_some_iff.mp hi
    rw [List.find?_eq_some_iff_getElem]
    refine ⟨by simp [(h i _ hi).1], i, hlt, rfl, fun k hk => ?_⟩
    have := (h k _ (List.getElem?_eq_getElem (by omega))).1
    simp only [Bool.not_eq_true', beq_eq_false_iff_ne]
    omega

/-- The entity of a slot is the one that its join names. -/
theorem entityOf?_succ (h : f.Ordered) (i : Nat) :
    f.entityOf? (i + 1) = (f.joins[i]?).map Join.entity := by
  simp only [entityOf?, Nat.add_eq_zero_iff, Nat.one_ne_zero, and_false, if_false, h.find?_slot]

theorem slot_le (h : f.Ordered) {slot : Nat} {entity : String}
    (hentity : f.entityOf? slot = some entity) : slot ≤ f.joins.length := by
  cases slot with
  | zero => exact Nat.zero_le _
  | succ i =>
    rw [h.entityOf?_succ, Option.map_eq_some_iff] at hentity
    obtain ⟨j, hj, -⟩ := hentity
    exact (List.getElem?_eq_some_iff.mp hj).1

end Ordered

/-! ## Entities of slots -/

/-- Every join copies a relation of the entity in its parent slot. -/
def Relational (c : Catalog) (f : Frame) : Prop :=
  ∀ j ∈ f.joins, ∃ owner r, f.entityOf? j.parent = some owner ∧
    c.relation? owner j.relation = some r ∧ j.entity = r.toEntity ∧
    j.parentField = r.fromField ∧ j.entityField = r.toField

namespace Relational

variable {c : Catalog} {f : Frame}

theorem new (c : Catalog) (scope : Nat) (entity : String) :
    (Frame.new scope entity).Relational c := by
  intro j hj
  cases hj

theorem pushJoin (h : f.Relational c) {parent : Nat} {owner : String} {r : Relation}
    (howner : f.entityOf? parent = some owner) (hr : c.relation? owner r.name = some r)
    (kind : JoinKind) : (f.pushJoin parent r kind).Relational c := by
  have hext := Extends.pushJoin f parent r kind
  intro j hj
  rcases List.mem_append.mp hj with hj | hj
  · obtain ⟨owner', r', howner', hr'⟩ := h j hj
    exact ⟨owner', r', hext.entityOf? howner', hr'⟩
  · obtain rfl := List.mem_singleton.mp hj
    exact ⟨owner, r, hext.entityOf? howner, hr, rfl, rfl, rfl⟩

/-- A join along a relation leads to the target of the relation. -/
theorem entityOf?_joinAlong? (h : f.Relational c) (hord : f.Ordered) {parent slot : Nat}
    {owner name : String} {r : Relation} (howner : f.entityOf? parent = some owner)
    (hr : c.relation? owner name = some r) (hslot : f.joinAlong? parent name = some slot) :
    f.entityOf? slot = some r.toEntity := by
  obtain ⟨j, hj, rfl⟩ := Option.map_eq_some_iff.mp hslot
  have htest := List.find?_some hj
  simp only [Bool.and_eq_true, beq_iff_eq] at htest
  obtain ⟨i, hi⟩ := List.mem_iff_getElem?.mp (List.mem_of_find?_eq_some hj)
  obtain ⟨owner', r', howner', hr', hentity, -, -⟩ := h j (List.mem_of_find?_eq_some hj)
  -- The join copies a relation of the same entity by the same name, hence this one.
  rw [htest.1, howner] at howner'
  cases howner'
  rw [htest.2, hr] at hr'
  cases hr'
  rw [(hord i j hi).1, hord.entityOf?_succ, hi, Option.map_some, hentity]

/-- Every slot is bound to a known entity if the root is. -/
theorem known (h : f.Relational c) (hord : f.Ordered) {root : Entity}
    (hroot : c.entity? f.entity = some root) {slot : Nat} {entity : String}
    (hentity : f.entityOf? slot = some entity) : ∃ e, c.entity? entity = some e := by
  cases slot with
  | zero =>
    cases hentity
    exact ⟨root, hroot⟩
  | succ i =>
    rw [hord.entityOf?_succ, Option.map_eq_some_iff] at hentity
    obtain ⟨j, hj, rfl⟩ := hentity
    obtain ⟨_, r, _, hr, hto, -, -⟩ := h j (List.mem_of_getElem? hj)
    rw [hto]
    exact Catalog.relation?_target hr

end Relational

/-- A frame in which every slot is bound to a known entity. -/
structure Sound (c : Catalog) (f : Frame) : Prop where
  ordered : f.Ordered
  relational : f.Relational c
  root : ∃ e, c.entity? f.entity = some e

namespace Sound

variable {c : Catalog} {f : Frame}

theorem known (h : f.Sound c) {slot : Nat} {entity : String}
    (hentity : f.entityOf? slot = some entity) : ∃ e, c.entity? entity = some e := by
  obtain ⟨root, hroot⟩ := h.root
  exact h.relational.known h.ordered hroot hentity

theorem entityOf?_joinAlong? (h : f.Sound c) {parent slot : Nat} {owner name : String}
    {r : Relation} (howner : f.entityOf? parent = some owner)
    (hr : c.relation? owner name = some r) (hslot : f.joinAlong? parent name = some slot) :
    f.entityOf? slot = some r.toEntity :=
  h.relational.entityOf?_joinAlong? h.ordered howner hr hslot

/-- The slot of a join is bound to its entity. -/
theorem entityOf?_slot (h : f.Sound c) {i : Nat} {j : Join} (hj : f.joins[i]? = some j) :
    j.slot = i + 1 ∧ f.entityOf? j.slot = some j.entity := by
  obtain ⟨hslot, -⟩ := h.ordered i j hj
  refine ⟨hslot, ?_⟩
  rw [hslot, h.ordered.entityOf?_succ, hj, Option.map_some]

end Sound

/-! ## How frames come about -/

theorem length_pushJoin (f : Frame) (parent : Nat) (r : Relation) (kind : JoinKind) :
    (f.pushJoin parent r kind).joins.length = f.joins.length + 1 :=
  List.length_append

/-- A frame made by declaring joins and binding hops. -/
inductive Built (c : Catalog) (scope : Nat) (entity : String) :
    List JoinDeclaration → Frame → Prop
  | new : Built c scope entity [] (.new scope entity)
  /-- Declared joins come first. -/
  | declare {ds : List JoinDeclaration} {f : Frame} {d : JoinDeclaration} {parent : Nat}
      {owner : String} {r : Relation} :
      Built c scope entity ds f → f.joins.length = ds.length →
      f.slotOf? d.parent = some parent → f.entityOf? parent = some owner →
      c.relation? owner d.relation = some r → r.toEntity = d.entity → r.isToMany = d.many →
      Built c scope entity (ds ++ [d]) (f.declare parent r d.kind)
  /-- A hop is bound once, and only to one record. -/
  | hop {ds : List JoinDeclaration} {f : Frame} {parent : Nat} {owner : String} {r : Relation} :
      Built c scope entity ds f → f.entityOf? parent = some owner →
      c.relation? owner r.name = some r → f.joinAlong? parent r.name = none →
      r.isToMany = false → Built c scope entity ds (f.pushJoin parent r .inner)

namespace Built

variable {c : Catalog} {scope : Nat} {entity : String} {ds : List JoinDeclaration} {f : Frame}

theorem scope_eq (h : Built c scope entity ds f) : f.scope = scope := by
  induction h with
  | new => rfl
  | declare _ _ _ _ _ _ _ ih => exact ih
  | hop _ _ _ _ _ ih => exact ih

theorem entity_eq (h : Built c scope entity ds f) : f.entity = entity := by
  induction h with
  | new => rfl
  | declare _ _ _ _ _ _ _ ih => exact ih
  | hop _ _ _ _ _ ih => exact ih

theorem ordered (h : Built c scope entity ds f) : f.Ordered := by
  induction h with
  | new => exact .new scope entity
  | declare _ _ _ howner _ _ _ ih => exact ih.pushJoin (ih.slot_le howner) _ _
  | hop _ howner _ _ _ ih => exact ih.pushJoin (ih.slot_le howner) _ _

theorem relational (h : Built c scope entity ds f) : f.Relational c := by
  induction h with
  | new => exact .new c scope entity
  | declare _ _ _ howner hr _ _ ih =>
    rw [← (Schema.relation?_name hr).2] at hr
    exact ih.pushJoin howner hr _
  | hop _ howner hr _ _ ih => exact ih.pushJoin howner hr _

theorem sound (h : Built c scope entity ds f) {e : Entity} (he : c.entity? entity = some e) :
    f.Sound c :=
  ⟨h.ordered, h.relational, e, by rw [h.entity_eq, he]⟩

/-- While joins are declared there are no others. -/
theorem length_declare {d : JoinDeclaration} (hlength : f.joins.length = ds.length) (parent : Nat)
    (r : Relation) (kind : JoinKind) :
    (f.declare parent r kind).joins.length = (ds ++ [d]).length := by
  rw [Frame.declare, length_pushJoin, hlength, List.length_append, List.length_singleton]

theorem length_le (h : Built c scope entity ds f) : ds.length ≤ f.joins.length := by
  induction h with
  | new => exact Nat.le_refl _
  | declare _ hlength => exact Nat.le_of_eq (length_declare hlength _ _ _).symm
  | hop _ _ _ _ _ ih =>
    rw [length_pushJoin]
    omega

theorem declared_eq (h : Built c scope entity ds f) :
    f.declared = (List.range ds.length).map (· + 1) := by
  induction h with
  | new => rfl
  | declare _ hlength _ _ _ _ _ ih =>
    rw [List.length_append, List.length_singleton, List.range_succ, List.map_append, ← ih,
      ← hlength]
    rfl
  | hop _ _ _ _ _ ih => exact ih

theorem declared_le (h : Built c scope entity ds f) : ∀ k ∈ f.declared, k ≤ f.joins.length := by
  intro k hk
  rw [h.declared_eq] at hk
  obtain ⟨i, hi, rfl⟩ := List.mem_map.mp hk
  exact Nat.le_trans (List.mem_range.mp hi) h.length_le

theorem bindRelation (h : Built c scope entity ds f) {slot : Nat} {owner : String} {r : Relation}
    (howner : f.entityOf? slot = some owner) (hr : c.relation? owner r.name = some r) :
    Built c scope entity ds (f.bindRelation slot r) := by
  unfold Frame.bindRelation
  cases hjoin : f.joinAlong? slot r.name with
  | some k => exact h
  | none =>
    simp only
    split
    · exact h
    · rename_i hmany
      exact h.hop howner hr hjoin (by simpa using hmany)

theorem bindHops (h : Built c scope entity ds f) {slot : Nat} {owner : String}
    (howner : f.entityOf? slot = some owner) (hops : List String) :
    Built c scope entity ds (f.bindHops c slot owner hops) := by
  induction hops generalizing f slot owner with
  | nil => exact h
  | cons name rest ih =>
    unfold Frame.bindHops
    split
    · rename_i r hname
      have hr := Catalog.attribute?_relation hname
      rw [← (Schema.relation?_name hr).2] at hr
      have hbound := h.bindRelation howner hr
      have howner' := (bindRelation_extends f slot r).entityOf? howner
      split
      · rename_i next hnext
        exact ih hbound (hbound.relational.entityOf?_joinAlong? hbound.ordered howner' hr hnext)
      · exact h
    · exact h

theorem bindFrom (h : Built c scope entity ds f) (origin : Origin) (hops : List String) :
    Built c scope entity ds (f.bindFrom c origin hops) := by
  unfold Frame.bindFrom
  split
  · exact h
  · split
    · exact h
    · exact h.bindHops ‹_› hops

end Built

/-- Bind the join of a declaration that declares its relation as it is. -/
def declare? (c : Catalog) (f : Frame) (d : JoinDeclaration) : Option Frame :=
  match f.slotOf? d.parent with
  | none => none
  | some parent =>
    match f.entityOf? parent with
    | none => none
    | some owner =>
      match c.relation? owner d.relation with
      | none => none
      | some r =>
        if r.toEntity = d.entity ∧ r.isToMany = d.many then some (f.declare parent r d.kind)
        else none

/-- Bind the joins of declarations in order. -/
def declareAll? (c : Catalog) (f : Frame) : List JoinDeclaration → Option Frame
  | [] => some f
  | d :: ds =>
    match f.declare? c d with
    | none => none
    | some g => g.declareAll? c ds

theorem declare?_eq_some {c : Catalog} {f g : Frame} {d : JoinDeclaration} :
    f.declare? c d = some g ↔ ∃ parent owner r, f.slotOf? d.parent = some parent ∧
      f.entityOf? parent = some owner ∧ c.relation? owner d.relation = some r ∧
      r.toEntity = d.entity ∧ r.isToMany = d.many ∧ g = f.declare parent r d.kind := by
  unfold declare?
  constructor
  · -- Each failing test ends the declaration, so all four hold.
    intro h
    split at h
    · cases h
    · rename_i parent hparent
      split at h
      · cases h
      · rename_i owner howner
        split at h
        · cases h
        · rename_i r hr
          split at h
          · rename_i heq
            cases h
            exact ⟨parent, owner, r, hparent, howner, hr, heq.1, heq.2, rfl⟩
          · cases h
  · rintro ⟨parent, owner, r, hparent, howner, hr, hentity, hmany, rfl⟩
    simp only [hparent, howner, hr, hentity, hmany, and_self, if_true]

theorem declareAll?_length {c : Catalog} {f g : Frame} {ds : List JoinDeclaration}
    (h : f.declareAll? c ds = some g) : g.joins.length = f.joins.length + ds.length := by
  induction ds generalizing f with
  | nil =>
    cases h
    rfl
  | cons d ds ih =>
    unfold declareAll? at h
    split at h
    · cases h
    · rename_i k hk
      obtain ⟨parent, owner, r, -, -, -, -, -, rfl⟩ := declare?_eq_some.mp hk
      rw [ih h, List.length_cons]
      simp only [declare, pushJoin, List.length_append, List.length_singleton]
      omega

/-- Declarations are bound before anything else. -/
theorem Built.declareAll? {c : Catalog} {scope : Nat} {entity : String}
    {ds ds' : List JoinDeclaration} {f g : Frame} (h : Built c scope entity ds f)
    (hlength : f.joins.length = ds.length) (hg : f.declareAll? c ds' = some g) :
    Built c scope entity (ds ++ ds') g := by
  induction ds' generalizing ds f with
  | nil =>
    cases hg
    rw [List.append_nil]
    exact h
  | cons d ds' ih =>
    unfold Frame.declareAll? at hg
    split at hg
    · cases hg
    · rename_i k hk
      obtain ⟨parent, owner, r, hparent, howner, hr, hentity, hmany, rfl⟩ := declare?_eq_some.mp hk
      have := ih (h.declare hlength hparent howner hr hentity hmany) (by
        simp [Frame.declare, Frame.pushJoin, hlength]) hg
      rwa [List.append_assoc] at this

end Frame

end EntityQuery
