import EntityQuery.Proofs.Evaluation.Outcomes
import EntityQuery.Proofs.Meaning.Scenes
import EntityQuery.Proofs.Planning.Effects

/-!
# Names of slots

The layout of a body and the frame that is planned for it grow in step: whenever the planner binds a
slot, the layout binds a place. The number of a place is its position in the layout, and that is the
slot of the frame.
-/

namespace EntityQuery

theorem Place.child_inj {a b : Place} {name name' : String} (h : a.child name = b.child name') :
    b = a ∧ name' = name := by
  obtain ⟨origin, chain⟩ := a
  obtain ⟨origin', chain'⟩ := b
  simp only [child, Place.mk.injEq] at h
  obtain ⟨rfl, hchain⟩ := h
  obtain ⟨rfl, hname⟩ := List.append_inj' hchain rfl
  cases hname
  exact ⟨rfl, rfl⟩

namespace Layout

variable {l : Layout} {a b : Place} {k : Nat}

/-! ## Numbers of places -/

/-- The position of a place in a layout. -/
def number? (l : Layout) (a : Place) : Option Nat :=
  l.places.findIdx? (· == a)

theorem number?_root (l : Layout) : l.number? .root = some 0 := by
  simp [number?, places, List.findIdx?_cons]

theorem number?_eq_some (h : l.number? a = some k) :
    l.places[k]? = some a ∧ ∀ i < k, l.places[i]? ≠ some a := by
  obtain ⟨hlt, hk, hbefore⟩ := List.findIdx?_eq_some_iff_getElem.mp h
  refine ⟨by simpa [List.getElem?_eq_getElem hlt] using hk, fun i hi hia => ?_⟩
  obtain ⟨hilt, hieq⟩ := List.getElem?_eq_some_iff.mp hia
  have := hbefore i hi
  simp [hieq] at this

/-- Places have different numbers. -/
theorem number?_inj (ha : l.number? a = some k) (hb : l.number? b = some k) : a = b := by
  have hak := (number?_eq_some ha).1
  have hbk := (number?_eq_some hb).1
  exact Option.some.inj (hak.symm.trans hbk)

theorem places_push (l : Layout) (x : Binding) : (l.push x).places = l.places ++ [x.place] := by
  simp [places, push]

theorem number?_push_of_some {x : Binding} (h : l.number? a = some k) :
    (l.push x).number? a = some k := by
  rw [number?, places_push, List.findIdx?_append]
  rw [number?] at h
  rw [h]
  rfl

theorem number?_push_self {x : Binding} (h : l.number? x.place = none) :
    (l.push x).number? x.place = some (l.bindings.length + 1) := by
  rw [number?, places_push, List.findIdx?_append]
  rw [number?] at h
  rw [h]
  simp [List.findIdx?_cons, places]

theorem number?_push_of_ne {x : Binding} (h : a ≠ x.place) :
    (l.push x).number? a = l.number? a := by
  rw [number?, places_push, List.findIdx?_append]
  have hne : (x.place == a) = false := beq_false_of_ne h.symm
  simp [number?, List.findIdx?_cons, hne]

theorem number?_eq_none : l.number? a = none ↔ a ∉ l.places := by
  rw [number?, List.findIdx?_eq_none_iff]
  constructor
  · intro h hmem
    simpa using h a hmem
  · intro h b hb
    have : b ≠ a := by
      rintro rfl
      exact h hb
    simpa using this

/-- What is not bound has no entity. -/
theorem entity?_eq_none (h : a ∉ l.places) : l.entity? a = none := by
  rw [places, List.mem_cons, not_or] at h
  rw [entity?, if_neg h.1, Option.map_eq_none_iff, List.find?_eq_none]
  intro x hx hplace
  exact h.2 (List.mem_map.mpr ⟨x, hx, by simpa using hplace⟩)

end Layout

/-! ## Layouts and frames -/

/-- A binding that names a join of the layout. -/
structure Binding.Names (l : Layout) (x : Binding) (j : Join) : Prop where
  place : l.number? x.place = some j.slot
  parent : l.number? x.parent = some j.parent
  relation : j.relation = x.relation.name
  entity : j.entity = x.relation.toEntity
  parentField : j.parentField = x.relation.fromField
  entityField : j.entityField = x.relation.toField
  kind : j.kind = x.kind

theorem Binding.Names.push {l : Layout} {x y : Binding} {j : Join} (h : x.Names l j) :
    x.Names (l.push y) j :=
  { h with
    place := Layout.number?_push_of_some h.place
    parent := Layout.number?_push_of_some h.parent }

/-- A layout that names the slots of a frame. -/
structure Layout.Names (l : Layout) (f : Frame) : Prop where
  entity : l.entity = f.entity
  joins : List.Forall₂ (Binding.Names l) l.bindings f.joins
  origins : ∀ origin, f.slotOf? origin = l.number? ⟨origin, []⟩
  /-- What is no origin is the child of its parent. -/
  children : ∀ x ∈ l.bindings, x.place.chain = [] ∨ x.place = x.parent.child x.relation.name

namespace Layout.Names

variable {l : Layout} {f : Frame} {a : Place} {k : Nat}

theorem length (h : l.Names f) : l.bindings.length = f.joins.length :=
  h.joins.length_eq

/-- The same join is found by name and by number. -/
theorem along? (h : l.Names f) (ha : l.number? a = some k) (name : String) :
    (l.along? a name = none ∧ f.joinAlong? k name = none) ∨
      ∃ b slot, l.along? a name = some b ∧ f.joinAlong? k name = some slot ∧
        l.number? b = some slot := by
  have htest : ∀ x j, Binding.Names l x j →
      (x.parent == a && x.relation.name == name) = (j.parent == k && j.relation == name) := by
    intro x j hx
    rw [hx.relation, Bool.eq_iff_iff]
    simp only [Bool.and_eq_true, beq_iff_eq]
    refine and_congr_left fun _ => ⟨?_, ?_⟩
    · rintro rfl
      exact Option.some.inj (hx.parent.symm.trans ha)
    · rintro rfl
      exact Layout.number?_inj hx.parent ha
  rcases forall₂_find? h.joins htest with ⟨hl, hf⟩ | ⟨x, j, hl, hf, hx⟩
  · left
    simp only [Layout.along?, Frame.joinAlong?, hl, hf, Option.map_none, and_self]
  · right
    exact ⟨x.place, j.slot, by simp [Layout.along?, hl], by simp [Frame.joinAlong?, hf], hx.place⟩

theorem entity? (h : l.Names f) (ha : l.number? a = some k) : l.entity? a = f.entityOf? k := by
  unfold Layout.entity? Frame.entityOf?
  by_cases hroot : a = .root
  · subst hroot
    obtain rfl : 0 = k := Option.some.inj ((Layout.number?_root l).symm.trans ha)
    rw [if_pos rfl, if_pos rfl, h.entity]
  · -- Slot 0 is the root's alone.
    have hk : k ≠ 0 := by
      rintro rfl
      exact hroot (Layout.number?_inj ha (Layout.number?_root l))
    rw [if_neg hroot, if_neg hk]
    -- Places and slots are numbered alike, so both searches find the same binding.
    have htest : ∀ x j, Binding.Names l x j → (x.place == a) = (j.slot == k) := by
      intro x j hx
      rw [Bool.eq_iff_iff, beq_iff_eq, beq_iff_eq]
      constructor
      · rintro rfl
        exact Option.some.inj (hx.place.symm.trans ha)
      · rintro rfl
        exact Layout.number?_inj hx.place ha
    rcases forall₂_find? h.joins htest with ⟨hl, hf⟩ | ⟨x, j, hl, hf, hx⟩
    · rw [hl, hf]
      rfl
    · rw [hl, hf, Option.map_some, Option.map_some, hx.entity]

/-- A child is bound only along its relation. -/
theorem number?_child (h : l.Names f) {name : String} (hnone : l.along? a name = none) :
    l.number? (a.child name) = none := by
  rw [Layout.number?_eq_none]
  intro hmem
  rcases List.mem_cons.mp hmem with hroot | hmem
  · have hchain := congrArg Place.chain hroot
    simp [Place.child, Place.root] at hchain
  · obtain ⟨x, hx, hplace⟩ := List.mem_map.mp hmem
    -- A child is no origin, so the binding that has its place is one along the relation.
    rcases h.children x hx with hchain | hchild
    · rw [hplace] at hchain
      simp [Place.child] at hchain
    · rw [hplace] at hchild
      obtain ⟨hparent, hname⟩ := Place.child_inj hchild
      rw [Layout.along?, Option.map_eq_none_iff, List.find?_eq_none] at hnone
      exact hnone x hx (by simp [hparent, hname])

/-- A place and a slot bound along the same relation name each other. -/
theorem push_joins (h : l.Names f) (ha : l.number? a = some k) {b : Place}
    (hb : l.number? b = none) (r : Relation) (kind : JoinKind) :
    List.Forall₂ (Binding.Names (l.push ⟨b, a, r, kind⟩)) (l.push ⟨b, a, r, kind⟩).bindings
      (f.pushJoin k r kind).joins := by
  refine List.rel_append (h.joins.imp fun _ _ hx => hx.push) (.cons ?_ .nil)
  exact {
    place := by
      rw [Layout.number?_push_self (x := ⟨b, a, r, kind⟩) hb, h.length]
      rfl
    parent := Layout.number?_push_of_some ha
    relation := rfl
    entity := rfl
    parentField := rfl
    entityField := rfl
    kind := rfl }

/-- Binding a hop keeps the names. -/
theorem pushHop (h : l.Names f) (ha : l.number? a = some k) {r : Relation}
    (hnone : l.along? a r.name = none) :
    (l.push ⟨a.child r.name, a, r, .inner⟩).Names (f.pushJoin k r .inner) where
  entity := h.entity
  joins := h.push_joins ha (h.number?_child hnone) r .inner
  origins origin := by
    rw [Layout.number?_push_of_ne (by simp [Place.child])]
    have := h.origins origin
    cases origin with
    | root => exact this
    | join i => exact this
  children x hx := by
    rcases List.mem_append.mp hx with hx | hx
    · exact h.children x hx
    · obtain rfl := List.mem_singleton.mp hx
      exact .inr rfl

/-- Declaring a join keeps the names. -/
theorem declare (h : l.Names f) (hdeclared : f.declared.length = l.bindings.length)
    {parent : Origin} (hparent : f.slotOf? parent = some k) (r : Relation) (kind : JoinKind) :
    (l.push ⟨⟨.join l.bindings.length, []⟩, ⟨parent, []⟩, r, kind⟩).Names (f.declare k r kind) := by
  -- The next origin has no slot yet.
  have hfresh : l.number? ⟨.join l.bindings.length, []⟩ = none := by
    rw [← h.origins, Frame.slotOf?, ← hdeclared, List.getElem?_eq_none (Nat.le_refl _)]
  have hparent' : l.number? ⟨parent, []⟩ = some k := by rw [← h.origins, hparent]
  refine ⟨h.entity, h.push_joins hparent' hfresh r kind, fun origin => ?_, fun x hx => ?_⟩
  · by_cases horigin : origin = .join l.bindings.length
    · subst horigin
      rw [Layout.number?_push_self hfresh, Frame.slotOf?, ← hdeclared]
      simp [Frame.declare, Frame.nextSlot, ← h.length, hdeclared]
    · rw [Layout.number?_push_of_ne (by simpa using horigin), ← h.origins]
      cases origin with
      | root => rfl
      | join i =>
        have hi : i ≠ f.declared.length := by
          rw [hdeclared]
          simpa using horigin
        simp only [Frame.slotOf?, Frame.declare, List.getElem?_append, List.getElem?_singleton]
        split
        · rfl
        · rw [if_neg (by omega), List.getElem?_eq_none (by omega)]
  · rcases List.mem_append.mp hx with hx | hx
    · exact h.children x hx
    · obtain rfl := List.mem_singleton.mp hx
      exact .inl rfl

theorem declareAll {c : Catalog} {ds : List JoinDeclaration} {g : Frame} (h : l.Names f)
    (hdeclared : f.declared.length = l.bindings.length) (hg : f.declareAll? c ds = some g) :
    (l.declareAll c ds).Names g := by
  induction ds generalizing l f with
  | nil =>
    cases hg
    exact h
  | cons d ds ih =>
    unfold Frame.declareAll? at hg
    split at hg
    · cases hg
    · rename_i f' hf'
      obtain ⟨parent, owner, r, hparent, howner, hr, -, -, rfl⟩ := Frame.declare?_eq_some.mp hf'
      have hplace : l.number? ⟨d.parent, []⟩ = some parent := by rw [← h.origins, hparent]
      have hlayout : ((l.entity? ⟨d.parent, []⟩).bind fun owner => c.relation? owner d.relation) =
          some r := by
        rw [h.entity? hplace, howner, Option.bind_some, hr]
      simp only [Layout.declareAll, hlayout]
      refine ih (h.declare hdeclared hparent r d.kind) ?_ hg
      simp [Frame.declare, Layout.push, hdeclared]

/-- Layout and frame bind the hops of a path alike. -/
theorem bindHops {c : Catalog} {entity : String} {hops : List String} (h : l.Names f)
    (ha : l.number? a = some k) :
    (l.bindHops c a entity hops).Names (f.bindHops c k entity hops) := by
  induction hops generalizing l f a k entity with
  | nil => exact h
  | cons name rest ih =>
    unfold Layout.bindHops Frame.bindHops
    cases hname : c.attribute? entity name with
    | none => exact h
    | some named =>
      cases named with
      | field _ => exact h
      | relation r =>
        obtain rfl := (Schema.relation?_name (Catalog.attribute?_relation hname)).2
        -- Either both have the target already, or it is new to both.
        rcases h.along? ha r.name with ⟨hl, hf⟩ | ⟨b, slot, hl, hf, hb⟩
        · cases hmany : r.isToMany with
          | true => simpa [hl, hf, Frame.bindRelation, hmany] using h
          | false =>
            have hpush : f.bindRelation k r = f.pushJoin k r .inner := by
              simp [Frame.bindRelation, hf, hmany]
            simp only [hl, hpush, Frame.joinAlong?_pushJoin hf, hmany, Bool.false_eq_true, if_false]
            refine ih (h.pushHop ha hl) ?_
            rw [Layout.number?_push_self (x := ⟨a.child r.name, a, r, .inner⟩) (h.number?_child hl),
              h.length]
            rfl
        · have hself : f.bindRelation k r = f := by simp [Frame.bindRelation, hf]
          simp only [hl, hself, hf]
          exact ih h hb

theorem bindFrom {c : Catalog} (h : l.Names f) (origin : Origin) (hops : List String) :
    (l.bindFrom c origin hops).Names (f.bindFrom c origin hops) := by
  unfold Layout.bindFrom Frame.bindFrom
  cases hslot : f.slotOf? origin with
  | none =>
    -- An origin without a slot is one that the layout does not know either.
    have hnumber := h.origins origin
    rw [hslot, eq_comm, Layout.number?_eq_none] at hnumber
    rw [Layout.entity?_eq_none hnumber]
    exact h
  | some k =>
    have ha : l.number? ⟨origin, []⟩ = some k := by rw [← h.origins, hslot]
    rw [h.entity? ha]
    simp only
    split
    · rename_i entity hentity
      rw [hentity]
      exact h.bindHops ha
    · rename_i hentity
      rw [hentity]
      exact h

theorem new (scope : Nat) (entity : String) : (⟨entity, []⟩ : Layout).Names (.new scope entity) := by
  refine ⟨rfl, .nil, fun origin => ?_, fun x hx => absurd hx List.not_mem_nil⟩
  cases origin with
  | root => exact (Layout.number?_root _).symm
  | join i => simp [Frame.slotOf?, Frame.new, Layout.number?, Layout.places, Place.root]

theorem bindOwn {c : Catalog} {ps : List Path} (h : l.Names f) :
    (l.bindOwn c f.scope ps).Names (f.bindOwn c ps) := by
  induction ps generalizing l f with
  | nil => exact h
  | cons p ps ih =>
    unfold Layout.bindOwn Frame.bindOwn
    by_cases hscope : f.scope = p.scope
    · rw [if_pos hscope, if_pos hscope, (Frame.bindFrom_extends c f p.origin p.hops).scope]
      exact ih (h.bindFrom p.origin p.hops)
    · rw [if_neg hscope, if_neg hscope]
      exact ih h

end Layout.Names

/-- The layout of a body names the slots of its frame. -/
theorem Body.layout_names {c : Catalog} {b : Body} {items : List Path} {f : Frame}
    (h : b.frame? c items = some f) : (b.layout c items).Names f := by
  obtain ⟨g, hg, rfl⟩ := Option.map_eq_some_iff.mp h
  have hscope : g.scope = b.scope := (Frame.Built.new.declareAll? rfl hg).scope_eq
  rw [layout, ← hscope]
  exact ((Layout.Names.new b.scope b.entity).declareAll rfl hg).bindOwn

end EntityQuery
