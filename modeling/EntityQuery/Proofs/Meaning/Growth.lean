import EntityQuery.Proofs.Meaning.Naming
import Mathlib.Data.List.Nodup
import Mathlib.Data.Set.Insert

/-!
# How layouts grow

Behind its declared joins a layout binds the places that paths lead to. Which places these are does
not depend on the order of the paths: a place is the child of its parent along its relation, and the
declared joins alone decide where a path leaves them. So layouts that differ in the order of the paths
have the same bindings in another order, and a path leads to the same place in each.
-/

namespace EntityQuery

/-! ## Chains of bindings -/

/-- Bindings that each start from a known place and bind a new one. -/
def Chained (known : Set Place) : List Binding → Prop
  | [] => True
  | x :: xs => x.parent ∈ known ∧ x.place ∉ known ∧ Chained (insert x.place known) xs

namespace Chained

variable {known : Set Place} {xs : List Binding} {x : Binding}

theorem fresh (h : Chained known xs) (hx : x ∈ xs) : x.place ∉ known := by
  induction xs generalizing known with
  | nil => cases hx
  | cons y xs ih =>
    obtain ⟨-, hplace, hxs⟩ := h
    rcases List.mem_cons.mp hx with rfl | hx
    · exact hplace
    · exact fun hmem => ih hxs hx (Set.mem_insert_of_mem y.place hmem)

/-- No place is bound twice. -/
theorem nodup (h : Chained known xs) : (xs.map Binding.place).Nodup := by
  induction xs generalizing known with
  | nil => exact .nil
  | cons y xs ih =>
    obtain ⟨-, -, hxs⟩ := h
    rw [List.map_cons, List.nodup_cons]
    refine ⟨fun hmem => ?_, ih hxs⟩
    obtain ⟨x, hx, hplace⟩ := List.mem_map.mp hmem
    exact hxs.fresh hx (hplace ▸ Set.mem_insert y.place known)

theorem concat (h : Chained known xs) (hparent : x.parent ∈ known ∨ x.parent ∈ xs.map Binding.place)
    (hknown : x.place ∉ known) (hplace : x.place ∉ xs.map Binding.place) :
    Chained known (xs ++ [x]) := by
  induction xs generalizing known with
  | nil =>
    have hparent : x.parent ∈ known := by simpa using hparent
    exact ⟨hparent, hknown, trivial⟩
  | cons y xs ih =>
    obtain ⟨hy, hyplace, hxs⟩ := h
    rw [List.map_cons, List.mem_cons, not_or] at hplace
    refine ⟨hy, hyplace, ih hxs ?_ ?_ hplace.2⟩
    · rw [List.map_cons, List.mem_cons] at hparent
      rcases hparent with hparent | hparent | hparent
      · exact .inl (Set.mem_insert_of_mem y.place hparent)
      · exact .inl (hparent ▸ Set.mem_insert y.place known)
      · exact .inr hparent
    · rw [Set.mem_insert_iff, not_or]
      exact ⟨hplace.1, hknown⟩

end Chained

/-! ## Sound layouts -/

namespace Layout

/-- A layout whose bindings follow relations from places that are bound before. -/
structure Sound (c : Catalog) (l : Layout) : Prop where
  chained : Chained {.root} l.bindings
  related : ∀ x ∈ l.bindings, ∃ owner, l.entity? x.parent = some owner ∧
    c.relation? owner x.relation.name = some x.relation

section Entities

variable {l : Layout} {x : Binding} {a : Place} {entity : String}

theorem entity?_push (h : l.entity? a = some entity) : (l.push x).entity? a = some entity := by
  unfold entity? at h ⊢
  split at h
  · rename_i hroot
    rw [if_pos hroot]
    exact h
  · rename_i hroot
    obtain ⟨y, hy, rfl⟩ := Option.map_eq_some_iff.mp h
    rw [if_neg hroot, push, List.find?_append, hy]
    rfl

theorem mem_places_of_entity? (h : l.entity? a = some entity) : a ∈ l.places := by
  by_contra hmem
  rw [entity?_eq_none hmem] at h
  cases h

theorem push_bindings : (l.push x).bindings = l.bindings ++ [x] :=
  rfl

/-- What is found along a relation is one of the bindings. -/
theorem along?_eq_some {b : Place} {name : String} (h : l.along? a name = some b) :
    ∃ x ∈ l.bindings, x.parent = a ∧ x.relation.name = name ∧ x.place = b := by
  obtain ⟨x, hx, rfl⟩ := Option.map_eq_some_iff.mp h
  have htest := List.find?_some hx
  simp only [Bool.and_eq_true, beq_iff_eq] at htest
  exact ⟨x, List.mem_of_find?_eq_some hx, htest.1, htest.2, rfl⟩

end Entities

namespace Sound

variable {c : Catalog} {l : Layout} {x : Binding} {a b : Place} {owner name : String}
  {r : Relation}

/-- A bound place has the entity of its binding. -/
theorem entity?_place (h : l.Sound c) (hx : x ∈ l.bindings) :
    l.entity? x.place = some x.relation.toEntity := by
  have hroot : x.place ≠ .root := h.chained.fresh hx
  rw [Layout.entity?, if_neg hroot]
  cases hfind : l.bindings.find? (·.place == x.place) with
  | none =>
    rw [List.find?_eq_none] at hfind
    simpa using hfind x hx
  | some y =>
    have hplace : y.place = x.place := by simpa using List.find?_some hfind
    have hy := List.mem_of_find?_eq_some hfind
    rw [List.inj_on_of_nodup_map h.chained.nodup hy hx hplace]
    rfl

theorem entity?_eq_some (h : l.Sound c) {entity : String} (ha : a ≠ .root) :
    l.entity? a = some entity ↔ ∃ x ∈ l.bindings, x.place = a ∧ x.relation.toEntity = entity := by
  constructor
  · intro hentity
    rw [Layout.entity?, if_neg ha] at hentity
    obtain ⟨x, hx, rfl⟩ := Option.map_eq_some_iff.mp hentity
    exact ⟨x, List.mem_of_find?_eq_some hx, by simpa using List.find?_some hx, rfl⟩
  · rintro ⟨x, hx, rfl, rfl⟩
    exact h.entity?_place hx

theorem push (h : l.Sound c) (howner : l.entity? x.parent = some owner)
    (hr : c.relation? owner x.relation.name = some x.relation) (hnew : x.place ∉ l.places) :
    (l.push x).Sound c := by
  rw [places, List.mem_cons, not_or] at hnew
  have hparent := mem_places_of_entity? howner
  rw [places, List.mem_cons] at hparent
  refine ⟨h.chained.concat hparent hnew.1 hnew.2, fun y hy => ?_⟩
  rcases List.mem_append.mp hy with hy | hy
  · obtain ⟨owner', howner', hr'⟩ := h.related y hy
    exact ⟨owner', entity?_push howner', hr'⟩
  · obtain rfl := List.mem_singleton.mp hy
    exact ⟨owner, entity?_push howner, hr⟩

/-- A binding along a relation of its parent is one along that very relation. -/
theorem relation_eq (h : l.Sound c) (hx : x ∈ l.bindings) (howner : l.entity? x.parent = some owner)
    (hr : c.relation? owner x.relation.name = some r) : x.relation = r := by
  obtain ⟨owner', howner', hr'⟩ := h.related x hx
  obtain rfl := Option.some.inj (howner.symm.trans howner')
  exact Option.some.inj (hr'.symm.trans hr)

theorem entity?_along? (h : l.Sound c) (howner : l.entity? a = some owner)
    (hr : c.relation? owner name = some r) (hb : l.along? a name = some b) :
    l.entity? b = some r.toEntity := by
  obtain ⟨x, hx, rfl, rfl, rfl⟩ := along?_eq_some hb
  rw [h.entity?_place hx, h.relation_eq hx howner hr]

end Sound

end Layout

/-! ## Growth -/

namespace Layout

/-- The bindings of a path from a place that has an entity, each on its own: the relations that no
declared join follows. -/
def hopBindings (c : Catalog) (base : Layout) (a : Place) (entity : String) :
    List String → List Binding
  | [] => []
  | name :: rest =>
    match c.attribute? entity name with
    | some (.relation r) =>
      match base.along? a name with
      | some b => base.hopBindings c b r.toEntity rest
      | none =>
        if r.isToMany then []
        else ⟨a.child name, a, r, .inner⟩ :: base.hopBindings c (a.child name) r.toEntity rest
    | _ => []

/-- The bindings of a path. -/
def pathBindings (c : Catalog) (base : Layout) (p : Path) : List Binding :=
  match base.entity? ⟨p.origin, []⟩ with
  | some entity => base.hopBindings c ⟨p.origin, []⟩ entity p.hops
  | none => []

/-- A layout that has grown from declared joins by the bindings of paths. -/
structure Grown (c : Catalog) (base l : Layout) : Prop where
  sound : l.Sound c
  origins : ∀ x ∈ base.bindings, x.place.chain = []
  entity : l.entity = base.entity
  bindings : ∃ more, l.bindings = base.bindings ++ more ∧ ∀ x ∈ more,
    x.place = x.parent.child x.relation.name ∧ x.kind = .inner ∧ x.relation.isToMany = false ∧
      base.along? x.parent x.relation.name = none

namespace Grown

variable {c : Catalog} {base l : Layout} {a : Place} {owner name : String} {r : Relation}

theorem refl (h : l.Sound c) (horigins : ∀ x ∈ l.bindings, x.place.chain = []) : l.Grown c l :=
  ⟨h, horigins, rfl, [], by simp, by simp⟩

/-- A relation is followed as the declared joins follow it, or to the child of its place. -/
theorem along?_cases (h : base.Grown c l) (a : Place) (name : String) :
    l.along? a name = base.along? a name ∨
      (base.along? a name = none ∧ l.along? a name = some (a.child name) ∧
        ∃ x ∈ l.bindings, x.parent = a ∧ x.relation.name = name ∧ x.place = a.child name ∧
          x.kind = .inner ∧ x.relation.isToMany = false) := by
  obtain ⟨more, hmore, hnew⟩ := h.bindings
  unfold along?
  rw [hmore, List.find?_append]
  cases hbase : base.bindings.find? fun x => x.parent == a && x.relation.name == name with
  | some y => exact .inl rfl
  | none =>
    rw [Option.none_or]
    cases hfind : more.find? fun x => x.parent == a && x.relation.name == name with
    | none => exact .inl rfl
    | some x =>
      -- The declared joins bind no such place, so this binding is one of the new ones.
      have htest := List.find?_some hfind
      simp only [Bool.and_eq_true, beq_iff_eq] at htest
      obtain ⟨rfl, rfl⟩ := htest
      have hx := List.mem_of_find?_eq_some hfind
      obtain ⟨hplace, hkind, hmany, -⟩ := hnew x hx
      refine .inr ⟨rfl, congrArg some hplace, x, List.mem_append_right _ hx, rfl, rfl, hplace, hkind,
        hmany⟩

/-- Paths lead where they lead in the layout of the declared joins. -/
theorem follow_eq (h : base.Grown c l) : l.follow = base.follow := by
  funext a hops
  unfold follow
  congr 1
  funext a name
  rcases h.along?_cases a name with heq | ⟨hbase, hl, -⟩
  · rw [heq]
  · rw [hbase, hl]
    rfl

theorem entity?_origin (h : base.Grown c l) (origin : Origin) :
    l.entity? ⟨origin, []⟩ = base.entity? ⟨origin, []⟩ := by
  obtain ⟨more, hmore, hnew⟩ := h.bindings
  have hnone : more.find? (·.place == ⟨origin, []⟩) = none := by
    rw [List.find?_eq_none]
    intro x hx hplace
    -- Places behind the declared joins are children.
    have hchain := congrArg Place.chain (beq_iff_eq.mp hplace)
    rw [(hnew x hx).1] at hchain
    simp [Place.child] at hchain
  unfold entity?
  rw [h.entity, hmore, List.find?_append, hnone, Option.or_none]

/-- A hop that is not bound yet grows the layout. -/
theorem push (h : base.Grown c l) (howner : l.entity? a = some owner)
    (hr : c.relation? owner r.name = some r) (hnone : l.along? a r.name = none)
    (hmany : r.isToMany = false) : base.Grown c (l.push ⟨a.child r.name, a, r, .inner⟩) := by
  obtain ⟨more, hmore, hnew⟩ := h.bindings
  have hbase : base.along? a r.name = none := by
    rcases h.along?_cases a r.name with heq | ⟨hbase, -⟩
    · rw [← heq, hnone]
    · exact hbase
  -- The child is neither the root nor a declared join, since its chain is not empty.
  have hplace : a.child r.name ∉ l.places := by
    rw [places, hmore, List.mem_cons, List.map_append, List.mem_append, not_or, not_or]
    refine ⟨fun hroot => ?_, fun hmem => ?_, fun hmem => ?_⟩
    · have hchain := congrArg Place.chain hroot
      simp [Place.child, Place.root] at hchain
    · obtain ⟨x, hx, hplace⟩ := List.mem_map.mp hmem
      have hchain := h.origins x hx
      simp [hplace, Place.child] at hchain
    · -- A child is bound only along its relation, and nothing is.
      obtain ⟨x, hx, hplace⟩ := List.mem_map.mp hmem
      rw [(hnew x hx).1] at hplace
      obtain ⟨hparent, hname⟩ := Place.child_inj hplace
      rw [along?, Option.map_eq_none_iff, List.find?_eq_none] at hnone
      refine hnone x (hmore ▸ List.mem_append_right _ hx) ?_
      simp [hparent, hname]
  refine ⟨h.sound.push howner hr hplace, h.origins, h.entity, more ++ [⟨a.child r.name, a, r, .inner⟩],
    ?_, ?_⟩
  · rw [push_bindings, hmore, List.append_assoc]
  · intro x hx
    rcases List.mem_append.mp hx with hx | hx
    · exact hnew x hx
    · obtain rfl := List.mem_singleton.mp hx
      exact ⟨rfl, rfl, hmany, hbase⟩

theorem along?_of_base {b : Place} (h : base.Grown c l) (hb : base.along? a name = some b) :
    l.along? a name = some b := by
  rcases h.along?_cases a name with heq | ⟨hbase, -⟩
  · rw [heq, hb]
  · rw [hbase] at hb
    cases hb

/-- A hop that the declared joins do not follow is bound as a path binds it. -/
theorem bound {b : Place} (h : base.Grown c l) (howner : l.entity? a = some owner)
    (hr : c.relation? owner r.name = some r) (hbase : base.along? a r.name = none)
    (hb : l.along? a r.name = some b) :
    b = a.child r.name ∧ r.isToMany = false ∧
      (⟨a.child r.name, a, r, .inner⟩ : Binding) ∈ l.bindings := by
  rcases h.along?_cases a r.name with heq | ⟨-, hl, x, hx, hparent, hname, hplace, hkind, hmany⟩
  · rw [heq, hbase] at hb
    cases hb
  · rw [hl] at hb
    have howner' : l.entity? x.parent = some owner := by rw [hparent, howner]
    have hrelation : x.relation = r := h.sound.relation_eq hx howner' (by rw [hname, hr])
    have hxeq : x = ⟨a.child r.name, a, r, .inner⟩ := by
      obtain ⟨place, parent, relation, kind⟩ := x
      simp only at hparent hplace hkind hrelation
      rw [hparent, hplace, hkind, hrelation]
    rw [hrelation] at hmany
    exact ⟨(Option.some.inj hb).symm, hmany, hxeq ▸ hx⟩

/-- Binding hops grows a layout by the bindings of the hops, whatever it has bound before. -/
theorem bindHops {hops : List String} (h : base.Grown c l) (howner : l.entity? a = some owner) :
    base.Grown c (l.bindHops c a owner hops) ∧ ∀ x,
      x ∈ (l.bindHops c a owner hops).bindings ↔
        x ∈ l.bindings ∨ x ∈ base.hopBindings c a owner hops := by
  induction hops generalizing l a owner with
  | nil => exact ⟨h, fun x => by simp [Layout.bindHops, hopBindings]⟩
  | cons name rest ih =>
    unfold Layout.bindHops hopBindings
    cases hname : c.attribute? owner name with
    | none => exact ⟨h, fun x => by simp⟩
    | some named =>
      cases named with
      | field _ => exact ⟨h, fun x => by simp⟩
      | relation r =>
        have hr := Catalog.attribute?_relation hname
        obtain rfl := (Schema.relation?_name hr).2
        simp only
        -- The declared joins alone decide where the hop leads.
        cases hbase : base.along? a r.name with
        | some b =>
          have hl := h.along?_of_base hbase
          rw [hl]
          exact ih h (h.sound.entity?_along? howner hr hl)
        | none =>
          cases hl : l.along? a r.name with
          | some b =>
            -- Another path has bound the hop before.
            obtain ⟨rfl, hmany, hx⟩ := h.bound howner hr hbase hl
            simp only [hmany, Bool.false_eq_true, if_false]
            obtain ⟨hgrown, hiff⟩ := ih h (h.sound.entity?_along? howner hr hl)
            refine ⟨hgrown, fun y => ?_⟩
            have hknown : y = ⟨a.child r.name, a, r, .inner⟩ → y ∈ l.bindings := fun heq => heq ▸ hx
            rw [hiff, List.mem_cons, ← or_assoc, or_iff_left_of_imp hknown]
          | none =>
            simp only
            cases hmany : r.isToMany with
            | true => exact ⟨h, fun x => by simp⟩
            | false =>
              have hgrown := h.push howner hr hl hmany
              have hmem : (⟨a.child r.name, a, r, .inner⟩ : Binding) ∈
                  (l.push ⟨a.child r.name, a, r, .inner⟩).bindings := by
                rw [push_bindings]
                exact List.mem_append_right _ List.mem_cons_self
              obtain ⟨hgrown', hiff⟩ := ih hgrown (hgrown.sound.entity?_place hmem)
              refine ⟨hgrown', fun x => ?_⟩
              simp only [Bool.false_eq_true, if_false]
              rw [hiff, push_bindings, List.mem_append, List.mem_singleton, List.mem_cons, or_assoc]

theorem bindOwn (h : base.Grown c l) (scope : Nat) (ps : List Path) :
    base.Grown c (l.bindOwn c scope ps) ∧ ∀ x, x ∈ (l.bindOwn c scope ps).bindings ↔
      x ∈ l.bindings ∨ ∃ p ∈ ps, scope = p.scope ∧ x ∈ base.pathBindings c p := by
  induction ps generalizing l with
  | nil => exact ⟨h, fun x => by simp [Layout.bindOwn]⟩
  | cons p ps ih =>
    have hpath : base.Grown c (l.bindFrom c p.origin p.hops) ∧ ∀ x,
        x ∈ (l.bindFrom c p.origin p.hops).bindings ↔
          x ∈ l.bindings ∨ x ∈ base.pathBindings c p := by
      unfold bindFrom pathBindings
      rw [← h.entity?_origin]
      cases hentity : l.entity? ⟨p.origin, []⟩ with
      | some entity => exact h.bindHops hentity
      | none => exact ⟨h, fun x => by simp⟩
    unfold Layout.bindOwn
    -- Only the paths of this scope bind something.
    by_cases hscope : scope = p.scope
    · rw [if_pos hscope]
      obtain ⟨hgrown, hiff⟩ := ih hpath.1
      refine ⟨hgrown, fun x => ?_⟩
      rw [hiff, hpath.2, or_assoc]
      simp only [List.mem_cons, exists_eq_or_imp, hscope, true_and]
    · rw [if_neg hscope]
      obtain ⟨hgrown, hiff⟩ := ih h
      refine ⟨hgrown, fun x => ?_⟩
      rw [hiff]
      simp only [List.mem_cons, exists_eq_or_imp, hscope, false_and, false_or]

end Grown

/-- Declared joins each have an origin of their own. -/
theorem Sound.declareAll {c : Catalog} {l : Layout} (h : l.Sound c)
    (horigins : ∀ x ∈ l.bindings, ∃ i < l.bindings.length, x.place = ⟨.join i, []⟩)
    (ds : List JoinDeclaration) :
    (l.declareAll c ds).Sound c ∧ ∀ x ∈ (l.declareAll c ds).bindings,
      ∃ i < (l.declareAll c ds).bindings.length, x.place = ⟨.join i, []⟩ := by
  induction ds generalizing l with
  | nil => exact ⟨h, horigins⟩
  | cons d ds ih =>
    unfold Layout.declareAll
    split
    · rename_i r hr
      obtain ⟨owner, howner, hr⟩ := Option.bind_eq_some_iff.mp hr
      rw [← (Schema.relation?_name hr).2] at hr
      -- The new origin is numbered by the bindings so far, and every earlier one has a smaller
      -- number.
      have hnew : (⟨.join l.bindings.length, []⟩ : Place) ∉ l.places := by
        rw [places, List.mem_cons, not_or]
        refine ⟨by simp [Place.root], fun hmem => ?_⟩
        obtain ⟨x, hx, hplace⟩ := List.mem_map.mp hmem
        obtain ⟨i, hi, hplace'⟩ := horigins x hx
        have heq : i = l.bindings.length := by simpa using hplace'.symm.trans hplace
        omega
      refine ih (h.push howner hr hnew) fun x hx => ?_
      rw [push_bindings, List.length_append, List.length_singleton]
      rcases List.mem_append.mp hx with hx | hx
      · obtain ⟨i, hi, hplace⟩ := horigins x hx
        exact ⟨i, by omega, hplace⟩
      · obtain rfl := List.mem_singleton.mp hx
        exact ⟨l.bindings.length, by omega, rfl⟩
    · exact ih h horigins

/-! ## Reordered layouts -/

/-- Layouts that bind the same places in two orders. -/
structure Reordered (c : Catalog) (l l' : Layout) : Prop where
  left : l.Sound c
  right : l'.Sound c
  entity : l.entity = l'.entity
  bindings : l.bindings.Perm l'.bindings
  follow : l.follow = l'.follow

/-- The order of the bindings does not matter to the entity of a place. -/
theorem Reordered.entity?_eq {c : Catalog} {l l' : Layout} (h : l.Reordered c l') (a : Place) :
    l.entity? a = l'.entity? a := by
  by_cases ha : a = .root
  · rw [entity?, entity?, if_pos ha, if_pos ha, h.entity]
  · ext entity
    rw [h.left.entity?_eq_some ha, h.right.entity?_eq_some ha]
    simp only [h.bindings.mem_iff]

/-- Paths bind the same places in any order. -/
theorem Grown.bindOwn_perm {c : Catalog} {l : Layout} {scope : Nat} {ps qs : List Path}
    (h : l.Grown c l) (hperm : ps.Perm qs) :
    (l.bindOwn c scope ps).Reordered c (l.bindOwn c scope qs) := by
  obtain ⟨hleft, hmem⟩ := h.bindOwn scope ps
  obtain ⟨hright, hmem'⟩ := h.bindOwn scope qs
  refine ⟨hleft.sound, hright.sound, hleft.entity.trans hright.entity.symm, ?_,
    hleft.follow_eq.trans hright.follow_eq.symm⟩
  -- Both have the same bindings, each of them once.
  refine (List.perm_ext_iff_of_nodup hleft.sound.chained.nodup.of_map
    hright.sound.chained.nodup.of_map).mpr fun x => ?_
  rw [hmem, hmem']
  simp only [hperm.mem_iff]

end Layout

/-! ## Bodies -/

/-- The layout of the declared joins of a body. -/
def Body.declared (c : Catalog) (b : Body) : Layout :=
  (⟨b.entity, []⟩ : Layout).declareAll c b.joins

theorem Body.declared_sound (c : Catalog) (b : Body) :
    (b.declared c).Sound c ∧ ∀ x ∈ (b.declared c).bindings,
      ∃ i < (b.declared c).bindings.length, x.place = ⟨.join i, []⟩ := by
  have hnew : (⟨b.entity, []⟩ : Layout).Sound c :=
    ⟨trivial, fun x hx => absurd hx List.not_mem_nil⟩
  exact hnew.declareAll (fun x hx => absurd hx List.not_mem_nil) b.joins

theorem Body.declared_origins (c : Catalog) (b : Body) :
    ∀ x ∈ (b.declared c).bindings, x.place.chain = [] := by
  intro x hx
  obtain ⟨i, -, hplace⟩ := (declared_sound c b).2 x hx
  rw [hplace]

theorem Body.layout_grown (c : Catalog) (b : Body) :
    (b.declared c).Grown c (b.declared c) :=
  .refl (declared_sound c b).1 (declared_origins c b)

/-- A body has the same layout in every order of its statements, up to the order of its bindings. -/
theorem Body.layout_perm (c : Catalog) {b : Body} {xs : List (Statement Clause)}
    (hperm : b.statements.Perm xs) (items : List Path) :
    (b.layout c items).Reordered c (({ b with statements := xs } : Body).layout c items) := by
  unfold layout
  refine (layout_grown c b).bindOwn_perm ?_
  rw [records_eq, records_eq, statementsRecords_eq, statementsRecords_eq]
  exact ((hperm.flatMap_right statementRecords).append_right items).append_right _

end EntityQuery
