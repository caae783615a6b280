import EntityQuery.Proofs.Meaning.Congruence
import EntityQuery.Proofs.Meaning.Joining
import EntityQuery.Proofs.Planning.Opening

/-!
# One more join

A body may declare one more join from its root, behind the joins that it has. What it binds besides stays
the same, and each of its tuples goes on with the records that the new join gives for its root; its paths
lead where they led before, unless one of them has been joining the relation on its own.
-/

namespace EntityQuery

namespace Layout

/-! ## A layout with one more binding -/

/-- A binding from the root that may be declared behind declared joins. -/
structure Admits (c : Catalog) (base : Layout) (k : Binding) : Prop where
  sound : base.Sound c
  origins : ∀ x ∈ base.bindings, x.place.chain = []
  parent : k.parent = .root
  origin : k.place.chain = []
  fresh : k.place ∉ base.places
  relation : c.relation? base.entity k.relation.name = some k.relation

/-- A path that a new binding leaves alone: its origin is bound, and it does not begin with a relation that
is followed along the new binding first. -/
def Spares (base : Layout) (k : Binding) (p : Path) : Prop :=
  (∃ entity, base.entity? ⟨p.origin, []⟩ = some entity) ∧
    (p.origin = .root → p.hops.head? = some k.relation.name →
      base.along? .root k.relation.name ≠ none)

section Along

variable {l : Layout} {k : Binding} {a b : Place} {name : String}

theorem along?_push_of_some (h : l.along? a name = some b) : (l.push k).along? a name = some b := by
  obtain ⟨x, hx, rfl⟩ := Option.map_eq_some_iff.mp h
  rw [along?, push_bindings, List.find?_append, hx]
  rfl

theorem along?_push_of_ne (h : a ≠ k.parent ∨ name ≠ k.relation.name) :
    (l.push k).along? a name = l.along? a name := by
  have hk : (k.parent == a && k.relation.name == name) = false := by
    rw [Bool.and_eq_false_iff, beq_eq_false_iff_ne, beq_eq_false_iff_ne]
    exact h.imp Ne.symm Ne.symm
  rw [along?, along?, push_bindings, List.find?_append, List.find?_singleton, hk]
  simp

end Along

theorem Spares.onWay {base : Layout} {k : Binding} {p q : Path} (h : base.Spares k q)
    (horigin : p.origin = q.origin) (hhops : p.hops <+: q.hops) : base.Spares k p := by
  refine ⟨by rw [horigin]; exact h.1, fun hroot hhead => h.2 (horigin ▸ hroot) ?_⟩
  obtain ⟨more, hmore⟩ := hhops
  rw [← hmore, List.head?_append, hhead]
  rfl

namespace Admits

variable {c : Catalog} {base : Layout} {k : Binding} {a : Place} {p : Path}

theorem push_sound (h : base.Admits c k) : (base.push k).Sound c := by
  refine h.sound.push ?_ h.relation h.fresh
  rw [h.parent, entity?, if_pos rfl]

theorem push_origins (h : base.Admits c k) : ∀ x ∈ (base.push k).bindings, x.place.chain = [] := by
  intro x hx
  rcases List.mem_append.mp hx with hx | hx
  · exact h.origins x hx
  · obtain rfl := List.mem_singleton.mp hx
    exact h.origin

/-- A hop leads neither back to the root nor to the new place. -/
theorem hop_ne (h : base.Admits c k) (a : Place) (name : String) :
    (base.along? a name).getD (a.child name) ≠ .root ∧
      (base.along? a name).getD (a.child name) ≠ k.place := by
  cases halong : base.along? a name with
  | some b =>
    obtain ⟨x, hx, -, -, rfl⟩ := along?_eq_some halong
    refine ⟨h.sound.chained.fresh hx, fun heq => h.fresh ?_⟩
    exact heq ▸ List.mem_cons_of_mem _ (List.mem_map_of_mem hx)
  | none =>
    constructor
    · intro heq
      simpa [Place.child, Place.root] using congrArg Place.chain heq
    · intro heq
      have hchain := h.origin
      rw [← show a.child name = k.place from heq] at hchain
      simp [Place.child] at hchain

/-- Behind the root all hops lead where they led. -/
theorem follow_of_ne (h : base.Admits c k) (hroot : a ≠ .root) (hplace : a ≠ k.place)
    (hops : List String) :
    (base.push k).follow a hops = base.follow a hops ∧ base.follow a hops ≠ k.place := by
  induction hops generalizing a with
  | nil => exact ⟨rfl, hplace⟩
  | cons name rest ih =>
    have hne := h.hop_ne a name
    unfold follow
    rw [List.foldl_cons, List.foldl_cons, along?_push_of_ne (.inl (h.parent ▸ hroot))]
    exact ih hne.1 hne.2

/-- The first hop of a path that is left alone is what it was. -/
theorem along?_head (h : base.Admits c k) (hp : base.Spares k p) {name : String}
    (hname : p.hops.head? = some name) :
    (base.push k).along? ⟨p.origin, []⟩ name = base.along? ⟨p.origin, []⟩ name := by
  by_cases hk : p.origin = .root ∧ name = k.relation.name
  · obtain ⟨hroot, rfl⟩ := hk
    obtain ⟨b, hb⟩ := Option.ne_none_iff_exists'.mp (hp.2 hroot hname)
    rw [hroot, ← Place.root, hb]
    exact along?_push_of_some hb
  · refine along?_push_of_ne ?_
    rw [not_and_or] at hk
    refine hk.imp_left fun hroot heq => hroot ?_
    rw [h.parent] at heq
    exact congrArg Place.origin heq

theorem origin_ne (h : base.Admits c k) (hp : base.Spares k p) : (⟨p.origin, []⟩ : Place) ≠ k.place := by
  obtain ⟨entity, hentity⟩ := hp.1
  exact fun heq => h.fresh (heq ▸ mem_places_of_entity? hentity)

/-- A path that is left alone leads where it led, which is not the new place. -/
theorem follow (h : base.Admits c k) (hp : base.Spares k p) :
    (base.push k).follow ⟨p.origin, []⟩ p.hops = base.follow ⟨p.origin, []⟩ p.hops ∧
      base.follow ⟨p.origin, []⟩ p.hops ≠ k.place := by
  cases hhops : p.hops with
  | nil => exact ⟨rfl, h.origin_ne hp⟩
  | cons name rest =>
    have hne := h.hop_ne ⟨p.origin, []⟩ name
    unfold Layout.follow
    rw [List.foldl_cons, List.foldl_cons, h.along?_head hp (by rw [hhops]; rfl)]
    exact h.follow_of_ne hne.1 hne.2 rest

theorem hopBindings_of_ne (h : base.Admits c k) (hroot : a ≠ .root) (entity : String)
    (hops : List String) :
    (base.push k).hopBindings c a entity hops = base.hopBindings c a entity hops := by
  induction hops generalizing a entity with
  | nil => rfl
  | cons name rest ih =>
    -- No hop ends at the added binding, so each goes on from elsewhere.
    have hne := (h.hop_ne a name).1
    unfold hopBindings
    rw [along?_push_of_ne (.inl (h.parent ▸ hroot))]
    cases c.attribute? entity name with
    | none => rfl
    | some named =>
      cases named with
      | field f => rfl
      | relation r =>
        cases halong : base.along? a name with
        | some b =>
          rw [halong] at hne
          exact ih hne r.toEntity
        | none =>
          rw [halong, Option.getD_none] at hne
          simp only [ih hne]

/-- A path that is left alone has the bindings that it had. -/
theorem pathBindings (h : base.Admits c k) (hp : base.Spares k p) :
    (base.push k).pathBindings c p = base.pathBindings c p := by
  obtain ⟨entity, hentity⟩ := hp.1
  unfold Layout.pathBindings
  rw [entity?_push hentity, hentity]
  cases hhops : p.hops with
  | nil => rfl
  | cons name rest =>
    have hne := (h.hop_ne ⟨p.origin, []⟩ name).1
    simp only
    unfold hopBindings
    -- Only the first hop could meet the added binding, and it is spared.
    rw [h.along?_head hp (by rw [hhops]; rfl)]
    cases c.attribute? entity name with
    | none => rfl
    | some named =>
      cases named with
      | field f => rfl
      | relation r =>
        cases halong : base.along? ⟨p.origin, []⟩ name with
        | some b =>
          rw [halong] at hne
          exact h.hopBindings_of_ne hne r.toEntity rest
        | none =>
          rw [halong, Option.getD_none] at hne
          simp only [h.hopBindings_of_ne hne]

section Paths

variable {scope : Nat} {ps : List Path}

theorem grown (h : base.Admits c k) (scope : Nat) (ps : List Path) :
    base.Grown c (base.bindOwn c scope ps) :=
  ((Grown.refl h.sound h.origins).bindOwn scope ps).1

theorem push_grown (h : base.Admits c k) (scope : Nat) (ps : List Path) :
    (base.push k).Grown c ((base.push k).bindOwn c scope ps) :=
  ((Grown.refl h.push_sound h.push_origins).bindOwn scope ps).1

/-- What paths bind besides is no origin. -/
theorem fresh_bindOwn (h : base.Admits c k) (scope : Nat) (ps : List Path) :
    k.place ∉ (base.bindOwn c scope ps).places := by
  obtain ⟨more, hmore, hnew⟩ := (h.grown scope ps).bindings
  have hfresh := h.fresh
  rw [places, List.mem_cons, not_or] at hfresh ⊢
  refine ⟨hfresh.1, fun hmem => ?_⟩
  rw [hmore, List.map_append, List.mem_append] at hmem
  rcases hmem with hmem | hmem
  · exact hfresh.2 hmem
  · obtain ⟨x, hx, hplace⟩ := List.mem_map.mp hmem
    have hchain := h.origin
    rw [← hplace, (hnew x hx).1] at hchain
    simp [Place.child] at hchain

/-- It does not matter whether a new binding is declared before paths bind their places or after that. -/
theorem bindOwn_perm (h : base.Admits c k) (hps : ∀ p ∈ ps, scope = p.scope → base.Spares k p) :
    ((base.push k).bindOwn c scope ps).bindings.Perm ((base.bindOwn c scope ps).push k).bindings := by
  have hmem := ((Grown.refl h.sound h.origins).bindOwn scope ps).2
  have hmem' := ((Grown.refl h.push_sound h.push_origins).bindOwn scope ps).2
  have hfresh : k ∉ (base.bindOwn c scope ps).bindings := fun hk =>
    h.fresh_bindOwn scope ps (List.mem_cons_of_mem _ (List.mem_map_of_mem hk))
  have hnodup : ((base.bindOwn c scope ps).push k).bindings.Nodup := by
    rw [push_bindings, List.nodup_append]
    refine ⟨(h.grown scope ps).sound.chained.nodup.of_map, List.nodup_singleton k, ?_⟩
    rintro x hx y hy rfl
    exact hfresh (List.mem_singleton.mp hy ▸ hx)
  refine (List.perm_ext_iff_of_nodup (h.push_grown _ _).sound.chained.nodup.of_map hnodup).mpr fun x => ?_
  have hpaths : (∃ p ∈ ps, scope = p.scope ∧ x ∈ (base.push k).pathBindings c p) ↔
      ∃ p ∈ ps, scope = p.scope ∧ x ∈ base.pathBindings c p := by
    refine exists_congr fun p => and_congr_right fun hp => and_congr_right fun hscope => ?_
    rw [h.pathBindings (hps p hp hscope)]
  rw [hmem', hpaths, push_bindings, push_bindings, List.mem_append, List.mem_append, hmem]
  exact or_right_comm

theorem push_chained (h : base.Admits c k) :
    Chained {.root} ((base.bindOwn c scope ps).push k).bindings := by
  have hfresh := h.fresh_bindOwn scope ps
  rw [places, List.mem_cons, not_or] at hfresh
  exact (h.grown _ _).sound.chained.concat (.inl h.parent) hfresh.1 hfresh.2

/-- The entities of the places that were bound stay the same. -/
theorem entity?_bindOwn (h : base.Admits c k) (hps : ∀ p ∈ ps, scope = p.scope → base.Spares k p)
    (ha : a ≠ k.place) :
    ((base.push k).bindOwn c scope ps).entity? a = (base.bindOwn c scope ps).entity? a := by
  by_cases hroot : a = .root
  · rw [entity?, entity?, if_pos hroot, if_pos hroot, (h.grown _ _).entity, (h.push_grown _ _).entity]
    rfl
  · ext entity
    rw [(h.push_grown _ _).sound.entity?_eq_some hroot, (h.grown _ _).sound.entity?_eq_some hroot]
    refine exists_congr fun x => ?_
    rw [(h.bindOwn_perm hps).mem_iff, push_bindings, List.mem_append, List.mem_singleton]
    constructor
    · rintro ⟨hx | rfl, hplace, hentity⟩
      · exact ⟨hx, hplace, hentity⟩
      · exact absurd hplace.symm ha
    · rintro ⟨hx, hrest⟩
      exact ⟨.inl hx, hrest⟩

/-- Each tuple goes on with the records that the new binding gives for its root. -/
theorem mem_readings (h : base.Admits c k) (hps : ∀ p ∈ ps, scope = p.scope → base.Spares k p)
    {t : Tables} {tuples tuples' : List NamedTuple}
    (htuples : (base.bindOwn c scope ps).bind t = .ok tuples)
    (htuples' : ((base.push k).bindOwn c scope ps).bind t = .ok tuples') {f : Reading} :
    f ∈ tuples'.map NamedTuple.reading ↔ ∃ tuple ∈ tuples,
      ∃ o ∈ k.choices t (NamedTuple.reading tuple .root),
        Function.update (NamedTuple.reading tuple) k.place o = f := by
  obtain ⟨records, hrecords, hreadings⟩ := (h.grown _ _).sound.bind_readings htuples
  obtain ⟨records', hrecords', hreadings'⟩ := (h.push_grown _ _).sound.bind_readings htuples'
  rw [(h.grown _ _).entity] at hrecords
  rw [(h.push_grown _ _).entity] at hrecords'
  obtain rfl := Except.ok.inj (hrecords.symm.trans hrecords')
  -- The new binding may be taken last.
  have hlast : Multiset.ofList (tuples'.map NamedTuple.reading) =
      k.step t (Multiset.ofList (tuples.map NamedTuple.reading)) := by
    rw [hreadings', hreadings, stepAll_perm (h.push_grown _ _).sound.chained h.push_chained
      (h.bindOwn_perm hps), stepAll, stepAll, push_bindings, List.foldl_append]
    rfl
  rw [← Multiset.mem_coe, hlast, Binding.step, Multiset.mem_bind]
  simp only [Multiset.mem_coe, Multiset.mem_map, List.mem_map, exists_exists_and_eq_and, h.parent]

/-- Paths that are left alone lead to the same records in a tuple that goes on so. -/
theorem same (h : base.Admits c k) (hps : ∀ p ∈ ps, scope = p.scope → base.Spares k p)
    {tuple tuple' : NamedTuple} {o : Option Record}
    (htuple : Function.update (NamedTuple.reading tuple) k.place o = NamedTuple.reading tuple') :
    Environment.Same ps [(scope, ⟨base.bindOwn c scope ps, tuple⟩)]
      [(scope, ⟨(base.push k).bindOwn c scope ps, tuple'⟩)] := by
  -- Everywhere but in the added slot the tuples agree.
  have hrecord : ∀ a, a ≠ k.place → Scene.record ⟨base.bindOwn c scope ps, tuple⟩ a =
      Scene.record ⟨(base.push k).bindOwn c scope ps, tuple'⟩ a := by
    intro a ha
    have hreading := congrFun htuple a
    rw [Function.update_of_ne ha] at hreading
    exact hreading
  -- On the way of the paths the layouts lead to the same places, and never to that slot.
  have hfollow : ∀ p : Path, p.OnWayTo ps → scope = p.scope →
      ((base.push k).bindOwn c scope ps).follow ⟨p.origin, []⟩ p.hops =
          (base.bindOwn c scope ps).follow ⟨p.origin, []⟩ p.hops ∧
        (base.bindOwn c scope ps).follow ⟨p.origin, []⟩ p.hops ≠ k.place := by
    rintro p ⟨q, hq, hscope, horigin, hhops⟩ hp
    rw [(h.push_grown _ _).follow_eq, (h.grown _ _).follow_eq]
    exact h.follow ((hps q hq (hp.trans hscope)).onWay horigin hhops)
  refine ⟨fun {p} hp => ?_, fun {p} hp => ?_, hrecord .root fun heq => ?_⟩
  · unfold Environment.record
    rw [List.lookup_cons, List.lookup_cons]
    split
    · rename_i hscope
      obtain ⟨heq, hne⟩ := hfollow p hp (beq_iff_eq.mp hscope).symm
      simp only [Option.bind_some, heq, hrecord _ hne]
    · rfl
  · unfold Environment.entity?
    rw [List.lookup_cons, List.lookup_cons]
    split
    · rename_i hscope
      obtain ⟨heq, hne⟩ := hfollow p hp (beq_iff_eq.mp hscope).symm
      simp only [Option.bind_some, heq, h.entity?_bindOwn hps hne]
    · rfl
  · exact h.fresh (heq ▸ List.mem_cons_self)

end Paths

end Admits

/-! ## Declaring -/

theorem declareAll_append (c : Catalog) (l : Layout) (ds ds' : List JoinDeclaration) :
    l.declareAll c (ds ++ ds') = (l.declareAll c ds).declareAll c ds' := by
  induction ds generalizing l with
  | nil => rfl
  | cons d ds ih =>
    rw [List.cons_append, declareAll, declareAll]
    split
    · exact ih _
    · exact ih l

theorem declareAll_entity (c : Catalog) (l : Layout) (ds : List JoinDeclaration) :
    (l.declareAll c ds).entity = l.entity := by
  induction ds generalizing l with
  | nil => rfl
  | cons d ds ih =>
    rw [declareAll]
    split
    · exact ih _
    · exact ih l

end Layout

/-! ## Bodies -/

namespace Body

/-- A body with one more join, along a relation of its root. -/
def joining (b : Body) (r : Relation) (kind : JoinKind) : Body :=
  { b with joins := b.joins ++ [⟨.root, r.name, r.toEntity, r.isToMany, kind⟩] }

/-- The binding of one more join. -/
def nextBinding (c : Catalog) (b : Body) (r : Relation) (kind : JoinKind) : Binding :=
  ⟨⟨.join (b.declared c).bindings.length, []⟩, .root, r, kind⟩

variable {c : Catalog} {b : Body} {r : Relation} {kind : JoinKind} {items : List Path} {g : Frame}

theorem declared_entity (c : Catalog) (b : Body) : (b.declared c).entity = b.entity :=
  Layout.declareAll_entity c _ _

theorem layout_entity (c : Catalog) (b : Body) (items : List Path) :
    (b.layout c items).entity = b.entity :=
  ((layout_grown c b).bindOwn _ _).1.entity.trans (declared_entity c b)

theorem declared_admits (hr : c.relation? b.entity r.name = some r) (kind : JoinKind) :
    (b.declared c).Admits c (b.nextBinding c r kind) where
  sound := (declared_sound c b).1
  origins := declared_origins c b
  parent := rfl
  origin := rfl
  fresh := by
    rw [Layout.places, List.mem_cons, not_or]
    refine ⟨by simp [nextBinding, Place.root], fun hmem => ?_⟩
    obtain ⟨x, hx, hplace⟩ := List.mem_map.mp hmem
    obtain ⟨i, hi, hplace'⟩ := (declared_sound c b).2 x hx
    have heq : i = (b.declared c).bindings.length := by
      simpa [nextBinding] using hplace'.symm.trans hplace
    omega
  relation := by
    rw [declared_entity]
    exact hr

/-- The new binding stands behind those of the joins that were declared before. -/
theorem declared_joining (hr : c.relation? b.entity r.name = some r) (kind : JoinKind) :
    (b.joining r kind).declared c = (b.declared c).push (b.nextBinding c r kind) := by
  have howner : ((b.declared c).entity? ⟨.root, []⟩).bind (fun owner => c.relation? owner r.name) =
      some r := by
    have hroot : (b.declared c).entity? ⟨.root, []⟩ = some (b.declared c).entity := if_pos rfl
    rw [hroot, declared_entity, Option.bind_some, hr]
  rw [declared, joining, Layout.declareAll_append]
  show (b.declared c).declareAll c _ = _
  simp only [Layout.declareAll, howner]
  rfl

theorem layout_joining (hr : c.relation? b.entity r.name = some r) (kind : JoinKind)
    (items : List Path) : (b.joining r kind).layout c items =
      ((b.declared c).push (b.nextBinding c r kind)).bindOwn c b.scope (b.records items) := by
  have hrecords : (b.joining r kind).records items = b.records items := by
    rw [records_eq, records_eq]
    rfl
  rw [layout, hrecords, ← declared_joining hr]
  rfl

/-- Every declared join of a planned body has its binding. -/
theorem declared_length (hg : b.frame? c items = some g) :
    (b.declared c).bindings.length = b.joins.length := by
  obtain ⟨f, hf, -⟩ := Option.map_eq_some_iff.mp hg
  have hnames : (b.declared c).Names f := (Layout.Names.new b.scope b.entity).declareAll rfl hf
  rw [hnames.length, Frame.declareAll?_length hf]
  exact Nat.zero_add _

/-- The new binding has the next number. -/
theorem number?_nextBinding (hr : c.relation? b.entity r.name = some r) (kind : JoinKind)
    (items : List Path) : ((b.joining r kind).layout c items).number? (b.nextBinding c r kind).place =
      some ((b.declared c).bindings.length + 1) := by
  have hadmits := declared_admits hr kind
  obtain ⟨more, hmore, -⟩ :=
    (hadmits.push_grown b.scope (b.records items)).bindings
  have hself := Layout.number?_push_self (Layout.number?_eq_none.mpr hadmits.fresh)
  rw [Layout.number?] at hself
  rw [layout_joining hr, Layout.number?, Layout.places, hmore, List.map_append, ← List.cons_append,
    List.findIdx?_append]
  exact (congrArg (Option.or · _) hself).trans (Option.some_or)

/-- A binding at a child of the root is not a declared one: the frame has a join for it that a path has
added. -/
theorem exists_join_of_binding (hg : b.frame? c items = some g) {x : Binding} {name : String}
    (hx : x ∈ (b.layout c items).bindings) (hparent : x.parent = .root)
    (hplace : x.place = Place.root.child name) :
    ∃ j ∈ g.joins.drop b.joins.length, j.parent = 0 ∧ j.relation = x.relation.name := by
  have hnames := layout_names hg
  have hgrown : (b.declared c).Grown c (b.layout c items) := ((layout_grown c b).bindOwn _ _).1
  obtain ⟨more, hmore, -⟩ := hgrown.bindings
  -- Declared joins have places of their own, so it is among the bindings behind them.
  have hxmore : x ∈ more := by
    rw [hmore, List.mem_append] at hx
    refine hx.resolve_left fun hdeclared => ?_
    have hchain := declared_origins c b x hdeclared
    rw [hplace] at hchain
    simp [Place.child] at hchain
  -- Those go with the joins behind the declared ones, one by one.
  have hjoins := List.forall₂_drop b.joins.length hnames.joins
  rw [hmore, ← declared_length hg, List.drop_left] at hjoins
  obtain ⟨i, hi⟩ := List.mem_iff_getElem?.mp hxmore
  obtain ⟨j, hj, hxj⟩ := forall₂_getElem? hjoins hi
  rw [declared_length hg] at hj
  refine ⟨j, List.mem_of_getElem? hj, ?_, hxj.relation⟩
  have hzero := hxj.parent
  have hnumber : (b.layout c items).number? .root = some 0 := rfl
  rw [hparent, hnumber] at hzero
  exact (Option.some.inj hzero).symm

/-- A record that is opened is left alone by one more join along a relation, if the body does not join
that relation on its own. It cannot do so along a relation to many. -/
theorem spares_of_openedIn (hg : b.frame? c items = some g)
    (hr : c.relation? b.entity r.name = some r)
    (hfree : r.isToMany = true ∨
      ∀ j ∈ g.joins.drop b.joins.length, j.parent = 0 → j.relation ≠ r.name)
    (kind : JoinKind) {p : Path} (hscope : b.scope = p.scope) (hp : p.OpenedIn c [g]) :
    (b.declared c).Spares (b.nextBinding c r kind) p := by
  have hbuilt := frame?_built hg
  have hnames := layout_names hg
  have hgrown : (b.declared c).Grown c (b.layout c items) := ((layout_grown c b).bindOwn _ _).1
  obtain ⟨level, f, slot, entity, hf, hslot, hentity, hhead⟩ := hp
  -- The path is opened in the frame of the body itself.
  rw [Frame.locate?, if_pos (hbuilt.scope_eq.trans hscope)] at hf
  cases hf
  have hnumber : (b.layout c items).number? ⟨p.origin, []⟩ = some slot := by
    rw [← hnames.origins, hslot]
  refine ⟨⟨entity, ?_⟩, fun hroot hname hnone => ?_⟩
  · rw [← hgrown.entity?_origin, hnames.entity? hnumber, hentity]
  · -- The path starts at the root and goes along the relation that is joined once more.
    rw [hroot] at hslot hnumber
    cases hslot
    replace hnumber : (b.layout c items).number? .root = some 0 := hnumber
    obtain rfl : b.entity = entity := by
      rw [← hbuilt.entity_eq]
      exact Option.some.inj hentity
    obtain ⟨next, hnext⟩ := hhead _ r hname (Catalog.attribute?_of_relation? hr)
    rcases hgrown.along?_cases .root r.name with heq | ⟨-, -, x, hx, hparent, hxname, hplace, -, hmany⟩
    · -- The slot is one of a declared join, so the relation is followed along that join.
      rcases hnames.along? hnumber r.name with ⟨-, hnone'⟩ | ⟨a, _, ha, -, -⟩
      · exact absurd (hnext.symm.trans hnone') (by simp)
      · exact absurd ((heq.symm.trans ha).symm.trans hnone) (by simp)
    · -- The slot is one that a path has joined. Paths join only relations to one, and not this one.
      have howner : (b.layout c items).entity? x.parent = some b.entity := by
        rw [hparent, hnames.entity? hnumber, hentity]
      have hrelation : x.relation = r := hgrown.sound.relation_eq hx howner (by rw [hxname, hr])
      rcases hfree with hr' | hfree
      · rw [hrelation, hr'] at hmany
        cases hmany
      · obtain ⟨j, hj, hzero, hname⟩ := exists_join_of_binding hg hx hparent hplace
        exact hfree j hj hzero (hname.trans hxname)

end Body

end EntityQuery
