import EntityQuery.Proofs.Evaluation.Outcomes
import EntityQuery.Proofs.Meaning.Naming

/-!
# Scenes beside tuples

A scene belongs to a tuple when its layout names the frame of the tuple and both hold the same
records in the same order. Where all scenes around an expression belong to the tuples there, a path
leads by name to the very record that its level and its slot number give.
-/

namespace EntityQuery

/-! ## Looking up a place -/

/-- A named tuple is read by the position of the name. -/
theorem NamedTuple.lookup_eq (named : NamedTuple) (a : Place) :
    named.lookup a =
      ((named.map Prod.fst).findIdx? (· == a)).bind fun k => (named.map Prod.snd)[k]? := by
  induction named with
  | nil => rfl
  | cons x named ih =>
    obtain ⟨b, r⟩ := x
    rw [List.lookup_cons, List.map_cons, List.map_cons, List.findIdx?_cons]
    by_cases h : a = b
    · subst h
      simp
    · have hab : (a == b) = false := beq_false_of_ne h
      have hba : (b == a) = false := beq_false_of_ne fun h' => h h'.symm
      rw [hab, hba, ih]
      cases (named.map Prod.fst).findIdx? (· == a) with
      | none => rfl
      | some k => rfl

/-- A scene that belongs to a tuple. -/
structure Scene.Aligns (x : Scene) (f : Frame) (tuple : Tuple) : Prop where
  names : x.layout.Names f
  places : x.tuple.map Prod.fst = x.layout.places
  records : x.tuple.map Prod.snd = tuple

theorem Scene.Aligns.record {x : Scene} {f : Frame} {tuple : Tuple} (h : x.Aligns f tuple)
    {a : Place} {k : Nat} (ha : x.layout.number? a = some k) : tuple[k]? = some (x.record a) := by
  have hlt : k < tuple.length := by
    rw [← h.records, List.length_map, ← List.length_map (f := Prod.fst), h.places]
    exact (List.findIdx?_eq_some_iff_getElem.mp ha).1
  rw [Scene.record, NamedTuple.lookup_eq, h.places, h.records]
  rw [Layout.number?] at ha
  rw [ha, Option.bind_some, List.getElem?_eq_getElem hlt]
  rfl

/-! ## Following a path by name -/

/-- What the last name of a path stands for at an entity. -/
def Resolved.EndsAt (c : Catalog) (owner : String) (hops : List String) : Resolved → Prop
  | field column stored => hops.getLast? = some stored.name ∧
      c.attribute? owner stored.name = some (.field stored) ∧ column.field = stored.name
  | relation _ _ r => hops.getLast? = some r.name ∧
      c.attribute? owner r.name = some (.relation r)
  | record .. => hops = []

theorem Layout.follow_concat (l : Layout) (a : Place) (hops : List String) (name : String) :
    l.follow a (hops ++ [name]) =
      (l.along? (l.follow a hops) name).getD ((l.follow a hops).child name) := by
  rw [follow, List.foldl_append]
  rfl

theorem Layout.Names.follow {c : Catalog} {l : Layout} {f : Frame} (h : l.Names f)
    (hf : f.Sound c) {a : Place} {level k : Nat} {entity : String} {hops : List String}
    {r : Resolved} (ha : l.number? a = some k) (hentity : f.entityOf? k = some entity)
    (hr : f.trace? c level k entity hops = some r) :
    l.number? (l.follow a hops.dropLast) = some r.slot ∧
      ∃ owner, f.entityOf? r.slot = some owner ∧ r.EndsAt c owner hops := by
  -- On the hops; the place and the slot reached so far belong together.
  induction hops generalizing a k entity with
  | nil =>
    cases hr
    exact ⟨ha, entity, hentity, rfl⟩
  | cons name rest ih =>
    cases rest with
    | nil =>
      unfold Frame.trace? at hr
      split at hr
      · rename_i stored hname
        cases hr
        obtain ⟨e, -, hfield⟩ := Catalog.attribute?_field hname
        obtain rfl := (Entity.field?_mem hfield).2
        exact ⟨ha, entity, hentity, rfl, hname, rfl⟩
      · rename_i relation hname
        cases hr
        obtain rfl := (Schema.relation?_name (Catalog.attribute?_relation hname)).2
        exact ⟨ha, entity, hentity, rfl, hname⟩
      · cases hr
    | cons next rest =>
      unfold Frame.trace? at hr
      split at hr
      · rename_i relation hname
        have hrelation := Catalog.attribute?_relation hname
        obtain rfl := (Schema.relation?_name hrelation).2
        split at hr
        · rename_i slot hslot
          rcases h.along? ha relation.name with ⟨-, hnone⟩ | ⟨b, slot', hb, hslot', hnumber⟩
          · rw [hnone] at hslot
            cases hslot
          · obtain rfl := Option.some.inj (hslot'.symm.trans hslot)
            obtain ⟨hplace, owner, howner, hends⟩ :=
              ih hnumber (hf.entityOf?_joinAlong? hentity hrelation hslot) hr
            refine ⟨?_, owner, howner, ?_⟩
            · rw [List.dropLast_cons_cons, Layout.follow, List.foldl_cons, hb]
              exact hplace
            · cases r with
              | field column stored => exact ⟨by rw [List.getLast?_cons_cons]; exact hends.1, hends.2⟩
              | relation l s r => exact ⟨by rw [List.getLast?_cons_cons]; exact hends.1, hends.2⟩
              | record l s e => cases hends
        · cases hr
      · cases hr

/-! ## Environments beside tuples -/

/-- Scenes that belong to tuples one by one, each under the scope of its frame. -/
inductive Aligned (c : Catalog) : List Frame → Environment → List Tuple → Prop
  | nil : Aligned c [] [] []
  | cons {f : Frame} {x : Scene} {tuple : Tuple} {frames : List Frame} {env : Environment}
      {outer : List Tuple} : f.Sound c → x.Aligns f tuple → Aligned c frames env outer →
      Aligned c (f :: frames) ((f.scope, x) :: env) (tuple :: outer)

namespace Aligned

variable {c : Catalog} {frames : List Frame} {env : Environment} {tuple : Tuple}
  {outer : List Tuple} {p : Path}

/-- The scope of a frame is found under its number. -/
theorem locate? {tuples : List Tuple} (h : Aligned c frames env tuples) {scope level : Nat}
    {f : Frame} (hf : Frame.locate? scope frames = some (level, f)) :
    ∃ x tuple, env.lookup scope = some x ∧ tuples[level]? = some tuple ∧ f.Sound c ∧
      x.Aligns f tuple := by
  induction h generalizing level with
  | nil => cases hf
  | @cons g x tuple frames env outer hsound haligns _ ih =>
    unfold Frame.locate? at hf
    rw [List.lookup_cons]
    split at hf
    · rename_i hscope
      cases hf
      exact ⟨x, tuple, by simp [hscope], rfl, hsound, haligns⟩
    · rename_i hscope
      obtain ⟨⟨i, f'⟩, hf', heq⟩ := Option.map_eq_some_iff.mp hf
      cases heq
      obtain ⟨y, tuple', hy, htuple', hrest⟩ := ih hf'
      have hne : (scope == g.scope) = false := beq_false_of_ne fun h => hscope h.symm
      exact ⟨y, tuple', by rw [hne]; exact hy, htuple', hrest⟩

/-- The record that a path reads is the one in its slot so many levels out. -/
theorem holder (h : Aligned c frames env (tuple :: outer)) {r : Resolved}
    (hr : p.target? c frames = some r) :
    tuple.record outer r.level r.slot = .ok (env.record p.holder) ∧
      ∃ owner, env.entity? p.holder = some owner ∧ r.EndsAt c owner p.hops := by
  obtain ⟨f, slot, entity, hf, hslot, hentity, htrace⟩ := Path.target?_eq_some hr
  obtain ⟨x, inner, hx, hinner, hsound, haligns⟩ := h.locate? hf
  have ha : x.layout.number? ⟨p.origin, []⟩ = some slot := by rw [← haligns.names.origins, hslot]
  obtain ⟨hplace, owner, howner, hends⟩ := haligns.names.follow hsound ha hentity htrace
  have hlookup : env.lookup p.holder.scope = some x := hx
  refine ⟨?_, owner, ?_, hends⟩
  · simp only [Tuple.record, hinner, haligns.record hplace, Environment.record, hlookup,
      Option.bind_some]
    rfl
  · simp only [Environment.entity?, hlookup, Option.bind_some]
    exact (haligns.names.entity? hplace).trans howner

theorem field (h : Aligned c frames env (tuple :: outer)) {column : Column} {f : Field}
    (hp : p.target? c frames = some (.field column f)) :
    tuple.record outer column.level column.slot = .ok (env.record p.holder) ∧
      column.value tuple outer = .ok (env.value p) ∧ p.hops.getLast? = some column.field ∧
      env.attribute? p c = some (.field f) := by
  obtain ⟨hrecord, owner, howner, hlast, hattribute, hname⟩ := h.holder hp
  have hrecord : tuple.record outer column.level column.slot = .ok (env.record p.holder) := hrecord
  refine ⟨hrecord, ?_, ?_, ?_⟩
  · simp [Column.value, hrecord, bind, Except.bind, Environment.value, hlast, hname]
  · rw [hlast, hname]
  · simp [Environment.attribute?, hlast, howner, hattribute]

theorem relation (h : Aligned c frames env (tuple :: outer)) {level slot : Nat} {r : Relation}
    (hp : p.target? c frames = some (.relation level slot r)) :
    tuple.record outer level slot = .ok (env.record p.holder) ∧
      env.attribute? p c = some (.relation r) := by
  obtain ⟨hrecord, owner, howner, hlast, hattribute⟩ := h.holder hp
  refine ⟨hrecord, ?_⟩
  simp [Environment.attribute?, hlast, howner, hattribute]

theorem record (h : Aligned c frames env (tuple :: outer)) {level slot : Nat} {entity : String}
    (hp : p.target? c frames = some (.record level slot entity)) :
    tuple.record outer level slot = .ok (env.record p) ∧ env.attribute? p c = none := by
  obtain ⟨hrecord, owner, howner, hhops⟩ := h.holder hp
  obtain ⟨scope, e, origin, hops⟩ := p
  obtain rfl : hops = [] := hhops
  exact ⟨hrecord, rfl⟩

/-- The record behind a relation of the query itself is the one that the whole path leads to. -/
theorem related (h : Aligned c frames env (tuple :: outer)) {parent slot : Nat} {r : Relation}
    {f : Frame} (hp : p.target? c frames = some (.relation 0 parent r)) (hf : frames[0]? = some f)
    (hslot : f.joinAlong? parent r.name = some slot) :
    tuple.record outer 0 slot = .ok (env.record p) := by
  obtain ⟨g, k, entity, hg, hk, hentity, htrace⟩ := Path.target?_eq_some hp
  -- Level 0 is the frame of the query itself, which the path is located in.
  obtain rfl := Option.some.inj (hf.symm.trans (Frame.locate?_getElem? hg))
  obtain ⟨x, inner, hx, hinner, hsound, haligns⟩ := h.locate? hg
  have ha : x.layout.number? ⟨p.origin, []⟩ = some k := by rw [← haligns.names.origins, hk]
  -- The layout leads to the owner of the relation, and from there one hop further.
  obtain ⟨hplace, owner, howner, hlast, -⟩ := haligns.names.follow hsound ha hentity htrace
  rcases haligns.names.along? hplace r.name with ⟨-, hnone⟩ | ⟨b, slot', hb, hslot', hnumber⟩
  · exact absurd (hslot.symm.trans hnone) (by simp)
  · obtain rfl := Option.some.inj (hslot'.symm.trans hslot)
    have hhops : p.hops = p.hops.dropLast ++ [r.name] := by
      obtain ⟨hne, hget⟩ := List.getLast?_eq_some_iff.mp hlast
      rw [hget, List.dropLast_concat]
    have hfollow : x.layout.follow ⟨p.origin, []⟩ p.hops = b := by
      rw [hhops, Layout.follow_concat, hb, Option.getD_some]
    have hinner : (tuple :: outer)[0]? = some inner := hinner
    simp only [Tuple.record, hinner, haligns.record hnumber, Environment.record, hx,
      Option.bind_some, hfollow]

end Aligned

/-! ## Binding -/

namespace Layout.Names

variable {c : Catalog} {l : Layout} {f : Frame} {t : Tables}

/-- The beginnings of a named tuple and of a tuple, with so many slots. -/
def Begins (l : Layout) (length : Nat) (named : NamedTuple) (tuple : Tuple) : Prop :=
  named.map Prod.fst = l.places.take length ∧ named.map Prod.snd = tuple ∧ tuple.length = length

/-- A parent slot that is bound already is read alike. -/
theorem Begins.parent {length : Nat} {named : NamedTuple} {tuple : Tuple}
    (h : Begins l length named tuple) {a : Place} {k : Nat} (ha : l.number? a = some k)
    (hk : k < length) : (named.lookup a).join = (tuple[k]?).join := by
  have hfind : (l.places.take length).findIdx? (· == a) = some k := by
    rw [Layout.number?] at ha
    simp [List.findIdx?_take, ha, hk, Option.guard]
  rw [NamedTuple.lookup_eq, h.1, h.2.1, hfind, Option.bind_some]

/-- A binding and its join extend tuples alike. -/
theorem Begins.extend {i : Nat} {named : NamedTuple} {tuple : Tuple}
    (h : Begins l (i + 1) named tuple) {x : Binding} {j : Join} (hx : x.Names l j)
    (hplace : l.places[i + 1]? = some x.place) (hparent : j.parent ≤ i) (targets : List Record) :
    List.Forall₂ (Begins l (i + 2)) (x.extend targets named) (j.extend targets tuple) := by
  have push : ∀ o : Option Record, Begins l (i + 2) (named ++ [(x.place, o)]) (tuple ++ [o]) := by
    intro o
    obtain ⟨hplaces, hrecords, hlength⟩ := h
    refine ⟨?_, by simp [hrecords], by simp [hlength]⟩
    rw [List.map_append, hplaces, List.take_add_one (i := i + 1), hplace]
    rfl
  -- The parent is read alike, so the same records match.
  have hkey : related (fieldValue (named.lookup x.parent).join x.relation.fromField)
      x.relation.toField targets = j.matching targets tuple := by
    rw [Join.matching, hx.parentField, hx.entityField, h.parent hx.parent (by omega)]
  unfold Binding.extend Join.extend
  rw [hkey, hx.kind]
  cases j.matching targets tuple with
  | nil =>
    cases x.kind with
    | inner => exact .nil
    | left => exact .cons (push none) .nil
  | cons r rs =>
    simp only
    generalize r :: rs = records
    induction records with
    | nil => exact .nil
    | cons r rs ih => exact .cons (push (some r)) ih

/-- Bindings and joins give the same tuples, or the same failure. -/
theorem bindAll (h : l.Names f) (hf : f.Sound c) {i : Nat} {bindings : List Binding}
    {joins : List Join} (hbindings : l.bindings.drop i = bindings) (hjoins : f.joins.drop i = joins)
    {named : List NamedTuple} {tuples : List Tuple}
    (htuples : List.Forall₂ (Begins l (i + 1)) named tuples) (hi : i ≤ f.joins.length) :
    Alike (List.Forall₂ (Begins l (f.joins.length + 1)))
      (EntityQuery.bindAll t bindings named) (t.joinAll joins tuples) := by
  -- On the bindings that are left, with the joins that they name.
  induction bindings generalizing i joins named tuples with
  | nil =>
    have hlength := List.drop_eq_nil_iff.mp hbindings
    rw [h.length] at hlength
    obtain rfl : i = f.joins.length := by omega
    rw [List.drop_length] at hjoins
    subst hjoins
    exact htuples
  | cons x bindings ih =>
    have hx : l.bindings[i]? = some x := by
      rw [← List.head?_drop, hbindings]
      rfl
    obtain ⟨j, hj, hnames⟩ := forall₂_getElem? h.joins hx
    have hjoins' : joins = j :: f.joins.drop (i + 1) := by
      obtain ⟨hlt, rfl⟩ := List.getElem?_eq_some_iff.mp hj
      rw [← hjoins, List.drop_eq_getElem_cons hlt]
    have hbindings' : l.bindings.drop (i + 1) = bindings := by
      rw [← List.tail_drop, hbindings]
      rfl
    obtain ⟨hslot, hparent⟩ := hf.ordered i j hj
    subst hjoins'
    -- Every tuple has its next slot free, so the join does not fail on its own account.
    have happly : j.apply t tuples = (t.table x.relation.toEntity).bind fun targets =>
        .ok (tuples.flatMap (j.extend targets)) := by
      rw [Join.apply, hnames.entity]
      cases t.table x.relation.toEntity with
      | error e => rfl
      | ok targets =>
        refine flatMapE_ok fun tuple htuple => ?_
        obtain ⟨k, hk⟩ := List.mem_iff_getElem?.mp htuple
        obtain ⟨_, -, -, -, hlength⟩ := forall₂_getElem? htuples.flip hk
        rw [if_pos (by omega)]
    rw [EntityQuery.bindAll, Tables.joinAll, happly]
    cases t.table x.relation.toEntity with
    | error e => exact rfl
    | ok targets =>
      refine ih hbindings' rfl ?_ (List.getElem?_eq_some_iff.mp hj).1
      refine List.rel_flatMap htuples fun named tuple hbegins => ?_
      refine hbegins.extend hnames ?_ hparent targets
      simp [Layout.places, hx]

/-- A layout and its frame bind the same tuples, or fail alike. -/
theorem bind (h : l.Names f) (hf : f.Sound c) :
    Alike (List.Forall₂ fun named tuple => (⟨l, named⟩ : Scene).Aligns f tuple)
      (l.bind t) (t.bind f.entity f.joins) := by
  rw [Layout.bind, Tables.bind, h.entity]
  cases t.table f.entity with
  | error e => exact rfl
  | ok records =>
    have hroot : List.Forall₂ (Begins l 1) (records.map fun r => [(Place.root, some r)])
        (records.map fun r => [some r]) := by
      induction records with
      | nil => exact .nil
      | cons r records ih => exact .cons ⟨rfl, rfl, rfl⟩ ih
    have hwhole : l.places.take (f.joins.length + 1) = l.places := by
      rw [List.take_of_length_le]
      simp [Layout.places, h.length]
    refine (h.bindAll hf (i := 0) rfl rfl hroot (Nat.zero_le _)).mono fun named tuples hall => ?_
    refine hall.imp fun named tuple hbegins => ⟨h, ?_, hbegins.2.1⟩
    rw [hbegins.1, hwhole]

end Layout.Names

end EntityQuery
