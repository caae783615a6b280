import EntityQuery.Proofs.Meaning.Adding
import EntityQuery.Proofs.Meaning.Tested
import EntityQuery.Proofs.Sample

/-!
# Tests of relations

What a relation leads to can be tested in a condition, or seen from the tuples of a join. The two are
evaluated on ways of their own: a condition looks up the related records of a slot, or only whether the key
is null, and a join goes through the records of a table for each tuple. They agree on every table.
-/

namespace EntityQuery

/-! ## What a join gives for its root -/

/-- What a join gives for a record: the related ones, or nothing if there are none and it is an outer
join. -/
theorem Binding.mem_choices {t : Tables} {k : Binding} {parent o : Option Record}
    {targets : List Record} (ht : t.table k.relation.toEntity = .ok targets) :
    o ∈ k.choices t parent ↔
      (∃ target ∈ related (fieldValue parent k.relation.fromField) k.relation.toField targets,
        o = some target) ∨
      (k.kind = .left ∧ o = none ∧
        related (fieldValue parent k.relation.fromField) k.relation.toField targets = []) := by
  rw [choices, ht]
  simp only
  generalize related (fieldValue parent k.relation.fromField) k.relation.toField targets = records
  cases records with
  | nil => cases k.kind <;> simp
  | cons r rs => simp [eq_comm]

/-! ## What tests see -/

/-- A record is at the root of a body. -/
structure Environment.HasRoot (env : Environment) (b : Body) (root : Record) : Prop where
  record : env.record b.rootPath = some root
  entity : env.entity? b.rootPath = some b.entity

section Tests

variable {c : Catalog} {s : Source} {env : Environment} {b : Body} {root : Record} {r : Relation}
  {targets : List Record}

theorem Environment.HasRoot.attribute? (h : env.HasRoot b root)
    (hr : c.relation? b.entity r.name = some r) :
    env.attribute? (b.rootPath.child r.name) c = some (.relation r) := by
  have hentity : env.entity? (b.rootPath.child r.name).holder = some b.entity := h.entity
  have hlast : (b.rootPath.child r.name).hops.getLast? = some r.name := rfl
  rw [Environment.attribute?, hlast, Option.bind_some, hentity, Option.bind_some,
    Catalog.attribute?_of_relation? hr]

/-- The records that a relation leads to from the root, by their identities. -/
theorem Environment.HasRoot.relatedIdentities (h : env.HasRoot b root)
    (ht : s.tables.table r.toEntity = .ok targets) :
    env.relatedIdentities c s (b.rootPath.child r.name).holder r =
      .ok ((related (fieldValue (some root) r.fromField) r.toField targets).map fun target =>
        fieldValue (some target) (((c.entity? r.toEntity).map Entity.identityField).getD "")) := by
  have hrecord : env.record (b.rootPath.child r.name).holder = some root := h.record
  rw [Environment.relatedIdentities, hrecord, ht]
  by_cases hnull : (fieldValue (some root) r.fromField).isNull = true
  · rw [if_pos hnull, related, if_pos hnull]
    rfl
  · rw [if_neg hnull]
    rfl

theorem Environment.HasRoot.elements (h : env.HasRoot b root)
    (hr : c.relation? b.entity r.name = some r) (ht : s.tables.table r.toEntity = .ok targets) :
    env.elements c s (b.rootPath.child r.name) =
      .ok ((related (fieldValue (some root) r.fromField) r.toField targets).map fun target =>
        fieldValue (some target) (((c.entity? r.toEntity).map Entity.identityField).getD "")) := by
  rw [Environment.elements, h.attribute? hr]
  exact h.relatedIdentities ht

/-- A relation is empty if nothing is related to the root. -/
theorem Clause.isEmpty_meaning (h : env.HasRoot b root)
    (hr : c.relation? b.entity r.name = some r) (ht : s.tables.table r.toEntity = .ok targets)
    (negated : Bool) :
    (Clause.isEmpty (b.rootPath.child r.name) negated).meaning c s env =
      .ok (some ((related (fieldValue (some root) r.fromField) r.toField targets).isEmpty !=
        negated)) := by
  rw [Clause.meaning]
  beta_reduce
  rw [h.elements hr ht]
  simp [bind, Except.bind]

/-- A value is a member of a relation if it equals the identity of what is related to the root. -/
theorem Clause.isMember_meaning (h : env.HasRoot b root)
    (hr : c.relation? b.entity r.name = some r) (ht : s.tables.table r.toEntity = .ok targets)
    {target : Entity} (htarget : c.entity? r.toEntity = some target) {v : Value}
    (hv : v.isNull = false) :
    (Clause.isMember (.literal v) (b.rootPath.child r.name) false).meaning c s env =
      .ok (some ((related (fieldValue (some root) r.fromField) r.toField targets).any fun target' =>
        (fieldValue (some target') target.identityField).equal v)) := by
  rw [Clause.meaning]
  beta_reduce
  rw [Expr.meaning, h.elements hr ht]
  simp [bind, Except.bind, hv, htarget, Function.comp_def]

/-- A key on the side of its owner leads nowhere if it is null. Otherwise it leads to what is related to
the root, if to anything; a key that leads nowhere on its own has to be excluded where only the null is
looked at. -/
theorem Clause.isNull_meaning (h : env.HasRoot b root)
    (hr : c.relation? b.entity r.name = some r) (ht : s.tables.table r.toEntity = .ok targets)
    {owner : Entity} (howner : c.entity? b.entity = some owner)
    (hkey : r.fromField ≠ owner.identityField →
      (fieldValue (some root) r.fromField).isNull = false →
      related (fieldValue (some root) r.fromField) r.toField targets ≠ []) :
    (Clause.isNull (.path (b.rootPath.child r.name)) false).meaning c s env =
      .ok (some (related (fieldValue (some root) r.fromField) r.toField targets).isEmpty) := by
  have hfrom : r.fromEntity = b.entity := (Schema.relation?_name hr).1
  have hrecord : env.record (b.rootPath.child r.name).holder = some root := h.record
  rw [Clause.meaning]
  beta_reduce
  rw [Expr.isNull, Environment.isNull, h.attribute? hr]
  simp only [hfrom, howner, Option.map_some, Option.some.injEq]
  -- A relation that starts at the identity is tested by what is related, any other by its key, which
  -- stands for the record that it leads to.
  by_cases hidentity : owner.identityField = r.fromField
  · rw [if_pos hidentity, h.relatedIdentities ht]
    simp [bind, Except.bind]
  · rw [if_neg hidentity, hrecord]
    cases hnull : (fieldValue (some root) r.fromField).isNull with
    | true =>
      rw [related, if_pos hnull]
      simp [bind, Except.bind]
    | false =>
      -- A key that is not null leads to some record, which is what is assumed of it.
      have hsome := hkey (fun heq => hidentity heq.symm) hnull
      rw [List.isEmpty_eq_false_iff.mpr hsome]
      rfl

end Tests

/-! ## Tests and joins -/

/-- A slot is bound for a root, in one of its tuples, to a record or to nothing with a property. -/
def Record.BindsIn (root : Record) (tuples : List Tuple) (slot : Nat)
    (P : Option Record → Prop) : Prop :=
  ∃ tuple ∈ tuples, tuple[0]? = some (some root) ∧ ∃ o, tuple[slot]? = some o ∧ P o

section Joins

variable {c : Catalog} {t : Tables} {b : Body} {r : Relation} {kind : JoinKind} {x : Clause}
  {tested joined : List Tuple} {root : Record}

theorem Body.nextBinding_mem (hr : c.relation? b.entity r.name = some r) (items : List Path) :
    b.nextBinding c r kind ∈ ((b.joining r kind).layout c items).bindings := by
  obtain ⟨more, hmore, -⟩ :=
    ((declared_admits hr kind).push_grown b.scope (b.records items)).bindings
  rw [layout_joining hr, hmore]
  exact List.mem_append_left _ (List.mem_append_right _ (List.mem_singleton_self _))

/-- A body with one more join has a table for the target. -/
theorem Body.joining_table {items : List Path} {named : List NamedTuple}
    (hr : c.relation? b.entity r.name = some r)
    (hnamed : ((b.joining r kind).layout c items).bind t = .ok named) :
    ∃ targets, t.table r.toEntity = .ok targets := by
  obtain ⟨records, -, hbind⟩ := bind_eq_ok.mp hnamed
  have htable : ∀ (xs : List Binding) (tuples : List NamedTuple), bindAll t xs tuples = .ok named →
      ∀ y ∈ xs, ∃ targets, t.table y.relation.toEntity = .ok targets := by
    intro xs
    induction xs with
    | nil => exact fun _ _ y hy => absurd hy List.not_mem_nil
    | cons y xs ih =>
      intro tuples h z hz
      obtain ⟨targets, htargets, h⟩ := bind_eq_ok.mp h
      rcases List.mem_cons.mp hz with rfl | hz
      · exact ⟨targets, htargets⟩
      · exact ih _ h z hz
  exact htable _ _ hbind _ (nextBinding_mem hr items)

theorem Body.root_mem {items : List Path} {named : List NamedTuple} {y : NamedTuple}
    (hnamed : (b.layout c items).bind t = .ok named) (hy : y ∈ named)
    (hroot : NamedTuple.reading y .root = some root) : root ∈ t.records b.entity := by
  have hgrown := ((layout_grown c b).bindOwn b.scope (b.records items)).1
  obtain ⟨r, hr, hroot'⟩ := hgrown.sound.bind_root hnamed hy
  rw [hroot] at hroot'
  rw [← layout_entity c b items, Option.some.inj hroot']
  exact hr

/-- The record at the root is read from the tuple. -/
theorem Body.environment_hasRoot {items : List Path} {y : NamedTuple}
    (hroot : NamedTuple.reading y .root = some root) :
    (b.environment c items y).HasRoot b root := by
  have hlookup : (b.environment c items y).lookup b.rootPath.scope =
      some ⟨b.layout c items, y⟩ := by
    rw [environment, List.lookup_cons, show b.rootPath.scope = b.scope from rfl, beq_self_eq_true]
  constructor
  · rw [Environment.record, hlookup, Option.bind_some]
    exact hroot
  · rw [Environment.entity?, hlookup, Option.bind_some, ← layout_entity c b items]
    exact if_pos rfl

open Classical in
/-- A join binds the next slot of every tuple to the record at its place. -/
theorem Body.joined_named {planned : PlannedQuery} (hr : c.relation? b.entity r.name = some r)
    (hplan : (b.joining r kind).plan c = .ok planned)
    (hmatching : planned.plan.matching ⟨t, planned.plan.parameters, .insertion⟩ [] = .ok joined) :
    ∃ named, ((b.joining r kind).layout c b.selectedRecords).bind t = .ok named ∧
      (∀ tuple ∈ joined, ∃ o, tuple[b.joins.length + 1]? = some o) ∧
      ∀ (root : Record) (P : Option Record → Prop),
        root.BindsIn joined (b.joins.length + 1) P ↔
          ∃ y ∈ named, NamedTuple.reading y .root = some root ∧
            Condition.Passes (b.condition c ⟨t, planned.plan.parameters, .insertion⟩)
              ((b.joining r kind).environment c b.selectedRecords y) ∧
            P (NamedTuple.reading y (b.nextBinding c r kind).place) := by
  obtain ⟨g, named, hg, hnamed, hall⟩ := matching_aligns hplan hmatching
  have hlength : (b.declared c).bindings.length = b.joins.length := by
    have hlength := declared_length hg
    rw [declared_joining hr, Layout.push_bindings, joining, List.length_append,
      List.length_append] at hlength
    exact Nat.add_right_cancel hlength
  -- The added binding is numbered after the declared ones, so its slot is known.
  have hslot : ∀ {y tuple},
      Scene.Aligns ⟨(b.joining r kind).layout c b.selectedRecords, y⟩ g tuple →
      tuple[b.joins.length + 1]? =
        some (NamedTuple.reading y (b.nextBinding c r kind).place) := by
    intro y tuple haligns
    rw [← hlength]
    exact haligns.record (number?_nextBinding hr kind _)
  refine ⟨named, hnamed, fun tuple htuple => ?_, fun root P => ⟨?_, ?_⟩⟩
  · obtain ⟨y, -, haligns⟩ := forall₂_mem hall.flip htuple
    exact ⟨_, hslot haligns⟩
  · rintro ⟨tuple, htuple, hroot, o, ho, hP⟩
    obtain ⟨y, hy, haligns⟩ := forall₂_mem hall.flip htuple
    rw [List.mem_filter, decide_eq_true_iff] at hy
    rw [haligns.root] at hroot
    rw [hslot haligns] at ho
    exact ⟨y, hy.1, Option.some.inj hroot, hy.2, Option.some.inj ho ▸ hP⟩
  · rintro ⟨y, hy, hroot, hpasses, hP⟩
    obtain ⟨tuple, htuple, haligns⟩ :=
      forall₂_mem hall (List.mem_filter.mpr ⟨hy, decide_eq_true hpasses⟩)
    exact ⟨tuple, htuple, by rw [haligns.root, hroot], _, hslot haligns, hP⟩

/-- The plan of a body joins a relation of its root behind the declared joins: some path goes along it
where no declared join does. -/
def Body.JoinsImplicitly (c : Catalog) (b : Body) (relation : String) : Prop :=
  ∃ planned, b.plan c = .ok planned ∧
    ∃ j ∈ planned.plan.joins.drop b.joins.length, j.parent = 0 ∧ j.relation = relation

/-- One more join leaves the records of a planned body alone. -/
theorem Body.spares_of_plan {planned : PlannedQuery} (hr : c.relation? b.entity r.name = some r)
    (hfree : r.isToMany = true ∨ ¬ (b.withClause x).JoinsImplicitly c r.name)
    (hplan : (b.withClause x).plan c = .ok planned) (kind : JoinKind) :
    ∀ p ∈ b.records b.selectedRecords, b.scope = p.scope →
      (b.declared c).Spares (b.nextBinding c r kind) p := by
  intro p hp hscope
  obtain ⟨q, selected, hq, hplanned, -⟩ := plan_plannedAs hplan
  obtain ⟨g, hg, hopened⟩ := plan_openedIn hplan
  have hjoins : planned.plan.joins = g.joins := by
    rw [hq]
    cases hplanned with
    | intro _ hg' _ _ _ _ =>
      rw [Option.some.inj (hg.symm.trans hg')]
      rfl
  -- A joined slot that leads to the same place would make the join an implicit one.
  refine spares_of_openedIn (b := b.withClause x) hg hr (hfree.imp_right fun hnot j hj hzero heq =>
    hnot ⟨planned, hplan, j, by rw [hjoins]; exact hj, hzero, heq⟩) kind hscope (hopened p ?_)
  show p ∈ (b.withClause x).records b.selectedRecords
  rw [records_eq, List.append_assoc, List.mem_append] at hp
  rw [records_withClause, List.mem_append]
  exact hp.imp_right (List.mem_append_right _)

/-- A tuple passes the statements whether it goes on or not. -/
theorem Body.passes_joining {s : Source} {items : List Path} {y y' : NamedTuple} {o : Option Record}
    (hr : c.relation? b.entity r.name = some r)
    (hspares : ∀ p ∈ b.records items, b.scope = p.scope →
      (b.declared c).Spares (b.nextBinding c r kind) p)
    (hreading : Function.update (NamedTuple.reading y) (b.nextBinding c r kind).place o =
      NamedTuple.reading y') :
    Condition.Passes (b.condition c s) (b.environment c items y) ↔
      Condition.Passes (b.condition c s) ((b.joining r kind).environment c items y') := by
  have hsame : (b.environment c items y).Same (b.records items)
      ((b.joining r kind).environment c items y') := by
    rw [environment, environment, layout_joining hr kind items]
    exact (declared_admits hr kind).same hspares hreading
  exact passes_same hsame

/-- A test of the root that is true if one of the records that a join gives for the root has a property
finds the roots that the join binds to such a record. -/
theorem Body.tested_iff_joined {P : Option Record → Prop} (hr : c.relation? b.entity r.name = some r)
    (hrecords : x.records = [b.rootPath]) (hparameters : x.parameters = [])
    (hfree : r.isToMany = true ∨ ¬ (b.withClause x).JoinsImplicitly c r.name)
    (htest : ∀ s env targets, s.tables = t → t.table r.toEntity = .ok targets →
      root ∈ t.records b.entity → env.HasRoot b root →
      (x.meaning c s env = .ok (some true) ↔
        ∃ o ∈ (b.nextBinding c r kind).choices t (some root), P o))
    (htested : (b.withClause x).Binds c t tested) (hjoined : (b.joining r kind).Binds c t joined) :
    root.OccursIn tested ↔ root.BindsIn joined (b.joins.length + 1) P := by
  obtain ⟨planned, hplan, hmatching⟩ := htested
  obtain ⟨planned', hplan', hmatching'⟩ := hjoined
  -- The test has no parameters of its own, so both plans bind the same ones and conditions mean the
  -- same.
  have hsame : planned'.plan.parameters = planned.plan.parameters := by
    refine parameters_of_plan hplan' hplan ?_
    rw [parameters_eq, joining]
    exact ((parameters_withClause hparameters _).trans (parameters_eq _ _)).symm
  -- Both sides are read by the names of their places from here on.
  obtain ⟨named, hnamed, htested⟩ := tested_named hrecords hplan hmatching
  obtain ⟨named', hnamed', -, hjoined⟩ := joined_named hr hplan' hmatching'
  obtain ⟨targets, htargets⟩ := joining_table hr hnamed'
  have hadmits := declared_admits hr kind
  have hspares := spares_of_plan hr hfree hplan kind
  have hplace : Place.root ≠ (b.nextBinding c r kind).place := fun heq =>
    hadmits.fresh (heq ▸ List.mem_cons_self)
  have hlayout := layout_joining hr kind b.selectedRecords
  -- The joined tuples are the tested ones, each updated at the new place with one of its choices.
  have hreadings := fun f => hadmits.mem_readings hspares hnamed (hlayout ▸ hnamed') (f := f)
  rw [htested, hjoined, hsame]
  constructor
  · -- The test gives a choice with the property, and the tuple updated with it passes as the tested
    -- one does, since the condition reads none of the new place.
    rintro ⟨y, hy, hroot, hy', htrue⟩
    obtain ⟨o, ho, hP⟩ :=
      (htest _ _ targets rfl htargets (root_mem hnamed hy hroot)
        (environment_hasRoot hroot)).mp htrue
    obtain ⟨y', hy'', hreading⟩ := List.mem_map.mp ((hreadings _).mpr ⟨y, hy, o, hroot ▸ ho, rfl⟩)
    refine ⟨y', hy'', ?_, (passes_joining hr hspares hreading.symm).mp hy', ?_⟩
    · rw [hreading, Function.update_of_ne hplace, hroot]
    · rw [hreading, Function.update_self]
      exact hP
  · rintro ⟨y', hy', hroot, hpass, hP⟩
    -- The update is undone. The root is at another place and the choice is what the new one holds.
    obtain ⟨y, hy, o, ho, hreading⟩ := (hreadings _).mp (List.mem_map_of_mem hy')
    have hroot' : NamedTuple.reading y .root = some root := by
      rw [← hroot, ← hreading, Function.update_of_ne hplace]
    rw [← hreading, Function.update_self] at hP
    refine ⟨y, hy, hroot', (passes_joining hr hspares hreading).mpr hpass, ?_⟩
    exact (htest _ _ targets rfl htargets (root_mem hnamed hy hroot')
      (environment_hasRoot hroot')).mpr ⟨o, hroot' ▸ ho, hP⟩

end Joins

/-! ## Agreement -/

/-- Every key that is not null leads to a record. Nothing is asked of a key that is the identity. -/
def Tables.KeysMatch (c : Catalog) (t : Tables) (r : Relation) : Prop :=
  ∀ owner, c.entity? r.fromEntity = some owner → r.fromField ≠ owner.identityField →
    ∀ record ∈ t.records r.fromEntity, (fieldValue (some record) r.fromField).isNull = false →
      ∃ target ∈ t.records r.toEntity,
        (target.get? r.toField).any (·.equal (fieldValue (some record) r.fromField)) = true

theorem Tables.KeysMatch.related_ne_nil {c : Catalog} {t : Tables} {r : Relation} {owner : Entity}
    {record : Record} {targets : List Record} (h : t.KeysMatch c r)
    (howner : c.entity? r.fromEntity = some owner) (hfield : r.fromField ≠ owner.identityField)
    (hrecord : record ∈ t.records r.fromEntity) (ht : t.table r.toEntity = .ok targets)
    (hkey : (fieldValue (some record) r.fromField).isNull = false) :
    related (fieldValue (some record) r.fromField) r.toField targets ≠ [] := by
  obtain ⟨target, htarget, hequal⟩ := h owner howner hfield record hrecord hkey
  rw [Tables.records_of_table ht] at htarget
  refine List.ne_nil_of_mem (a := target) ?_
  rw [related, hkey, if_neg Bool.false_ne_true]
  exact List.mem_filter.mpr ⟨htarget, hequal⟩

/-- The tests of a relation of a body's root find the roots for which a join shows what they ask for.

The test for null looks at the key alone where the key is on the side of the owner, so such keys have to
match. A path along a relation to one has a join of its own unless a declared join serves it, and that join
drops the roots without a target before anything is tested; where a body has such a path, the test is
compared with the join in the body that declares the join. -/
structure Body.RelationTestsAgree (c : Catalog) (t : Tables) (b : Body) (r : Relation) : Prop where
  /-- Not to be empty is to have a tuple in an inner join. -/
  isNotEmpty : r.isToMany = true → ∀ tested joined,
    (b.withClause (.isEmpty (b.rootPath.child r.name) true)).Binds c t tested →
    (b.joining r .inner).Binds c t joined →
    ∀ root : Record, root.OccursIn tested ↔ root.OccursIn joined
  /-- To be empty is to have nothing bound in an outer join. -/
  isEmpty : r.isToMany = true → ∀ tested joined,
    (b.withClause (.isEmpty (b.rootPath.child r.name) false)).Binds c t tested →
    (b.joining r .left).Binds c t joined →
    ∀ root : Record, root.OccursIn tested ↔
      root.BindsIn joined (b.joins.length + 1) fun o => o = none
  /-- To have a member is to have a target with an equal identity in an inner join. -/
  isMember : r.isToMany = true → ∀ (k : Value) (target : Entity) (tested joined : List Tuple),
    k.isNull = false → c.entity? r.toEntity = some target →
    (b.withClause (.isMember (.literal k) (b.rootPath.child r.name) false)).Binds c t tested →
    (b.joining r .inner).Binds c t joined →
    ∀ root : Record, root.OccursIn tested ↔
      root.BindsIn joined (b.joins.length + 1) fun o =>
        (fieldValue o target.identityField).equal k = true
  /-- To be null is to have nothing bound in an outer join. -/
  isNull : r.isToMany = false → t.KeysMatch c r →
    ¬ (b.withClause (.isNull (.path (b.rootPath.child r.name)) false)).JoinsImplicitly c r.name →
    ∀ tested joined,
    (b.withClause (.isNull (.path (b.rootPath.child r.name)) false)).Binds c t tested →
    (b.joining r .left).Binds c t joined →
    ∀ root : Record, root.OccursIn tested ↔
      root.BindsIn joined (b.joins.length + 1) fun o => o = none
  /-- Likewise in the body that declares the join, whatever paths it has. -/
  isNull_joined : r.isToMany = false → t.KeysMatch c r → ∀ tested joined,
    ((b.joining r .left).withClause (.isNull (.path (b.rootPath.child r.name)) false)).Binds c t
      tested →
    (b.joining r .left).Binds c t joined →
    ∀ root : Record, root.OccursIn tested ↔
      root.BindsIn joined (b.joins.length + 1) fun o => o = none

section Agreement

variable {c : Catalog} {t : Tables} {b : Body} {r : Relation} {tested joined : List Tuple}
  {root : Record}

theorem Body.joined_occurs (hr : c.relation? b.entity r.name = some r) {kind : JoinKind}
    (hjoined : (b.joining r kind).Binds c t joined) :
    root.BindsIn joined (b.joins.length + 1) (fun _ => True) ↔ root.OccursIn joined := by
  obtain ⟨planned, hplan, hmatching⟩ := hjoined
  obtain ⟨-, -, hslot, -⟩ := joined_named hr hplan hmatching
  constructor
  · rintro ⟨tuple, htuple, hroot, -⟩
    exact ⟨tuple, htuple, hroot⟩
  · rintro ⟨tuple, htuple, hroot⟩
    obtain ⟨o, ho⟩ := hslot tuple htuple
    exact ⟨tuple, htuple, hroot, o, ho, trivial⟩

theorem Body.mem_choices {kind : JoinKind} {targets : List Record} {o : Option Record}
    (ht : t.table r.toEntity = .ok targets) :
    o ∈ (b.nextBinding c r kind).choices t (some root) ↔
      (∃ target ∈ related (fieldValue (some root) r.fromField) r.toField targets, o = some target) ∨
      (kind = .left ∧ o = none ∧
        related (fieldValue (some root) r.fromField) r.toField targets = []) :=
  Binding.mem_choices (k := b.nextBinding c r kind) ht

/-- An inner join gives the related records. -/
theorem Body.exists_choice_inner {targets : List Record} (ht : t.table r.toEntity = .ok targets)
    (P : Option Record → Prop) :
    (∃ o ∈ (b.nextBinding c r .inner).choices t (some root), P o) ↔
      ∃ target ∈ related (fieldValue (some root) r.fromField) r.toField targets, P (some target) := by
  constructor
  · rintro ⟨o, ho, hP⟩
    rcases (mem_choices ht).mp ho with ⟨target, htarget, rfl⟩ | ⟨hkind, -⟩
    · exact ⟨target, htarget, hP⟩
    · cases hkind
  · rintro ⟨target, htarget, hP⟩
    exact ⟨some target, (mem_choices ht).mpr (.inl ⟨target, htarget, rfl⟩), hP⟩

/-- An outer join gives nothing exactly where nothing is related. -/
theorem Body.choice_left {targets : List Record} (ht : t.table r.toEntity = .ok targets)
    {o : Option Record} (ho : o ∈ (b.nextBinding c r .left).choices t (some root)) :
    o = none ↔ related (fieldValue (some root) r.fromField) r.toField targets = [] := by
  rcases (mem_choices ht).mp ho with ⟨target, htarget, rfl⟩ | ⟨-, rfl, hnil⟩
  · exact iff_of_false (Option.some_ne_none target) (List.ne_nil_of_mem htarget)
  · exact iff_of_true rfl hnil

theorem Body.exists_choice_left {targets : List Record} (ht : t.table r.toEntity = .ok targets) :
    (∃ o ∈ (b.nextBinding c r .left).choices t (some root), o = none) ↔
      related (fieldValue (some root) r.fromField) r.toField targets = [] := by
  constructor
  · rintro ⟨o, ho, hnone⟩
    exact (choice_left ht ho).mp hnone
  · intro hnil
    exact ⟨none, (mem_choices ht).mpr (.inr ⟨rfl, rfl, hnil⟩), rfl⟩

/-- A test for null is true of the roots to which nothing is related. -/
theorem Body.isNull_related (hr : c.relation? b.entity r.name = some r)
    (hkeys : t.KeysMatch c r) {s : Source} {env : Environment} {targets : List Record}
    (hs : s.tables = t) (ht : t.table r.toEntity = .ok targets)
    (hmem : root ∈ t.records b.entity) (henv : env.HasRoot b root) :
    (Clause.isNull (.path (b.rootPath.child r.name)) false).meaning c s env = .ok (some true) ↔
      related (fieldValue (some root) r.fromField) r.toField targets = [] := by
  obtain ⟨owner, howner⟩ := Catalog.relation?_owner hr
  have hfrom : r.fromEntity = b.entity := (Schema.relation?_name hr).1
  rw [Clause.isNull_meaning henv hr (hs ▸ ht) howner fun hfield =>
    hkeys.related_ne_nil (hfrom ▸ howner) hfield (hfrom ▸ hmem) ht]
  simp

/-- In a body that declares an outer join, a test for null finds the roots for which nothing is bound. -/
theorem Body.isNull_joined_iff (hr : c.relation? b.entity r.name = some r)
    (hkeys : t.KeysMatch c r)
    (htested : ((b.joining r .left).withClause
      (.isNull (.path (b.rootPath.child r.name)) false)).Binds c t tested)
    (hjoined : (b.joining r .left).Binds c t joined) :
    root.OccursIn tested ↔ root.BindsIn joined (b.joins.length + 1) fun o => o = none := by
  obtain ⟨planned, hplan, hmatching⟩ := htested
  obtain ⟨planned', hplan', hmatching'⟩ := hjoined
  have hsame : planned'.plan.parameters = planned.plan.parameters :=
    parameters_of_plan hplan' hplan (parameters_withClause rfl _).symm
  obtain ⟨named, hnamed, htested⟩ := tested_named (b := b.joining r .left) rfl hplan hmatching
  obtain ⟨named', hnamed', -, hjoined⟩ := joined_named hr hplan' hmatching'
  obtain rfl : named = named' := Except.ok.inj (hnamed.symm.trans hnamed')
  obtain ⟨targets, htargets⟩ := joining_table hr hnamed
  rw [htested, hjoined, hsame]
  -- Both look at the same tuples, and at what the join has bound in them.
  refine exists_congr fun y => and_congr_right fun hy => and_congr_right fun hroot =>
    and_congr_right fun _ => ?_
  have hmem : root ∈ t.records b.entity := root_mem (b := b.joining r .left) hnamed hy hroot
  have hchoice := (((layout_grown c (b.joining r .left)).bindOwn _ _).1).sound.bind_choices hnamed
    (nextBinding_mem hr _) hy
  rw [show (b.nextBinding c r .left).parent = .root from rfl, hroot] at hchoice
  rw [choice_left htargets hchoice]
  exact isNull_related (b := b.joining r .left) hr hkeys rfl htargets hmem (environment_hasRoot hroot)

/-- Tests of relations agree with joins. -/
theorem Body.relation_tests_agree (hr : c.relation? b.entity r.name = some r) (t : Tables) :
    b.RelationTestsAgree c t r where
  isNotEmpty hmany tested joined htested hjoined root := by
    rw [← joined_occurs hr hjoined]
    refine tested_iff_joined hr rfl rfl (.inl hmany) ?_ htested hjoined
    intro s env targets hs ht _ henv
    rw [Clause.isEmpty_meaning henv hr (hs ▸ ht), exists_choice_inner ht]
    simp [List.eq_nil_iff_forall_not_mem]
  isEmpty hmany tested joined htested hjoined root := by
    refine tested_iff_joined hr rfl rfl (.inl hmany) ?_ htested hjoined
    intro s env targets hs ht _ henv
    rw [Clause.isEmpty_meaning henv hr (hs ▸ ht), exists_choice_left ht]
    simp
  isMember hmany k target tested joined hk htarget htested hjoined root := by
    refine tested_iff_joined hr rfl rfl (.inl hmany) ?_ htested hjoined
    intro s env targets hs ht _ henv
    rw [Clause.isMember_meaning henv hr (hs ▸ ht) htarget hk, exists_choice_inner ht]
    simp
  isNull _ hkeys hfree tested joined htested hjoined root := by
    refine tested_iff_joined hr rfl rfl (.inr hfree) ?_ htested hjoined
    intro s env targets hs ht hmem henv
    rw [isNull_related hr hkeys hs ht hmem henv, exists_choice_left ht]
  isNull_joined _ hkeys _ _ htested hjoined _ := isNull_joined_iff hr hkeys htested hjoined

end Agreement

/-! ## Users outside Zürich -/

namespace Sample

/-- The users that live outside Zürich. -/
def outsiders : Body :=
  Recorder.record "User" fun user =>
    Recorder.clause user
      (.compare (.path ((user.child "address").child "city")) .ne (.literal (.string "Zürich")))

/-- The tasks of a user. -/
def todos : Relation := ⟨"todos", "User", "id", "Todo", "user_id", .oneToMany⟩

/-- The task that a user is at. -/
def currentTodo : Relation :=
  ⟨"current_todo", "User", "current_todo_id", "Todo", "id", .manyToOne⟩

/-- Two bodies share a root, for which the second binds a slot to a record or to nothing with a property. -/
def Shared (b b' : Body) (slot : Nat) (P : Option Record → Prop) : Prop :=
  ∃ tested joined, b.Binds catalog tables tested ∧ b'.Binds catalog tables joined ∧
    ∃ root : Record, root.BindsIn joined slot P ∧ root.OccursIn tested

/-- The tuples of a body, when something is known of them. -/
theorem exists_binds {b : Body} {p : List Tuple → Bool}
    (hall : (b.plan catalog).toOption.any (fun planned =>
      (planned.plan.matching ⟨tables, planned.plan.parameters, .insertion⟩ []).toOption.any p) = true) :
    ∃ tuples, b.Binds catalog tables tuples ∧ p tuples = true := by
  obtain ⟨planned, hplan, h⟩ := exists_ok_and hall
  obtain ⟨tuples, hmatching, hp⟩ := exists_ok_and h
  exact ⟨tuples, ⟨planned, hplan, hmatching⟩, hp⟩

theorem shared {b b' : Body} {slot : Nat} {P : Option Record → Prop} [DecidablePred P]
    (hagree : ∀ tested joined, b.Binds catalog tables tested → b'.Binds catalog tables joined →
      ∀ root : Record, root.BindsIn joined slot P → root.OccursIn tested)
    (htested : (b.plan catalog).toOption.any (fun planned =>
      (planned.plan.matching ⟨tables, planned.plan.parameters, .insertion⟩ []).toOption.any fun _ => true) = true)
    (hjoined : (b'.plan catalog).toOption.any (fun planned =>
      (planned.plan.matching ⟨tables, planned.plan.parameters, .insertion⟩ []).toOption.any fun tuples =>
        tuples.any fun tuple => tuple[0]?.join.isSome && tuple[slot]?.any fun o => decide (P o)) =
      true) : Shared b b' slot P := by
  obtain ⟨tested, htested, -⟩ := exists_binds htested
  obtain ⟨joined, hjoined, hsome⟩ := exists_binds hjoined
  obtain ⟨tuple, htuple, hbound⟩ := List.any_eq_true.mp hsome
  rw [Bool.and_eq_true, Option.any_eq_true] at hbound
  obtain ⟨hroot, o, ho, hP⟩ := hbound
  obtain ⟨root, hroot⟩ := Option.isSome_iff_exists.mp hroot
  have hbinds : root.BindsIn joined slot P :=
    ⟨tuple, htuple, Option.join_eq_some_iff.mp hroot, o, ho, of_decide_eq_true hP⟩
  exact ⟨tested, joined, htested, hjoined, root, hbinds,
    hagree tested joined htested hjoined root hbinds⟩

theorem currentTodo_keysMatch : tables.KeysMatch catalog currentTodo := by
  intro _ _ _
  decide +kernel

theorem outsiders_not_joinsImplicitly :
    ¬ (outsiders.withClause
      (.isNull (.path (outsiders.rootPath.child currentTodo.name)) false)).JoinsImplicitly catalog
      currentTodo.name := by
  rintro ⟨planned, hplan, j, hj, hzero, hname⟩
  obtain ⟨planned', hplan', h⟩ := exists_ok_and
    (x := (outsiders.withClause
      (.isNull (.path (outsiders.rootPath.child currentTodo.name)) false)).plan catalog)
    (p := fun planned => planned.plan.joins.all fun j => j.relation != currentTodo.name)
    (by decide +kernel)
  obtain rfl := Except.ok.inj (hplan.symm.trans hplan')
  simpa [hname] using List.all_eq_true.mp h j (List.mem_of_mem_drop hj)

end Sample

open Sample in
/-- Some of the users outside Zürich have tasks and some have none, one has the third task, and one is
at no task. -/
theorem Body.relation_tests_agree_shared_root :
    Shared (outsiders.withClause (.isEmpty (outsiders.rootPath.child todos.name) true))
      (outsiders.joining todos .inner) 1 (fun _ => True) ∧
    Shared (outsiders.withClause (.isEmpty (outsiders.rootPath.child todos.name) false))
      (outsiders.joining todos .left) 1 (fun o => o = none) ∧
    Shared
      (outsiders.withClause
        (.isMember (.literal (.int64 3)) (outsiders.rootPath.child todos.name) false))
      (outsiders.joining todos .inner) 1 (fun o => (fieldValue o "id").equal (.int64 3) = true) ∧
    Shared (outsiders.withClause (.isNull (.path (outsiders.rootPath.child currentTodo.name)) false))
      (outsiders.joining currentTodo .left) 1 (fun o => o = none) ∧
    Shared
      ((outsiders.joining currentTodo .left).withClause
        (.isNull (.path (outsiders.rootPath.child currentTodo.name)) false))
      (outsiders.joining currentTodo .left) 1 (fun o => o = none) := by
  -- The two relations are looked up once.
  have htodos := Body.relation_tests_agree (c := catalog) (b := outsiders) (r := todos)
    (by decide +kernel) tables
  have hcurrent := Body.relation_tests_agree (c := catalog) (b := outsiders) (r := currentTodo)
    (by decide +kernel) tables
  refine ⟨shared ?_ (by decide +kernel) (by decide +kernel),
    shared ?_ (by decide +kernel) (by decide +kernel),
    shared ?_ (by decide +kernel) (by decide +kernel),
    shared ?_ (by decide +kernel) (by decide +kernel),
    shared ?_ (by decide +kernel) (by decide +kernel)⟩
  · rintro tested joined htested hjoined root ⟨tuple, htuple, hroot, -⟩
    exact (htodos.isNotEmpty rfl tested joined htested hjoined root).mpr ⟨tuple, htuple, hroot⟩
  · intro tested joined htested hjoined root
    exact (htodos.isEmpty rfl tested joined htested hjoined root).mpr
  · intro tested joined htested hjoined root
    exact (htodos.isMember rfl (.int64 3) todo tested joined rfl (by decide +kernel) htested hjoined
      root).mpr
  · intro tested joined htested hjoined root
    exact (hcurrent.isNull rfl currentTodo_keysMatch outsiders_not_joinsImplicitly
      tested joined htested hjoined root).mpr
  · intro tested joined htested hjoined root
    exact (hcurrent.isNull_joined rfl currentTodo_keysMatch tested joined htested
      hjoined root).mpr

end EntityQuery
