import EntityQuery.Proofs.Planning.Binding

/-!
# The effect of planning on the open scopes

Every successful step of planning binds the paths listed for it and appends parameters. The paths are
those of the records that are read, in the order in which they are met.
-/

namespace EntityQuery

/-! ## Effects -/

/-- Scopes after paths have been bound and parameters appended. -/
structure Scopes.Binds (c : Catalog) (s : Scopes) (ps : List Path) (s' : Scopes) : Prop where
  frames : s'.frames = Path.bindAll c ps s.frames
  parameters : s.parameters <+: s'.parameters

namespace Scopes.Binds

variable {c : Catalog} {s s' s'' : Scopes} {ps qs : List Path}

theorem refl (s : Scopes) : s.Binds c [] s :=
  ⟨rfl, List.prefix_refl _⟩

theorem trans (h : s.Binds c ps s') (h' : s'.Binds c qs s'') : s.Binds c (ps ++ qs) s'' where
  frames := by rw [h'.frames, h.frames, Path.bindAll_append]
  parameters := h.parameters.trans h'.parameters

theorem extendAll (h : s.Binds c ps s') : Frame.ExtendAll s.frames s'.frames := by
  rw [h.frames]
  exact .bindAll c ps s.frames

end Scopes.Binds

theorem Scopes.setFrame_self {s : Scopes} {level : Nat} {f : Frame}
    (hf : s.frames[level]? = some f) : { s with frames := s.frames.set level f } = s := by
  obtain ⟨hlt, rfl⟩ := List.getElem?_eq_some_iff.mp hf
  rw [List.set_getElem_self]

section Paths

variable {c : Catalog} {s s' : Scopes} {p : Path}

/-- A hop binds its relation, whose target is in the slot that it gives. -/
theorem Path.run_hop_binds {level parent slot : Nat} {r : Relation} {f : Frame}
    (hf : s.frames[level]? = some f) (h : (p.hop level parent r).run s = .ok (slot, s')) :
    (f.bindRelation parent r).joinAlong? parent r.name = some slot ∧
      s' = { s with frames := s.frames.set level (f.bindRelation parent r) } := by
  obtain ⟨f', hf', h⟩ := run_hop_ok h
  obtain rfl : f = f' := by simpa [hf] using hf'
  rcases h with ⟨hjoin, rfl⟩ | ⟨hjoin, hmany, rfl, rfl⟩
  · have hself : f.bindRelation parent r = f := by simp [Frame.bindRelation, hjoin]
    rw [hself, Scopes.setFrame_self hf]
    exact ⟨hjoin, rfl⟩
  · have hpush : f.bindRelation parent r = f.pushJoin parent r .inner := by
      simp [Frame.bindRelation, hjoin, hmany]
    refine ⟨hpush ▸ Frame.joinAlong?_pushJoin hjoin, ?_⟩
    rw [List.modify_eq_set_getElem?, hf, hpush]
    rfl

/-- Following hops binds all but the last one. -/
theorem Path.run_follow_binds {level slot : Nat} {entity : String} {hops : List String}
    {r : Resolved} {f : Frame} (hf : s.frames[level]? = some f)
    (h : (p.follow c level slot entity hops).run s = .ok (r, s')) :
    (f.bindHops c slot entity hops.dropLast).trace? c level slot entity hops = some r ∧
      s' = { s with frames := s.frames.set level (f.bindHops c slot entity hops.dropLast) } := by
  -- On the hops; the frame at the level grows with each of them.
  induction hops generalizing s f slot entity with
  | nil =>
    obtain ⟨rfl, rfl⟩ := Planner.run_pure_ok.mp h
    exact ⟨rfl, by rw [List.dropLast_nil, Frame.bindHops, Scopes.setFrame_self hf]⟩
  | cons name rest ih =>
    cases rest with
    | nil =>
      simp only [follow] at h
      simp only [List.dropLast_singleton, Frame.bindHops, Frame.trace?]
      rw [Scopes.setFrame_self hf]
      split at h
      · obtain ⟨rfl, rfl⟩ := Planner.run_pure_ok.mp h
        simp [*]
      · obtain ⟨rfl, rfl⟩ := Planner.run_pure_ok.mp h
        simp [*]
      · exact (Planner.run_failPath_ok.mp h).elim
    | cons next rest =>
      simp only [follow] at h
      simp only [List.dropLast_cons_cons, Frame.bindHops, Frame.trace?]
      split at h
      · rename_i relation hname
        simp only [Planner.run_bind_ok] at h
        obtain ⟨slot', s₁, hhop, h⟩ := h
        obtain ⟨hjoin, rfl⟩ := run_hop_binds hf hhop
        -- The hops behind are followed in the frame that this one leaves.
        have hf₁ : (s.frames.set level (f.bindRelation slot relation))[level]? =
            some (f.bindRelation slot relation) := by
          simp [(List.getElem?_eq_some_iff.mp hf).1]
        obtain ⟨htrace, rfl⟩ := ih hf₁ h
        simp only [hname, hjoin]
        refine ⟨?_, by rw [List.set_set]⟩
        simp only [(Frame.bindHops_extends c (f.bindRelation slot relation) slot' _ _).joinAlong?
          hjoin]
        exact htrace
      · exact (Planner.run_failPath_ok.mp h).elim
      · exact (Planner.run_failPath_ok.mp h).elim

/-- Resolving a path binds the record that it reads. -/
theorem Path.run_resolve_binds {r : Resolved} (h : (p.resolve c).run s = .ok (r, s')) :
    p.target? c s'.frames = some r ∧ s.Binds c [p.holder] s' := by
  obtain ⟨level, f, slot, entity, hf, hslot, hentity, h⟩ := run_resolve_ok.mp h
  obtain ⟨htrace, rfl⟩ := run_follow_binds (Frame.locate?_getElem? hf) h
  have hbound : f.bindFrom c p.holder.origin p.holder.hops =
      f.bindHops c slot entity p.hops.dropLast := by
    simp [Frame.bindFrom, holder, hslot, hentity]
  have hext := Frame.bindHops_extends c f slot entity p.hops.dropLast
  -- Of all frames only that of the scope of the path changes.
  have hset : p.holder.bind c s.frames =
      s.frames.set level (f.bindHops c slot entity p.hops.dropLast) := by
    rw [← hbound]
    exact bind_eq_set (p := p.holder) hf
  refine ⟨?_, ⟨by simp [bindAll, hset], List.prefix_refl _⟩⟩
  have hlocate := locate?_bind (c := c) (p := p.holder) hf
  rw [hbound, hset] at hlocate
  simp only [target?, holder] at hlocate ⊢
  simp only [hlocate, ← hext.slotOf?, hslot, hext.entityOf? hentity]
  exact htrace

/-- What a path selects, in frames in which it has been selected. -/
inductive Path.SelectedIn (c : Catalog) (frames : List Frame) (p : Path) : SelectedItem → Prop
  | field {column : Column} {f : Field} : p.target? c frames = some (.field column f) →
      SelectedIn c frames p ⟨.expr (.column column),
        (Shape.ofFieldType f.type).inSlot frames column.level column.slot, .field f.type⟩
  /-- The record that a to-one relation of the query itself leads to. -/
  | related {parent slot : Nat} {r : Relation} {f : Frame} :
      p.target? c frames = some (.relation 0 parent r) → r.isToMany = false →
      frames[0]? = some f → f.joinAlong? parent r.name = some slot →
      SelectedIn c frames p
        ⟨.record slot, (Shape.record r.toEntity).inSlot frames 0 slot, .unknown⟩
  /-- A record of the query itself. -/
  | record {slot : Nat} {entity : String} : p.target? c frames = some (.record 0 slot entity) →
      SelectedIn c frames p ⟨.record slot, (Shape.record entity).inSlot frames 0 slot, .unknown⟩

/-- Selecting a path binds all its hops. -/
theorem Path.run_select_binds {x : SelectedItem} (h : (p.select c).run s = .ok (x, s')) :
    p.SelectedIn c s'.frames x ∧ s.Binds c [p] s' := by
  -- What is not a relation binds nothing behind its holder.
  have hkeep : ∀ {r : Resolved} {s₁ : Scopes}, (∀ l k rel, r ≠ .relation l k rel) →
      p.target? c s₁.frames = some r → s.Binds c [p.holder] s₁ → s.Binds c [p] s₁ := by
    intro r s₁ hr htarget hbinds
    obtain ⟨hframes, hparameters⟩ := hbinds
    simp only [bindAll, List.foldl_cons, List.foldl_nil] at hframes
    rw [hframes] at htarget
    obtain ⟨f, hf, hbind⟩ := bind_eq_bindEnd htarget
    refine ⟨?_, hparameters⟩
    have hend : f.bindEnd r = f := by
      cases r with
      | relation l k rel => exact absurd rfl (hr l k rel)
      | field | record => rfl
    obtain ⟨hlt, rfl⟩ := List.getElem?_eq_some_iff.mp hf
    simp only [bindAll, List.foldl_cons, List.foldl_nil]
    rw [hframes, hbind, hend, List.set_getElem_self]
  rcases run_select_ok h with ⟨column, f, hr, rfl⟩ | ⟨parent, r, slot, s₁, hr, hmany, hhop, rfl⟩ |
    ⟨slot, entity, hr, rfl⟩
  · obtain ⟨htarget, hbinds⟩ := run_resolve_binds hr
    exact ⟨.field htarget, hkeep (by simp) htarget hbinds⟩
  · -- A relation binds its target besides.
    obtain ⟨htarget, hframes, hparameters⟩ := run_resolve_binds hr
    simp only [bindAll, List.foldl_cons, List.foldl_nil] at hframes
    have htarget' := htarget
    rw [hframes] at htarget'
    obtain ⟨f, hf, hbind⟩ := bind_eq_bindEnd htarget'
    rw [← hframes] at hf hbind
    obtain ⟨hjoin, rfl⟩ := run_hop_binds hf hhop
    have hext := Frame.ExtendAll.set hf (Frame.bindRelation_extends f parent r)
    have hlt := (List.getElem?_eq_some_iff.mp hf).1
    refine ⟨.related (hext.target? htarget) hmany (List.getElem?_set_self hlt) hjoin, ?_,
      hparameters⟩
    simp only [bindAll, List.foldl_cons, List.foldl_nil, hbind]
    rfl
  · obtain ⟨htarget, hbinds⟩ := run_resolve_binds hr
    exact ⟨.record htarget, hkeep (by simp) htarget hbinds⟩

/-- An aggregate of the innermost query, in frames that have its column. -/
inductive Aggregate.PlannedAs (c : Catalog) (frames : List Frame) :
    Aggregate → Option Path → Operand → StaticType → Prop
  | rows : PlannedAs c frames .count none (.aggregate .count none) (.field (.scalar .int64))
  | column {f : Aggregate} {p : Path} {column : Column} {field : Field} {t : FieldType}
      {entity label : String} : p.target? c frames = some (.field column field) →
      f.type entity label (some field.type) = .ok t →
      PlannedAs c frames f (some p) (.aggregate f (some column)) (.field t)

theorem Aggregate.run_plan_binds {f : Aggregate} {path : Option Path} {o : Operand}
    {t : StaticType} (h : (f.plan c path).run s = .ok ((o, t), s')) :
    f.PlannedAs c s'.frames path o t ∧
      s.Binds c ((Expr.aggregate f path).selectedRecords []) s' := by
  rcases run_plan_ok h with ⟨rfl, rfl, rfl, rfl, rfl⟩ |
    ⟨p, column, field, ft, entity, label, rfl, hr, htype, rfl, rfl⟩
  · exact ⟨.rows, .refl _⟩
  · obtain ⟨htarget, hbinds⟩ := Path.run_resolve_binds hr
    exact ⟨.column htarget htype, hbinds⟩

/-- A collection, in frames that have the record that holds it. -/
inductive Path.CollectedAs (c : Catalog) (frames : List Frame) (p : Path) :
    Collection → FieldType → Prop
  | stored {column : Column} {f : Field} {t : ScalarType} :
      p.target? c frames = some (.field column f) → f.type = .array t →
      CollectedAs c frames p (.stored column) (.scalar t)
  | related {level slot : Nat} {r : Relation} {target : Entity} {identity : Field}
      {rows : RelatedRows} : p.target? c frames = some (.relation level slot r) →
      r.isToMany = true → c.entity? r.toEntity = some target →
      target.identity? = some identity → c.relatedRows level slot r = .ok rows →
      CollectedAs c frames p (.related rows) identity.type

theorem Path.run_collection_binds {collection : Collection} {element : FieldType}
    (h : (p.collection c).run s = .ok ((collection, element), s')) :
    p.CollectedAs c s'.frames collection element ∧ s.Binds c [p.holder] s' := by
  rcases run_collection_ok h with ⟨column, f, t, hr, ht, rfl, rfl⟩ |
    ⟨level, slot, r, target, identity, rows, hr, hmany, htarget, hidentity, hrows, rfl, rfl⟩
  · obtain ⟨hp, hbinds⟩ := run_resolve_binds hr
    exact ⟨.stored hp ht, hbinds⟩
  · obtain ⟨hp, hbinds⟩ := run_resolve_binds hr
    exact ⟨.related hp hmany htarget hidentity hrows, hbinds⟩

/-- A key of an ordering, in frames that have its column. -/
def OrderTerm.PlannedAs (c : Catalog) (frames : List Frame) (t : OrderTerm) (key : SortKey) :
    Prop :=
  ∃ p column f, t.expr = .path p ∧ p.target? c frames = some (.field column f) ∧
    f.type.isOrderable = true ∧ column.level = 0 ∧ key = ⟨column, t.direction⟩

theorem Planner.run_orderTerm_binds {entity : String} {t : OrderTerm} {key : SortKey}
    (h : (orderTerm c entity t).run s = .ok (key, s')) :
    t.PlannedAs c s'.frames key ∧ s.Binds c t.records s' := by
  obtain ⟨p, column, f, hp, hr, hord, hlevel, rfl⟩ := run_orderTerm_ok h
  obtain ⟨htarget, hbinds⟩ := Path.run_resolve_binds hr
  refine ⟨⟨p, column, f, hp, htarget, hord, hlevel, rfl⟩, ?_⟩
  rw [OrderTerm.records, hp]
  exact hbinds

end Paths

/-! ## Parts of bodies -/

section Parts

variable {c : Catalog} {s s' : Scopes}

/-- A relation is declared as it is. -/
theorem Planner.declaredRelation_ok {owner : String} {d : JoinDeclaration} {r : Relation} :
    declaredRelation c owner d = .ok r ↔
      c.relation? owner d.relation = some r ∧ r.toEntity = d.entity ∧ r.isToMany = d.many := by
  unfold declaredRelation
  cases c.relation? owner d.relation with
  | none => simp [throw, throwThe, MonadExceptOf.throw]
  | some r' =>
    by_cases hentity : r'.toEntity = d.entity
    · by_cases hmany : r'.isToMany = d.many
      · simp only [hentity, hmany, ne_eq, not_true_eq_false, if_false, pure, Except.pure,
          Except.ok.injEq, Option.some.injEq]
        constructor
        · rintro rfl
          exact ⟨rfl, hentity, hmany⟩
        · exact fun h => h.1
      · simp only [hentity, hmany, ne_eq, not_true_eq_false, not_false_eq_true, if_false, if_true,
          Option.some.injEq]
        constructor
        · rintro ⟨⟩
        · rintro ⟨rfl, -, hmany'⟩
          exact absurd hmany' hmany
    · simp only [hentity, ne_eq, not_false_eq_true, if_true, Option.some.injEq]
      constructor
      · rintro ⟨⟩
      · rintro ⟨rfl, hentity', -⟩
        exact absurd hentity' hentity

/-- Declaring joins changes the innermost frame alone. -/
theorem Planner.run_declareJoins_ok {root : String} {ds : List JoinDeclaration} {f : Frame}
    {frames : List Frame} {parameters : List (String × Value)}
    (h : (declareJoins c root ds).run ⟨f :: frames, parameters⟩ = .ok ((), s')) :
    ∃ g, f.declareAll? c ds = some g ∧ s' = ⟨g :: frames, parameters⟩ := by
  induction ds generalizing f with
  | nil =>
    obtain ⟨-, rfl⟩ := run_pure_ok.mp h
    exact ⟨f, rfl, rfl⟩
  | cons d ds ih =>
    -- The first join extends the innermost frame.
    simp only [declareJoins, declareJoin, run_bind_ok, run_get_ok] at h
    obtain ⟨_, s₁, ⟨_, _, ⟨rfl, rfl⟩, hd⟩, h⟩ := h
    simp only at hd
    split at hd
    · exact (run_failPath_ok.mp hd).elim
    · rename_i parent hparent
      split at hd
      · exact (run_failPath_ok.mp hd).elim
      · rename_i owner howner
        simp only [run_bind_ok, run_lift_ok, declaredRelation_ok, run_modifyFrame_ok] at hd
        obtain ⟨r, _, ⟨⟨hr, hentity, hmany⟩, rfl⟩, rfl⟩ := hd
        -- The frames after it are extended by the rest.
        obtain ⟨g, hg, rfl⟩ := ih h
        refine ⟨g, ?_, rfl⟩
        have hdeclare : f.declare? c d = some (f.declare parent r d.kind) :=
          Frame.declare?_eq_some.mpr ⟨parent, owner, r, hparent, howner, hr, hentity, hmany, rfl⟩
        simp only [Frame.declareAll?, hdeclare]
        exact hg

/-- Joins that can be bound to the innermost frame can be declared, whatever the others are. -/
theorem Planner.run_declareJoins_of {root : String} {ds : List JoinDeclaration} {f g : Frame}
    {frames : List Frame} {parameters : List (String × Value)} (h : f.declareAll? c ds = some g) :
    (declareJoins c root ds).run ⟨f :: frames, parameters⟩ = .ok ((), ⟨g :: frames, parameters⟩) := by
  induction ds generalizing f with
  | nil =>
    cases h
    rfl
  | cons d ds ih =>
    unfold Frame.declareAll? at h
    split at h
    · cases h
    · rename_i k hk
      obtain ⟨parent, owner, r, hparent, howner, hr, hentity, hmany, rfl⟩ :=
        Frame.declare?_eq_some.mp hk
      refine run_bind_ok.mpr ⟨(), ⟨f.declare parent r d.kind :: frames, parameters⟩, ?_, ih h⟩
      simp only [declareJoin, run_bind_ok, run_get_ok]
      refine ⟨_, _, ⟨rfl, rfl⟩, ?_⟩
      simp only [hparent, howner, run_bind_ok, run_lift_ok, declaredRelation_ok, run_modifyFrame_ok]
      exact ⟨r, _, ⟨⟨hr, hentity, hmany⟩, rfl⟩, rfl⟩

theorem OrderTerm.PlannedAs.extend {frames frames' : List Frame} {t : OrderTerm} {key : SortKey}
    (h : t.PlannedAs c frames key) (hext : Frame.ExtendAll frames frames') :
    t.PlannedAs c frames' key := by
  obtain ⟨p, column, f, hp, htarget, hrest⟩ := h
  exact ⟨p, column, f, hp, hext.target? htarget, hrest⟩

theorem run_orderBy_binds {entity : String} {ts : List OrderTerm} {keys : List SortKey}
    (h : (ts.mapM (Planner.orderTerm c entity)).run s = .ok (keys, s')) :
    List.Forall₂ (OrderTerm.PlannedAs c s'.frames) ts keys ∧
      s.Binds c (ts.flatMap OrderTerm.records) s' := by
  induction ts generalizing s keys with
  | nil =>
    rw [List.mapM_nil] at h
    obtain ⟨rfl, rfl⟩ := Planner.run_pure_ok.mp h
    exact ⟨.nil, .refl _⟩
  | cons t ts ih =>
    rw [List.mapM_cons] at h
    simp only [Planner.run_bind_ok, Planner.run_pure_ok] at h
    obtain ⟨key, s₁, ht, keys', _, hts, rfl, rfl⟩ := h
    obtain ⟨hkey, hbinds⟩ := Planner.run_orderTerm_binds ht
    obtain ⟨hkeys, hbinds'⟩ := ih hts
    exact ⟨.cons (hkey.extend hbinds'.extendAll) hkeys, hbinds.trans hbinds'⟩

/-- The frame of a body when it is closed, given the records that its items read. -/
def Body.frame? (c : Catalog) (items : List Path) (b : Body) : Option Frame :=
  ((Frame.new b.scope b.entity).declareAll? c b.joins).map fun f => f.bindOwn c (b.records items)

theorem Body.frame?_built {b : Body} {items : List Path} {f : Frame}
    (h : b.frame? c items = some f) : Frame.Built c b.scope b.entity b.joins f := by
  obtain ⟨g, hg, rfl⟩ := Option.map_eq_some_iff.mp h
  exact (Frame.Built.new.declareAll? rfl hg).bindOwn _

/-- A body is planned part by part in a frame that is known beforehand. -/
theorem Body.run_planScope_binds {b : Body} {returns : Option Returned} {q : PlannedQuery}
    (items : List Path)
    (hstatements : ∀ s s' ys, (planStatements c b.entity b.statements).run s = .ok (ys, s') →
      s.Binds c (statementsRecords b.statements) s')
    (hselection : ∀ s s' r, (planSelection c b.entity returns b.selection).run s = .ok (r, s') →
      s.Binds c items s')
    (h : (b.planScope c returns).run s = .ok (q, s')) :
    s.Binds c (Path.leaving b.scope (b.records items)) s' ∧
      ∃ e g statements labels selected orderBy s₁ s₂ s₃, c.entity? b.entity = some e ∧
        b.frame? c items = some g ∧
        (planStatements c b.entity b.statements).run s₁ = .ok (statements, s₂) ∧
        (planSelection c b.entity returns b.selection).run s₂ = .ok ((labels, selected), s₃) ∧
        s₂.Binds c items s₃ ∧ Frame.ExtendAll s₃.frames (g :: s'.frames) ∧
        s₃.parameters <+: s'.parameters ∧
        ((selected.map SelectedItem.item).any Item.isAggregate = true →
          (selected.map SelectedItem.item).all Item.isAggregate = true) ∧
        List.Forall₂ (OrderTerm.PlannedAs c (g :: s'.frames)) b.orderBy orderBy ∧
        q.plan = b.assemble g statements selected orderBy ∧
        (selected ≠ [] → q.shapes = selected.map SelectedItem.shape ∧
          q.types = selected.map SelectedItem.type) := by
  obtain ⟨e, g, statements, labels, selected, orderBy, s₁, s₂, s₃, he, hjoins, hys, hsel, hmix, hkeys,
    hplan, htypes⟩ := run_planScope_ok h
  obtain ⟨f, hf, rfl⟩ := Planner.run_declareJoins_ok hjoins
  obtain ⟨horder, hbinds₃⟩ := run_orderBy_binds hkeys
  have hbinds₁ := hstatements _ _ _ hys
  have hbinds₂ := hselection _ _ _ hsel
  have hbinds := (hbinds₁.trans hbinds₂).trans hbinds₃
  rw [← records_eq] at hbinds
  -- The frame of the body takes its own paths and is closed; the rest go to the frames around it.
  have hframes := hbinds.frames
  have hscope : f.scope = b.scope := (Frame.Built.new.declareAll? rfl hf).scope_eq
  rw [Path.bindAll_cons, hscope, List.cons.injEq] at hframes
  obtain ⟨rfl, hframes⟩ := hframes
  refine ⟨⟨hframes, hbinds.parameters⟩, e, _, statements, labels, selected, orderBy, _, s₂, s₃, he,
    by rw [frame?, hf]; rfl, hys, hsel, hbinds₂, hbinds₃.extendAll, hbinds₃.parameters, hmix, horder,
    hplan, htypes⟩

end Parts

/-! ## Whole bodies -/

section Effects

variable {c : Catalog}

/-- What an item binds, given what it binds as an operand. -/
theorem Expr.selectWith_binds {entity : String} {e : Expr} {s s' : Scopes} {x : SelectedItem}
    (hplan : ∀ r s', (e.plan c entity).run s = .ok (r, s') → s.Binds c e.records s')
    (h : (e.selectWith c (e.plan c entity)).run s = .ok (x, s')) :
    s.Binds c (e.selectedRecords e.records) s' := by
  rcases run_selectWith_ok h with ⟨p, rfl, hp⟩ | ⟨f, p, o, t, rfl, hf, -⟩ |
    ⟨hpath, hagg, o, t, ho, -⟩
  · exact (Path.run_select_binds hp).2
  · cases p with
    | none => exact (Aggregate.run_plan_binds hf).2
    | some p => exact (Aggregate.run_plan_binds hf).2
  · have hbinds := hplan _ _ ho
    cases e with
    | path p => exact absurd rfl (hpath p)
    | aggregate f p => exact absurd rfl (hagg f p)
    | literal | parameter | subquery => exact hbinds

theorem Planner.run_bindParameter_binds {name : String} {v : Value} {s s' : Scopes} {u : Unit}
    (h : (bindParameter name v).run s = .ok (u, s')) :
    s.Binds c [] s' ∧ ∃ w, s'.parameters.lookup name = some w ∧ (w = v ∨ w.identical v = true) := by
  rcases run_bindParameter_ok h with ⟨hnone, rfl⟩ | ⟨w, hw, hid, rfl⟩
  · refine ⟨⟨rfl, List.prefix_append _ _⟩, v, ?_, .inl rfl⟩
    rw [List.lookup_append, hnone]
    simp
  · exact ⟨.refl _, w, hw, .inr hid⟩

mutual

theorem Expr.plan_binds (e : Expr) {entity : String} {s s' : Scopes} {r : Operand × StaticType}
    (h : (e.plan c entity).run s = .ok (r, s')) : s.Binds c e.records s' := by
  obtain ⟨o, t⟩ := r
  match e with
  | .path p =>
    obtain ⟨column, f, hp, -⟩ := Expr.run_plan_path_ok.mp h
    exact (Path.run_resolve_binds hp).2
  | .literal v =>
    obtain ⟨-, -, rfl⟩ := Expr.run_plan_literal_ok.mp h
    exact .refl _
  | .parameter name v =>
    exact (Planner.run_bindParameter_binds (Expr.run_plan_parameter_ok.mp h).1).1
  | .subquery body returns =>
    obtain ⟨q, hq, -⟩ := Expr.run_plan_subquery_ok.mp h
    refine Body.planScope_binds body ?_ (fun r hr s s' x hx => ?_) hq
    · intro h
      cases h
    · cases hr
      exact Expr.selectWith_binds (fun _ _ h => Expr.plan_binds returns h) hx
  | .aggregate f p => exact (Expr.run_plan_aggregate_ok.mp h).elim
termination_by structural e

theorem Clause.plan_binds (clause : Clause) {entity : String} {s s' : Scopes} {p : Predicate}
    (h : (clause.plan c entity).run s = .ok (p, s')) : s.Binds c clause.records s' := by
  match clause with
  | .compare left op right =>
    obtain ⟨l, lt, r, rt, s₁, hl, hr, -⟩ := Clause.run_plan_compare_ok.mp h
    exact (Expr.plan_binds left hl).trans (Expr.plan_binds right hr)
  | .like operand pattern negated =>
    obtain ⟨o, t, ho, -⟩ := Clause.run_plan_like_ok.mp h
    exact Expr.plan_binds operand ho
  | .inList operand values negated =>
    obtain ⟨o, t, ho, -⟩ := Clause.run_plan_inList_ok.mp h
    exact Expr.plan_binds operand ho
  | .inSubquery operand subquery negated =>
    obtain ⟨o, t, q, qt, s₁, ho, -, hq, -⟩ := Clause.run_plan_inSubquery_ok.mp h
    exact (Expr.plan_binds operand ho).trans (Expr.plan_binds subquery hq)
  | .isNull operand negated =>
    rcases Clause.run_plan_isNull_ok h with ⟨o, t, ho, -⟩ | ⟨path, level, slot, r, rfl, hp, -⟩
    · exact Expr.plan_binds operand ho
    · exact (Path.run_resolve_binds hp).2
  | .isEmpty collection negated =>
    obtain ⟨rows, element, hrows, -⟩ := Clause.run_plan_isEmpty_ok.mp h
    exact (Path.run_collection_binds hrows).2
  | .isMember value collection negated =>
    obtain ⟨v, t, rows, element, s₁, hv, hrows, -⟩ := Clause.run_plan_isMember_ok.mp h
    exact (Expr.plan_binds value hv).trans (Path.run_collection_binds hrows).2
termination_by structural clause

theorem planStatement_binds (x : Statement Clause) {entity : String} {s s' : Scopes}
    {y : Statement Predicate} (h : (planStatement c entity x).run s = .ok (y, s')) :
    s.Binds c (statementRecords x) s' := by
  match x with
  | .or =>
    obtain ⟨-, rfl⟩ := Planner.run_pure_ok.mp h
    exact .refl _
  | .clause clause =>
    simp only [planStatement, Planner.run_bind_ok, Planner.run_pure_ok] at h
    obtain ⟨p, _, hp, -, rfl⟩ := h
    exact Clause.plan_binds clause hp
termination_by structural x

theorem planStatements_binds (xs : List (Statement Clause)) {entity : String} {s s' : Scopes}
    {ys : List (Statement Predicate)}
    (h : (planStatements c entity xs).run s = .ok (ys, s')) :
    s.Binds c (statementsRecords xs) s' := by
  match xs with
  | [] =>
    obtain ⟨-, rfl⟩ := run_planStatements_nil_ok.mp h
    exact .refl _
  | x :: xs =>
    simp only [planStatements, Planner.run_bind_ok, Planner.run_pure_ok] at h
    obtain ⟨y, s₁, hx, ys', _, hxs, -, rfl⟩ := h
    exact (planStatement_binds x hx).trans (planStatements_binds xs hxs)
termination_by structural xs

theorem planItems_binds (es : List Expr) {entity : String} {s s' : Scopes}
    {xs : List SelectedItem} (h : (planItems c entity es).run s = .ok (xs, s')) :
    s.Binds c (itemsRecords es) s' := by
  match es with
  | [] =>
    obtain ⟨-, rfl⟩ := run_planItems_nil_ok.mp h
    exact .refl _
  | e :: es =>
    obtain ⟨x, s₁, xs', hx, hxs, -⟩ := run_planItems_cons_ok.mp h
    exact (Expr.selectWith_binds (fun _ _ h => Expr.plan_binds e h) hx).trans
      (planItems_binds es hxs)
termination_by structural es

/-- The items of a body are its own selection, or the one that it returns. -/
theorem planSelection_binds (selection : Option (List Expr)) {entity : String}
    {returns : Option Returned} {items : List Path}
    (hselection : returns = none → items = itemsRecords (selection.getD []))
    (hreturned : ∀ r, returns = some r → ∀ s s' x, r.item.run s = .ok (x, s') →
      s.Binds c items s')
    {s s' : Scopes} {r : List String × List SelectedItem}
    (h : (planSelection c entity returns selection).run s = .ok (r, s')) :
    s.Binds c items s' := by
  match selection, returns with
  | none, none =>
    obtain ⟨hr, -⟩ := run_planSelection_none_ok.mp h
    obtain ⟨-, rfl⟩ := run_planItems_nil_ok.mp hr
    rw [hselection rfl]
    exact .refl _
  | some es, none =>
    rw [hselection rfl]
    exact planItems_binds es (run_planSelection_none_ok.mp h).1
  | _, some r =>
    obtain ⟨-, x, o, hx, -⟩ := run_planSelection_some_ok.mp h
    exact hreturned r rfl _ _ _ hx
termination_by structural selection

/-- A body binds the records that it reads in the scopes around it. -/
theorem Body.planScope_binds (b : Body) {returns : Option Returned} {items : List Path}
    (hselection : returns = none → items = itemsRecords (b.selection.getD []))
    (hreturned : ∀ r, returns = some r → ∀ s s' x, r.item.run s = .ok (x, s') →
      s.Binds c items s')
    {s s' : Scopes} {q : PlannedQuery} (h : (b.planScope c returns).run s = .ok (q, s')) :
    s.Binds c (Path.leaving b.scope (b.records items)) s' := by
  match b with
  | ⟨scope, entity, statements, joins, selection, orderBy, distinct, assignments⟩ =>
    exact (Body.run_planScope_binds _ (fun _ _ _ h => planStatements_binds statements h)
      (fun _ _ _ h => planSelection_binds selection hselection hreturned h) h).1
termination_by structural b

end

end Effects

end EntityQuery
