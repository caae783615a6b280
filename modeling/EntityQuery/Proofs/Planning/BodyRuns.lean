import EntityQuery.Proofs.Planning.Runs

/-!
# Successful planning of bodies

What planning an expression, a clause or a body did if it succeeded, one lemma for each form that
it can have.
-/

namespace EntityQuery

/-! ## Expressions and clauses -/

section Clauses

variable {c : Catalog} {entity : String} {s s' : Scopes}

attribute [local simp] Expr.plan Clause.plan

theorem Expr.run_plan_path_ok {p : Path} {o : Operand} {t : StaticType} :
    (Expr.plan c entity (.path p)).run s = .ok ((o, t), s') ↔
      ∃ column f, (p.resolve c).run s = .ok (.field column f, s') ∧
        o = .column column ∧ t = .field f.type := by
  simp [Path.run_operand_ok]

theorem Expr.run_plan_literal_ok {v : Value} {o : Operand} {t : StaticType} :
    (Expr.plan c entity (.literal v)).run s = .ok ((o, t), s') ↔
      o = .literal v ∧ t = .value v ∧ s = s' := by
  rw [Expr.plan, Planner.run_pure_ok]
  simp only [Prod.mk.injEq, and_assoc, eq_comm]

theorem Expr.run_plan_parameter_ok {name : String} {v : Value} {o : Operand} {t : StaticType} :
    (Expr.plan c entity (.parameter name v)).run s = .ok ((o, t), s') ↔
      (Planner.bindParameter name v).run s = .ok ((), s') ∧
        o = .parameter name ∧ t = .value v := by
  rw [Expr.plan]
  simp only [Planner.run_bind_ok, Planner.run_pure_ok, Prod.mk.injEq]
  constructor
  · rintro ⟨_, _, hbind, ⟨rfl, rfl⟩, rfl⟩
    exact ⟨hbind, rfl, rfl⟩
  · rintro ⟨hbind, rfl, rfl⟩
    exact ⟨(), s', hbind, ⟨rfl, rfl⟩, rfl⟩

/-- A nested query is planned with the expression that it returns as its only item. -/
theorem Expr.run_plan_subquery_ok {body : Body} {returns : Expr} {o : Operand} {t : StaticType} :
    (Expr.plan c entity (.subquery body returns)).run s = .ok ((o, t), s') ↔
      ∃ q, (body.planScope c (some ⟨returns.label,
          returns.selectWith c (returns.plan c body.entity)⟩)).run s = .ok (q, s') ∧
        o = .query q.plan ∧ t = q.types.head?.getD .unknown := by
  rw [Expr.plan]
  simp only [Planner.run_bind_ok, Planner.run_pure_ok, Prod.mk.injEq]
  constructor
  · rintro ⟨q, _, hq, ⟨rfl, rfl⟩, rfl⟩
    exact ⟨q, hq, rfl, rfl⟩
  · rintro ⟨q, hq, rfl, rfl⟩
    exact ⟨q, s', hq, ⟨rfl, rfl⟩, rfl⟩

theorem Expr.run_plan_aggregate_ok {f : Aggregate} {p : Option Path} {r : Operand × StaticType} :
    (Expr.plan c entity (.aggregate f p)).run s = .ok (r, s') ↔ False := by
  simp [Planner.run_failPath_ok]

/-- What is neither a path nor an aggregate is selected as the operand that it is. -/
theorem Expr.run_selectWith_ok {e : Expr} {operand : Planner (Operand × StaticType)}
    {x : SelectedItem} (h : (e.selectWith c operand).run s = .ok (x, s')) :
    (∃ p, e = .path p ∧ (p.select c).run s = .ok (x, s')) ∨
      (∃ f p o t, e = .aggregate f p ∧ (f.plan c p).run s = .ok ((o, t), s') ∧
        x = ⟨.expr o, t.shape, t⟩) ∨
      ((∀ p, e ≠ .path p) ∧ (∀ f p, e ≠ .aggregate f p) ∧
        ∃ o t, operand.run s = .ok ((o, t), s') ∧ x = ⟨.expr o, t.shape, t⟩) := by
  cases e with
  | path p => exact .inl ⟨p, rfl, h⟩
  | aggregate f p =>
    simp only [selectWith, Planner.run_bind_ok, Planner.run_pure_ok] at h
    obtain ⟨⟨o, t⟩, _, hplan, rfl, rfl⟩ := h
    exact .inr (.inl ⟨f, p, o, t, rfl, hplan, rfl⟩)
  | literal | parameter | subquery =>
    simp only [selectWith, Planner.run_bind_ok, Planner.run_pure_ok] at h
    obtain ⟨⟨o, t⟩, _, hplan, rfl, rfl⟩ := h
    exact .inr (.inr ⟨fun _ => nofun, fun _ _ => nofun, o, t, hplan, rfl⟩)

/-- A null test is one of an operand, or of a relation that a path leads to. -/
theorem Expr.run_isNullWith_ok {e : Expr} {operand : Planner (Operand × StaticType)}
    {negated : Bool} {p : Predicate}
    (hoperand : ∀ path, e = .path path → operand = path.operand c)
    (h : (e.isNullWith c operand negated).run s = .ok (p, s')) :
    (∃ o t, operand.run s = .ok ((o, t), s') ∧ p = .isNull o negated) ∨
      ∃ path level slot r, e = .path path ∧
        (path.resolve c).run s = .ok (.relation level slot r, s') ∧
        c.relationIsNull path level slot r negated = .ok p := by
  cases e with
  | path path =>
    simp only [isNullWith, Planner.run_bind_ok] at h
    obtain ⟨r, s₁, hr, h⟩ := h
    cases r with
    | field column f =>
      -- Only a path is resolved first, since it may name a relation.
      rw [Planner.run_pure_ok] at h
      obtain ⟨rfl, rfl⟩ := h
      left
      refine ⟨.column column, .field f.type, ?_, rfl⟩
      rw [hoperand path rfl, Path.run_operand_ok]
      exact ⟨column, f, hr, rfl, rfl⟩
    | relation level slot r =>
      rw [Planner.run_lift_ok] at h
      obtain ⟨hnull, rfl⟩ := h
      exact .inr ⟨path, level, slot, r, rfl, hr, hnull⟩
    | record level slot entity => exact (Planner.run_failPath_ok.mp h).elim
  | literal | parameter | subquery | aggregate =>
    -- All else is an operand.
    simp only [isNullWith, Planner.run_bind_ok, Planner.run_pure_ok] at h
    obtain ⟨⟨o, t⟩, _, hplan, rfl, rfl⟩ := h
    exact .inl ⟨o, t, hplan, rfl⟩

theorem Clause.run_plan_compare_ok {left right : Expr} {op : Comparison} {p : Predicate} :
    (Clause.plan c entity (.compare left op right)).run s = .ok (p, s') ↔
      ∃ l lt r rt s₁, (left.plan c entity).run s = .ok ((l, lt), s₁) ∧
        (right.plan c entity).run s₁ = .ok ((r, rt), s') ∧
        StaticType.conflict? op lt rt = none ∧ p = .compare l op r := by
  rw [Clause.plan]
  simp only [Planner.run_bind_ok, Planner.run_checkComparable_ok, Planner.run_pure_ok]
  constructor
  · rintro ⟨⟨l, lt⟩, s₁, hl, ⟨r, rt⟩, _, hr, _, _, ⟨hcheck, rfl⟩, rfl, rfl⟩
    exact ⟨l, lt, r, rt, s₁, hl, hr, hcheck, rfl⟩
  · rintro ⟨l, lt, r, rt, s₁, hl, hr, hcheck, rfl⟩
    exact ⟨(l, lt), s₁, hl, (r, rt), s', hr, (), s', ⟨hcheck, rfl⟩, rfl, rfl⟩

theorem Clause.run_plan_like_ok {operand : Expr} {pattern : String} {negated : Bool}
    {p : Predicate} :
    (Clause.plan c entity (.like operand pattern negated)).run s = .ok (p, s') ↔
      ∃ o t, (operand.plan c entity).run s = .ok ((o, t), s') ∧ t.isText = true ∧
        p = .like o pattern negated := by
  rw [Clause.plan]
  simp only [Planner.run_bind_ok, Planner.run_checkText_ok, Planner.run_pure_ok]
  constructor
  · rintro ⟨⟨o, t⟩, _, ho, _, _, ⟨htext, rfl⟩, rfl, rfl⟩
    exact ⟨o, t, ho, htext, rfl⟩
  · rintro ⟨o, t, ho, htext, rfl⟩
    exact ⟨(o, t), s', ho, (), s', ⟨htext, rfl⟩, rfl, rfl⟩

theorem Clause.run_plan_inList_ok {operand : Expr} {values : List Value} {negated : Bool}
    {p : Predicate} :
    (Clause.plan c entity (.inList operand values negated)).run s = .ok (p, s') ↔
      ∃ o t, (operand.plan c entity).run s = .ok ((o, t), s') ∧ t.admitsAll values = true ∧
        p = .inList o values negated := by
  rw [Clause.plan]
  simp only [Planner.run_bind_ok, Planner.run_checkCandidates_ok, Planner.run_pure_ok]
  constructor
  · rintro ⟨⟨o, t⟩, _, ho, _, _, ⟨hall, rfl⟩, rfl, rfl⟩
    exact ⟨o, t, ho, hall, rfl⟩
  · rintro ⟨o, t, ho, hall, rfl⟩
    exact ⟨(o, t), s', ho, (), s', ⟨hall, rfl⟩, rfl, rfl⟩

theorem Clause.run_plan_inSubquery_ok {operand subquery : Expr} {negated : Bool} {p : Predicate} :
    (Clause.plan c entity (.inSubquery operand subquery negated)).run s = .ok (p, s') ↔
      ∃ o t q qt s₁, (operand.plan c entity).run s = .ok ((o, t), s₁) ∧
        subquery.isSubquery = true ∧
        (subquery.plan c entity).run s₁ = .ok ((.query q, qt), s') ∧
        StaticType.conflict? .eq t qt = none ∧ p = .inQuery o q negated := by
  rw [Clause.plan]
  simp only [Planner.run_bind_ok]
  constructor
  · rintro ⟨⟨o, t⟩, s₁, ho, h⟩
    simp only at h
    split at h
    · exact (Planner.run_failPath_ok.mp h).elim
    · rename_i hsub
      simp only [Planner.run_bind_ok] at h
      obtain ⟨⟨sub, qt⟩, _, hq, h⟩ := h
      -- Only a nested query can be searched.
      cases sub with
      | query q =>
        simp only [Planner.run_bind_ok, Planner.run_checkComparable_ok, Planner.run_pure_ok] at h
        obtain ⟨_, _, ⟨hcheck, rfl⟩, rfl, rfl⟩ := h
        exact ⟨o, t, q, qt, s₁, ho, by simpa using hsub, hq, hcheck, rfl⟩
      | column | literal | parameter | aggregate => exact (Planner.run_failPath_ok.mp h).elim
  · rintro ⟨o, t, q, qt, s₁, ho, hsub, hq, hcheck, rfl⟩
    refine ⟨(o, t), s₁, ho, ?_⟩
    simp only [hsub, Bool.not_true, Bool.false_eq_true, if_false, Planner.run_bind_ok]
    refine ⟨(.query q, qt), s', hq, ?_⟩
    simp only [Planner.run_bind_ok, Planner.run_checkComparable_ok, Planner.run_pure_ok]
    exact ⟨(), s', ⟨hcheck, rfl⟩, trivial, rfl⟩

theorem Clause.run_plan_isNull_ok {operand : Expr} {negated : Bool} {p : Predicate}
    (h : (Clause.plan c entity (.isNull operand negated)).run s = .ok (p, s')) :
    (∃ o t, (operand.plan c entity).run s = .ok ((o, t), s') ∧ p = .isNull o negated) ∨
      ∃ path level slot r, operand = .path path ∧
        (path.resolve c).run s = .ok (.relation level slot r, s') ∧
        c.relationIsNull path level slot r negated = .ok p := by
  rw [Clause.plan] at h
  refine Expr.run_isNullWith_ok (fun path hpath => ?_) h
  rw [hpath, Expr.plan]

theorem Clause.run_plan_isEmpty_ok {collection : Path} {negated : Bool} {p : Predicate} :
    (Clause.plan c entity (.isEmpty collection negated)).run s = .ok (p, s') ↔
      ∃ rows element, (collection.collection c).run s = .ok ((rows, element), s') ∧
        p = .isEmpty rows negated := by
  rw [Clause.plan]
  simp only [Planner.run_bind_ok, Planner.run_pure_ok]
  constructor
  · rintro ⟨⟨rows, element⟩, _, hrows, rfl, rfl⟩
    exact ⟨rows, element, hrows, rfl⟩
  · rintro ⟨rows, element, hrows, rfl⟩
    exact ⟨(rows, element), s', hrows, rfl, rfl⟩

theorem Clause.run_plan_isMember_ok {value : Expr} {collection : Path} {negated : Bool}
    {p : Predicate} :
    (Clause.plan c entity (.isMember value collection negated)).run s = .ok (p, s') ↔
      ∃ v t rows element s₁, (value.plan c entity).run s = .ok ((v, t), s₁) ∧
        (collection.collection c).run s₁ = .ok ((rows, element), s') ∧
        t.fitsElement element = true ∧ p = .isMember v rows negated := by
  rw [Clause.plan]
  simp only [Planner.run_bind_ok, Planner.run_checkElement_ok, Planner.run_pure_ok]
  constructor
  · rintro ⟨⟨v, t⟩, s₁, hv, ⟨rows, element⟩, _, hrows, _, _, ⟨hfits, rfl⟩, rfl, rfl⟩
    exact ⟨v, t, rows, element, s₁, hv, hrows, hfits, rfl⟩
  · rintro ⟨v, t, rows, element, s₁, hv, hrows, hfits, rfl⟩
    exact ⟨(v, t), s₁, hv, (rows, element), s', hrows, (), s', ⟨hfits, rfl⟩, rfl, rfl⟩

end Clauses

/-! ## Bodies -/

section Bodies

variable {c : Catalog} {entity : String} {s s' : Scopes}

theorem run_planStatements_nil_ok {ys : List (Statement Predicate)} :
    (planStatements c entity []).run s = .ok (ys, s') ↔ ys = [] ∧ s = s' := by
  rw [planStatements, Planner.run_pure_ok, eq_comm]

theorem run_planStatements_or_ok {xs : List (Statement Clause)} {ys : List (Statement Predicate)} :
    (planStatements c entity (.or :: xs)).run s = .ok (ys, s') ↔
      ∃ ys', (planStatements c entity xs).run s = .ok (ys', s') ∧ ys = .or :: ys' := by
  rw [planStatements]
  simp only [planStatement, Planner.run_bind_ok, Planner.run_pure_ok]
  constructor
  · rintro ⟨_, _, ⟨rfl, rfl⟩, ys', _, hxs, rfl, rfl⟩
    exact ⟨ys', hxs, rfl⟩
  · rintro ⟨ys', hxs, rfl⟩
    exact ⟨.or, s, ⟨rfl, rfl⟩, ys', s', hxs, rfl, rfl⟩

theorem run_planStatements_clause_ok {x : Clause} {xs : List (Statement Clause)}
    {ys : List (Statement Predicate)} :
    (planStatements c entity (.clause x :: xs)).run s = .ok (ys, s') ↔
      ∃ p s₁ ys', (x.plan c entity).run s = .ok (p, s₁) ∧
        (planStatements c entity xs).run s₁ = .ok (ys', s') ∧ ys = .clause p :: ys' := by
  rw [planStatements]
  simp only [planStatement, Planner.run_bind_ok, Planner.run_pure_ok]
  constructor
  · rintro ⟨_, s₁, ⟨p, _, hx, rfl, rfl⟩, ys', _, hxs, rfl, rfl⟩
    exact ⟨p, _, ys', hx, hxs, rfl⟩
  · rintro ⟨p, s₁, ys', hx, hxs, rfl⟩
    exact ⟨.clause p, s₁, ⟨p, s₁, hx, rfl, rfl⟩, ys', s', hxs, rfl, rfl⟩

theorem run_planItems_nil_ok {xs : List SelectedItem} :
    (planItems c entity []).run s = .ok (xs, s') ↔ xs = [] ∧ s = s' := by
  rw [planItems, Planner.run_pure_ok, eq_comm]

theorem run_planItems_cons_ok {e : Expr} {es : List Expr} {xs : List SelectedItem} :
    (planItems c entity (e :: es)).run s = .ok (xs, s') ↔
      ∃ x s₁ xs', (e.selectWith c (e.plan c entity)).run s = .ok (x, s₁) ∧
        (planItems c entity es).run s₁ = .ok (xs', s') ∧ xs = x :: xs' := by
  rw [planItems]
  simp only [Planner.run_bind_ok, Planner.run_pure_ok]
  constructor
  · rintro ⟨x, s₁, hx, xs', _, hxs, rfl, rfl⟩
    exact ⟨x, s₁, xs', hx, hxs, rfl⟩
  · rintro ⟨x, s₁, xs', hx, hxs, rfl⟩
    exact ⟨x, s₁, hx, xs', s', hxs, rfl, rfl⟩

/-- The selected items of the outermost query. -/
theorem run_planSelection_none_ok {selection : Option (List Expr)}
    {r : List String × List SelectedItem} :
    (planSelection c entity none selection).run s = .ok (r, s') ↔
      (planItems c entity (selection.getD [])).run s = .ok (r.2, s') ∧
        r.1 = (selection.getD []).map Expr.label := by
  cases selection with
  | none =>
    rw [planSelection, Planner.run_pure_ok, Option.getD_none, run_planItems_nil_ok]
    obtain ⟨labels, xs⟩ := r
    simp only [Prod.mk.injEq, List.map_nil]
    constructor
    · rintro ⟨⟨rfl, rfl⟩, rfl⟩
      exact ⟨⟨rfl, rfl⟩, rfl⟩
    · rintro ⟨⟨rfl, rfl⟩, rfl⟩
      exact ⟨⟨rfl, rfl⟩, rfl⟩
  | some es =>
    obtain ⟨labels, xs⟩ := r
    simp only [planSelection, Planner.run_bind_ok, Planner.run_pure_ok, Option.getD_some,
      Prod.mk.injEq]
    constructor
    · rintro ⟨_, _, hxs, ⟨rfl, rfl⟩, rfl⟩
      exact ⟨hxs, rfl⟩
    · rintro ⟨hxs, rfl⟩
      exact ⟨xs, s', hxs, ⟨rfl, rfl⟩, rfl⟩

/-- The one item of a nested query. -/
theorem run_planSelection_some_ok {selection : Option (List Expr)} {returned : Returned}
    {r : List String × List SelectedItem} :
    (planSelection c entity (some returned) selection).run s = .ok (r, s') ↔
      selection = none ∧ ∃ x o, returned.item.run s = .ok (x, s') ∧ x.item = .expr o ∧
        r = ([returned.label], [x]) := by
  cases selection with
  | none =>
    simp only [planSelection, Planner.run_bind_ok, Planner.run_checkReturned_ok,
      Planner.run_pure_ok, true_and]
    constructor
    · rintro ⟨x, _, hx, _, _, ⟨⟨o, ho⟩, rfl⟩, rfl, rfl⟩
      exact ⟨x, o, hx, ho, rfl⟩
    · rintro ⟨x, o, hx, ho, rfl⟩
      exact ⟨x, s', hx, (), s', ⟨⟨o, ho⟩, rfl⟩, rfl, rfl⟩
  | some es => simp [planSelection, Planner.run_failPath_ok]

/-- The parts of a planned query, and the joins of its frame when it is closed. -/
def Body.assemble (b : Body) (g : Frame) (statements : List (Statement Predicate))
    (selected : List SelectedItem) (orderBy : List SortKey) : Plan where
  entity := b.entity
  joins := g.joins
  filter := Statement.combine .and .or statements
  projection := .ofSelected selected
  distinct := b.distinct
  orderBy
  window := none
  parameters := []

/-- A scope is planned part by part in a frame of its own. -/
theorem Body.run_planScope_ok {b : Body} {returns : Option Returned} {q : PlannedQuery}
    (h : (b.planScope c returns).run s = .ok (q, s')) :
    ∃ e g statements labels selected orderBy s₁ s₂ s₃, c.entity? b.entity = some e ∧
      (Planner.declareJoins c b.entity b.joins).run
        ⟨.new b.scope b.entity :: s.frames, s.parameters⟩ = .ok ((), s₁) ∧
      (planStatements c b.entity b.statements).run s₁ = .ok (statements, s₂) ∧
      (planSelection c b.entity returns b.selection).run s₂ = .ok ((labels, selected), s₃) ∧
      ((selected.map SelectedItem.item).any Item.isAggregate = true →
        (selected.map SelectedItem.item).all Item.isAggregate = true) ∧
      (b.orderBy.mapM (Planner.orderTerm c b.entity)).run s₃ =
        .ok (orderBy, ⟨g :: s'.frames, s'.parameters⟩) ∧
      q.plan = b.assemble g statements selected orderBy ∧
      (selected ≠ [] → q.shapes = selected.map SelectedItem.shape ∧
        q.types = selected.map SelectedItem.type) := by
  obtain ⟨scope, entity, statements, joins, selection, orderBy, distinct, assignments⟩ := b
  rw [Body.planScope] at h
  simp only [Planner.run_bind_ok, Planner.run_lift_ok, Planner.run_pure_ok, Catalog.entity_ok] at h
  obtain ⟨e, _, ⟨he, rfl⟩, ⟨t, g⟩, _, hscope, rfl, rfl⟩ := h
  rw [Planner.run_inScope_ok] at hscope
  simp only [Planner.run_bind_ok, Planner.run_pure_ok] at hscope
  -- The parts of the scope, in the order in which they are planned.
  obtain ⟨_, s₁, hjoins, ys, s₂, hys, ⟨labels, selected⟩, s₃, hsel, ⟨projection, shapes, types⟩, _,
    hproj, keys, s₅, hkeys, rfl, rfl⟩ := hscope
  obtain ⟨rfl, hprojection, hmix, htypes⟩ := Planner.run_projection_ok hproj
  simp only at hprojection htypes
  subst hprojection
  exact ⟨e, g, ys, labels, selected, keys, s₁, s₂, s₃, he, hjoins, hys, hsel, hmix, hkeys, rfl,
    htypes⟩

/-- A scope can be planned if each of its parts can. -/
theorem Body.run_planScope_of {b : Body} {returns : Option Returned} {e : Entity} {g : Frame}
    {statements : List (Statement Predicate)} {labels : List String} {selected : List SelectedItem}
    {orderBy : List SortKey} {s₁ s₂ s₃ : Scopes} (he : c.entity? b.entity = some e)
    (hjoins : (Planner.declareJoins c b.entity b.joins).run
      ⟨.new b.scope b.entity :: s.frames, s.parameters⟩ = .ok ((), s₁))
    (hys : (planStatements c b.entity b.statements).run s₁ = .ok (statements, s₂))
    (hsel : (planSelection c b.entity returns b.selection).run s₂ = .ok ((labels, selected), s₃))
    (hmix : (selected.map SelectedItem.item).any Item.isAggregate = true →
      (selected.map SelectedItem.item).all Item.isAggregate = true)
    (hkeys : (b.orderBy.mapM (Planner.orderTerm c b.entity)).run s₃ =
      .ok (orderBy, ⟨g :: s'.frames, s'.parameters⟩)) :
    ∃ q, (b.planScope c returns).run s = .ok (q, s') ∧
      (selected ≠ [] → q.types = selected.map SelectedItem.type) := by
  obtain ⟨scope, entity, xs, joins, selection, ts, distinct, assignments⟩ := b
  obtain ⟨⟨projection, shapes, types⟩, hproj⟩ :
      ∃ r, (Planner.projection entity labels selected).run s₃ = .ok (r, s₃) :=
    Planner.run_projection_of hmix
  have htypes := (Planner.run_projection_ok hproj).2.2.2
  -- The projection is the last part to be known. The joins are those of the frame after all parts.
  let plan : Plan := {
    entity
    joins := []
    filter := Statement.combine .and .or statements
    projection
    distinct
    orderBy
    window := none
    parameters := [] }
  refine ⟨⟨{ plan with joins := g.joins }, shapes, types⟩, ?_, fun h => (htypes h).2⟩
  rw [Body.planScope]
  simp only [Planner.run_bind_ok, Planner.run_lift_ok, Planner.run_pure_ok, Catalog.entity_ok]
  refine ⟨e, s, ⟨he, rfl⟩, ⟨⟨plan, shapes, types⟩, g⟩, s', ?_, rfl, rfl⟩
  rw [Planner.run_inScope_ok]
  simp only [Planner.run_bind_ok, Planner.run_pure_ok]
  exact ⟨(), s₁, hjoins, statements, s₂, hys, (labels, selected), s₃, hsel,
    (projection, shapes, types), s₃, hproj, orderBy, _, hkeys, rfl, rfl⟩

/-- The outermost scope is planned from nothing, and its plan is given the parameters. -/
theorem Body.plan_ok {b : Body} {planned : PlannedQuery} :
    b.plan c = .ok planned ↔
      ∃ q s, (b.planScope c none).run ⟨[], []⟩ = .ok (q, s) ∧
        planned = { q with plan := { q.plan with parameters := s.parameters } } := by
  unfold plan
  cases (b.planScope c none).run ⟨[], []⟩ with
  | error e => simp [bind, Except.bind]
  | ok r =>
    obtain ⟨q, s⟩ := r
    constructor
    · intro h
      cases h
      exact ⟨q, s, rfl, rfl⟩
    · rintro ⟨q', s', h, rfl⟩
      cases h
      rfl

end Bodies

end EntityQuery
