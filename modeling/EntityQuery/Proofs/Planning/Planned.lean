import EntityQuery.Proofs.Planning.Effects

/-!
# Planned bodies

The rules by which bodies are planned, without the planner's state: an expression, a clause or a body
stands beside its plan, over the frames as they are when planning has ended. What is planned early is
not disturbed by what is bound later, so a successful run of the planner gives a plan by these rules.
-/

namespace EntityQuery

/-! ## Rules -/

mutual

/-- An expression with its operand and its static type, in a stack of frames. -/
inductive Expr.PlannedAs (c : Catalog) (parameters : List (String × Value)) :
    List Frame → Expr → Operand → StaticType → Prop
  | path {frames : List Frame} {p : Path} {column : Column} {f : Field} :
      p.target? c frames = some (.field column f) →
      Expr.PlannedAs c parameters frames (.path p) (.column column) (.field f.type)
  | literal {frames : List Frame} {v : Value} :
      Expr.PlannedAs c parameters frames (.literal v) (.literal v) (.value v)
  | parameter {frames : List Frame} {name : String} {v w : Value} :
      parameters.lookup name = some w → w = v ∨ w.identical v = true →
      Expr.PlannedAs c parameters frames (.parameter name v) (.parameter name) (.value v)
  /-- A nested query has one item, which is a value. -/
  | subquery {frames : List Frame} {body : Body} {returns : Expr} {q : Plan} {x : SelectedItem}
      {o : Operand} : body.selection = none →
      Body.PlannedAs c parameters frames [returns] body q [x] → x.item = .expr o →
      Expr.PlannedAs c parameters frames (.subquery body returns) (.query q) x.type

/-- An expression with the item that it selects. -/
inductive Expr.SelectedAs (c : Catalog) (parameters : List (String × Value)) :
    List Frame → Expr → SelectedItem → Prop
  /-- Whether a selected slot is optional does not depend on what is bound later. -/
  | path {earlier frames : List Frame} {p : Path} {x : SelectedItem} :
      Frame.ExtendAll earlier frames → p.SelectedIn c earlier x →
      Expr.SelectedAs c parameters frames (.path p) x
  | aggregate {frames : List Frame} {f : Aggregate} {p : Option Path} {o : Operand}
      {t : StaticType} : f.PlannedAs c frames p o t →
      Expr.SelectedAs c parameters frames (.aggregate f p) ⟨.expr o, t.shape, t⟩
  | operand {frames : List Frame} {e : Expr} {o : Operand} {t : StaticType} :
      (∀ p, e ≠ .path p) → (∀ f p, e ≠ .aggregate f p) →
      Expr.PlannedAs c parameters frames e o t →
      Expr.SelectedAs c parameters frames e ⟨.expr o, t.shape, t⟩

/-- A clause with its condition. -/
inductive Clause.PlannedAs (c : Catalog) (parameters : List (String × Value)) :
    List Frame → Clause → Predicate → Prop
  | compare {frames : List Frame} {left right : Expr} {op : Comparison} {l r : Operand}
      {lt rt : StaticType} : Expr.PlannedAs c parameters frames left l lt →
      Expr.PlannedAs c parameters frames right r rt → StaticType.conflict? op lt rt = none →
      Clause.PlannedAs c parameters frames (.compare left op right) (.compare l op r)
  | like {frames : List Frame} {operand : Expr} {pattern : String} {negated : Bool} {o : Operand}
      {t : StaticType} : Expr.PlannedAs c parameters frames operand o t → t.isText = true →
      Clause.PlannedAs c parameters frames (.like operand pattern negated) (.like o pattern negated)
  | inList {frames : List Frame} {operand : Expr} {values : List Value} {negated : Bool}
      {o : Operand} {t : StaticType} : Expr.PlannedAs c parameters frames operand o t →
      t.admitsAll values = true →
      Clause.PlannedAs c parameters frames (.inList operand values negated) (.inList o values negated)
  | inSubquery {frames : List Frame} {operand subquery : Expr} {negated : Bool} {o : Operand}
      {t : StaticType} {q : Plan} {qt : StaticType} :
      Expr.PlannedAs c parameters frames operand o t →
      Expr.PlannedAs c parameters frames subquery (.query q) qt →
      StaticType.conflict? .eq t qt = none →
      Clause.PlannedAs c parameters frames (.inSubquery operand subquery negated)
        (.inQuery o q negated)
  | isNull {frames : List Frame} {operand : Expr} {negated : Bool} {o : Operand}
      {t : StaticType} : Expr.PlannedAs c parameters frames operand o t →
      Clause.PlannedAs c parameters frames (.isNull operand negated) (.isNull o negated)
  /-- A to-one relation is null if it leads nowhere. -/
  | isNullRelation {frames : List Frame} {path : Path} {negated : Bool} {level slot : Nat}
      {r : Relation} {p : Predicate} : path.target? c frames = some (.relation level slot r) →
      c.relationIsNull path level slot r negated = .ok p →
      Clause.PlannedAs c parameters frames (.isNull (.path path) negated) p
  | isEmpty {frames : List Frame} {collection : Path} {negated : Bool} {rows : Collection}
      {element : FieldType} : collection.CollectedAs c frames rows element →
      Clause.PlannedAs c parameters frames (.isEmpty collection negated) (.isEmpty rows negated)
  | isMember {frames : List Frame} {value : Expr} {collection : Path} {negated : Bool}
      {v : Operand} {t : StaticType} {rows : Collection} {element : FieldType} :
      Expr.PlannedAs c parameters frames value v t →
      collection.CollectedAs c frames rows element → t.fitsElement element = true →
      Clause.PlannedAs c parameters frames (.isMember value collection negated)
        (.isMember v rows negated)

/-- Statements with their conditions, the markers being kept. -/
inductive StatementsPlannedAs (c : Catalog) (parameters : List (String × Value)) :
    List Frame → List (Statement Clause) → List (Statement Predicate) → Prop
  | nil {frames : List Frame} : StatementsPlannedAs c parameters frames [] []
  | or {frames : List Frame} {xs : List (Statement Clause)} {ys : List (Statement Predicate)} :
      StatementsPlannedAs c parameters frames xs ys →
      StatementsPlannedAs c parameters frames (.or :: xs) (.or :: ys)
  | clause {frames : List Frame} {x : Clause} {p : Predicate} {xs : List (Statement Clause)}
      {ys : List (Statement Predicate)} : Clause.PlannedAs c parameters frames x p →
      StatementsPlannedAs c parameters frames xs ys →
      StatementsPlannedAs c parameters frames (.clause x :: xs) (.clause p :: ys)

/-- Selected expressions with their items. -/
inductive ItemsPlannedAs (c : Catalog) (parameters : List (String × Value)) :
    List Frame → List Expr → List SelectedItem → Prop
  | nil {frames : List Frame} : ItemsPlannedAs c parameters frames [] []
  | cons {frames : List Frame} {e : Expr} {x : SelectedItem} {es : List Expr}
      {xs : List SelectedItem} : Expr.SelectedAs c parameters frames e x →
      ItemsPlannedAs c parameters frames es xs →
      ItemsPlannedAs c parameters frames (e :: es) (x :: xs)

/-- A body that selects expressions, with its plan and its items. Its own frame is the innermost. -/
inductive Body.PlannedAs (c : Catalog) (parameters : List (String × Value)) :
    List Frame → List Expr → Body → Plan → List SelectedItem → Prop
  | intro {frames : List Frame} {es : List Expr} {b : Body} {e : Entity} {g : Frame}
      {statements : List (Statement Predicate)} {selected : List SelectedItem}
      {orderBy : List SortKey} : c.entity? b.entity = some e →
      b.frame? c (itemsRecords es) = some g →
      StatementsPlannedAs c parameters (g :: frames) b.statements statements →
      ItemsPlannedAs c parameters (g :: frames) es selected →
      ((selected.map SelectedItem.item).any Item.isAggregate = true →
        (selected.map SelectedItem.item).all Item.isAggregate = true) →
      List.Forall₂ (OrderTerm.PlannedAs c (g :: frames)) b.orderBy orderBy →
      Body.PlannedAs c parameters frames es b (b.assemble g statements selected orderBy) selected

end

/-! ## Planning follows the rules -/

section Soundness

variable {c : Catalog}

/-- Scopes that may follow when planning goes on, frames being closed only as a whole. -/
structure Scopes.Reaches (s : Scopes) (frames : List Frame) (parameters : List (String × Value)) :
    Prop where
  frames : Frame.ExtendAll s.frames frames
  parameters : s.parameters <+: parameters

namespace Scopes.Reaches

variable {s s' : Scopes} {frames : List Frame} {parameters : List (String × Value)}
  {ps : List Path}

theorem of_binds (h : s'.Reaches frames parameters) (hbinds : s.Binds c ps s') :
    s.Reaches frames parameters :=
  ⟨hbinds.extendAll.trans h.frames, hbinds.parameters.trans h.parameters⟩

/-- A bound parameter keeps its value. -/
theorem lookup (h : s.Reaches frames parameters) {name : String} {v : Value}
    (hv : s.parameters.lookup name = some v) : parameters.lookup name = some v := by
  obtain ⟨more, rfl⟩ := h.parameters
  rw [List.lookup_append, hv]
  rfl

end Scopes.Reaches

theorem Aggregate.PlannedAs.extend {frames frames' : List Frame} {f : Aggregate}
    {p : Option Path} {o : Operand} {t : StaticType} (h : f.PlannedAs c frames p o t)
    (hext : Frame.ExtendAll frames frames') : f.PlannedAs c frames' p o t := by
  cases h with
  | rows => exact .rows
  | column htarget htype => exact .column (hext.target? htarget) htype

theorem Path.CollectedAs.extend {frames frames' : List Frame} {p : Path} {rows : Collection}
    {element : FieldType} (h : p.CollectedAs c frames rows element)
    (hext : Frame.ExtendAll frames frames') : p.CollectedAs c frames' rows element := by
  cases h with
  | stored htarget ht => exact .stored (hext.target? htarget) ht
  | related htarget hmany hto hidentity hrows =>
    exact .related (hext.target? htarget) hmany hto hidentity hrows

/-- An item is planned by the rules if the operand is. -/
theorem Expr.selectWith_selectedAs {entity : String} {e : Expr} {s s' : Scopes}
    {x : SelectedItem} {frames : List Frame} {parameters : List (String × Value)}
    (hplan : ∀ o t s', (e.plan c entity).run s = .ok ((o, t), s') →
      s'.Reaches frames parameters → e.PlannedAs c parameters frames o t)
    (h : (e.selectWith c (e.plan c entity)).run s = .ok (x, s'))
    (hreach : s'.Reaches frames parameters) : e.SelectedAs c parameters frames x := by
  rcases run_selectWith_ok h with ⟨p, rfl, hp⟩ | ⟨f, p, o, t, rfl, hf, rfl⟩ |
    ⟨hpath, hagg, o, t, ho, rfl⟩
  · exact .path hreach.frames (Path.run_select_binds hp).1
  · exact .aggregate ((Aggregate.run_plan_binds hf).1.extend hreach.frames)
  · exact .operand hpath hagg (hplan o t s' ho hreach)

theorem itemsRecords_singleton (e : Expr) : itemsRecords [e] = e.selectedRecords e.records := by
  rw [itemsRecords, List.flatMap_singleton]

/-- How a nested query plans the expression that it returns. -/
structure Returned.Plans (c : Catalog) (r : Returned) (e : Expr) : Prop where
  binds : ∀ s s' x, r.item.run s = .ok (x, s') → s.Binds c (e.selectedRecords e.records) s'
  selectedAs : ∀ s s' x frames parameters, r.item.run s = .ok (x, s') →
    s'.Reaches frames parameters → e.SelectedAs c parameters frames x

mutual

theorem Expr.plan_plannedAs (e : Expr) {entity : String} {s s' : Scopes} {o : Operand}
    {t : StaticType} {frames : List Frame} {parameters : List (String × Value)}
    (h : (e.plan c entity).run s = .ok ((o, t), s')) (hreach : s'.Reaches frames parameters) :
    e.PlannedAs c parameters frames o t := by
  match e with
  | .path p =>
    obtain ⟨column, f, hp, rfl, rfl⟩ := Expr.run_plan_path_ok.mp h
    -- The frames have grown since then, and the path still leads to the same place.
    exact .path (hreach.frames.target? (Path.run_resolve_binds hp).1)
  | .literal v =>
    obtain ⟨rfl, rfl, -⟩ := Expr.run_plan_literal_ok.mp h
    exact .literal
  | .parameter name v =>
    obtain ⟨hbind, rfl, rfl⟩ := Expr.run_plan_parameter_ok.mp h
    obtain ⟨-, w, hw, hid⟩ := Planner.run_bindParameter_binds (c := c) hbind
    exact .parameter (hreach.lookup hw) hid
  | .subquery body returns =>
    obtain ⟨q, hq, rfl, rfl⟩ := Expr.run_plan_subquery_ok.mp h
    have hreturned : Returned.Plans c
        ⟨returns.label, returns.selectWith c (returns.plan c body.entity)⟩ returns :=
      ⟨fun _ _ _ hx => Expr.selectWith_binds (fun _ _ h => returns.plan_binds h) hx,
        fun _ _ _ _ _ hx hreach => Expr.selectWith_selectedAs
          (fun _ _ _ h hreach => Expr.plan_plannedAs returns h hreach) hx hreach⟩
    obtain ⟨hnone, x, o, htypes, ho, hbody⟩ :=
      Body.planScope_returns_plannedAs body hreturned hq hreach
    rw [htypes]
    exact .subquery hnone hbody ho
  | .aggregate f p => exact (Expr.run_plan_aggregate_ok.mp h).elim
termination_by structural e

theorem Clause.plan_plannedAs (clause : Clause) {entity : String} {s s' : Scopes} {p : Predicate}
    {frames : List Frame} {parameters : List (String × Value)}
    (h : (clause.plan c entity).run s = .ok (p, s')) (hreach : s'.Reaches frames parameters) :
    clause.PlannedAs c parameters frames p := by
  match clause with
  | .compare left op right =>
    obtain ⟨l, lt, r, rt, s₁, hl, hr, hcheck, rfl⟩ := Clause.run_plan_compare_ok.mp h
    -- What the right side binds does not disturb the left one.
    exact .compare (Expr.plan_plannedAs left hl (hreach.of_binds (right.plan_binds hr)))
      (Expr.plan_plannedAs right hr hreach) hcheck
  | .like operand pattern negated =>
    obtain ⟨o, t, ho, htext, rfl⟩ := Clause.run_plan_like_ok.mp h
    exact .like (Expr.plan_plannedAs operand ho hreach) htext
  | .inList operand values negated =>
    obtain ⟨o, t, ho, hall, rfl⟩ := Clause.run_plan_inList_ok.mp h
    exact .inList (Expr.plan_plannedAs operand ho hreach) hall
  | .inSubquery operand subquery negated =>
    obtain ⟨o, t, q, qt, s₁, ho, -, hq, hcheck, rfl⟩ := Clause.run_plan_inSubquery_ok.mp h
    exact .inSubquery (Expr.plan_plannedAs operand ho (hreach.of_binds (subquery.plan_binds hq)))
      (Expr.plan_plannedAs subquery hq hreach) hcheck
  | .isNull operand negated =>
    rcases Clause.run_plan_isNull_ok h with ⟨o, t, ho, rfl⟩ | ⟨path, level, slot, r, rfl, hp, hnull⟩
    · exact .isNull (Expr.plan_plannedAs operand ho hreach)
    · exact .isNullRelation (hreach.frames.target? (Path.run_resolve_binds hp).1) hnull
  | .isEmpty collection negated =>
    obtain ⟨rows, element, hrows, rfl⟩ := Clause.run_plan_isEmpty_ok.mp h
    exact .isEmpty ((Path.run_collection_binds hrows).1.extend hreach.frames)
  | .isMember value collection negated =>
    obtain ⟨v, t, rows, element, s₁, hv, hrows, hfits, rfl⟩ := Clause.run_plan_isMember_ok.mp h
    obtain ⟨hcollected, hbinds⟩ := Path.run_collection_binds hrows
    exact .isMember (Expr.plan_plannedAs value hv (hreach.of_binds hbinds))
      (hcollected.extend hreach.frames) hfits
termination_by structural clause

theorem planStatements_plannedAs (xs : List (Statement Clause)) {entity : String} {s s' : Scopes}
    {ys : List (Statement Predicate)} {frames : List Frame} {parameters : List (String × Value)}
    (h : (planStatements c entity xs).run s = .ok (ys, s'))
    (hreach : s'.Reaches frames parameters) : StatementsPlannedAs c parameters frames xs ys := by
  match xs with
  | [] =>
    obtain ⟨rfl, -⟩ := run_planStatements_nil_ok.mp h
    exact .nil
  | .or :: xs =>
    obtain ⟨ys', hxs, rfl⟩ := run_planStatements_or_ok.mp h
    exact .or (planStatements_plannedAs xs hxs hreach)
  | .clause x :: xs =>
    obtain ⟨p, s₁, ys', hx, hxs, rfl⟩ := run_planStatements_clause_ok.mp h
    exact .clause (Clause.plan_plannedAs x hx (hreach.of_binds (planStatements_binds xs hxs)))
      (planStatements_plannedAs xs hxs hreach)
termination_by structural xs

theorem planItems_plannedAs (es : List Expr) {entity : String} {s s' : Scopes}
    {xs : List SelectedItem} {frames : List Frame} {parameters : List (String × Value)}
    (h : (planItems c entity es).run s = .ok (xs, s')) (hreach : s'.Reaches frames parameters) :
    ItemsPlannedAs c parameters frames es xs := by
  match es with
  | [] =>
    obtain ⟨rfl, -⟩ := run_planItems_nil_ok.mp h
    exact .nil
  | e :: es =>
    obtain ⟨x, s₁, xs', hx, hxs, rfl⟩ := run_planItems_cons_ok.mp h
    exact .cons (Expr.selectWith_selectedAs
      (fun _ _ _ h hreach => Expr.plan_plannedAs e h hreach) hx
      (hreach.of_binds (planItems_binds es hxs))) (planItems_plannedAs es hxs hreach)
termination_by structural es

/-- A nested body is planned with the one item that it returns. -/
theorem Body.planScope_returns_plannedAs (b : Body) {returns : Returned} {e : Expr}
    (hreturned : returns.Plans c e) {s s' : Scopes} {q : PlannedQuery} {frames : List Frame}
    {parameters : List (String × Value)} (h : (b.planScope c (some returns)).run s = .ok (q, s'))
    (hreach : s'.Reaches frames parameters) :
    b.selection = none ∧ ∃ x o, q.types.head?.getD .unknown = x.type ∧ x.item = .expr o ∧
      b.PlannedAs c parameters frames [e] q.plan [x] := by
  match b with
  | ⟨scope, entity, statements, joins, selection, orderBy, distinct, assignments⟩ =>
    obtain ⟨-, e', g, ys, labels, selected, keys, s₁, s₂, s₃, he, hg, hys, hsel, hbinds, hext,
      hprefix, hmix, hkeys, hplan, htypes⟩ := Body.run_planScope_binds (itemsRecords [e])
        (fun _ _ _ h => planStatements_binds statements h)
        (fun _ _ _ h => planSelection_binds selection (by simp)
          (fun r hr s s' x hx => by
            cases hr
            rw [itemsRecords_singleton]
            exact hreturned.binds s s' x hx) h) h
    obtain ⟨rfl, x, o, hx, ho, heq⟩ := run_planSelection_some_ok.mp hsel
    cases heq
    -- Orderings and the bodies around this one go on binding after its items.
    have hreach₃ : s₃.Reaches (g :: frames) parameters :=
      ⟨hext.trans (.cons (.refl g) hreach.frames), hprefix.trans hreach.parameters⟩
    refine ⟨rfl, x, o, ?_, ho, ?_⟩
    · rw [(htypes (by simp)).2]
      rfl
    · rw [hplan]
      refine .intro he hg (planStatements_plannedAs statements hys (hreach₃.of_binds hbinds))
        (.cons (hreturned.selectedAs _ _ _ _ _ hx hreach₃) .nil) hmix ?_
      exact hkeys.imp fun _ _ hkey => hkey.extend (.cons (.refl g) hreach.frames)
termination_by structural b

end

/-- The outermost body is planned with its own selection. -/
theorem Body.planScope_plannedAs {b : Body} {s s' : Scopes} {q : PlannedQuery}
    {frames : List Frame} {parameters : List (String × Value)}
    (h : (b.planScope c none).run s = .ok (q, s')) (hreach : s'.Reaches frames parameters) :
    ∃ selected, b.PlannedAs c parameters frames (b.selection.getD []) q.plan selected ∧
      (selected ≠ [] → q.shapes = selected.map SelectedItem.shape ∧
        q.types = selected.map SelectedItem.type) := by
  obtain ⟨-, e, g, ys, labels, selected, keys, s₁, s₂, s₃, he, hg, hys, hsel, hbinds, hext, hprefix,
    hmix, hkeys, hplan, htypes⟩ := run_planScope_binds
      (itemsRecords (b.selection.getD []))
      (fun _ _ _ h => planStatements_binds b.statements h)
      (fun _ _ _ h => planSelection_binds b.selection (fun _ => rfl) (by simp) h) h
  have hreach₃ : s₃.Reaches (g :: frames) parameters :=
    ⟨hext.trans (.cons (.refl g) hreach.frames), hprefix.trans hreach.parameters⟩
  obtain ⟨hitems, -⟩ := run_planSelection_none_ok.mp hsel
  refine ⟨selected, ?_, htypes⟩
  rw [hplan]
  refine .intro he hg (planStatements_plannedAs b.statements hys (hreach₃.of_binds hbinds))
    (planItems_plannedAs _ hitems hreach₃) hmix ?_
  exact hkeys.imp fun _ _ hkey => hkey.extend (.cons (.refl g) hreach.frames)

/-- A planned query follows the rules under the parameters that it carries. -/
theorem Body.plan_plannedAs {b : Body} {planned : PlannedQuery} (h : b.plan c = .ok planned) :
    ∃ q selected, planned.plan = { q with parameters := planned.plan.parameters } ∧
      b.PlannedAs c planned.plan.parameters [] (b.selection.getD []) q selected ∧
      (selected ≠ [] → planned.shapes = selected.map SelectedItem.shape ∧
        planned.types = selected.map SelectedItem.type) := by
  unfold plan at h
  cases hrun : (b.planScope c none).run ⟨[], []⟩ with
  | error e => simp [hrun, bind, Except.bind] at h
  | ok r =>
    obtain ⟨q, s⟩ := r
    simp only [hrun, bind, Except.bind, pure, Except.pure, Except.ok.injEq] at h
    subst h
    -- All frames have been closed, since there were none in the beginning.
    have hframes : Frame.ExtendAll s.frames [] := by
      have hbinds := Body.planScope_binds b (fun _ => rfl) (by simp) hrun
      have := hbinds.extendAll
      cases hs : s.frames with
      | nil => exact .nil
      | cons f fs =>
        rw [hs] at this
        cases this
    have hreach : s.Reaches [] s.parameters := ⟨hframes, List.prefix_refl _⟩
    obtain ⟨selected, hplanned, hshapes⟩ := planScope_plannedAs hrun hreach
    exact ⟨q.plan, selected, rfl, hplanned, hshapes⟩

end Soundness

end EntityQuery
