import EntityQuery.Proofs.Evaluation.Likeness
import EntityQuery.Proofs.Planning.Transfer

/-!
# Planning in another order

The statements of a body may be planned in any order: each of them succeeds or fails by itself, except
that a parameter keeps the value that it is bound to first, and then must be bound to it everywhere.
-/

namespace EntityQuery

/-! ## Scopes -/

section Scopes

variable {c : Catalog} {bases : List Frame} {s u s' : Scopes} {bound : List (String × Value)}

theorem run_orderBy_transfers {entity : String} {ts : List OrderTerm} :
    Planner.Transfers c bases (fun _ _ => True) [] (ts.mapM (Planner.orderTerm c entity)) := by
  intro s u s' keys bound h hrun hbound
  induction ts generalizing s u keys with
  | nil =>
    rw [List.mapM_nil] at hrun ⊢
    obtain ⟨-, rfl⟩ := Planner.run_pure_ok.mp hrun
    exact ⟨[], u, rfl, trivial, h, Option.some.inj hbound⟩
  | cons t ts ih =>
    rw [List.mapM_cons] at hrun ⊢
    simp only [Planner.run_bind_ok, Planner.run_pure_ok] at hrun
    obtain ⟨key, s₁, ht, keys', _, hts, -, rfl⟩ := hrun
    obtain ⟨key', u₁, ht', -, h₁, hparameters⟩ := Planner.orderTerm_transfers h ht rfl
    obtain ⟨keys'', u', hts', -, hrest⟩ := ih h₁ hts (hparameters ▸ hbound)
    refine ⟨key' :: keys'', u', ?_, trivial, hrest⟩
    simp only [Planner.run_bind_ok, Planner.run_pure_ok]
    exact ⟨key', u₁, ht', keys'', u', hts', rfl, rfl⟩

/-- What is planned as an item transfers if it does as an operand. -/
theorem Expr.selectWith_transfers {entity : String} {e : Expr}
    (hplan : Planner.Transfers c bases SameKind e.parameters (e.plan c entity)) :
    Planner.Transfers c bases SelectedItem.Like e.parameters
      (e.selectWith c (e.plan c entity)) := by
  -- An operand that is selected keeps its type and its kind.
  have hoperand : ∀ {x : Planner (Operand × StaticType)} {ps : List (String × Value)},
      Planner.Transfers c bases SameKind ps x →
      Planner.Transfers c bases SelectedItem.Like ps
        (x >>= fun r => return ⟨.expr r.1, r.2.shape, r.2⟩) := by
    intro x ps hx s u s' y bound h hrun hbound
    obtain ⟨⟨o, t⟩, s₁, ho, hrun⟩ := Planner.run_bind_ok.mp hrun
    obtain ⟨rfl, rfl⟩ := Planner.run_pure_ok.mp hrun
    obtain ⟨⟨o', t'⟩, u', ho', ⟨htype, haggregate⟩, hrest⟩ := hx h ho hbound
    exact ⟨_, u', Planner.run_bind_ok.mpr ⟨(o', t'), u', ho', rfl⟩,
      ⟨htype, haggregate, fun _ => ⟨o', rfl⟩⟩, hrest⟩
  cases e with
  | path p => exact Path.select_transfers
  | aggregate f p => exact hoperand Aggregate.plan_transfers
  | literal | parameter | subquery => exact hoperand hplan

/-- Lists of items that are alike aggregate alike. -/
theorem isAggregate_of_like {xs ys : List SelectedItem} (h : List.Forall₂ SelectedItem.Like xs ys) :
    (xs.map SelectedItem.item).any Item.isAggregate =
        (ys.map SelectedItem.item).any Item.isAggregate ∧
      (xs.map SelectedItem.item).all Item.isAggregate =
        (ys.map SelectedItem.item).all Item.isAggregate := by
  induction h with
  | nil => exact ⟨rfl, rfl⟩
  | cons hxy _ ih =>
    simp only [List.map_cons, List.any_cons, List.all_cons, hxy.isAggregate, ih, and_self]

/-- Statements that can be planned in one of two states whose frames have grown from the same bases
can be planned in the other, in an order of its own. -/
def StatementsTransfer (c : Catalog) (bases : List Frame) (entity : String)
    (xs xs' : List (Statement Clause)) : Prop :=
  ∀ ⦃s u s' : Scopes⦄ ⦃ys : List (Statement Predicate)⦄ ⦃bound : List (String × Value)⦄,
    s.Kin c bases u → (planStatements c entity xs).run s = .ok (ys, s') →
    bindParameters? u.parameters (statementsParameters xs') = some bound →
    ∃ ys' u', (planStatements c entity xs').run u = .ok (ys', u') ∧ s'.Kin c bases u' ∧
      u'.parameters = bound

/-- A scope can be planned if its statements and its items can be planned where its declared joins are
bound. -/
theorem Body.planScope_transfers {b : Body} {xs : List (Statement Clause)}
    {returns : Option Returned} {items : List (String × Value)}
    (hstatements : ∀ f, StatementsTransfer c (f :: bases) b.entity b.statements xs)
    (hselection : ∀ f, Planner.Transfers c (f :: bases)
      (fun r r' => List.Forall₂ SelectedItem.Like r.2 r'.2) items
      (planSelection c b.entity returns b.selection))
    {q : PlannedQuery} (h : s.Kin c bases u) (hrun : (b.planScope c returns).run s = .ok (q, s'))
    (hbound : bindParameters? u.parameters
      (({ b with statements := xs } : Body).parameters items) = some bound) :
    ∃ q' u', (({ b with statements := xs } : Body).planScope c returns).run u = .ok (q', u') ∧
      (returns.isSome → q.types = q'.types) ∧ s'.Kin c bases u' ∧ u'.parameters = bound := by
  obtain ⟨e, g, ys, labels, selected, keys, s₁, s₂, s₃, he, hjoins, hys, hsel, hmix, hkeys, -,
    htypes⟩ := run_planScope_ok hrun
  obtain ⟨f, hf, rfl⟩ := Planner.run_declareJoins_ok hjoins
  -- The declared joins are the base of the new frame in both states.
  have hbuilt := Frame.Built.new.declareAll? (c := c) rfl hf
  have hgrown : f.Grown c f := .refl (hbuilt.sound he) hbuilt.declared_le
  have hjoins' : (Planner.declareJoins c b.entity b.joins).run
      ⟨.new b.scope b.entity :: u.frames, u.parameters⟩ = .ok ((), ⟨f :: u.frames, u.parameters⟩) :=
    Planner.run_declareJoins_of hf
  have h₁ : Scopes.Kin c (f :: bases) ⟨f :: s.frames, s.parameters⟩ ⟨f :: u.frames, u.parameters⟩ :=
    ⟨.cons hgrown h.left, .cons hgrown h.right⟩
  rw [parameters_eq, bindParameters?_append_eq_some] at hbound
  obtain ⟨between, hbetween, hbound⟩ := hbound
  obtain ⟨ys', u₂, hys', h₂, rfl⟩ := hstatements f h₁ hys hbetween
  obtain ⟨⟨labels', selected'⟩, u₃, hsel', hlike, h₃, rfl⟩ := hselection f h₂ hsel hbound
  obtain ⟨keys', u₄, hkeys', -, h₄, hparameters⟩ := run_orderBy_transfers h₃ hkeys rfl
  obtain ⟨hleft, hright⟩ := h₄
  obtain ⟨frames, parameters⟩ := u₄
  -- The new frame goes with its scope, and the frames around it have grown.
  cases hright with
  | @cons _ g' _ frames' _ hright =>
    cases hleft with
    | cons _ hleft =>
      obtain ⟨hany, hall⟩ := isAggregate_of_like hlike
      rw [hany, hall] at hmix
      obtain ⟨q', hq', htypes'⟩ : ∃ q', (({ b with statements := xs } : Body).planScope c
          returns).run u = .ok (q', ⟨frames', parameters⟩) ∧
          (selected' ≠ [] → q'.types = selected'.map SelectedItem.type) :=
        run_planScope_of he hjoins' hys' hsel' hmix hkeys'
      refine ⟨q', ⟨frames', parameters⟩, hq', fun hreturns => ?_, ⟨hleft, hright⟩, hparameters⟩
      obtain ⟨r, rfl⟩ := Option.isSome_iff_exists.mp hreturns
      obtain ⟨-, x, o, -, -, hx⟩ := run_planSelection_some_ok.mp hsel
      obtain ⟨-, x', o', -, -, hx'⟩ := run_planSelection_some_ok.mp hsel'
      cases hx
      cases hx'
      rw [(htypes (by simp)).2, htypes' (by simp)]
      cases hlike with
      | cons hxy _ => rw [List.map_singleton, List.map_singleton, hxy.type]

end Scopes

/-! ## Expressions and clauses -/

section Clauses

variable {c : Catalog}

mutual

theorem Expr.plan_transfers (e : Expr) {entity : String} {bases : List Frame} :
    Planner.Transfers c bases SameKind e.parameters (e.plan c entity) := by
  intro s u s' ⟨o, t⟩ bound h hrun hbound
  match e with
  | .path p =>
    rw [Expr.plan] at hrun ⊢
    exact Path.operand_transfers h hrun hbound
  | .literal v =>
    obtain ⟨rfl, rfl, rfl⟩ := Expr.run_plan_literal_ok.mp hrun
    exact ⟨_, u, Expr.run_plan_literal_ok.mpr ⟨rfl, rfl, rfl⟩, ⟨rfl, rfl⟩, h, Option.some.inj hbound⟩
  | .parameter name v =>
    -- Binding leaves all frames as they are.
    obtain ⟨hbind, rfl, rfl⟩ := Expr.run_plan_parameter_ok.mp hrun
    obtain ⟨-, hframes⟩ := Planner.run_bindParameter_iff.mp hbind
    obtain ⟨between, hone, hnil⟩ := Option.bind_eq_some_iff.mp hbound
    obtain rfl := Option.some.inj hnil
    have hbind' : (Planner.bindParameter name v).run u = .ok ((), ⟨u.frames, between⟩) :=
      Planner.run_bindParameter_iff.mpr ⟨hone, rfl⟩
    refine ⟨_, _, Expr.run_plan_parameter_ok.mpr ⟨hbind', rfl, rfl⟩, ⟨rfl, rfl⟩, ⟨?_, h.right⟩, rfl⟩
    rw [hframes]
    exact h.left
  | .subquery body returns =>
    obtain ⟨q, hq, rfl, rfl⟩ := Expr.run_plan_subquery_ok.mp hrun
    have hreturned : ∀ bases, Planner.Transfers c bases SelectedItem.Like returns.parameters
        (returns.selectWith c (returns.plan c body.entity)) :=
      fun bases => Expr.selectWith_transfers (Expr.plan_transfers returns)
    obtain ⟨q', u', hq', htypes, hrest⟩ :=
      Body.planScope_returned_transfers body ⟨returns.label, _⟩ hreturned h hq hbound
    refine ⟨_, u', Expr.run_plan_subquery_ok.mpr ⟨q', hq', rfl, rfl⟩, ⟨?_, rfl⟩, hrest⟩
    rw [htypes]
  | .aggregate f p => exact (Expr.run_plan_aggregate_ok.mp hrun).elim
termination_by structural e

theorem Clause.plan_transfers (clause : Clause) {entity : String} {bases : List Frame} :
    Planner.Transfers c bases (fun _ _ => True) clause.parameters (clause.plan c entity) := by
  intro s u s' p bound h hrun hbound
  match clause with
  | .compare left op right =>
    obtain ⟨l, lt, r, rt, s₁, hl, hr, hcheck, -⟩ := Clause.run_plan_compare_ok.mp hrun
    obtain ⟨between, hbetween, hbound⟩ := bindParameters?_append_eq_some.mp hbound
    obtain ⟨⟨l', _⟩, u₁, hl', ⟨rfl, -⟩, h₁, rfl⟩ := Expr.plan_transfers left h hl hbetween
    obtain ⟨⟨r', _⟩, u', hr', ⟨rfl, -⟩, hrest⟩ := Expr.plan_transfers right h₁ hr hbound
    exact ⟨_, u', Clause.run_plan_compare_ok.mpr ⟨l', _, r', _, u₁, hl', hr', hcheck, rfl⟩, trivial,
      hrest⟩
  | .like operand pattern negated =>
    obtain ⟨o, t, ho, htext, -⟩ := Clause.run_plan_like_ok.mp hrun
    obtain ⟨⟨o', _⟩, u', ho', ⟨rfl, -⟩, hrest⟩ := Expr.plan_transfers operand h ho hbound
    exact ⟨_, u', Clause.run_plan_like_ok.mpr ⟨o', _, ho', htext, rfl⟩, trivial, hrest⟩
  | .inList operand values negated =>
    obtain ⟨o, t, ho, hall, -⟩ := Clause.run_plan_inList_ok.mp hrun
    obtain ⟨⟨o', _⟩, u', ho', ⟨rfl, -⟩, hrest⟩ := Expr.plan_transfers operand h ho hbound
    exact ⟨_, u', Clause.run_plan_inList_ok.mpr ⟨o', _, ho', hall, rfl⟩, trivial, hrest⟩
  | .inSubquery operand subquery negated =>
    obtain ⟨o, t, q, qt, s₁, ho, hsub, hq, hcheck, -⟩ := Clause.run_plan_inSubquery_ok.mp hrun
    obtain ⟨between, hbetween, hbound⟩ := bindParameters?_append_eq_some.mp hbound
    obtain ⟨⟨o', _⟩, u₁, ho', ⟨rfl, -⟩, h₁, rfl⟩ := Expr.plan_transfers operand h ho hbetween
    obtain ⟨⟨o'', _⟩, u', hq', ⟨rfl, -⟩, hrest⟩ := Expr.plan_transfers subquery h₁ hq hbound
    -- A nested query is planned as one in any state.
    obtain ⟨q', rfl⟩ : ∃ q', o'' = .query q' := by
      cases subquery with
      | subquery body returns =>
        obtain ⟨q', -, rfl, -⟩ := Expr.run_plan_subquery_ok.mp hq'
        exact ⟨_, rfl⟩
      | path | literal | parameter | aggregate => cases hsub
    exact ⟨_, u', Clause.run_plan_inSubquery_ok.mpr ⟨o', _, q', _, u₁, ho', hsub, hq', hcheck, rfl⟩,
      trivial, hrest⟩
  | .isNull operand negated =>
    rw [Clause.plan] at hrun ⊢
    exact Expr.isNullWith_transfers (Expr.plan_transfers operand) h hrun hbound
  | .isEmpty collection negated =>
    obtain ⟨rows, element, hrows, -⟩ := Clause.run_plan_isEmpty_ok.mp hrun
    obtain ⟨⟨rows', element'⟩, u', hrows', -, hrest⟩ := Path.collection_transfers h hrows hbound
    exact ⟨_, u', Clause.run_plan_isEmpty_ok.mpr ⟨rows', element', hrows', rfl⟩, trivial, hrest⟩
  | .isMember value collection negated =>
    obtain ⟨v, t, rows, element, s₁, hv, hrows, hfits, -⟩ := Clause.run_plan_isMember_ok.mp hrun
    obtain ⟨⟨v', _⟩, u₁, hv', ⟨rfl, -⟩, h₁, rfl⟩ := Expr.plan_transfers value h hv hbound
    obtain ⟨⟨rows', _⟩, u', hrows', rfl, hrest⟩ := Path.collection_transfers h₁ hrows rfl
    exact ⟨_, u', Clause.run_plan_isMember_ok.mpr ⟨v', _, rows', _, u₁, hv', hrows', hfits, rfl⟩,
      trivial, hrest⟩
termination_by structural clause

theorem planStatement_transfers (x : Statement Clause) {entity : String} {bases : List Frame} :
    Planner.Transfers c bases (fun _ _ => True) (statementParameters x)
      (planStatement c entity x) := by
  intro s u s' y bound h hrun hbound
  match x with
  | .or =>
    obtain ⟨-, rfl⟩ := Planner.run_pure_ok.mp hrun
    exact ⟨_, u, rfl, trivial, h, Option.some.inj hbound⟩
  | .clause clause =>
    obtain ⟨p, s₁, hp, hrun⟩ := Planner.run_bind_ok.mp hrun
    obtain ⟨-, rfl⟩ := Planner.run_pure_ok.mp hrun
    obtain ⟨p', u', hp', -, hrest⟩ := Clause.plan_transfers clause h hp hbound
    exact ⟨_, u', Planner.run_bind_ok.mpr ⟨p', u', hp', rfl⟩, trivial, hrest⟩
termination_by structural x

theorem planStatements_transfers (xs : List (Statement Clause)) {entity : String}
    {bases : List Frame} : StatementsTransfer c bases entity xs xs := by
  intro s u s' ys bound h hrun hbound
  match xs with
  | [] =>
    obtain ⟨-, rfl⟩ := run_planStatements_nil_ok.mp hrun
    exact ⟨_, u, rfl, h, Option.some.inj hbound⟩
  | x :: xs =>
    simp only [planStatements, Planner.run_bind_ok, Planner.run_pure_ok] at hrun ⊢
    obtain ⟨y, s₁, hx, ys', _, hxs, -, rfl⟩ := hrun
    obtain ⟨between, hbetween, hbound⟩ := bindParameters?_append_eq_some.mp hbound
    obtain ⟨y', u₁, hx', -, h₁, rfl⟩ := planStatement_transfers x h hx hbetween
    obtain ⟨ys'', u', hxs', hrest⟩ := planStatements_transfers xs h₁ hxs hbound
    exact ⟨_, u', ⟨y', u₁, hx', ys'', u', hxs', rfl, rfl⟩, hrest⟩
termination_by structural xs

/-- A nested query transfers if what it returns does. -/
theorem Body.planScope_returned_transfers (b : Body) (r : Returned)
    {items : List (String × Value)} {bases : List Frame}
    (hreturned : ∀ bases, Planner.Transfers c bases SelectedItem.Like items r.item)
    {s u s' : Scopes} {q : PlannedQuery} {bound : List (String × Value)} (h : s.Kin c bases u)
    (hrun : (b.planScope c (some r)).run s = .ok (q, s'))
    (hbound : bindParameters? u.parameters (b.parameters items) = some bound) :
    ∃ q' u', (b.planScope c (some r)).run u = .ok (q', u') ∧ q.types = q'.types ∧
      s'.Kin c bases u' ∧ u'.parameters = bound := by
  match b with
  | ⟨scope, entity, statements, joins, selection, orderBy, distinct, assignments⟩ =>
    have hselection : ∀ f, Planner.Transfers c (f :: bases)
        (fun r r' => List.Forall₂ SelectedItem.Like r.2 r'.2) items
        (planSelection c entity (some r) selection) := by
      intro f s u s' ⟨labels, xs⟩ bound h hrun hbound
      obtain ⟨hnone, x, o, hx, ho, heq⟩ := run_planSelection_some_ok.mp hrun
      cases heq
      -- What is returned is found in the grown frames too.
      obtain ⟨y, u', hy, hxy, hrest⟩ := hreturned _ h hx hbound
      obtain ⟨o', ho'⟩ := hxy.expr ⟨o, ho⟩
      exact ⟨_, u', run_planSelection_some_ok.mpr ⟨hnone, y, o', hy, ho', rfl⟩,
        .cons hxy .nil, hrest⟩
    obtain ⟨q', u', hq', htypes, hrest⟩ :=
      Body.planScope_transfers (fun f => planStatements_transfers statements) hselection h hrun hbound
    exact ⟨q', u', hq', htypes rfl, hrest⟩
termination_by structural b

end

end Clauses

/-! ## Parameters -/

section Parameters

variable {bound bound' : List (String × Value)} {xs ys : List (String × Value)} {name : String}

/-- Two occurrences of parameters that have identical values if they have one name. -/
def BindAlike (x y : String × Value) : Prop :=
  x.1 = y.1 → x.2.identical y.2 = true

instance : Std.Symm BindAlike :=
  ⟨fun _ _ h hname => Value.identical_symm (h hname.symm)⟩

/-- Occurrences of parameters of which those of one name have identical values. -/
def Consistent (xs : List (String × Value)) : Prop :=
  xs.Pairwise BindAlike

theorem lookup_append_singleton {x : String × Value} (hx : bound.lookup x.1 = none) :
    (bound ++ [x]).lookup name = if name = x.1 then some x.2 else bound.lookup name := by
  rw [List.lookup_append]
  split
  · rename_i hname
    rw [hname, hx, Option.none_or, List.lookup_cons_self]
  · rename_i hname
    rw [List.lookup_cons, beq_eq_false_iff_ne.mpr hname, List.lookup_nil, Option.or_none]

/-- Occurrences of parameters that have identical values to those bound before. -/
def FitBound (bound xs : List (String × Value)) : Prop :=
  ∀ x ∈ xs, ∀ v, bound.lookup x.1 = some v → v.identical x.2 = true

theorem fitBound_cons {x : String × Value} :
    FitBound bound (x :: xs) ↔
      (∀ v, bound.lookup x.1 = some v → v.identical x.2 = true) ∧ FitBound bound xs :=
  List.forall_mem_cons

theorem fitBound_append_singleton {x : String × Value} (hx : bound.lookup x.1 = none) :
    FitBound (bound ++ [x]) xs ↔ (∀ y ∈ xs, BindAlike x y) ∧ FitBound bound xs := by
  constructor
  · intro h
    refine ⟨fun y hy hname => ?_, fun y hy v hv => ?_⟩
    · exact h y hy x.2 (by rw [lookup_append_singleton hx, if_pos hname.symm])
    · have hname : y.1 ≠ x.1 := by
        intro hname
        rw [hname, hx] at hv
        cases hv
      exact h y hy v (by rw [lookup_append_singleton hx, if_neg hname, hv])
  · rintro ⟨hhead, hbound⟩ y hy v hv
    rw [lookup_append_singleton hx] at hv
    split at hv
    · rename_i hname
      cases hv
      exact hhead y hy hname.symm
    · exact hbound y hy v hv

/-- Values that are identical to the one bound before are identical to each other. -/
theorem FitBound.bindAlike {x : String × Value} {v : Value} (h : FitBound bound xs)
    (hx : bound.lookup x.1 = some v) (hid : v.identical x.2 = true) : ∀ y ∈ xs, BindAlike x y := by
  intro y hy hname
  have hy' : v.identical y.2 = true := h y hy v (hname ▸ hx)
  exact Value.identical_trans (Value.identical_symm hid) hy'

/-- Whether parameters can be bound after others is known from their names and values. -/
theorem bindParameters?_isSome :
    (bindParameters? bound xs).isSome ↔ Consistent xs ∧ FitBound bound xs := by
  induction xs generalizing bound with
  | nil => simp [bindParameters?, Consistent, FitBound]
  | cons x xs ih =>
    rw [Consistent, List.pairwise_cons, fitBound_cons, bindParameters?, bindParameter?]
    cases hx : bound.lookup x.1 with
    | none =>
      -- The name is new, and the rest is bound behind its value.
      rw [Option.bind_some, ih, fitBound_append_singleton hx]
      constructor
      · rintro ⟨hxs, hhead, hbound⟩
        exact ⟨⟨hhead, hxs⟩, fun _ hw => (by cases hw), hbound⟩
      · rintro ⟨⟨hhead, hxs⟩, -, hbound⟩
        exact ⟨hxs, hhead, hbound⟩
    | some v =>
      simp only
      split
      · rename_i hid
        rw [Option.bind_some, ih]
        constructor
        · rintro ⟨hxs, hbound⟩
          exact ⟨⟨hbound.bindAlike hx hid, hxs⟩, fun w hw => Option.some.inj hw ▸ hid, hbound⟩
        · rintro ⟨⟨-, hxs⟩, -, hbound⟩
          exact ⟨hxs, hbound⟩
      · rename_i hid
        simp only [Option.bind_none, Option.isSome_none, Bool.false_eq_true, false_iff]
        rintro ⟨-, hhead, -⟩
        exact hid (hhead v rfl)

/-- A name is bound to the value of its first occurrence. -/
theorem bindParameters?_lookup (h : bindParameters? bound xs = some bound') :
    bound'.lookup name = (bound ++ xs).lookup name := by
  induction xs generalizing bound with
  | nil =>
    cases h
    rw [List.append_nil]
  | cons x xs ih =>
    -- What is bound first is kept by later bindings.
    obtain ⟨between, hx, hxs⟩ := Option.bind_eq_some_iff.mp h
    rw [ih hxs]
    unfold bindParameter? at hx
    split at hx
    · cases hx
      rw [List.append_assoc, List.singleton_append]
    · rename_i v hv
      split at hx
      · cases hx
        rw [List.lookup_append, List.lookup_append, List.lookup_cons]
        split
        · rename_i hname
          rw [eq_of_beq hname, hv, Option.some_or, Option.some_or]
        · rfl
      · cases hx

theorem Consistent.perm (h : Consistent xs) (hperm : xs.Perm ys) : Consistent ys := by
  exact (hperm.pairwise_iff fun hxy => Std.Symm.symm _ _ hxy).mp h

/-- Parameters can be bound in any order. -/
theorem bindParameters?_perm (h : (bindParameters? [] xs).isSome) (hperm : xs.Perm ys) :
    (bindParameters? [] ys).isSome := by
  obtain ⟨hxs, -⟩ := bindParameters?_isSome.mp h
  exact bindParameters?_isSome.mpr ⟨hxs.perm hperm, fun x hx => nofun⟩

/-- Bound in two orders, a name has the same value, or identical ones. -/
theorem bindParameters?_perm_lookup (h : bindParameters? [] xs = some bound)
    (h' : bindParameters? [] ys = some bound') (hperm : xs.Perm ys) :
    Option.Rel Value.Same (bound.lookup name) (bound'.lookup name) := by
  -- Values of one name are pairwise identical.
  obtain ⟨hxs, -⟩ := bindParameters?_isSome.mp (Option.isSome_of_eq_some h)
  rw [bindParameters?_lookup h, bindParameters?_lookup h', List.nil_append, List.nil_append]
  cases hx : xs.lookup name with
  | none =>
    have hy : ys.lookup name = none := by
      rw [List.lookup_eq_none_iff] at hx ⊢
      exact fun p hp => hx p (hperm.mem_iff.mpr hp)
    rw [hy]
    exact .none
  | some v =>
    cases hy : ys.lookup name with
    | none =>
      rw [List.lookup_eq_none_iff] at hy
      simpa using hy _ (hperm.mem_iff.mp (mem_of_lookup hx))
    | some w =>
      refine .some ?_
      by_cases hvw : v = w
      · exact .inl hvw
      · -- Two values of one name are bound one after the other, so the second is identical to the
        -- first.
        have hx' := mem_of_lookup hx
        have hy' := hperm.mem_iff.mpr (mem_of_lookup hy)
        have hne : (name, v) ≠ (name, w) := fun heq => hvw (Prod.mk.inj heq).2
        exact .inr (List.Pairwise.forall hxs hx' hy' hne rfl)

end Parameters

/-! ## Statements in another order -/

section Statements

variable {c : Catalog} {bases : List Frame} {entity : String}

/-- A statement that can be planned in some state whose frames have grown from given bases. -/
def Statement.Plannable (c : Catalog) (bases : List Frame) (entity : String)
    (x : Statement Clause) : Prop :=
  ∃ s s' y, Frame.GrownAll c bases s.frames ∧ (planStatement c entity x).run s = .ok (y, s')

/-- All statements that are planned one after the other are plannable. -/
theorem planStatements_plannable {xs : List (Statement Clause)} {s s' : Scopes}
    {ys : List (Statement Predicate)} (h : Frame.GrownAll c bases s.frames)
    (hrun : (planStatements c entity xs).run s = .ok (ys, s')) :
    (∀ x ∈ xs, x.Plannable c bases entity) ∧ Frame.GrownAll c bases s'.frames := by
  induction xs generalizing s ys with
  | nil =>
    obtain ⟨-, rfl⟩ := run_planStatements_nil_ok.mp hrun
    exact ⟨by simp, h⟩
  | cons x xs ih =>
    simp only [planStatements, Planner.run_bind_ok, Planner.run_pure_ok] at hrun
    obtain ⟨y, s₁, hx, ys', _, hxs, -, rfl⟩ := hrun
    obtain ⟨_, _, -, -, h₁, -⟩ :=
      planStatement_transfers x ⟨h, h⟩ hx (planStatement_parameters x hx)
    obtain ⟨hall, h'⟩ := ih h₁.left hxs
    exact ⟨List.forall_mem_cons.mpr ⟨⟨s, s₁, y, h, hx⟩, hall⟩, h'⟩

/-- Plannable statements can be planned one after the other if their parameters can be bound. -/
theorem planStatements_of_plannable {xs : List (Statement Clause)} {u : Scopes}
    {bound : List (String × Value)} (hall : ∀ x ∈ xs, x.Plannable c bases entity)
    (h : Frame.GrownAll c bases u.frames)
    (hbound : bindParameters? u.parameters (statementsParameters xs) = some bound) :
    ∃ ys u', (planStatements c entity xs).run u = .ok (ys, u') ∧
      Frame.GrownAll c bases u'.frames ∧ u'.parameters = bound := by
  induction xs generalizing u with
  | nil => exact ⟨[], u, rfl, h, Option.some.inj hbound⟩
  | cons x xs ih =>
    obtain ⟨between, hbetween, hbound⟩ := bindParameters?_append_eq_some.mp hbound
    obtain ⟨⟨s, s', y, hs, hx⟩, hxs⟩ := List.forall_mem_cons.mp hall
    obtain ⟨y', u₁, hx', -, h₁, rfl⟩ := planStatement_transfers x ⟨hs, h⟩ hx hbetween
    obtain ⟨ys, u', hys, hrest⟩ := ih hxs h₁.right hbound
    refine ⟨y' :: ys, u', ?_, hrest⟩
    simp only [planStatements, Planner.run_bind_ok, Planner.run_pure_ok]
    exact ⟨y', u₁, hx', ys, u', hys, rfl, rfl⟩

theorem StatementsTransfer.perm {xs xs' : List (Statement Clause)} (hperm : xs.Perm xs') :
    StatementsTransfer c bases entity xs xs' := by
  intro s u s' ys bound h hrun hbound
  obtain ⟨hall, h'⟩ := planStatements_plannable h.left hrun
  obtain ⟨ys', u', hrun', hu', hparameters⟩ :=
    planStatements_of_plannable (fun x hx => hall x (hperm.mem_iff.mpr hx)) h.right hbound
  exact ⟨ys', u', hrun', ⟨h', hu'⟩, hparameters⟩

theorem planItems_transfers {es : List Expr} :
    Planner.Transfers c bases (List.Forall₂ SelectedItem.Like) (itemsParameters es)
      (planItems c entity es) := by
  intro s u s' xs bound h hrun hbound
  induction es generalizing s u xs with
  | nil =>
    obtain ⟨rfl, rfl⟩ := run_planItems_nil_ok.mp hrun
    exact ⟨[], u, run_planItems_nil_ok.mpr ⟨rfl, rfl⟩, .nil, h, Option.some.inj hbound⟩
  | cons e es ih =>
    obtain ⟨x, s₁, xs', hx, hxs, rfl⟩ := run_planItems_cons_ok.mp hrun
    obtain ⟨between, hbetween, hbound⟩ := bindParameters?_append_eq_some.mp hbound
    obtain ⟨x', u₁, hx', hlike, h₁, rfl⟩ :=
      Expr.selectWith_transfers (Expr.plan_transfers e) h hx hbetween
    obtain ⟨xs'', u', hxs', hlikes, hrest⟩ := ih h₁ hxs hbound
    exact ⟨_, u', run_planItems_cons_ok.mpr ⟨x', u₁, xs'', hx', hxs', rfl⟩, .cons hlike hlikes, hrest⟩

/-- The parameters of a body in another order of its statements. -/
theorem Body.parameters_perm {b : Body} {xs : List (Statement Clause)}
    (hperm : b.statements.Perm xs) (items : List (String × Value)) :
    (b.parameters items).Perm (({ b with statements := xs } : Body).parameters items) := by
  rw [parameters_eq, parameters_eq, statementsParameters_eq, statementsParameters_eq]
  exact (hperm.flatMap_right statementParameters).append_right items

/-- A body that has a plan has one in every order of its statements. -/
theorem Body.plan_perm {b : Body} {xs : List (Statement Clause)} {planned : PlannedQuery}
    (hperm : b.statements.Perm xs) (h : b.plan c = .ok planned) :
    ∃ planned', ({ b with statements := xs } : Body).plan c = .ok planned' := by
  obtain ⟨q, s, hrun, -⟩ := plan_ok.mp h
  have hbound := plan_parameters h
  obtain ⟨bound, hbound'⟩ := Option.isSome_iff_exists.mp
    (bindParameters?_perm (Option.isSome_of_eq_some hbound) (parameters_perm hperm _))
  have hselection : ∀ f : Frame, Planner.Transfers c [f]
      (fun r r' => List.Forall₂ SelectedItem.Like r.2 r'.2)
      (itemsParameters (b.selection.getD [])) (planSelection c b.entity none b.selection) := by
    intro f s u s' r bound h hrun hbound
    obtain ⟨hitems, -⟩ := run_planSelection_none_ok.mp hrun
    obtain ⟨xs, u', hitems', hlikes, hrest⟩ := planItems_transfers h hitems hbound
    exact ⟨(_, xs), u', run_planSelection_none_ok.mpr ⟨hitems', rfl⟩, hlikes, hrest⟩
  have hkin : Scopes.Kin c [] ⟨[], []⟩ ⟨[], []⟩ := ⟨.nil, .nil⟩
  obtain ⟨q', u', hrun', -⟩ :=
    planScope_transfers (fun f => StatementsTransfer.perm hperm) hselection hkin hrun hbound'
  exact ⟨_, plan_ok.mpr ⟨q', u', hrun', rfl⟩⟩

end Statements

end EntityQuery
