import EntityQuery.Proofs.Planning.Changes
import EntityQuery.Proofs.Planning.Effects

/-!
# What planning does to the parameters

Which parameters a body binds, and in which order, can be read off its expressions. Planning binds
them one after the other whatever its frames are, so whether they can all be bound, and to what, is
known without running it. A name is bound once, by its first occurrence.
-/

namespace EntityQuery

/-! ## Occurrences -/

mutual

/-- The parameters of a body, given those of its items. -/
def Body.parameters (items : List (String × Value)) (b : Body) : List (String × Value) :=
  match b with
  | ⟨_, _, statements, _, _, _, _, _⟩ => statementsParameters statements ++ items
termination_by structural b

def statementsParameters (xs : List (Statement Clause)) : List (String × Value) :=
  match xs with
  | [] => []
  | x :: xs => statementParameters x ++ statementsParameters xs
termination_by structural xs

def statementParameters (x : Statement Clause) : List (String × Value) :=
  match x with
  | .or => []
  | .clause clause => clause.parameters
termination_by structural x

/-- The parameters of a condition, with those of the bodies nested in it. -/
def Clause.parameters (clause : Clause) : List (String × Value) :=
  match clause with
  | .compare left _ right => left.parameters ++ right.parameters
  | .like operand .. => operand.parameters
  | .inList operand .. => operand.parameters
  | .inSubquery operand subquery _ => operand.parameters ++ subquery.parameters
  | .isNull operand _ => operand.parameters
  | .isEmpty .. => []
  | .isMember value .. => value.parameters
termination_by structural clause

/-- The parameters of an expression. -/
def Expr.parameters (e : Expr) : List (String × Value) :=
  match e with
  | .path _ => []
  | .literal _ => []
  | .parameter name v => [(name, v)]
  | .subquery body returns => body.parameters returns.parameters
  | .aggregate .. => []
termination_by structural e

end

/-- The parameters of selected items. -/
def itemsParameters (es : List Expr) : List (String × Value) :=
  es.flatMap Expr.parameters

theorem statementsParameters_eq (xs : List (Statement Clause)) :
    statementsParameters xs = xs.flatMap statementParameters := by
  induction xs with
  | nil => rfl
  | cons x xs ih => rw [statementsParameters, ih, List.flatMap_cons]

theorem Body.parameters_eq (b : Body) (items : List (String × Value)) :
    b.parameters items = statementsParameters b.statements ++ items := by
  cases b
  rw [parameters]

/-! ## Binding -/

/-- The parameters with one more, unless its name is bound to another value. -/
def bindParameter? (bound : List (String × Value)) (x : String × Value) :
    Option (List (String × Value)) :=
  match bound.lookup x.1 with
  | none => some (bound ++ [x])
  | some v => if v.identical x.2 then some bound else none

/-- The parameters with more of them, bound one after the other. -/
def bindParameters? (bound : List (String × Value)) : List (String × Value) →
    Option (List (String × Value))
  | [] => some bound
  | x :: xs => (bindParameter? bound x).bind fun bound => bindParameters? bound xs

section Binding

variable {bound bound' : List (String × Value)} {x : String × Value} {xs ys : List (String × Value)}

theorem bindParameter?_of_none (h : bound.lookup x.1 = none) :
    bindParameter? bound x = some (bound ++ [x]) := by
  rw [bindParameter?, h]

theorem bindParameter?_of_some {v : Value} (h : bound.lookup x.1 = some v) :
    bindParameter? bound x = if v.identical x.2 then some bound else none := by
  rw [bindParameter?, h]

theorem bindParameters?_append :
    bindParameters? bound (xs ++ ys) =
      (bindParameters? bound xs).bind fun bound => bindParameters? bound ys := by
  induction xs generalizing bound with
  | nil => rfl
  | cons x xs ih =>
    rw [List.cons_append, bindParameters?, bindParameters?, Option.bind_assoc]
    exact congrArg _ (funext fun bound => ih)

theorem bindParameters?_append_eq_some :
    bindParameters? bound (xs ++ ys) = some bound' ↔
      ∃ between, bindParameters? bound xs = some between ∧
        bindParameters? between ys = some bound' := by
  rw [bindParameters?_append, Option.bind_eq_some_iff]

theorem bindParameter?_nodup (h : bindParameter? bound x = some bound')
    (hbound : (bound.map Prod.fst).Nodup) : (bound'.map Prod.fst).Nodup := by
  unfold bindParameter? at h
  split at h
  · rename_i hnone
    cases h
    -- A name that is not found is new.
    have hnew : x.1 ∉ bound.map Prod.fst := by
      rw [List.lookup_eq_none_iff] at hnone
      rintro hmem
      obtain ⟨y, hy, hname⟩ := List.mem_map.mp hmem
      have := hnone y hy
      simp [hname] at this
    rw [List.map_append, List.nodup_append]
    refine ⟨hbound, List.pairwise_singleton _ _, fun a ha b hb hab => ?_⟩
    rw [List.map_singleton, List.mem_singleton] at hb
    rw [hab, hb] at ha
    exact hnew ha
  · split at h
    · cases h
      exact hbound
    · cases h

/-- Names that are bound once stay so. -/
theorem bindParameters?_nodup (h : bindParameters? bound xs = some bound')
    (hbound : (bound.map Prod.fst).Nodup) : (bound'.map Prod.fst).Nodup := by
  induction xs generalizing bound with
  | nil =>
    cases h
    exact hbound
  | cons x xs ih =>
    obtain ⟨between, hx, hxs⟩ := Option.bind_eq_some_iff.mp h
    exact ih hxs (bindParameter?_nodup hx hbound)

end Binding

/-! ## Steps of the planner -/

section Steps

variable {c : Catalog} {s s' : Scopes}

theorem Planner.run_bindParameter_iff {name : String} {v : Value} :
    (bindParameter name v).run s = .ok ((), s') ↔
      bindParameter? s.parameters (name, v) = some s'.parameters ∧ s'.frames = s.frames := by
  rw [bindParameter, run_bind_ok]
  constructor
  · rintro ⟨_, _, hget, h⟩
    obtain ⟨rfl, rfl⟩ := run_get_ok.mp hget
    split at h
    · -- The name is free, and is bound last.
      rename_i hnone
      obtain rfl := run_set_ok.mp h
      exact ⟨bindParameter?_of_none hnone, rfl⟩
    · -- The name is bound, and its value has to be identical.
      rename_i w hsome
      rw [bindParameter?_of_some hsome]
      split at h
      · rename_i hid
        obtain ⟨-, rfl⟩ := run_pure_ok.mp h
        exact ⟨if_pos hid, rfl⟩
      · exact (run_failMismatch_ok.mp h).elim
  · rintro ⟨h, hframes⟩
    obtain ⟨frames, parameters⟩ := s'
    obtain rfl : frames = s.frames := hframes
    refine ⟨s, s, run_get_ok.mpr ⟨rfl, rfl⟩, ?_⟩
    split
    · rename_i hnone
      rw [bindParameter?_of_none hnone] at h
      rw [run_set_ok, Option.some.inj h]
    · rename_i w hsome
      rw [bindParameter?_of_some hsome] at h
      split at h
      · rename_i hid
        obtain rfl : parameters = s.parameters := (Option.some.inj h).symm
        rw [if_pos hid]
        rfl
      · cases h

/-! Paths bind no parameters. -/

theorem Path.run_hop_parameters {p : Path} {level parent slot : Nat} {r : Relation}
    (h : (p.hop level parent r).run s = .ok (slot, s')) : s'.parameters = s.parameters := by
  obtain ⟨f, -, ⟨-, rfl⟩ | ⟨-, -, -, rfl⟩⟩ := run_hop_ok h
  · rfl
  · rfl

theorem Path.run_resolve_parameters {p : Path} {r : Resolved}
    (h : (p.resolve c).run s = .ok (r, s')) : s'.parameters = s.parameters := by
  obtain ⟨level, f, slot, entity, hf, -, -, h⟩ := run_resolve_ok.mp h
  obtain ⟨-, rfl⟩ := run_follow_binds (Frame.locate?_getElem? hf) h
  rfl

theorem Path.run_select_parameters {p : Path} {x : SelectedItem}
    (h : (p.select c).run s = .ok (x, s')) : s'.parameters = s.parameters := by
  rcases run_select_ok h with ⟨_, _, hr, -⟩ | ⟨_, _, _, s₁, hr, -, hhop, -⟩ | ⟨_, _, hr, -⟩
  · exact run_resolve_parameters hr
  · exact (run_hop_parameters hhop).trans (run_resolve_parameters hr)
  · exact run_resolve_parameters hr

theorem Path.run_collection_parameters {p : Path} {collection : Collection} {element : FieldType}
    (h : (p.collection c).run s = .ok ((collection, element), s')) :
    s'.parameters = s.parameters := by
  rcases run_collection_ok h with ⟨_, _, _, hr, -⟩ | ⟨_, _, _, _, _, _, hr, -⟩
  · exact run_resolve_parameters hr
  · exact run_resolve_parameters hr

theorem Aggregate.run_plan_parameters {f : Aggregate} {path : Option Path} {o : Operand}
    {t : StaticType} (h : (f.plan c path).run s = .ok ((o, t), s')) :
    s'.parameters = s.parameters := by
  rcases run_plan_ok h with ⟨-, -, -, -, rfl⟩ | ⟨_, _, _, _, _, _, -, hr, -⟩
  · rfl
  · exact Path.run_resolve_parameters hr

theorem run_orderBy_parameters {entity : String} {ts : List OrderTerm} {keys : List SortKey}
    (h : (ts.mapM (Planner.orderTerm c entity)).run s = .ok (keys, s')) :
    s'.parameters = s.parameters := by
  induction ts generalizing s keys with
  | nil =>
    rw [List.mapM_nil] at h
    obtain ⟨-, rfl⟩ := Planner.run_pure_ok.mp h
    rfl
  | cons t ts ih =>
    rw [List.mapM_cons] at h
    simp only [Planner.run_bind_ok, Planner.run_pure_ok] at h
    obtain ⟨key, s₁, ht, keys', _, hts, -, rfl⟩ := h
    obtain ⟨p, column, f, -, hr, -⟩ := Planner.run_orderTerm_ok ht
    exact (ih hts).trans (Path.run_resolve_parameters hr)

/-- An assignment binds the parameter that it assigns. -/
theorem Planner.run_assignments_parameters {entity : Entity} {ts : List SetTerm}
    {assignments : List Assignment}
    (h : (ts.mapM (assignment c entity)).run s = .ok (assignments, s')) :
    bindParameters? s.parameters (ts.flatMap fun t => t.expr.parameters) = some s'.parameters := by
  -- Only literals and parameters can be assigned, and the latter are bound.
  have hvalue : ∀ {place : String} {e : Expr} {v : Value} {s s' : Scopes},
      (assignedValue place e).run s = .ok (v, s') →
      bindParameters? s.parameters e.parameters = some s'.parameters := by
    intro place e v s s' h
    cases e with
    | literal w =>
      obtain ⟨-, rfl⟩ := run_pure_ok.mp h
      rfl
    | parameter name w =>
      obtain ⟨_, s₁, hbind, hpure⟩ := run_bind_ok.mp h
      obtain ⟨-, rfl⟩ := run_pure_ok.mp hpure
      rw [Expr.parameters, bindParameters?, (run_bindParameter_iff.mp hbind).1]
      rfl
    | path | subquery | aggregate => exact (run_failMismatch_ok.mp h).elim
  induction ts generalizing s assignments with
  | nil =>
    rw [List.mapM_nil] at h
    obtain ⟨-, rfl⟩ := run_pure_ok.mp h
    rfl
  | cons t ts ih =>
    rw [List.mapM_cons] at h
    obtain ⟨a, s₁, ha, h⟩ := run_bind_ok.mp h
    obtain ⟨rest, s₂, hrest, h⟩ := run_bind_ok.mp h
    obtain ⟨-, rfl⟩ := run_pure_ok.mp h
    rw [List.flatMap_cons, bindParameters?_append_eq_some]
    refine ⟨s₁.parameters, ?_, ih hrest⟩
    unfold assignment at ha
    simp only at ha
    -- An assignment that is refused has failed, so the value has been bound.
    split at ha
    · exact (run_failPath_ok.mp ha).elim
    · exact (run_failPath_ok.mp ha).elim
    · split at ha
      · exact (run_failPath_ok.mp ha).elim
      · obtain ⟨v, s₃, hv, ha⟩ := run_bind_ok.mp ha
        split at ha
        · obtain ⟨-, rfl⟩ := run_pure_ok.mp ha
          exact hvalue hv
        · exact (run_failMismatch_ok.mp ha).elim

/-- An item binds the parameters that it binds as an operand. -/
theorem Expr.selectWith_parameters {entity : String} {e : Expr} {x : SelectedItem}
    (hplan : ∀ r s', (e.plan c entity).run s = .ok (r, s') →
      bindParameters? s.parameters e.parameters = some s'.parameters)
    (h : (e.selectWith c (e.plan c entity)).run s = .ok (x, s')) :
    bindParameters? s.parameters e.parameters = some s'.parameters := by
  rcases run_selectWith_ok h with ⟨p, rfl, hp⟩ | ⟨f, p, o, t, rfl, hf, -⟩ | ⟨-, -, o, t, ho, -⟩
  · rw [Path.run_select_parameters hp]
    rfl
  · rw [Aggregate.run_plan_parameters hf]
    rfl
  · exact hplan _ _ ho

theorem Body.run_planScope_parameters {b : Body} {returns : Option Returned} {q : PlannedQuery}
    (items : List (String × Value))
    (hstatements : ∀ s s' ys, (planStatements c b.entity b.statements).run s = .ok (ys, s') →
      bindParameters? s.parameters (statementsParameters b.statements) = some s'.parameters)
    (hselection : ∀ s s' r, (planSelection c b.entity returns b.selection).run s = .ok (r, s') →
      bindParameters? s.parameters items = some s'.parameters)
    (h : (b.planScope c returns).run s = .ok (q, s')) :
    bindParameters? s.parameters (b.parameters items) = some s'.parameters := by
  obtain ⟨_, _, _, _, _, _, s₁, s₂, s₃, -, hjoins, hys, hsel, -, hkeys, -, -⟩ := run_planScope_ok h
  obtain ⟨_, -, rfl⟩ := Planner.run_declareJoins_ok hjoins
  have horder := run_orderBy_parameters hkeys
  have hbound := hstatements _ _ _ hys
  rw [parameters_eq, bindParameters?_append_eq_some]
  refine ⟨s₂.parameters, hbound, ?_⟩
  rw [show s'.parameters = s₃.parameters from horder]
  exact hselection _ _ _ hsel

end Steps

/-! ## Whole bodies -/

section Bodies

variable {c : Catalog}

mutual

theorem Expr.plan_parameters (e : Expr) {entity : String} {s s' : Scopes}
    {r : Operand × StaticType} (h : (e.plan c entity).run s = .ok (r, s')) :
    bindParameters? s.parameters e.parameters = some s'.parameters := by
  obtain ⟨o, t⟩ := r
  match e with
  | .path p =>
    obtain ⟨column, f, hp, -⟩ := Expr.run_plan_path_ok.mp h
    rw [Path.run_resolve_parameters hp]
    rfl
  | .literal v =>
    obtain ⟨-, -, rfl⟩ := Expr.run_plan_literal_ok.mp h
    rfl
  | .parameter name v =>
    obtain ⟨hbind, -⟩ := Expr.run_plan_parameter_ok.mp h
    rw [Expr.parameters, bindParameters?, (Planner.run_bindParameter_iff.mp hbind).1]
    rfl
  | .subquery body returns =>
    obtain ⟨q, hq, -⟩ := Expr.run_plan_subquery_ok.mp h
    refine Body.planScope_parameters body ?_ (fun r hr s s' x hx => ?_) hq
    · intro h
      cases h
    · cases hr
      exact Expr.selectWith_parameters (fun _ _ h => Expr.plan_parameters returns h) hx
  | .aggregate f p => exact (Expr.run_plan_aggregate_ok.mp h).elim
termination_by structural e

theorem Clause.plan_parameters (clause : Clause) {entity : String} {s s' : Scopes} {p : Predicate}
    (h : (clause.plan c entity).run s = .ok (p, s')) :
    bindParameters? s.parameters clause.parameters = some s'.parameters := by
  match clause with
  | .compare left op right =>
    obtain ⟨l, lt, r, rt, s₁, hl, hr, -⟩ := Clause.run_plan_compare_ok.mp h
    exact bindParameters?_append_eq_some.mpr
      ⟨_, Expr.plan_parameters left hl, Expr.plan_parameters right hr⟩
  | .like operand pattern negated =>
    obtain ⟨o, t, ho, -⟩ := Clause.run_plan_like_ok.mp h
    exact Expr.plan_parameters operand ho
  | .inList operand values negated =>
    obtain ⟨o, t, ho, -⟩ := Clause.run_plan_inList_ok.mp h
    exact Expr.plan_parameters operand ho
  | .inSubquery operand subquery negated =>
    obtain ⟨o, t, q, qt, s₁, ho, -, hq, -⟩ := Clause.run_plan_inSubquery_ok.mp h
    exact bindParameters?_append_eq_some.mpr
      ⟨_, Expr.plan_parameters operand ho, Expr.plan_parameters subquery hq⟩
  | .isNull operand negated =>
    rcases Clause.run_plan_isNull_ok h with ⟨o, t, ho, -⟩ | ⟨path, level, slot, r, rfl, hp, -⟩
    · exact Expr.plan_parameters operand ho
    · rw [Path.run_resolve_parameters hp]
      rfl
  | .isEmpty collection negated =>
    obtain ⟨rows, element, hrows, -⟩ := Clause.run_plan_isEmpty_ok.mp h
    rw [Path.run_collection_parameters hrows]
    rfl
  | .isMember value collection negated =>
    obtain ⟨v, t, rows, element, s₁, hv, hrows, -⟩ := Clause.run_plan_isMember_ok.mp h
    rw [Path.run_collection_parameters hrows]
    exact Expr.plan_parameters value hv
termination_by structural clause

theorem planStatement_parameters (x : Statement Clause) {entity : String} {s s' : Scopes}
    {y : Statement Predicate} (h : (planStatement c entity x).run s = .ok (y, s')) :
    bindParameters? s.parameters (statementParameters x) = some s'.parameters := by
  match x with
  | .or =>
    obtain ⟨-, rfl⟩ := Planner.run_pure_ok.mp h
    rfl
  | .clause clause =>
    simp only [planStatement, Planner.run_bind_ok, Planner.run_pure_ok] at h
    obtain ⟨p, _, hp, -, rfl⟩ := h
    exact Clause.plan_parameters clause hp
termination_by structural x

theorem planStatements_parameters (xs : List (Statement Clause)) {entity : String} {s s' : Scopes}
    {ys : List (Statement Predicate)}
    (h : (planStatements c entity xs).run s = .ok (ys, s')) :
    bindParameters? s.parameters (statementsParameters xs) = some s'.parameters := by
  match xs with
  | [] =>
    obtain ⟨-, rfl⟩ := run_planStatements_nil_ok.mp h
    rfl
  | x :: xs =>
    simp only [planStatements, Planner.run_bind_ok, Planner.run_pure_ok] at h
    obtain ⟨y, s₁, hx, ys', _, hxs, -, rfl⟩ := h
    exact bindParameters?_append_eq_some.mpr
      ⟨_, planStatement_parameters x hx, planStatements_parameters xs hxs⟩
termination_by structural xs

theorem planItems_parameters (es : List Expr) {entity : String} {s s' : Scopes}
    {xs : List SelectedItem} (h : (planItems c entity es).run s = .ok (xs, s')) :
    bindParameters? s.parameters (itemsParameters es) = some s'.parameters := by
  match es with
  | [] =>
    obtain ⟨-, rfl⟩ := run_planItems_nil_ok.mp h
    rfl
  | e :: es =>
    obtain ⟨x, s₁, xs', hx, hxs, -⟩ := run_planItems_cons_ok.mp h
    exact bindParameters?_append_eq_some.mpr
      ⟨_, Expr.selectWith_parameters (fun _ _ h => Expr.plan_parameters e h) hx,
        planItems_parameters es hxs⟩
termination_by structural es

/-- The items of a body are its own selection, or the one that it returns. -/
theorem planSelection_parameters (selection : Option (List Expr)) {entity : String}
    {returns : Option Returned} {items : List (String × Value)}
    (hselection : returns = none → items = itemsParameters (selection.getD []))
    (hreturned : ∀ r, returns = some r → ∀ s s' x, r.item.run s = .ok (x, s') →
      bindParameters? s.parameters items = some s'.parameters)
    {s s' : Scopes} {r : List String × List SelectedItem}
    (h : (planSelection c entity returns selection).run s = .ok (r, s')) :
    bindParameters? s.parameters items = some s'.parameters := by
  match selection, returns with
  | none, none =>
    obtain ⟨hr, -⟩ := run_planSelection_none_ok.mp h
    obtain ⟨-, rfl⟩ := run_planItems_nil_ok.mp hr
    rw [hselection rfl]
    rfl
  | some es, none =>
    rw [hselection rfl]
    exact planItems_parameters es (run_planSelection_none_ok.mp h).1
  | _, some r =>
    obtain ⟨-, x, o, hx, -⟩ := run_planSelection_some_ok.mp h
    exact hreturned r rfl _ _ _ hx
termination_by structural selection

theorem Body.planScope_parameters (b : Body) {returns : Option Returned}
    {items : List (String × Value)}
    (hselection : returns = none → items = itemsParameters (b.selection.getD []))
    (hreturned : ∀ r, returns = some r → ∀ s s' x, r.item.run s = .ok (x, s') →
      bindParameters? s.parameters items = some s'.parameters)
    {s s' : Scopes} {q : PlannedQuery} (h : (b.planScope c returns).run s = .ok (q, s')) :
    bindParameters? s.parameters (b.parameters items) = some s'.parameters := by
  match b with
  | ⟨scope, entity, statements, joins, selection, orderBy, distinct, assignments⟩ =>
    exact Body.run_planScope_parameters _ (fun _ _ _ h => planStatements_parameters statements h)
      (fun _ _ _ h => planSelection_parameters selection hselection hreturned h) h
termination_by structural b

end

/-- A plan carries what binding the parameters of its body gives. -/
theorem Body.plan_parameters {b : Body} {planned : PlannedQuery} (h : b.plan c = .ok planned) :
    bindParameters? [] (b.parameters (itemsParameters (b.selection.getD []))) =
      some planned.plan.parameters := by
  obtain ⟨q, s, hrun, rfl⟩ := plan_ok.mp h
  exact planScope_parameters b (fun _ => rfl) (by simp) hrun

/-- A change carries what binding the parameters of its clauses and then of its assignments gives. -/
theorem Body.planChange_parameters {b : Body} {parts : ChangeParts}
    (h : b.planChange c = .ok parts) :
    bindParameters? [] (statementsParameters b.statements ++
      b.assignments.flatMap fun t => t.expr.parameters) = some parts.parameters := by
  obtain ⟨entity, s, s', -, -, hfilter, hassignments, hparameters⟩ := planChange_ok h
  obtain ⟨ys, g, hys, -, -⟩ := Planner.run_changeFilter_ok.mp hfilter
  rw [bindParameters?_append_eq_some, hparameters]
  exact ⟨s.parameters, planStatements_parameters b.statements hys,
    Planner.run_assignments_parameters hassignments⟩

end Bodies

end EntityQuery
