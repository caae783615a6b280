import EntityQuery.Proofs.Planning.Changes
import EntityQuery.Proofs.Planning.Parallel
import EntityQuery.Proofs.Sample
import EntityQuery.Proofs.Statement

/-!
# Bodies without parameters

A parameter in a body may be replaced by a literal of its value. If all occurrences of a name have one
value, the body has a plan with parameters if and only if it has one without: the same plan with
literals in place of parameters, which gives the same rows or the same failure over all tables. The
same goes for updates and deletes.
-/

namespace EntityQuery

/-! ## Replacing parameters in bodies -/

mutual

/-- A body with literals in place of its parameters. -/
def Body.inline (b : Body) : Body :=
  match b with
  | ⟨scope, entity, statements, joins, selection, orderBy, distinct, assignments⟩ =>
    ⟨scope, entity, statementsInline statements, joins, selectionInline selection,
      orderByInline orderBy, distinct, assignmentsInline assignments⟩
termination_by structural b

def statementsInline (xs : List (Statement Clause)) : List (Statement Clause) :=
  match xs with
  | [] => []
  | x :: xs => statementInline x :: statementsInline xs
termination_by structural xs

def statementInline (x : Statement Clause) : Statement Clause :=
  match x with
  | .or => .or
  | .clause clause => .clause clause.inline
termination_by structural x

def selectionInline (selection : Option (List Expr)) : Option (List Expr) :=
  match selection with
  | none => none
  | some es => some (exprsInline es)
termination_by structural selection

def exprsInline (es : List Expr) : List Expr :=
  match es with
  | [] => []
  | e :: es => e.inline :: exprsInline es
termination_by structural es

def orderByInline (ts : List OrderTerm) : List OrderTerm :=
  match ts with
  | [] => []
  | t :: ts => t.inline :: orderByInline ts
termination_by structural ts

def OrderTerm.inline (t : OrderTerm) : OrderTerm :=
  match t with
  | ⟨expr, direction⟩ => ⟨expr.inline, direction⟩
termination_by structural t

def assignmentsInline (ts : List SetTerm) : List SetTerm :=
  match ts with
  | [] => []
  | t :: ts => t.inline :: assignmentsInline ts
termination_by structural ts

def SetTerm.inline (t : SetTerm) : SetTerm :=
  match t with
  | ⟨field, expr⟩ => ⟨field, expr.inline⟩
termination_by structural t

def Clause.inline (clause : Clause) : Clause :=
  match clause with
  | .compare left op right => .compare left.inline op right.inline
  | .like operand pattern negated => .like operand.inline pattern negated
  | .inList operand values negated => .inList operand.inline values negated
  | .inSubquery operand subquery negated => .inSubquery operand.inline subquery.inline negated
  | .isNull operand negated => .isNull operand.inline negated
  | .isEmpty collection negated => .isEmpty collection negated
  | .isMember value collection negated => .isMember value.inline collection negated
termination_by structural clause

/-- An expression with the literal of its value in place of every parameter in it. -/
def Expr.inline (e : Expr) : Expr :=
  match e with
  | .path p => .path p
  | .literal v => .literal v
  | .parameter _ v => .literal v
  | .subquery body returns => .subquery body.inline returns.inline
  | .aggregate f p => .aggregate f p
termination_by structural e

end

theorem orderByInline_eq (ts : List OrderTerm) : orderByInline ts = ts.map OrderTerm.inline := by
  induction ts with
  | nil => rfl
  | cons t ts ih => rw [orderByInline, ih, List.map_cons]

theorem assignmentsInline_eq (ts : List SetTerm) :
    assignmentsInline ts = ts.map SetTerm.inline := by
  induction ts with
  | nil => rfl
  | cons t ts ih => rw [assignmentsInline, ih, List.map_cons]

theorem Body.entity_inline (b : Body) : b.inline.entity = b.entity := by
  cases b
  rfl

theorem Body.joins_inline (b : Body) : b.inline.joins = b.joins := by
  cases b
  rfl

theorem Body.assignments_inline (b : Body) :
    b.inline.assignments = assignmentsInline b.assignments := by
  cases b
  rfl

theorem Expr.isSubquery_inline (e : Expr) : e.inline.isSubquery = e.isSubquery := by
  cases e <;> rfl

/-! ## Values of parameters -/

/-- Occurrences of parameters that have the values known of their names, each of them identical to
itself. -/
def Supplied (values : String → Option Value) (xs : List (String × Value)) : Prop :=
  ∀ x ∈ xs, values x.1 = some x.2 ∧ x.2.identical x.2 = true

/-- Occurrences of parameters of which those of one name have one value, identical to itself. -/
def Uniform (xs : List (String × Value)) : Prop :=
  ∀ x ∈ xs, ∀ y ∈ xs, x.1 = y.1 → x.2 = y.2 ∧ x.2.identical y.2 = true

namespace Supplied

variable {values : String → Option Value} {xs ys : List (String × Value)}

theorem left (h : Supplied values (xs ++ ys)) : Supplied values xs :=
  fun x hx => h x (List.mem_append_left ys hx)

theorem right (h : Supplied values (xs ++ ys)) : Supplied values ys :=
  fun x hx => h x (List.mem_append_right xs hx)

end Supplied

theorem Uniform.supplied {xs : List (String × Value)} (h : Uniform xs) :
    Supplied (xs.lookup ·) xs := by
  intro x hx
  refine ⟨show xs.lookup x.1 = some x.2 from ?_, (h x hx x hx rfl).2⟩
  cases hlookup : xs.lookup x.1 with
  | none =>
    rw [List.lookup_eq_none_iff] at hlookup
    simpa using hlookup x hx
  | some v =>
    obtain rfl : v = x.2 := (h _ (mem_of_lookup hlookup) x hx rfl).1
    rfl

/-! ## Parts of bodies -/

section Parts

open Planner (Parallel)

variable {c : Catalog} {values : String → Option Value}

/-- A planned query with literals in place of parameters. -/
def PlannedQuery.inline (values : String → Option Value) (q : PlannedQuery) : PlannedQuery :=
  { q with plan := q.plan.inline values }

/-- An item is planned side by side if the operand is. -/
theorem Expr.selectWith_parallel {e : Expr} {operand operand' : Planner (Operand × StaticType)}
    (h : Parallel values (fun r r' => r' = (r.1.inline values, r.2)) operand operand') :
    Parallel values (fun x y => y = x.inline values) (e.selectWith c operand)
      (e.inline.selectWith c operand') := by
  cases e with
  | path p => exact p.select_parallel
  | aggregate f p =>
    refine (f.plan_parallel p).bind ?_
    rintro ⟨o, t⟩ _ rfl
    exact .pure rfl
  | literal | parameter | subquery =>
    refine h.bind ?_
    rintro ⟨o, t⟩ _ rfl
    exact .pure rfl

/-- So is a null test. A relation that leads nowhere is tested without parameters. -/
theorem Expr.isNullWith_parallel {e : Expr} {operand operand' : Planner (Operand × StaticType)}
    (h : Parallel values (fun r r' => r' = (r.1.inline values, r.2)) operand operand')
    (negated : Bool) :
    Parallel values (fun p q => q = p.inline values) (e.isNullWith c operand negated)
      (e.inline.isNullWith c operand' negated) := by
  cases e with
  | path p =>
    -- The path is resolved first, and has no parameters.
    refine p.resolve_parallel.bind ?_
    rintro r _ rfl
    cases r with
    | field column f => exact .pure rfl
    | relation level slot r =>
      refine (Parallel.lift _).mono ?_
      rintro q _ ⟨rfl, hnull⟩
      obtain ⟨owner, -, -, ⟨-, rfl⟩ | ⟨-, rows, -, rfl⟩⟩ := Catalog.relationIsNull_ok.mp hnull
      · rfl
      · rfl
    | record => exact .throw _ _
  | literal | parameter | subquery | aggregate =>
    -- The operand is planned side by side by assumption.
    refine h.bind ?_
    rintro ⟨o, t⟩ _ rfl
    exact .pure rfl

/-- Only paths are ordered by. -/
theorem Planner.orderTerm_parallel (entity : String) (t : OrderTerm) :
    Parallel values Eq (orderTerm c entity t) (orderTerm c entity t.inline) := by
  obtain ⟨e, direction⟩ := t
  cases e with
  | path p =>
    refine p.operand_parallel.bind ?_
    rintro r _ ⟨rfl, column, t, rfl⟩
    dsimp only
    split
    · exact .throw _ _
    · split
      · exact .pure rfl
      · exact .throw _ _
  | literal | parameter | subquery | aggregate => exact .throw _ _

theorem run_orderBy_parallel (entity : String) (ts : List OrderTerm) :
    Parallel values Eq (ts.mapM (Planner.orderTerm c entity))
      ((orderByInline ts).mapM (Planner.orderTerm c entity)) := by
  rw [orderByInline_eq]
  exact Parallel.mapM_map fun t _ => Planner.orderTerm_parallel entity t

theorem Planner.checkReturned_parallel (entity label label' : String) (x : SelectedItem) :
    Parallel values (fun _ _ => True) (checkReturned entity label x)
      (checkReturned entity label' (x.inline values)) := by
  obtain ⟨item, shape, type⟩ := x
  cases item with
  | record => exact .throw _ _
  | expr => exact .pure trivial

/-- Items aggregate with parameters if they do without. -/
theorem SelectedItem.isAggregate_inline (values : String → Option Value) (x : SelectedItem) :
    (x.inline values).item.isAggregate = x.item.isAggregate :=
  x.item.isAggregate_inline values

theorem Planner.checkAggregates_parallel (entity : String) (labels labels' : List String)
    (xs : List SelectedItem) :
    Parallel values (fun _ _ => True) (checkAggregates entity labels (xs.map SelectedItem.item))
      (checkAggregates entity labels'
        ((xs.map (SelectedItem.inline values)).map SelectedItem.item)) := by
  unfold checkAggregates
  simp only [List.any_map, List.all_map, Function.comp_def, SelectedItem.isAggregate_inline]
  split
  · exact .throw _ _
  · exact .pure trivial

theorem Planner.projection_parallel (entity : String) (labels labels' : List String)
    (xs : List SelectedItem) :
    Parallel values (fun r r' => r' = (r.1.inline values, r.2)) (projection entity labels xs)
      (projection entity labels' (xs.map (SelectedItem.inline values))) := by
  cases xs with
  | nil => exact .pure rfl
  | cons x xs =>
    refine (checkAggregates_parallel entity labels labels' (x :: xs)).bind fun _ _ _ => .pure ?_
    simp only [Projection.inline, itemsInline_eq, List.map_map]
    rfl

end Parts

/-! ## Whole bodies -/

section Bodies

open Planner (Parallel)

variable {c : Catalog} {values : String → Option Value}

theorem combine_inline {ys ys' : List (Statement Predicate)}
    (h : List.Forall₂ (Statement.Rel fun p q => q = p.inline values) ys ys') :
    Statement.combine .and .or ys' = filterInline values (Statement.combine .and .or ys) := by
  have hboth : Option.Rel (fun p q => q = p.inline values) (Statement.combine .and .or ys)
      (Statement.combine .and .or ys') := by
    refine Statement.combine_rel ?_ ?_ h
    · rintro p _ q _ rfl rfl
      rfl
    · rintro p _ q _ rfl rfl
      rfl
  generalize Statement.combine .and .or ys = filter at hboth
  generalize Statement.combine .and .or ys' = filter' at hboth
  cases hboth with
  | some hpq => rw [hpq, filterInline]
  | none => rfl

/-- A scope is planned side by side if its statements and its items are. -/
theorem Body.run_planScope_parallel {b : Body} {returns returns' : Option Returned}
    (hstatements : Parallel values
      (List.Forall₂ (Statement.Rel fun p q => q = p.inline values))
      (planStatements c b.entity b.statements)
      (planStatements c b.entity (statementsInline b.statements)))
    (hselection : Parallel values (fun r r' => r'.2 = r.2.map (SelectedItem.inline values))
      (planSelection c b.entity returns b.selection)
      (planSelection c b.entity returns' (selectionInline b.selection))) :
    Parallel values (fun q q' => q' = q.inline values) (b.planScope c returns)
      (b.inline.planScope c returns') := by
  obtain ⟨scope, entity, statements, joins, selection, orderBy, distinct, assignments⟩ := b
  rw [inline, planScope, planScope]
  refine (Parallel.lift _).bind fun _ _ _ => ?_
  refine (Parallel.inScope (R := fun q q' => q' = q.inline values) _ ?_).bind ?_
  · -- The parts of the scope, one after another.
    refine (Planner.declareJoins_parallel entity joins).bind fun _ _ _ => ?_
    refine hstatements.bind fun ys ys' hys => ?_
    refine hselection.bind ?_
    rintro ⟨labels, xs⟩ ⟨labels', _⟩ rfl
    refine (Planner.projection_parallel entity labels labels' xs).bind ?_
    rintro ⟨projection, shapes, types⟩ _ rfl
    refine (run_orderBy_parallel entity orderBy).bind ?_
    rintro keys _ rfl
    refine .pure ?_
    rw [combine_inline hys]
    rfl
  · -- The joins of the frame do not depend on parameters.
    rintro ⟨⟨⟨_, _, _, _, _, _, _, _⟩, shapes, types⟩, g⟩ ⟨_, _⟩ ⟨rfl, rfl⟩
    exact .pure rfl

mutual

theorem Expr.plan_parallel (e : Expr) {entity : String} (h : Supplied values e.parameters) :
    Parallel values (fun r r' => r' = (r.1.inline values, r.2)) (e.plan c entity)
      (e.inline.plan c entity) := by
  match e with
  | .path p =>
    rw [Expr.inline, Expr.plan]
    refine p.operand_parallel.mono ?_
    rintro r _ ⟨rfl, column, t, rfl⟩
    rfl
  | .literal v =>
    rw [Expr.inline, Expr.plan]
    exact .pure rfl
  | .parameter name v =>
    -- The value is known of the name, so binding it cannot fail.
    obtain ⟨hv, hid⟩ := h (name, v) (by rw [Expr.parameters]; exact List.mem_singleton_self _)
    rw [Expr.inline, Expr.plan, Expr.plan]
    refine (Parallel.bindParameter hv hid).bind_left fun _ _ => .pure ?_
    simp only [Operand.inline, hv, Option.elim_some]
  | .subquery body returns =>
    rw [Expr.parameters, Body.parameters_eq] at h
    rw [Expr.inline, Expr.plan, Expr.plan, Body.entity_inline]
    have hitem : Parallel values (fun x y => y = x.inline values)
        (returns.selectWith c (returns.plan c body.entity))
        (returns.inline.selectWith c (returns.inline.plan c body.entity)) :=
      Expr.selectWith_parallel (Expr.plan_parallel returns h.right)
    refine (Body.planScope_parallel body h.left (by simp) (.some hitem)).bind ?_
    rintro q _ rfl
    exact .pure rfl
  | .aggregate f p =>
    rw [Expr.inline, Expr.plan]
    exact .throw _ _
termination_by structural e

theorem Clause.plan_parallel (clause : Clause) {entity : String}
    (h : Supplied values clause.parameters) :
    Parallel values (fun p q => q = p.inline values) (clause.plan c entity)
      (clause.inline.plan c entity) := by
  match clause with
  | .compare left op right =>
    rw [Clause.parameters] at h
    rw [Clause.inline, Clause.plan, Clause.plan]
    refine (Expr.plan_parallel left h.left).bind ?_
    rintro ⟨l, lt⟩ _ rfl
    refine (Expr.plan_parallel right h.right).bind ?_
    rintro ⟨r, rt⟩ _ rfl
    exact (Parallel.checkComparable _ _ _ _ _).bind fun _ _ _ => .pure rfl
  | .like operand pattern negated =>
    rw [Clause.parameters] at h
    rw [Clause.inline, Clause.plan, Clause.plan]
    refine (Expr.plan_parallel operand h).bind ?_
    rintro ⟨o, t⟩ _ rfl
    exact (Parallel.checkText _ _ _).bind fun _ _ _ => .pure rfl
  | .inList operand vs negated =>
    rw [Clause.parameters] at h
    rw [Clause.inline, Clause.plan, Clause.plan]
    refine (Expr.plan_parallel operand h).bind ?_
    rintro ⟨o, t⟩ _ rfl
    exact (Parallel.checkCandidates _ _ _ _).bind fun _ _ _ => .pure rfl
  | .inSubquery operand subquery negated =>
    rw [Clause.parameters] at h
    rw [Clause.inline, Clause.plan, Clause.plan, Expr.isSubquery_inline]
    refine (Expr.plan_parallel operand h.left).bind ?_
    rintro ⟨o, t⟩ _ rfl
    dsimp only
    split
    · exact .throw _ _
    · refine (Expr.plan_parallel subquery h.right).bind ?_
      rintro ⟨sub, selected⟩ _ rfl
      cases sub with
      | query q => exact (Parallel.checkComparable _ _ _ _ _).bind fun _ _ _ => .pure rfl
      | column | literal | aggregate => exact .throw _ _
      | parameter name =>
        -- Neither a parameter nor a literal can be searched.
        simp only [Operand.inline]
        cases values name with
        | none => exact .throw _ _
        | some v => exact .throw _ _
  | .isNull operand negated =>
    rw [Clause.parameters] at h
    rw [Clause.inline, Clause.plan, Clause.plan]
    exact Expr.isNullWith_parallel (Expr.plan_parallel operand h) negated
  | .isEmpty collection negated =>
    rw [Clause.inline, Clause.plan]
    refine collection.collection_parallel.bind ?_
    rintro ⟨rows, element⟩ _ rfl
    exact .pure rfl
  | .isMember value collection negated =>
    rw [Clause.parameters] at h
    rw [Clause.inline, Clause.plan, Clause.plan]
    refine (Expr.plan_parallel value h).bind ?_
    rintro ⟨v, t⟩ _ rfl
    refine collection.collection_parallel.bind ?_
    rintro ⟨rows, element⟩ _ rfl
    exact (Parallel.checkElement _ _ _ _).bind fun _ _ _ => .pure rfl
termination_by structural clause

theorem planStatement_parallel (x : Statement Clause) {entity : String}
    (h : Supplied values (statementParameters x)) :
    Parallel values (Statement.Rel fun p q => q = p.inline values) (planStatement c entity x)
      (planStatement c entity (statementInline x)) := by
  match x with
  | .or =>
    rw [statementInline, planStatement]
    exact .pure .or
  | .clause clause =>
    rw [statementParameters] at h
    rw [statementInline, planStatement, planStatement]
    exact (Clause.plan_parallel clause h).bind fun _ _ hpq => .pure (.clause hpq)
termination_by structural x

theorem planStatements_parallel (xs : List (Statement Clause)) {entity : String}
    (h : Supplied values (statementsParameters xs)) :
    Parallel values (List.Forall₂ (Statement.Rel fun p q => q = p.inline values))
      (planStatements c entity xs) (planStatements c entity (statementsInline xs)) := by
  match xs with
  | [] =>
    rw [statementsInline, planStatements]
    exact .pure .nil
  | x :: xs =>
    rw [statementsParameters] at h
    rw [statementsInline, planStatements, planStatements]
    exact (planStatement_parallel x h.left).bind fun _ _ hx =>
      (planStatements_parallel xs h.right).bind fun _ _ hxs => .pure (.cons hx hxs)
termination_by structural xs

theorem planItems_parallel (es : List Expr) {entity : String}
    (h : Supplied values (itemsParameters es)) :
    Parallel values (fun xs ys => ys = xs.map (SelectedItem.inline values))
      (planItems c entity es) (planItems c entity (exprsInline es)) := by
  match es with
  | [] =>
    rw [exprsInline, planItems]
    exact .pure rfl
  | e :: es =>
    rw [itemsParameters, List.flatMap_cons] at h
    rw [exprsInline, planItems, planItems]
    refine (Expr.selectWith_parallel (Expr.plan_parallel e h.left)).bind ?_
    rintro x _ rfl
    refine (planItems_parallel es h.right).bind ?_
    rintro xs _ rfl
    exact .pure rfl
termination_by structural es

theorem planSelection_parallel (selection : Option (List Expr)) {entity : String}
    {returns returns' : Option Returned}
    (h : returns = none → Supplied values (itemsParameters (selection.getD [])))
    (hreturns : Option.Rel
      (fun r r' => Parallel values (fun x y => y = x.inline values) r.item r'.item)
      returns returns') :
    Parallel values (fun r r' => r'.2 = r.2.map (SelectedItem.inline values))
      (planSelection c entity returns selection)
      (planSelection c entity returns' (selectionInline selection)) := by
  match selection, hreturns with
  | none, .none =>
    rw [selectionInline, planSelection]
    exact .pure rfl
  | none, .some hitem =>
    rw [selectionInline, planSelection, planSelection]
    refine hitem.bind ?_
    rintro x _ rfl
    exact (Planner.checkReturned_parallel _ _ _ x).bind fun _ _ _ => .pure rfl
  | some es, .none =>
    rw [selectionInline, planSelection, planSelection]
    refine (planItems_parallel es (h rfl)).bind ?_
    rintro xs _ rfl
    exact .pure rfl
  | some es, .some _ =>
    rw [selectionInline, planSelection, planSelection]
    exact .throw _ _
termination_by structural selection

/-- A body is planned side by side, whatever it returns is. -/
theorem Body.planScope_parallel (b : Body) {returns returns' : Option Returned}
    (hstatements : Supplied values (statementsParameters b.statements))
    (hselection : returns = none → Supplied values (itemsParameters (b.selection.getD [])))
    (hreturns : Option.Rel
      (fun r r' => Parallel values (fun x y => y = x.inline values) r.item r'.item)
      returns returns') :
    Parallel values (fun q q' => q' = q.inline values) (b.planScope c returns)
      (b.inline.planScope c returns') := by
  match b with
  | ⟨scope, entity, statements, joins, selection, orderBy, distinct, assignments⟩ =>
    exact Body.run_planScope_parallel (planStatements_parallel statements hstatements)
      (planSelection_parallel selection hselection hreturns)
termination_by structural b

end

theorem Planner.changeFilter_parallel (b : Body)
    (h : Supplied values (statementsParameters b.statements)) :
    Parallel values (fun filter filter' => filter' = filterInline values filter)
      (changeFilter c b) (changeFilter c b.inline) := by
  obtain ⟨scope, entity, statements, joins, selection, orderBy, distinct, assignments⟩ := b
  refine (Parallel.inScope _ (planStatements_parallel statements h)).bind ?_
  rintro ⟨ys, g⟩ ⟨ys', _⟩ ⟨hys, rfl⟩
  dsimp only
  split
  · exact .throw _ _
  · exact .pure (combine_inline hys)

/-- A parameter is assigned as the literal of its value is. -/
theorem Planner.assignedValue_parallel (place : String) (e : Expr)
    (h : Supplied values e.parameters) :
    Parallel values Eq (assignedValue place e) (assignedValue place e.inline) := by
  cases e with
  | literal v => exact .pure rfl
  | parameter name v =>
    obtain ⟨hv, hid⟩ := h (name, v) (by rw [Expr.parameters]; exact List.mem_singleton_self _)
    exact (Parallel.bindParameter hv hid).bind_left fun _ _ => .pure rfl
  | path | subquery | aggregate => exact .throw _ _

theorem Planner.assignment_parallel (entity : Entity) (t : SetTerm)
    (h : Supplied values t.expr.parameters) :
    Parallel values Eq (assignment c entity t) (assignment c entity t.inline) := by
  obtain ⟨field, e⟩ := t
  rw [SetTerm.inline]
  unfold assignment
  dsimp only
  split
  · exact .throw _ _
  · exact .throw _ _
  · split
    · exact .throw _ _
    · refine (assignedValue_parallel _ e h).bind ?_
      rintro v _ rfl
      split
      · exact .pure rfl
      · exact .throw _ _

theorem Planner.assignments_parallel (entity : Entity) (ts : List SetTerm)
    (h : Supplied values (ts.flatMap fun t => t.expr.parameters)) :
    Parallel values Eq (ts.mapM (assignment c entity))
      ((assignmentsInline ts).mapM (assignment c entity)) := by
  rw [assignmentsInline_eq]
  refine Parallel.mapM_map fun t ht => assignment_parallel entity t fun x hx => ?_
  exact h x (List.mem_flatMap.mpr ⟨t, ht, hx⟩)

end Bodies

/-! ## Plans with and without parameters -/

section Plans

open Planner (Parallel)

variable {c : Catalog} {b : Body}

/-- The parameters of a query with those of its own selection. -/
def Body.queryParameters (b : Body) : List (String × Value) :=
  b.parameters (itemsParameters (b.selection.getD []))

/-- The parameters of an update or delete, with those that it assigns. -/
def Body.changeParameters (b : Body) : List (String × Value) :=
  statementsParameters b.statements ++ b.assignments.flatMap fun t => t.expr.parameters

/-- A query with parameters and the one without are both planned, or neither is. -/
theorem Body.plan_inline (h : Uniform b.queryParameters) :
    (∃ planned, b.plan c = .ok planned ∧
        b.inline.plan c = .ok (planned.inline planned.plan.parameter?)) ∨
      ∃ e e', b.plan c = .error e ∧ b.inline.plan c = .error e' := by
  have hsupplied := h.supplied
  rw [queryParameters, parameters_eq] at hsupplied
  rcases (planScope_parallel (c := c) b hsupplied.left (fun _ => hsupplied.right) .none).run_nil with
    ⟨q, _, s, hrun, hrun', rfl⟩ | ⟨e, e', hrun, hrun'⟩
  · have hplan := plan_ok.mpr ⟨q, s, hrun, rfl⟩
    refine .inl ⟨_, hplan, plan_ok.mpr ⟨_, s.bare, hrun', ?_⟩⟩
    -- The plan carries the values that the occurrences have.
    have hvalues : (b.queryParameters.lookup ·) =
        Plan.parameter? { q.plan with parameters := s.parameters } :=
      funext fun name => (bindParameters?_lookup (plan_parameters hplan)).symm
    rw [queryParameters, parameters_eq] at hvalues
    rw [hvalues]
    obtain ⟨⟨_, _, _, _, _, _, _, _⟩, shapes, types⟩ := q
    rfl
  · refine .inr ⟨e, e', ?_, ?_⟩
    · rw [plan, hrun]
      rfl
    · rw [plan, hrun']
      rfl

/-- The parts of a change with literals in place of the parameters bound in it. -/
def ChangeParts.inline (parts : ChangeParts) : ChangeParts where
  filter := filterInline (parts.parameters.lookup ·) parts.filter
  assignments := parts.assignments
  parameters := []

theorem Body.changeSteps_parallel {values : String → Option Value} (entity : Entity)
    (h : Supplied values b.changeParameters) :
    Parallel values (fun r r' => r' = (filterInline values r.1, r.2)) (b.changeSteps c entity)
      (b.inline.changeSteps c entity) := by
  rw [changeParameters] at h
  rw [changeSteps, changeSteps, assignments_inline]
  refine (Planner.changeFilter_parallel b h.left).bind ?_
  rintro filter _ rfl
  refine (Planner.assignments_parallel entity b.assignments h.right).bind ?_
  rintro assignments _ rfl
  exact .pure rfl

/-- The same of changes. -/
theorem Body.planChange_inline (h : Uniform b.changeParameters) :
    (∃ parts, b.planChange c = .ok parts ∧ b.inline.planChange c = .ok parts.inline) ∨
      ∃ e e', b.planChange c = .error e ∧ b.inline.planChange c = .error e' := by
  cases hentity : c.entity b.entity with
  | error e =>
    refine .inr ⟨e, e, ?_, ?_⟩
    · rw [planChange, hentity]
      rfl
    · rw [planChange, entity_inline, hentity]
      rfl
  | ok entity =>
    cases hjoins : b.joins with
    | cons d ds =>
      refine .inr ⟨.path b.entity d.relation .joinInChange, .path b.entity d.relation .joinInChange,
        ?_, ?_⟩
      · rw [planChange, hentity, hjoins]
        rfl
      · rw [planChange, entity_inline, joins_inline, hentity, hjoins]
        rfl
    | nil =>
      -- Without joins all of the change is planned by its steps.
      have hparts := planChange_steps hentity hjoins
      have hparts' := planChange_steps (c := c) (b := b.inline) (by rw [entity_inline, hentity])
        (by rw [joins_inline, hjoins])
      rcases (changeSteps_parallel (c := c) entity h.supplied).run_nil with
        ⟨r, _, s, hrun, hrun', rfl⟩ | ⟨e, e', hrun, hrun'⟩
      · rw [hrun] at hparts
        refine .inl ⟨_, hparts, ?_⟩
        -- The parameters that the plan lists have the values that the change gives them.
        have hvalues : (b.changeParameters.lookup ·) = (s.parameters.lookup ·) :=
          funext fun name => (bindParameters?_lookup (planChange_parameters hparts)).symm
        rw [hparts', hrun', hvalues]
        rfl
      · rw [hrun] at hparts
        rw [hrun'] at hparts'
        exact .inr ⟨e, e', hparts, hparts'⟩

/-- Parameters are transparent. Where all occurrences of a name in a query have one value, which is
identical to itself, the query has a plan if and only if it has one with literals in place of its
parameters. Then this is its own plan with the literals that its parameter list gives, at every depth,
and the rows or the failure over any tables are the same. For updates and deletes, where parameters
may be assigned too, the same goes for the changes that they are planned to. -/
theorem Body.inline_correct (c : Catalog) (b : Body) :
    (Uniform b.queryParameters →
      ((∃ planned, b.plan c = .ok planned) ↔ ∃ planned, b.inline.plan c = .ok planned) ∧
      ∀ planned planned', b.plan c = .ok planned → b.inline.plan c = .ok planned' →
        planned'.plan = planned.plan.inline planned.plan.parameter? ∧
        planned'.shapes = planned.shapes ∧ planned'.types = planned.types ∧
        ∀ t : Tables, t.fetch planned'.plan = t.fetch planned.plan) ∧
    (Uniform b.changeParameters →
      ((∃ parts, b.planChange c = .ok parts) ↔ ∃ parts, b.inline.planChange c = .ok parts) ∧
      ∀ parts parts', b.planChange c = .ok parts → b.inline.planChange c = .ok parts' →
        parts'.filter = filterInline (parts.parameters.lookup ·) parts.filter ∧
        parts'.assignments = parts.assignments ∧ parts'.parameters = [] ∧
        ∀ t : Tables,
          t.apply (.update b.entity parts'.assignments parts'.filter parts'.parameters) =
            t.apply (.update b.entity parts.assignments parts.filter parts.parameters) ∧
          t.apply (.delete b.entity parts'.filter parts'.parameters) =
            t.apply (.delete b.entity parts.filter parts.parameters)) := by
  refine ⟨fun h => ?_, fun h => ?_⟩
  · rcases plan_inline (c := c) h with ⟨planned, hplan, hplan'⟩ | ⟨e, e', hplan, hplan'⟩
    · rw [hplan, hplan']
      refine ⟨⟨fun _ => ⟨_, rfl⟩, fun _ => ⟨_, rfl⟩⟩, ?_⟩
      rintro _ _ ⟨⟩ ⟨⟩
      exact ⟨rfl, rfl, rfl, fun t => t.fetch_inline planned.plan⟩
    · rw [hplan, hplan']
      refine ⟨⟨?_, ?_⟩, ?_⟩
      · rintro ⟨_, ⟨⟩⟩
      · rintro ⟨_, ⟨⟩⟩
      · rintro _ _ ⟨⟩
  · rcases planChange_inline (c := c) h with ⟨parts, hplan, hplan'⟩ | ⟨e, e', hplan, hplan'⟩
    · rw [hplan, hplan']
      refine ⟨⟨fun _ => ⟨_, rfl⟩, fun _ => ⟨_, rfl⟩⟩, ?_⟩
      rintro _ _ ⟨⟩ ⟨⟩
      refine ⟨rfl, rfl, rfl, fun t => ⟨?_, ?_⟩⟩
      · exact t.apply_inline (.update b.entity parts.assignments parts.filter parts.parameters)
      · exact t.apply_inline (.delete b.entity parts.filter parts.parameters)
    · rw [hplan, hplan']
      refine ⟨⟨?_, ?_⟩, ?_⟩
      · rintro ⟨_, ⟨⟩⟩
      · rintro ⟨_, ⟨⟩⟩
      · rintro _ _ ⟨⟩

/-- The parameter is bound once. -/
theorem Sample.ambitious_planned : ∃ planned, ambitious.plan catalog = .ok planned ∧
    planned.plan.parameters = [("floor", .int32 4)] := by
  obtain ⟨planned, hplan, h⟩ := exists_ok_and (x := ambitious.plan catalog)
    (p := fun planned => decide (planned.plan.parameters = [("floor", .int32 4)]))
    (by decide +kernel)
  exact ⟨planned, hplan, of_decide_eq_true h⟩

/-- A query that uses a parameter at two depths, and an update that assigns one. -/
theorem Body.inline_correct_shared_parameter :
    (∃ planned planned', Sample.ambitious.plan Sample.catalog = .ok planned ∧
      Sample.ambitious.inline.plan Sample.catalog = .ok planned' ∧
      planned.plan.parameters = [("floor", .int32 4)] ∧ planned'.plan.parameters = [] ∧
      planned'.plan = planned.plan.inline planned.plan.parameter? ∧
      ∀ t : Tables, t.fetch planned'.plan = t.fetch planned.plan) ∧
    ∃ parts parts', (ChangeStep.body "User" Sample.relogin).planChange Sample.catalog = .ok parts ∧
      (ChangeStep.body "User" Sample.relogin).inline.planChange Sample.catalog = .ok parts' ∧
      parts'.assignments = parts.assignments ∧ parts'.parameters = [] := by
  have hquery : Uniform Sample.ambitious.queryParameters := by
    unfold Uniform
    decide +kernel
  have hchange : Uniform (ChangeStep.body "User" Sample.relogin).changeParameters := by
    unfold Uniform
    decide +kernel
  obtain ⟨hiff, hplans⟩ := (inline_correct Sample.catalog Sample.ambitious).1 hquery
  obtain ⟨hiff', hparts⟩ :=
    (inline_correct Sample.catalog (ChangeStep.body "User" Sample.relogin)).2 hchange
  obtain ⟨planned, hplanned, hparameters⟩ := Sample.ambitious_planned
  -- The literals are planned because the parameters are.
  obtain ⟨planned', hplanned'⟩ := hiff.mp ⟨planned, hplanned⟩
  obtain ⟨heq, -, -, hrows⟩ := hplans planned planned' hplanned hplanned'
  obtain ⟨parts, hok⟩ := Sample.exists_ok
    (show ((ChangeStep.body "User" Sample.relogin).planChange Sample.catalog).toBool = true by
      decide +kernel)
  obtain ⟨parts', hok'⟩ := hiff'.mp ⟨parts, hok⟩
  obtain ⟨-, hassigned, hnone, -⟩ := hparts parts parts' hok hok'
  refine ⟨⟨planned, planned', hplanned, hplanned', hparameters, ?_, heq, hrows⟩, parts, parts', hok,
    hok', hassigned, hnone⟩
  rw [heq]
  cases planned.plan
  rfl

end Plans

end EntityQuery
