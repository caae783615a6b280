import EntityQuery.Proofs.Planning.Changes
import EntityQuery.Proofs.Planning.Mirroring
import EntityQuery.Proofs.Sample
import Mathlib.Logic.Equiv.Basic

/-!
# Renamed scopes

The scopes of a body and of the queries nested in it may be renumbered apart, with all paths that start
in them. The renumbered body is planned by mirrored steps, so to the same query, update or delete.
-/

namespace EntityQuery

/-! ## Renaming -/

mutual

/-- A body with its scope renumbered, and those of all paths and nested queries in it. -/
def Body.rename (ρ : Nat → Nat) (b : Body) : Body :=
  match b with
  | ⟨scope, entity, statements, joins, selection, orderBy, distinct, assignments⟩ =>
    ⟨ρ scope, entity, statementsRename ρ statements, joins, selectionRename ρ selection,
      orderByRename ρ orderBy, distinct, assignmentsRename ρ assignments⟩
termination_by structural b

def statementsRename (ρ : Nat → Nat) (xs : List (Statement Clause)) : List (Statement Clause) :=
  match xs with
  | [] => []
  | x :: xs => statementRename ρ x :: statementsRename ρ xs
termination_by structural xs

def statementRename (ρ : Nat → Nat) (x : Statement Clause) : Statement Clause :=
  match x with
  | .or => .or
  | .clause clause => .clause (clause.rename ρ)
termination_by structural x

def selectionRename (ρ : Nat → Nat) (selection : Option (List Expr)) : Option (List Expr) :=
  match selection with
  | none => none
  | some es => some (exprsRename ρ es)
termination_by structural selection

def exprsRename (ρ : Nat → Nat) (es : List Expr) : List Expr :=
  match es with
  | [] => []
  | e :: es => e.rename ρ :: exprsRename ρ es
termination_by structural es

def orderByRename (ρ : Nat → Nat) (ts : List OrderTerm) : List OrderTerm :=
  match ts with
  | [] => []
  | t :: ts => t.rename ρ :: orderByRename ρ ts
termination_by structural ts

def OrderTerm.rename (ρ : Nat → Nat) (t : OrderTerm) : OrderTerm :=
  match t with
  | ⟨expr, direction⟩ => ⟨expr.rename ρ, direction⟩
termination_by structural t

def assignmentsRename (ρ : Nat → Nat) (ts : List SetTerm) : List SetTerm :=
  match ts with
  | [] => []
  | t :: ts => t.rename ρ :: assignmentsRename ρ ts
termination_by structural ts

def SetTerm.rename (ρ : Nat → Nat) (t : SetTerm) : SetTerm :=
  match t with
  | ⟨field, expr⟩ => ⟨field, expr.rename ρ⟩
termination_by structural t

def Clause.rename (ρ : Nat → Nat) (clause : Clause) : Clause :=
  match clause with
  | .compare left op right => .compare (left.rename ρ) op (right.rename ρ)
  | .like operand pattern negated => .like (operand.rename ρ) pattern negated
  | .inList operand values negated => .inList (operand.rename ρ) values negated
  | .inSubquery operand subquery negated =>
    .inSubquery (operand.rename ρ) (subquery.rename ρ) negated
  | .isNull operand negated => .isNull (operand.rename ρ) negated
  | .isEmpty collection negated => .isEmpty (collection.rename ρ) negated
  | .isMember value collection negated =>
    .isMember (value.rename ρ) (collection.rename ρ) negated
termination_by structural clause

/-- An expression with the scopes of all paths and nested queries in it renumbered. -/
def Expr.rename (ρ : Nat → Nat) (e : Expr) : Expr :=
  match e with
  | .path p => .path (p.rename ρ)
  | .literal v => .literal v
  | .parameter name v => .parameter name v
  | .subquery body returns => .subquery (body.rename ρ) (returns.rename ρ)
  | .aggregate f p => .aggregate f (p.map (Path.rename ρ))
termination_by structural e

end

section Renaming

variable {ρ : Nat → Nat}

theorem orderByRename_eq (ts : List OrderTerm) :
    orderByRename ρ ts = ts.map (OrderTerm.rename ρ) := by
  induction ts with
  | nil => rfl
  | cons t ts ih => rw [orderByRename, ih, List.map_cons]

theorem assignmentsRename_eq (ts : List SetTerm) :
    assignmentsRename ρ ts = ts.map (SetTerm.rename ρ) := by
  induction ts with
  | nil => rfl
  | cons t ts ih => rw [assignmentsRename, ih, List.map_cons]

theorem Body.entity_rename (b : Body) : (b.rename ρ).entity = b.entity := by
  cases b
  rfl

theorem Expr.isSubquery_rename (e : Expr) : (e.rename ρ).isSubquery = e.isSubquery := by
  cases e <;> rfl

mutual

theorem Body.rename_id (b : Body) : b.rename id = b := by
  match b with
  | ⟨scope, entity, statements, joins, selection, orderBy, distinct, assignments⟩ =>
    rw [Body.rename, statementsRename_id, selectionRename_id, orderByRename_id,
      assignmentsRename_id, id_eq]
termination_by structural b

theorem statementsRename_id (xs : List (Statement Clause)) : statementsRename id xs = xs := by
  match xs with
  | [] => rfl
  | x :: xs => rw [statementsRename, statementRename_id, statementsRename_id]
termination_by structural xs

theorem statementRename_id (x : Statement Clause) : statementRename id x = x := by
  match x with
  | .or => rfl
  | .clause clause => rw [statementRename, Clause.rename_id]
termination_by structural x

theorem selectionRename_id (selection : Option (List Expr)) :
    selectionRename id selection = selection := by
  match selection with
  | none => rfl
  | some es => rw [selectionRename, exprsRename_id]
termination_by structural selection

theorem exprsRename_id (es : List Expr) : exprsRename id es = es := by
  match es with
  | [] => rfl
  | e :: es => rw [exprsRename, Expr.rename_id, exprsRename_id]
termination_by structural es

theorem orderByRename_id (ts : List OrderTerm) : orderByRename id ts = ts := by
  match ts with
  | [] => rfl
  | t :: ts => rw [orderByRename, OrderTerm.rename_id, orderByRename_id]
termination_by structural ts

theorem OrderTerm.rename_id (t : OrderTerm) : t.rename id = t := by
  match t with
  | ⟨expr, direction⟩ => rw [OrderTerm.rename, Expr.rename_id]
termination_by structural t

theorem assignmentsRename_id (ts : List SetTerm) : assignmentsRename id ts = ts := by
  match ts with
  | [] => rfl
  | t :: ts => rw [assignmentsRename, SetTerm.rename_id, assignmentsRename_id]
termination_by structural ts

theorem SetTerm.rename_id (t : SetTerm) : t.rename id = t := by
  match t with
  | ⟨field, expr⟩ => rw [SetTerm.rename, Expr.rename_id]
termination_by structural t

theorem Clause.rename_id (clause : Clause) : clause.rename id = clause := by
  match clause with
  | .compare left op right => rw [Clause.rename, Expr.rename_id, Expr.rename_id]
  | .like operand pattern negated => rw [Clause.rename, Expr.rename_id]
  | .inList operand values negated => rw [Clause.rename, Expr.rename_id]
  | .inSubquery operand subquery negated => rw [Clause.rename, Expr.rename_id, Expr.rename_id]
  | .isNull operand negated => rw [Clause.rename, Expr.rename_id]
  | .isEmpty collection negated => rfl
  | .isMember value collection negated =>
    rw [Clause.rename, Expr.rename_id]
    rfl
termination_by structural clause

theorem Expr.rename_id (e : Expr) : e.rename id = e := by
  match e with
  | .path p => rfl
  | .literal v => rfl
  | .parameter name v => rfl
  | .subquery body returns => rw [Expr.rename, Body.rename_id, Expr.rename_id]
  | .aggregate f p => cases p <;> rfl
termination_by structural e

end

/-- Messages name no scopes. -/
theorem Expr.label_rename (e : Expr) : (e.rename ρ).label = e.label := by
  cases e with
  | path | literal | parameter => rfl
  | subquery body returns =>
    rw [rename, label, label, Body.entity_rename]
  | aggregate f p => cases p <;> rfl

theorem exprsRename_labels (es : List Expr) :
    (exprsRename ρ es).map Expr.label = es.map Expr.label := by
  induction es with
  | nil => rfl
  | cons e es ih => rw [exprsRename, List.map_cons, List.map_cons, ih, e.label_rename]

end Renaming

/-! ## Bodies -/

section Bodies

open Planner (Mirrored)

variable {c c' : Catalog} {ρ : Nat → Nat}

theorem Expr.selectWith_mirrored (hc : c.Agrees c') (hρ : Function.Injective ρ) {e : Expr}
    {operand operand' : Planner (Operand × StaticType)} (h : Mirrored ρ Eq operand operand') :
    Mirrored ρ Eq (e.selectWith c operand) ((e.rename ρ).selectWith c' operand') := by
  cases e with
  | path p => exact p.select_mirrored hc hρ
  | aggregate f p =>
    refine (f.plan_mirrored hc hρ p).bind_eq fun r => ?_
    exact .pure rfl
  | literal | parameter | subquery =>
    refine h.bind_eq fun r => ?_
    exact .pure rfl

theorem Expr.isNullWith_mirrored (hc : c.Agrees c') (hρ : Function.Injective ρ) {e : Expr}
    {operand operand' : Planner (Operand × StaticType)} (h : Mirrored ρ Eq operand operand')
    (negated : Bool) :
    Mirrored ρ Eq (e.isNullWith c operand negated)
      ((e.rename ρ).isNullWith c' operand' negated) := by
  cases e with
  | path p =>
    refine (p.resolve_mirrored hc hρ).bind_eq fun r => ?_
    cases r with
    | field => exact .pure rfl
    | relation level slot r => exact .lift (hc.relationIsNull ρ p level slot r negated)
    | record => exact .throw _
  | literal | parameter | subquery | aggregate =>
    refine h.bind_eq fun r => ?_
    exact .pure rfl

/-- An ordering that is no path is named in the message as before. -/
theorem Planner.orderTerm_mirrored (hc : c.Agrees c') (hρ : Function.Injective ρ) (entity : String)
    (t : OrderTerm) :
    Mirrored ρ Eq (orderTerm c entity t) (orderTerm c' entity (t.rename ρ)) := by
  obtain ⟨e, direction⟩ := t
  -- Messages name an expression by its label, in which there are no scopes.
  have hlabel := e.label_rename (ρ := ρ)
  rw [OrderTerm.rename]
  cases e with
  | path p =>
    refine (p.operand_mirrored hc hρ).bind_eq ?_
    rintro ⟨o, t⟩
    dsimp only
    split
    · exact .throw _
    · split
      · split
        · exact .pure rfl
        · exact .throw _
      · exact .throw _
  | literal | parameter => exact .throw _
  | subquery | aggregate =>
    rw [Expr.rename] at hlabel ⊢
    dsimp only [orderTerm]
    rw [hlabel]
    exact .throw _

/-- What nested queries return, under one name. -/
structure Returned.Mirrored (ρ : Nat → Nat) (r r' : Returned) : Prop where
  label : r'.label = r.label
  item : Planner.Mirrored ρ Eq r.item r'.item

/-- A scope is mirrored if its statements and its items are. -/
theorem Body.run_planScope_mirrored (hc : c.Agrees c') (hρ : Function.Injective ρ) {b : Body}
    {returns returns' : Option Returned}
    (hstatements : Mirrored ρ Eq (planStatements c b.entity b.statements)
      (planStatements c' b.entity (statementsRename ρ b.statements)))
    (hselection : Mirrored ρ Eq (planSelection c b.entity returns b.selection)
      (planSelection c' b.entity returns' (selectionRename ρ b.selection))) :
    Mirrored ρ Eq (b.planScope c returns) ((b.rename ρ).planScope c' returns') := by
  obtain ⟨scope, entity, statements, joins, selection, orderBy, distinct, assignments⟩ := b
  rw [rename, planScope, planScope]
  refine (Mirrored.lift (hc.entity entity)).bind fun _ _ _ => ?_
  refine (Mirrored.inScope (R := Eq) (.new scope entity) ?_).bind ?_
  · -- The parts of the scope, one after another.
    refine (Planner.declareJoins_mirrored hc entity joins).bind_eq fun _ => ?_
    refine hstatements.bind_eq fun ys => ?_
    refine hselection.bind_eq ?_
    rintro ⟨labels, xs⟩
    refine (Mirrored.projection entity labels xs).bind_eq ?_
    rintro ⟨projection, shapes, types⟩
    rw [orderByRename_eq]
    have hkeys := Mirrored.mapM_map (Planner.orderTerm_mirrored hc hρ entity) orderBy
    exact hkeys.bind_eq fun _ => .pure rfl
  · rintro ⟨q, g⟩ ⟨_, _⟩ ⟨rfl, rfl⟩
    exact .pure rfl

mutual

theorem Expr.plan_mirrored (hc : c.Agrees c') (hρ : Function.Injective ρ) (e : Expr)
    (entity : String) : Mirrored ρ Eq (e.plan c entity) ((e.rename ρ).plan c' entity) := by
  match e with
  | .path p =>
    rw [Expr.rename, Expr.plan, Expr.plan]
    exact p.operand_mirrored hc hρ
  | .literal v =>
    rw [Expr.rename, Expr.plan, Expr.plan]
    exact .pure rfl
  | .parameter name v =>
    rw [Expr.rename, Expr.plan, Expr.plan]
    exact (Mirrored.bindParameter name v).bind_eq fun _ => .pure rfl
  | .subquery body returns =>
    rw [Expr.rename, Expr.plan, Expr.plan, Body.entity_rename, Expr.label_rename]
    have hreturned : Returned.Mirrored ρ
        ⟨returns.label, returns.selectWith c (returns.plan c body.entity)⟩
        ⟨returns.label, (returns.rename ρ).selectWith c' ((returns.rename ρ).plan c' body.entity)⟩ :=
      ⟨rfl, Expr.selectWith_mirrored hc hρ (Expr.plan_mirrored hc hρ returns body.entity)⟩
    refine (Body.planScope_mirrored hc hρ body (.some hreturned)).bind_eq fun q => ?_
    exact .pure rfl
  | .aggregate f p =>
    have hlabel := (Expr.aggregate f p).label_rename (ρ := ρ)
    rw [Expr.rename] at hlabel ⊢
    rw [Expr.plan, Expr.plan, hlabel]
    exact .throw _
termination_by structural e

theorem Clause.plan_mirrored (hc : c.Agrees c') (hρ : Function.Injective ρ) (clause : Clause)
    (entity : String) :
    Mirrored ρ Eq (clause.plan c entity) ((clause.rename ρ).plan c' entity) := by
  match clause with
  | .compare left op right =>
    rw [Clause.rename, Clause.plan, Clause.plan, Expr.label_rename]
    refine (Expr.plan_mirrored hc hρ left entity).bind_eq ?_
    rintro ⟨l, lt⟩
    refine (Expr.plan_mirrored hc hρ right entity).bind_eq ?_
    rintro ⟨r, rt⟩
    exact (Mirrored.checkComparable _ _ _ _).bind_eq fun _ => .pure rfl
  | .like operand pattern negated =>
    rw [Clause.rename, Clause.plan, Clause.plan, Expr.label_rename]
    refine (Expr.plan_mirrored hc hρ operand entity).bind_eq ?_
    rintro ⟨o, t⟩
    exact (Mirrored.checkText _ _).bind_eq fun _ => .pure rfl
  | .inList operand vs negated =>
    rw [Clause.rename, Clause.plan, Clause.plan, Expr.label_rename]
    refine (Expr.plan_mirrored hc hρ operand entity).bind_eq ?_
    rintro ⟨o, t⟩
    exact (Mirrored.checkCandidates _ _ _).bind_eq fun _ => .pure rfl
  | .inSubquery operand subquery negated =>
    rw [Clause.rename, Clause.plan, Clause.plan, Expr.isSubquery_rename, Expr.label_rename]
    refine (Expr.plan_mirrored hc hρ operand entity).bind_eq ?_
    rintro ⟨o, t⟩
    dsimp only
    split
    · exact .throw _
    · refine (Expr.plan_mirrored hc hρ subquery entity).bind_eq ?_
      rintro ⟨sub, selected⟩
      cases sub with
      | query q => exact (Mirrored.checkComparable _ _ _ _).bind_eq fun _ => .pure rfl
      | column | literal | parameter | aggregate => exact .throw _
  | .isNull operand negated =>
    rw [Clause.rename, Clause.plan, Clause.plan]
    exact Expr.isNullWith_mirrored hc hρ (Expr.plan_mirrored hc hρ operand entity) negated
  | .isEmpty collection negated =>
    rw [Clause.rename, Clause.plan, Clause.plan]
    refine (collection.collection_mirrored hc hρ).bind_eq ?_
    rintro ⟨rows, t⟩
    exact .pure rfl
  | .isMember value collection negated =>
    rw [Clause.rename, Clause.plan, Clause.plan]
    refine (Expr.plan_mirrored hc hρ value entity).bind_eq ?_
    rintro ⟨v, t⟩
    refine (collection.collection_mirrored hc hρ).bind_eq ?_
    rintro ⟨rows, element⟩
    exact (Mirrored.checkElement _ _ _).bind_eq fun _ => .pure rfl
termination_by structural clause

theorem planStatement_mirrored (hc : c.Agrees c') (hρ : Function.Injective ρ)
    (x : Statement Clause) (entity : String) :
    Mirrored ρ Eq (planStatement c entity x) (planStatement c' entity (statementRename ρ x)) := by
  match x with
  | .or =>
    rw [statementRename, planStatement, planStatement]
    exact .pure rfl
  | .clause clause =>
    rw [statementRename, planStatement, planStatement]
    refine (Clause.plan_mirrored hc hρ clause entity).bind_eq fun p => ?_
    exact .pure rfl
termination_by structural x

theorem planStatements_mirrored (hc : c.Agrees c') (hρ : Function.Injective ρ)
    (xs : List (Statement Clause)) (entity : String) :
    Mirrored ρ Eq (planStatements c entity xs)
      (planStatements c' entity (statementsRename ρ xs)) := by
  match xs with
  | [] =>
    rw [statementsRename, planStatements, planStatements]
    exact .pure rfl
  | x :: xs =>
    rw [statementsRename, planStatements, planStatements]
    refine (planStatement_mirrored hc hρ x entity).bind_eq fun y => ?_
    refine (planStatements_mirrored hc hρ xs entity).bind_eq fun ys => ?_
    exact .pure rfl
termination_by structural xs

theorem planItems_mirrored (hc : c.Agrees c') (hρ : Function.Injective ρ) (es : List Expr)
    (entity : String) :
    Mirrored ρ Eq (planItems c entity es) (planItems c' entity (exprsRename ρ es)) := by
  match es with
  | [] =>
    rw [exprsRename, planItems, planItems]
    exact .pure rfl
  | e :: es =>
    rw [exprsRename, planItems, planItems]
    refine (Expr.selectWith_mirrored hc hρ (Expr.plan_mirrored hc hρ e entity)).bind_eq fun x => ?_
    refine (planItems_mirrored hc hρ es entity).bind_eq fun xs => ?_
    exact .pure rfl
termination_by structural es

theorem planSelection_mirrored (hc : c.Agrees c') (hρ : Function.Injective ρ)
    (selection : Option (List Expr)) (entity : String) {returns returns' : Option Returned}
    (hreturns : Option.Rel (Returned.Mirrored ρ) returns returns') :
    Mirrored ρ Eq (planSelection c entity returns selection)
      (planSelection c' entity returns' (selectionRename ρ selection)) := by
  match selection, hreturns with
  | none, .none =>
    rw [selectionRename, planSelection, planSelection]
    exact .pure rfl
  | none, .some hr =>
    rw [selectionRename, planSelection, planSelection, hr.label]
    refine hr.item.bind_eq fun x => ?_
    exact (Mirrored.checkReturned _ _ x).bind_eq fun _ => .pure rfl
  | some es, .none =>
    rw [selectionRename, planSelection, planSelection]
    refine (planItems_mirrored hc hρ es entity).bind_eq fun xs => ?_
    refine .pure ?_
    rw [exprsRename_labels]
  | some es, .some _ =>
    rw [selectionRename, planSelection, planSelection]
    exact .throw _
termination_by structural selection

/-- A body is mirrored, if what it returns is. -/
theorem Body.planScope_mirrored (hc : c.Agrees c') (hρ : Function.Injective ρ) (b : Body)
    {returns returns' : Option Returned}
    (hreturns : Option.Rel (Returned.Mirrored ρ) returns returns') :
    Mirrored ρ Eq (b.planScope c returns) ((b.rename ρ).planScope c' returns') := by
  match b with
  | ⟨scope, entity, statements, joins, selection, orderBy, distinct, assignments⟩ =>
    exact Body.run_planScope_mirrored hc hρ (planStatements_mirrored hc hρ statements entity)
      (planSelection_mirrored hc hρ selection entity hreturns)
termination_by structural b

end

theorem Planner.changeFilter_mirrored (hc : c.Agrees c') (hρ : Function.Injective ρ) (b : Body) :
    Mirrored ρ Eq (changeFilter c b) (changeFilter c' (b.rename ρ)) := by
  obtain ⟨scope, entity, statements, joins, selection, orderBy, distinct, assignments⟩ := b
  refine (Mirrored.inScope _ (planStatements_mirrored hc hρ statements entity)).bind ?_
  rintro ⟨ys, g⟩ ⟨_, _⟩ ⟨rfl, rfl⟩
  dsimp only [Frame.rename]
  split
  · exact .throw _
  · exact .pure rfl

theorem Planner.assignedValue_mirrored (place : String) (e : Expr) :
    Mirrored ρ Eq (assignedValue place e) (assignedValue place (e.rename ρ)) := by
  have hlabel := e.label_rename (ρ := ρ)
  cases e with
  | literal v => exact .pure rfl
  | parameter name v => exact (Mirrored.bindParameter name v).bind_eq fun _ => .pure rfl
  | path | subquery | aggregate =>
    rw [Expr.rename] at hlabel ⊢
    dsimp only [assignedValue]
    rw [hlabel]
    exact .throw _

theorem Planner.assignment_mirrored (hc : c.Agrees c') {entity entity' : Entity}
    (hentity : entity.Agrees entity') (t : SetTerm) :
    Mirrored ρ Eq (assignment c entity t) (assignment c' entity' (t.rename ρ)) := by
  obtain ⟨field, e⟩ := t
  rw [SetTerm.rename]
  unfold assignment
  dsimp only
  rw [hentity.name, hc.attribute?]
  split
  · exact .throw _
  · exact .throw _
  · split
    · exact .throw _
    · refine (assignedValue_mirrored _ e).bind_eq fun v => ?_
      split
      · exact .pure rfl
      · exact .throw _

theorem Body.plan_mirrored (hc : c.Agrees c') (hρ : Function.Injective ρ) (b : Body) :
    (b.rename ρ).plan c' = b.plan c := by
  refine (Alike.eq ?_).symm
  refine (Body.planScope_mirrored hc hρ b .none ⟨[], []⟩).bind ?_
  rintro ⟨q, s⟩ ⟨_, _⟩ ⟨rfl, rfl⟩
  exact rfl

theorem Body.changeSteps_mirrored (hc : c.Agrees c') (hρ : Function.Injective ρ) (b : Body)
    (entity entity' : Entity) (hentity : entity.Agrees entity') :
    Mirrored ρ Eq (b.changeSteps c entity) ((b.rename ρ).changeSteps c' entity') := by
  refine (Planner.changeFilter_mirrored hc hρ b).bind_eq fun filter => ?_
  have hassignments : (b.rename ρ).assignments = b.assignments.map (SetTerm.rename ρ) := by
    cases b
    exact assignmentsRename_eq _
  rw [hassignments]
  have hterms := Mirrored.mapM_map (Planner.assignment_mirrored (ρ := ρ) hc hentity) b.assignments
  exact hterms.bind_eq fun _ => .pure rfl

theorem Body.planChange_mirrored (hc : c.Agrees c') (hρ : Function.Injective ρ) (b : Body) :
    (b.rename ρ).planChange c' = b.planChange c := by
  have hsteps := changeSteps_mirrored hc hρ b
  obtain ⟨scope, entity, statements, joins, selection, orderBy, distinct, assignments⟩ := b
  refine (Alike.eq ?_).symm
  refine (hc.entity entity).bind fun e e' he => ?_
  cases joins with
  | cons d ds => exact rfl
  | nil =>
    refine (hsteps e e' he ⟨[], []⟩).bind ?_
    rintro ⟨r, s⟩ ⟨_, _⟩ ⟨rfl, rfl⟩
    exact rfl

/-- Planning depends on which scopes are the same, not on their numbers. If the scopes of a body, of
the queries nested in it and of all paths are renumbered apart, the query that it is planned to is the
same, with the same shapes, types and parameters, or the failure is the same. So is the filter with
the assignments and parameters that it is planned to as an update or delete. -/
theorem Body.plan_rename {ρ : Nat → Nat} (hρ : Function.Injective ρ) (c : Catalog) (b : Body) :
    (b.rename ρ).plan c = b.plan c ∧ (b.rename ρ).planChange c = b.planChange c :=
  ⟨plan_mirrored (.refl c) hρ b, planChange_mirrored (.refl c) hρ b⟩

/-- A query and an update in which the scopes of the body and of its nested query are exchanged. -/
theorem Body.plan_rename_exchanged :
    Function.Injective (Equiv.swap 1 2) ∧
    (Sample.busyInBerlin.scope, (Sample.busyInBerlin.rename (Equiv.swap 1 2)).scope) = (1, 2) ∧
    (∃ planned, Sample.busyInBerlin.plan Sample.catalog = .ok planned ∧
      (Sample.busyInBerlin.rename (Equiv.swap 1 2)).plan Sample.catalog = .ok planned) ∧
    ∃ parts, (ChangeStep.body "User" Sample.relogin).planChange Sample.catalog = .ok parts ∧
      ((ChangeStep.body "User" Sample.relogin).rename (Equiv.swap 1 2)).planChange
        Sample.catalog = .ok parts := by
  have hswap : Function.Injective (Equiv.swap 1 2) := (Equiv.swap 1 2).injective
  obtain ⟨planned, hplan⟩ := Sample.busyInBerlin_planned
  obtain ⟨parts, hparts⟩ := Sample.exists_ok
    (show ((ChangeStep.body "User" Sample.relogin).planChange Sample.catalog).toBool = true by
      decide +kernel)
  refine ⟨hswap, rfl, ⟨planned, hplan, ?_⟩, parts, hparts, ?_⟩
  · rw [(plan_rename hswap Sample.catalog Sample.busyInBerlin).1]
    exact hplan
  · rw [(plan_rename hswap Sample.catalog (ChangeStep.body "User" Sample.relogin)).2]
    exact hparts

end Bodies

end EntityQuery
