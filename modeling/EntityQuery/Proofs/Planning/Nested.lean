import EntityQuery.Proofs.Evaluation.Sorts
import EntityQuery.Proofs.Planning.Changes
import EntityQuery.Proofs.Planning.Closed

/-!
# Nested queries

A query stands in another if it is an operand or a set of candidates in its filter, or a selected item,
at any depth. All queries that stand in the plan of a body are planned by the rules, each within the
plans around it: so what the rules say of a condition holds of every condition at any depth.
-/

namespace EntityQuery

/-! ## Conditions and queries in a plan -/

/-- The conditions that connectives link. -/
def Predicate.conditions : Predicate → List Predicate
  | and left right | or left right => left.conditions ++ right.conditions
  | p => [p]

namespace Plan

/-- The conditions that the filter of a query links. -/
def conditions (q : Plan) : List Predicate :=
  q.filter.toList.flatMap Predicate.conditions

/-- A query stands in another at some depth. The queries around it are given from the innermost one to
the outermost. -/
inductive Encloses (q : Plan) : Plan → List Plan → Prop
  | self : Encloses q q []
  | step {r r' : Plan} {around : List Plan} : Encloses q r around → r' ∈ r.queries →
      Encloses q r' (r :: around)

/-- A query has the clauses and the items of a body planned by the rules, in frames that it and the
queries around it bind. -/
inductive PlannedWithin (c : Catalog) (parameters : List (String × Value)) (around : List Plan)
    (q : Plan) : Prop
  | intro {frames : List Frame} {xs : List (Statement Clause)} {ys : List (Statement Predicate)}
      {es : List Expr} {selected : List SelectedItem} :
      List.Forall₂ (fun f q => Plan.Mirrors c f q) frames (q :: around) →
      StatementsPlannedAs c parameters frames xs ys → q.filter = Statement.combine .and .or ys →
      ItemsPlannedAs c parameters frames es selected → q.projection = .ofSelected selected →
      PlannedWithin c parameters around q

end Plan

section Planned

variable {c : Catalog} {parameters : List (String × Value)} {frames : List Frame}
  {around : List Plan} {q r : Plan}

theorem Operand.eq_query {o : Operand} (h : q ∈ o.query?.toList) : o = .query q := by
  cases o with
  | query q' => rw [List.mem_singleton.mp h]
  | _ => cases h

/-! ## Conditions of planned queries -/

/-- What holds of every planned clause, and is kept by both connectives, holds of a planned filter. -/
theorem StatementsPlannedAs.filter_induction {P : Predicate → Prop}
    (hand : ∀ l r, P l → P r → P (.and l r)) (hor : ∀ l r, P l → P r → P (.or l r))
    (hclauses : ∀ (clause : Clause) p, clause.PlannedAs c parameters frames p → P p)
    {xs : List (Statement Clause)} {ys : List (Statement Predicate)}
    (h : StatementsPlannedAs c parameters frames xs ys) {filter : Predicate}
    (hfilter : Statement.combine .and .or ys = some filter) : P filter := by
  refine Statement.combine_induction hand hor (fun p hp => ?_) hfilter
  clear hfilter
  induction ys generalizing xs with
  | nil => cases hp
  | cons y ys ih =>
    cases h with
    | or hxs => exact ih hxs ((List.mem_cons.mp hp).resolve_left (fun h => by cases h))
    | clause hx hxs =>
      rcases List.mem_cons.mp hp with hp | hp
      · cases hp
        exact hclauses _ _ hx
      · exact ih hxs hp

theorem Clause.PlannedAs.conditions_eq {clause : Clause} {p : Predicate}
    (h : clause.PlannedAs c parameters frames p) : p.conditions = [p] := by
  cases h with
  | isNullRelation _ hnull =>
    obtain ⟨-, -, -, ⟨-, rfl⟩ | ⟨-, rows, -, rfl⟩⟩ := Catalog.relationIsNull_ok.mp hnull <;> rfl
  | _ => rfl

/-- A query in a planned condition is that of a planned expression. -/
theorem Clause.PlannedAs.of_mem_queries {clause : Clause} {p : Predicate}
    (h : clause.PlannedAs c parameters frames p) (hq : q ∈ p.queries) :
    ∃ e t, Expr.PlannedAs c parameters frames e (.query q) t := by
  cases h with
  | compare hl hr =>
    rcases List.mem_append.mp hq with hq | hq
    · exact ⟨_, _, Operand.eq_query hq ▸ hl⟩
    · exact ⟨_, _, Operand.eq_query hq ▸ hr⟩
  | like ho | inList ho | isNull ho => exact ⟨_, _, Operand.eq_query hq ▸ ho⟩
  | isMember hv => exact ⟨_, _, Operand.eq_query hq ▸ hv⟩
  | inSubquery ho hcandidates =>
    rcases List.mem_append.mp hq with hq | hq
    · exact ⟨_, _, Operand.eq_query hq ▸ ho⟩
    · rw [List.mem_singleton.mp hq]
      exact ⟨_, _, hcandidates⟩
  | isEmpty => cases hq
  | isNullRelation _ hnull =>
    obtain ⟨-, -, -, ⟨-, rfl⟩ | ⟨-, rows, -, rfl⟩⟩ := Catalog.relationIsNull_ok.mp hnull <;> cases hq

/-- Every condition of a planned query is that of a clause, in frames that the queries bind. -/
theorem Plan.PlannedWithin.of_mem_conditions (h : q.PlannedWithin c parameters around)
    {p : Predicate} (hp : p ∈ q.conditions) :
    ∃ (frames : List Frame) (clause : Clause),
      List.Forall₂ (fun f q => Plan.Mirrors c f q) frames (q :: around) ∧
      clause.PlannedAs c parameters frames p := by
  obtain ⟨hframes, hys, hfilter, -, -⟩ := h
  obtain ⟨filter, hsome, hp⟩ := List.mem_flatMap.mp hp
  obtain ⟨clause, hclause⟩ : ∃ clause : Clause, clause.PlannedAs c parameters _ p := by
    refine hys.filter_induction (P := fun filter => p ∈ filter.conditions → _) ?_ ?_ ?_
      (hfilter.symm.trans (Option.mem_toList.mp hsome)) hp
    · exact fun l r hl hr hp => (List.mem_append.mp hp).elim hl hr
    · exact fun l r hl hr hp => (List.mem_append.mp hp).elim hl hr
    · intro clause p' hclause hp
      rw [hclause.conditions_eq, List.mem_singleton] at hp
      exact ⟨clause, hp ▸ hclause⟩
  exact ⟨_, clause, hframes, hclause⟩

/-! ## Queries in planned queries -/

/-- A plan has the filter and the items of its body, in a frame that it binds itself and the frames that
the plans around it bind. -/
theorem Body.PlannedAs.parts
    (hframes : List.Forall₂ (fun f q => Plan.Mirrors c f q) frames around) {es : List Expr}
    {b : Body} {selected : List SelectedItem} (h : b.PlannedAs c parameters frames es q selected) :
    ∃ g ys, List.Forall₂ (fun f q => Plan.Mirrors c f q) (g :: frames) (q :: around) ∧
      StatementsPlannedAs c parameters (g :: frames) b.statements ys ∧
      q.filter = Statement.combine .and .or ys ∧
      ItemsPlannedAs c parameters (g :: frames) es selected ∧
      q.projection = .ofSelected selected := by
  cases h with
  | @intro _ _ _ e g ys _ keys he hg hys hxs hmix hkeys =>
    have hbuilt := Body.frame?_built hg
    have hmirrors : Plan.Mirrors c g (b.assemble g ys selected keys) :=
      ⟨hbuilt.sound he, hbuilt.entity_eq.symm, rfl⟩
    exact ⟨g, ys, .cons hmirrors hframes, hys, rfl, hxs, rfl⟩

theorem Body.PlannedAs.plannedWithin
    (hframes : List.Forall₂ (fun f q => Plan.Mirrors c f q) frames around) {es : List Expr}
    {b : Body} {selected : List SelectedItem} (h : b.PlannedAs c parameters frames es q selected) :
    q.PlannedWithin c parameters around := by
  obtain ⟨g, ys, hframes', hys, hfilter, hxs, hprojection⟩ := h.parts hframes
  exact .intro hframes' hys hfilter hxs hprojection

theorem Plan.PlannedWithin.withParameters (h : q.PlannedWithin c parameters around)
    (own : List (String × Value)) :
    ({ q with parameters := own } : Plan).PlannedWithin c parameters around := by
  obtain ⟨hframes, hys, hfilter, hxs, hprojection⟩ := h
  cases hframes with
  | cons hmirrors hrest =>
    exact .intro (.cons ⟨hmirrors.sound, hmirrors.entity, hmirrors.joins⟩ hrest) hys hfilter hxs
      hprojection

/-- The plan of a nested query is that of its body. -/
theorem Expr.PlannedAs.query_plannedWithin
    (hframes : List.Forall₂ (fun f q => Plan.Mirrors c f q) frames around) {e : Expr}
    {t : StaticType} (h : e.PlannedAs c parameters frames (.query q) t) :
    q.PlannedWithin c parameters around := by
  cases h with
  | subquery _ hbody _ => exact hbody.plannedWithin hframes

theorem Projection.queries_ofSelected (selected : List SelectedItem) :
    (ofSelected selected).queries = (selected.map SelectedItem.item).filterMap Item.query? := by
  cases selected <;> rfl

theorem ItemsPlannedAs.of_mem_queries {es : List Expr} {selected : List SelectedItem}
    (h : ItemsPlannedAs c parameters frames es selected)
    (hq : q ∈ (selected.map SelectedItem.item).filterMap Item.query?) :
    ∃ e t, Expr.PlannedAs c parameters frames e (.query q) t := by
  induction es generalizing selected with
  | nil =>
    cases h
    cases hq
  | cons e es ih =>
    cases h with
    | cons hx hxs =>
      rename_i x xs
      rw [List.map_cons, List.filterMap_cons] at hq
      cases hitem : x.item.query? with
      | none =>
        rw [hitem] at hq
        exact ih hxs hq
      | some q' =>
        rw [hitem] at hq
        -- The first item is the query, or it is one of the rest.
        rcases List.mem_cons.mp hq with rfl | hq
        · -- Paths and aggregates select no query.
          cases hx with
          | path _ hselected => cases hselected <;> cases hitem
          | aggregate hplanned => cases hplanned <;> cases hitem
          | @operand _ _ o _ _ _ hplanned =>
            obtain rfl := Operand.eq_query (o := o) (q := q) (Option.mem_toList.mpr hitem)
            exact ⟨_, _, hplanned⟩
        · exact ih hxs hq

/-- What stands in a planned query is planned. -/
theorem Plan.PlannedWithin.of_mem_queries (h : q.PlannedWithin c parameters around)
    (hr : r ∈ q.queries) : r.PlannedWithin c parameters (q :: around) := by
  obtain ⟨hframes, hys, hfilter, hxs, hprojection⟩ := h
  suffices ∃ e t, Expr.PlannedAs c parameters _ e (.query r) t by
    obtain ⟨e, t, hplanned⟩ := this
    exact hplanned.query_plannedWithin hframes
  rcases List.mem_append.mp hr with hr | hr
  · obtain ⟨filter, hsome, hr⟩ := List.mem_flatMap.mp hr
    refine hys.filter_induction (P := fun filter => r ∈ filter.queries → _) ?_ ?_ ?_
      (hfilter.symm.trans (Option.mem_toList.mp hsome)) hr
    · exact fun l r hl hr h => (List.mem_append.mp h).elim hl hr
    · exact fun l r hl hr h => (List.mem_append.mp h).elim hl hr
    · exact fun clause p hclause hr => hclause.of_mem_queries hr
  · rw [hprojection, Projection.queries_ofSelected] at hr
    exact hxs.of_mem_queries hr

/-- Every query in a planned query is planned within the queries around it. -/
theorem Plan.PlannedWithin.of_encloses (h : q.PlannedWithin c parameters [])
    (hr : q.Encloses r around) : r.PlannedWithin c parameters around := by
  induction hr with
  | self => exact h
  | step _ hr ih => exact ih.of_mem_queries hr

end Planned

/-! ## Whole plans -/

section Plans

variable {c : Catalog} {b : Body}

theorem Body.plan_plannedWithin {planned : PlannedQuery} (h : b.plan c = .ok planned) :
    planned.plan.PlannedWithin c planned.plan.parameters [] := by
  obtain ⟨q, selected, hplan, hplanned, -⟩ := plan_plannedAs h
  have hwithin := (hplanned.plannedWithin .nil).withParameters planned.plan.parameters
  rwa [← hplan] at hwithin

/-- A change is filtered as the query of all records of its entity would be. It may bind more
parameters than its clauses use. -/
theorem Body.planChange_plannedWithin {parts : ChangeParts} (h : b.planChange c = .ok parts) :
    ∃ parameters, parameters <+: parts.parameters ∧
      ({ Plan.all b.entity with filter := parts.filter } : Plan).PlannedWithin c parameters [] := by
  obtain ⟨planned, hplanned, hplan, hprefix, -⟩ := planChange_clauses h
  refine ⟨planned.plan.parameters, hprefix, ?_⟩
  obtain ⟨q, selected, hq, hbody, -⟩ := plan_plannedAs hplanned
  have hwithin := ((hbody.plannedWithin .nil).withParameters planned.plan.parameters).withParameters
    (Plan.all b.entity).parameters
  rw [← hq, hplan] at hwithin
  exact hwithin

end Plans

end EntityQuery
