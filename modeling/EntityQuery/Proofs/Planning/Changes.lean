import EntityQuery.Planning.Change
import EntityQuery.Proofs.Catalog
import EntityQuery.Proofs.Planning.BodyRuns
import Mathlib.Data.List.Forall2

/-!
# Planned changes

An update or delete is planned with the filter of the query that counts its clauses, and with the
values of its assignments. It may bind more parameters than the query does, but none before those.
-/

namespace EntityQuery

/-- The value that an assignment gives: that of a literal or of a parameter. -/
def Expr.assigned? : Expr → Option Value
  | .literal v => some v
  | .parameter _ v => some v
  | _ => none

/-- An assignment with what it assigns. -/
def SetTerm.AssignedAs (t : SetTerm) (a : Assignment) : Prop :=
  a.field = t.field ∧ t.expr.assigned? = some a.value

/-- The query over the clauses of a body, with nothing else. -/
def Body.clauses (b : Body) : Body :=
  { empty b.scope b.entity with statements := b.statements }

/-- The steps by which a change without joins is planned once its entity is known. -/
def Body.changeSteps (c : Catalog) (b : Body) (entity : Entity) :
    Planner (Option Predicate × List Assignment) := do
  let filter ← Planner.changeFilter c b
  let assignments ← b.assignments.mapM (Planner.assignment c entity)
  return (filter, assignments)

theorem Body.planChange_steps {c : Catalog} {b : Body} {entity : Entity}
    (hentity : c.entity b.entity = .ok entity) (hjoins : b.joins = []) :
    b.planChange c = (fun r => ⟨r.1.1, r.1.2, r.2.parameters⟩) <$>
      (b.changeSteps c entity).run ⟨[], []⟩ := by
  unfold planChange
  rw [hentity, hjoins]
  rfl

section Runs

variable {c : Catalog} {s s' : Scopes}

namespace Planner

theorem run_assignedValue_ok {place : String} {e : Expr} {v : Value}
    (h : (assignedValue place e).run s = .ok (v, s')) :
    e.assigned? = some v ∧ s.parameters <+: s'.parameters := by
  cases e with
  | literal w =>
    obtain ⟨rfl, rfl⟩ := run_pure_ok.mp h
    exact ⟨rfl, List.prefix_refl _⟩
  | parameter name w =>
    obtain ⟨_, s₁, hbind, hpure⟩ := run_bind_ok.mp h
    obtain ⟨rfl, rfl⟩ := run_pure_ok.mp hpure
    refine ⟨rfl, ?_⟩
    rcases run_bindParameter_ok hbind with ⟨-, rfl⟩ | ⟨_, -, -, rfl⟩
    · exact List.prefix_append _ _
    · exact List.prefix_refl _
  | path | subquery | aggregate => exact (run_failMismatch_ok.mp h).elim

theorem run_assignment_ok {entity : Entity} {t : SetTerm} {a : Assignment}
    (h : (assignment c entity t).run s = .ok (a, s')) :
    t.AssignedAs a ∧ s.parameters <+: s'.parameters := by
  unfold assignment at h
  simp only at h
  split at h
  · exact (run_failPath_ok.mp h).elim
  · exact (run_failPath_ok.mp h).elim
  · rename_i f hf
    split at h
    · exact (run_failPath_ok.mp h).elim
    · obtain ⟨v, s₁, hv, h⟩ := run_bind_ok.mp h
      obtain ⟨hassigned, hprefix⟩ := run_assignedValue_ok hv
      split at h
      · obtain ⟨rfl, rfl⟩ := run_pure_ok.mp h
        obtain ⟨e, -, hfield⟩ := Catalog.attribute?_field hf
        exact ⟨⟨(Entity.field?_mem hfield).2, hassigned⟩, hprefix⟩
      · exact (run_failMismatch_ok.mp h).elim

theorem run_assignments_ok {entity : Entity} {ts : List SetTerm} {assignments : List Assignment}
    (h : (ts.mapM (assignment c entity)).run s = .ok (assignments, s')) :
    List.Forall₂ SetTerm.AssignedAs ts assignments ∧ s.parameters <+: s'.parameters := by
  induction ts generalizing s assignments with
  | nil =>
    rw [List.mapM_nil] at h
    obtain ⟨rfl, rfl⟩ := run_pure_ok.mp h
    exact ⟨.nil, List.prefix_refl _⟩
  | cons t ts ih =>
    rw [List.mapM_cons] at h
    obtain ⟨a, s₁, ha, h⟩ := run_bind_ok.mp h
    obtain ⟨rest, s₂, hrest, h⟩ := run_bind_ok.mp h
    obtain ⟨rfl, rfl⟩ := run_pure_ok.mp h
    obtain ⟨hfirst, hprefix⟩ := run_assignment_ok ha
    obtain ⟨hall, hprefix'⟩ := ih hrest
    exact ⟨.cons hfirst hall, hprefix.trans hprefix'⟩

/-- The clauses of a change are planned in a scope of its own, which binds no joins. -/
theorem run_changeFilter_ok {b : Body} {filter : Option Predicate} :
    (changeFilter c b).run s = .ok (filter, s') ↔
      ∃ ys g, (planStatements c b.entity b.statements).run
          ⟨.new b.scope b.entity :: s.frames, s.parameters⟩ =
            .ok (ys, ⟨g :: s'.frames, s'.parameters⟩) ∧
        g.joins = [] ∧ filter = Statement.combine .and .or ys := by
  simp only [changeFilter, run_bind_ok]
  constructor
  · rintro ⟨⟨ys, g⟩, s₁, hscope, h⟩
    split at h
    · exact (run_failPath_ok.mp h).elim
    · rename_i hjoins
      obtain ⟨rfl, rfl⟩ := run_pure_ok.mp h
      exact ⟨ys, g, run_inScope_ok.mp hscope, hjoins, rfl⟩
  · rintro ⟨ys, g, hstatements, hjoins, rfl⟩
    refine ⟨(ys, g), s', run_inScope_ok.mpr hstatements, ?_⟩
    simp only [hjoins]
    exact run_pure_ok.mpr ⟨rfl, rfl⟩

end Planner

end Runs

section Planned

variable {c : Catalog} {b : Body}

theorem Body.planChange_ok {parts : ChangeParts} (h : b.planChange c = .ok parts) :
    ∃ entity s s', c.entity? b.entity = some entity ∧ b.joins = [] ∧
      (Planner.changeFilter c b).run ⟨[], []⟩ = .ok (parts.filter, s) ∧
      (b.assignments.mapM (Planner.assignment c entity)).run s = .ok (parts.assignments, s') ∧
      parts.parameters = s'.parameters := by
  unfold planChange at h
  cases hentity : c.entity b.entity with
  | error e =>
    rw [hentity] at h
    cases h
  | ok entity =>
    simp only [hentity, bind, Except.bind] at h
    split at h
    · cases h
    · rename_i hjoins
      -- What is left are the steps of the planner, from no frames and no parameters.
      generalize hsteps : StateT.run _ (⟨[], []⟩ : Scopes) = result at h
      cases result with
      | error e => cases h
      | ok r =>
        obtain ⟨⟨filter, assignments⟩, s'⟩ := r
        cases h
        obtain ⟨filter', s, hfilter, hsteps⟩ := Planner.run_bind_ok.mp hsteps
        obtain ⟨assignments', s'', hassignments, hsteps⟩ := Planner.run_bind_ok.mp hsteps
        obtain ⟨hpair, rfl⟩ := Planner.run_pure_ok.mp hsteps
        cases hpair
        exact ⟨entity, s, s'', Catalog.entity_ok.mp hentity, hjoins, hfilter, hassignments, rfl⟩

/-- The query over clauses alone is planned as the clauses are. -/
theorem Body.plan_clauses {entity : Entity} (he : c.entity? b.entity = some entity)
    {ys : List (Statement Predicate)} {g : Frame} {s : Scopes}
    (hys : (planStatements c b.entity b.statements).run ⟨[.new b.scope b.entity], []⟩ =
      .ok (ys, ⟨g :: s.frames, s.parameters⟩)) :
    ∃ planned, b.clauses.plan c = .ok planned ∧
      planned.plan = { Plan.all b.entity with
        joins := g.joins
        filter := Statement.combine .and .or ys
        parameters := s.parameters } := by
  -- The scope of the clauses alone has no items and no keys of ordering.
  let q : Plan := { Plan.all b.entity with filter := Statement.combine .and .or ys }
  have hscope : (b.clauses.planScope c none).run ⟨[], []⟩ =
      .ok (⟨{ q with joins := g.joins }, [.record b.entity], [.unknown]⟩, s) := by
    rw [clauses, empty, planScope]
    simp only [Planner.run_bind_ok, Planner.run_lift_ok, Planner.run_pure_ok, Catalog.entity_ok]
    refine ⟨entity, _, ⟨he, rfl⟩, (⟨q, [.record b.entity], [.unknown]⟩, g), s,
      Planner.run_inScope_ok.mpr ?_, rfl, rfl⟩
    simp only [Planner.run_bind_ok, Planner.run_pure_ok]
    exact ⟨(), _, rfl, ys, _, hys, ([], []), _, rfl, _, _, rfl, [], _, rfl, rfl, rfl⟩
  unfold plan
  rw [hscope]
  exact ⟨_, rfl, rfl⟩

/-- A change has the filter of the query that counts its clauses. -/
theorem Body.planChange_clauses {parts : ChangeParts} (h : b.planChange c = .ok parts) :
    ∃ planned, b.clauses.plan c = .ok planned ∧
      planned.plan = { Plan.all b.entity with
        filter := parts.filter
        parameters := planned.plan.parameters } ∧
      planned.plan.parameters <+: parts.parameters ∧
      List.Forall₂ SetTerm.AssignedAs b.assignments parts.assignments := by
  obtain ⟨entity, s, s', he, -, hfilter, hassignments, hparameters⟩ := planChange_ok h
  obtain ⟨ys, g, hys, hjoins, hcombine⟩ := Planner.run_changeFilter_ok.mp hfilter
  obtain ⟨planned, hplanned, hplan⟩ := plan_clauses he hys
  obtain ⟨hall, hprefix⟩ := Planner.run_assignments_ok hassignments
  refine ⟨planned, hplanned, ?_, ?_, hall⟩
  · rw [hplan, hjoins, hcombine]
    rfl
  · rw [hplan, hparameters]
    exact hprefix

end Planned

end EntityQuery
