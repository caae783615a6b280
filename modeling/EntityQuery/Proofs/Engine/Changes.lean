import EntityQuery.Engine
import EntityQuery.Proofs.Changes.Counting
import EntityQuery.Proofs.Changes.Recording
import EntityQuery.Proofs.Sample

/-!
# Updates and deletes

An update or delete that succeeds has concerned the records that a query over its clauses counts just
before, and an updated record holds what was assigned last.
-/

namespace EntityQuery

/-! ## Runs on the store in memory -/

namespace Engine

variable {e : Engine} {b : Body} {t t' : Tables} {n : Nat}

theorem run_count_ok :
    (e.count Store.memory b).run.run t = (.ok n, t') ↔
      ∃ planned, b.plan e.catalog = .ok planned ∧ t.count (counting planned.plan) = .ok n ∧
        t = t' := by
  simp only [count, Store.run_bind_ok, Store.run_check_ok, Store.run_count_ok]
  constructor
  · rintro ⟨planned, _, ⟨hplanned, rfl⟩, hcount, htables⟩
    exact ⟨planned, hplanned, hcount, htables⟩
  · rintro ⟨planned, hplanned, hcount, htables⟩
    exact ⟨planned, t, ⟨hplanned, rfl⟩, hcount, htables⟩

theorem run_delete_ok (h : (e.delete Store.memory b).run.run t = (.ok n, t')) :
    ∃ parts, b.planChange e.catalog = .ok parts ∧
      t.apply (.delete b.entity parts.filter parts.parameters) = .ok (n, t') := by
  simp only [delete, Store.run_bind_ok, Store.run_check_ok, Store.run_execute_ok] at h
  obtain ⟨parts, _, ⟨hparts, rfl⟩, happly⟩ := h
  exact ⟨parts, hparts, happly⟩

/-- Without assignments nothing is asked of the store. -/
theorem run_update_ok (h : (e.update Store.memory b).run.run t = (.ok n, t')) :
    ∃ parts, b.planChange e.catalog = .ok parts ∧
      (parts.assignments = [] ∨
        t.apply (.update b.entity parts.assignments parts.filter parts.parameters) = .ok (n, t')) := by
  simp only [update, Store.run_bind_ok, Store.run_check_ok] at h
  obtain ⟨parts, _, ⟨hparts, rfl⟩, h⟩ := h
  refine ⟨parts, hparts, ?_⟩
  by_cases hnone : parts.assignments = []
  · exact .inl hnone
  · rw [if_neg fun h => hnone (List.isEmpty_iff.mp h)] at h
    exact .inr (Store.run_execute_ok.mp h)

/-- A change that is performed has concerned what the query over the clauses counts. -/
theorem count_of_apply {parts : ChangeParts} (hparts : b.planChange e.catalog = .ok parts)
    {c : Change} (hentity : c.entity = b.entity) (hfilter : c.filter = parts.filter)
    (hparameters : c.parameters = parts.parameters) (h : t.apply c = .ok (n, t')) :
    (e.count Store.memory b.clauses).run.run t = (.ok n, t) := by
  obtain ⟨planned, hplanned, hplan, hprefix, -⟩ := Body.planChange_clauses hparts
  obtain ⟨records, positions, htable, hpositions, rfl, -⟩ := Change.apply_ok h
  let c₀ : Change := .delete b.entity parts.filter planned.plan.parameters
  have hcounting : counting planned.plan = planned.plan := by
    rw [hplan]
    rfl
  -- The change and the query agree on every record.
  have hselects : ∀ r, c₀.selects ⟨t, c₀.parameters, .insertion⟩ r = c.selects ⟨t, c.parameters, .insertion⟩ r := by
    intro r
    refine Change.selects_congr hfilter.symm fun p hp => ?_
    have hjoins : planned.plan.joins = [] := by rw [hplan]; rfl
    have hplanfilter : planned.plan.filter = some p := by rw [hplan]; exact hp
    rw [hparameters]
    simp only [Predicate.matches, Body.filter_truth_eq hplanned hjoins hprefix hplanfilter t r]
    rfl
  have hall := Change.positions_selects hpositions
  have hconcerns : records.filter (c₀.concerns t) = records.filter (c.concerns t) := by
    refine List.filter_congr fun r hr => ?_
    obtain ⟨selected, hselected⟩ := hall r hr
    rw [Change.selects_ok hselected]
    exact Change.selects_ok ((hselects r).trans hselected)
  have htable₀ : t.table? c₀.entity = some records := by
    rw [← htable, hentity]
    rfl
  have hcount := Change.count_eq htable₀ fun r hr => by
    obtain ⟨selected, hselected⟩ := hall r hr
    exact ⟨selected, (hselects r).trans hselected⟩
  refine run_count_ok.mpr ⟨planned, hplanned, ?_, rfl⟩
  rw [hcounting, hplan, Change.length_positions hpositions, ← hconcerns]
  exact hcount

end Engine

/-! ## Recorded steps -/

namespace ChangeStep

variable {steps : List ChangeStep}

/-- A record after steps: each field that they assign holds its last value, every other one what it
held before. -/
def Leaves (steps : List ChangeStep) (r r' : Record) : Prop :=
  ∀ field,
    match last? field steps with
    | some e => ∃ v, e.assigned? = some v ∧ r'.get? field = some v
    | none => r'.get? field = r.get? field

theorem leaves_assign {assignments : List Assignment}
    (h : List.Forall₂ SetTerm.AssignedAs (terms [] steps) assignments) (r : Record) :
    Leaves steps r (r.assign assignments) := by
  have hfields : assignments.map Assignment.field = (terms [] steps).map SetTerm.field := by
    rw [← List.forall₂_eq_eq_eq, List.forall₂_map_left_iff, List.forall₂_map_right_iff]
    exact h.flip.imp fun _ _ ht => ht.1
  have hnodup : (assignments.map Assignment.field).Nodup := by
    rw [hfields]
    have hnil : (([] : List SetTerm).map SetTerm.field).Nodup := List.nodup_nil
    exact nodup_terms hnil steps
  intro field
  have hassigned : Body.assigned? field (terms [] steps) = last? field steps := by
    rw [assigned?_terms]
    exact Option.or_none
  rw [← hassigned]
  unfold Body.assigned?
  cases hfind : (terms [] steps).find? (·.field == field) with
  | some t =>
    obtain ⟨i, hi⟩ := List.mem_iff_getElem?.mp (List.mem_of_find?_eq_some hfind)
    obtain ⟨a, ha, hfield, hvalue⟩ := forall₂_getElem? h hi
    have ht : t.field = field := by
      have := List.find?_some hfind
      simpa using this
    -- No field is assigned twice, so nothing overwrites the value.
    refine ⟨a.value, hvalue, ?_⟩
    rw [← ht, ← hfield]
    exact Record.get?_assign_of_mem hnodup (List.mem_of_getElem? ha)
  | none =>
    refine Record.get?_assign_of_ne fun a ha hfield => ?_
    have hmem : field ∈ (terms [] steps).map SetTerm.field := by
      rw [← hfields, ← hfield]
      exact List.mem_map_of_mem ha
    obtain ⟨t, ht, hfield⟩ := List.mem_map.mp hmem
    have := List.find?_eq_none.mp hfind t ht
    simp [hfield] at this

theorem terms_ne_nil (h : steps.any isAssign = true) : terms [] steps ≠ [] := by
  obtain ⟨step, hmem, hstep⟩ := List.any_eq_true.mp h
  cases step with
  | clause | or => cases hstep
  | assign field e =>
    intro hnil
    have hlast := last?_isSome hmem
    have hassigned := assigned?_terms field [] steps
    rw [hnil] at hassigned
    rw [Body.assigned?, List.find?_nil] at hassigned
    simp only [Option.map_none, Option.or_none] at hassigned
    rw [← hassigned] at hlast
    cases hlast

/-- Without its assignments a recorded change is the query over its clauses. -/
theorem body_filter (entity : String) (steps : List ChangeStep) :
    body entity (steps.filter fun x => !x.isAssign) = (body entity steps).clauses := by
  rw [body_eq, body_eq, filterMap_filter, terms_filter]
  rfl

end ChangeStep

/-! ## Changes and counts -/

/-- Changes are performed as a whole or not at all: the store fails and stays as it is, or it changes
the records on which the filter was true and nothing else. For recorded steps it is the number of
those that a query over the clauses gives just before, and an updated record holds the values
assigned last. -/
theorem Engine.changes_correct :
    (∀ (c : Change) (t : Tables),
      (∃ err, (Store.memory.execute c).run t = (.error err, t)) ∨
        ∃ n t', (Store.memory.execute c).run t = (.ok n, t') ∧ c.Performed t n t') ∧
    ∀ (e : Engine) (entity : String) (steps : List ChangeStep) (t t' : Tables) (n : Nat),
      (steps.any ChangeStep.isAssign = true →
        (e.update Store.memory (ChangeStep.body entity steps)).run.run t = (.ok n, t') →
          (e.count Store.memory
            (ChangeStep.body entity (steps.filter fun x => !x.isAssign))).run.run t = (.ok n, t) ∧
          ∃ parts, (ChangeStep.body entity steps).planChange e.catalog = .ok parts ∧
            (Change.update entity parts.assignments parts.filter parts.parameters).Performed t n t' ∧
            ∀ r, ChangeStep.Leaves steps r (r.assign parts.assignments)) ∧
      ((e.delete Store.memory (ChangeStep.body entity steps)).run.run t = (.ok n, t') →
        (e.count Store.memory
          (ChangeStep.body entity (steps.filter fun x => !x.isAssign))).run.run t = (.ok n, t) ∧
        ∃ parts, (ChangeStep.body entity steps).planChange e.catalog = .ok parts ∧
          (Change.delete entity parts.filter parts.parameters).Performed t n t') := by
  refine ⟨fun c t => ?_, fun e entity steps t t' n => ⟨fun hassign h => ?_, fun h => ?_⟩⟩
  · exact Store.memory_execute c t
  · obtain ⟨parts, hparts, happly⟩ := run_update_ok h
    -- What is planned are the recorded steps, the assignments apart from the clauses.
    obtain ⟨-, -, -, -, hall⟩ := Body.planChange_clauses hparts
    rw [ChangeStep.body_assignments] at hall
    rcases happly with hnone | happly
    · -- An update that has recorded an assignment does ask the store.
      rw [hnone] at hall
      exact absurd (List.forall₂_nil_right_iff.mp hall) (ChangeStep.terms_ne_nil hassign)
    · refine ⟨?_, parts, hparts, ?_, ChangeStep.leaves_assign hall⟩
      · rw [ChangeStep.body_filter]
        exact count_of_apply hparts rfl rfl rfl happly
      · rw [← ChangeStep.body_entity entity steps]
        exact Change.apply_performed happly
  · obtain ⟨parts, hparts, happly⟩ := run_delete_ok h
    refine ⟨?_, parts, hparts, ?_⟩
    · rw [ChangeStep.body_filter]
      exact count_of_apply hparts rfl rfl rfl happly
    · rw [← ChangeStep.body_entity entity steps]
      exact Change.apply_performed happly

theorem Sample.relogin_succeeds : ∃ t, ((Engine.ofCatalog catalog).update Store.memory
    (ChangeStep.body "User" relogin)).run.run tables = (.ok 2, t) := by
  have h : (((Engine.ofCatalog catalog).update Store.memory
      (ChangeStep.body "User" relogin)).run.run tables).1.toOption = some 2 := by
    decide +kernel
  generalize ((Engine.ofCatalog catalog).update Store.memory
    (ChangeStep.body "User" relogin)).run.run tables = r at *
  obtain ⟨answer, t⟩ := r
  cases answer with
  | error e => cases h
  | ok n =>
    obtain rfl : n = 2 := Option.some.inj h
    exact ⟨t, rfl⟩

theorem Engine.changes_correct_sample :
    ∃ t', ((Engine.ofCatalog Sample.catalog).update Store.memory
        (ChangeStep.body "User" Sample.relogin)).run.run Sample.tables = (.ok 2, t') ∧
      ((Engine.ofCatalog Sample.catalog).count Store.memory
        (ChangeStep.body "User" (Sample.relogin.filter fun x => !x.isAssign))).run.run
          Sample.tables = (.ok 2, Sample.tables) ∧
      ∃ parts, (ChangeStep.body "User" Sample.relogin).planChange Sample.catalog = .ok parts ∧
        (Change.update "User" parts.assignments parts.filter parts.parameters).Performed
          Sample.tables 2 t' ∧
        ∀ r, ChangeStep.Leaves Sample.relogin r (r.assign parts.assignments) := by
  obtain ⟨t', h⟩ := Sample.relogin_succeeds
  exact ⟨t', h, (Engine.changes_correct.2 _ _ _ _ _ _).1 (by decide) h⟩

end EntityQuery
