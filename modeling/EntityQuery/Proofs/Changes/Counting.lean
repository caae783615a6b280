import EntityQuery.Proofs.Changes.Applying
import EntityQuery.Proofs.Evaluation.KeyOrder
import EntityQuery.Proofs.Meaning.Agreement
import EntityQuery.Proofs.Planning.Changes

/-!
# Changes concern what queries count

The filter of a change is evaluated on records one by one, that of a query on tuples; and a change may
have bound more parameters than the query over the same clauses. Neither makes a difference.
-/

namespace EntityQuery

/-! ## The records that pass a filter -/

section Filter

variable {c : Change} {t : Tables} {records : List Record}

/-- The tuples of single records that pass the filter of a change. -/
theorem Change.filterTuples_eq
    (h : ∀ r ∈ records, ∃ selected, c.selects ⟨t, c.parameters, .insertion⟩ r = .ok selected) :
    filterTuples ⟨t, c.parameters, .insertion⟩ [] (records.map fun r => [some r]) c.filter =
      .ok ((records.filter (c.concerns t)).map fun r => [some r]) := by
  cases hfilter : c.filter with
  | none =>
    have hall : records.filter (c.concerns t) = records :=
      List.filter_eq_self.mpr fun r _ => by simp [concerns, hfilter]
    rw [filterTuples, hall]
  | some p =>
    rw [filterTuples]
    induction records with
    | nil => rfl
    | cons r records ih =>
      -- For each record the filter is evaluated as the change evaluates it.
      have hrest := ih fun r' hr' => h r' (List.mem_cons_of_mem _ hr')
      obtain ⟨selected, hselected⟩ := h r List.mem_cons_self
      have hconcerns := selects_ok hselected
      rw [selects, hfilter] at hselected
      obtain ⟨truth, htruth, hselected⟩ := bind_eq_ok.mp hselected
      have hselected : decide (truth = some true) = selected := Except.ok.inj hselected
      rw [List.map_cons, flatMapE, htruth, hrest, List.filter_cons, hconcerns, ← hselected]
      by_cases htrue : truth = some true
      · simp [htrue, bind, Except.bind]
      · simp [htrue, bind, Except.bind]

/-- The query with the filter of a change counts the records that it concerns. -/
theorem Change.count_eq (htable : t.table? c.entity = some records)
    (h : ∀ r ∈ records, ∃ selected, c.selects ⟨t, c.parameters, .insertion⟩ r = .ok selected) :
    t.count { Plan.all c.entity with filter := c.filter, parameters := c.parameters } =
      .ok (records.filter (c.concerns t)).length := by
  have hsorted := sortTuples_nil .insertion ((records.filter (c.concerns t)).map fun r => [some r]) []
  have hrows := Projection.mapM_root_row ⟨t, c.parameters, .insertion⟩ []
    ((records.filter (c.concerns t)).map fun r => [some r])
  have hbind : t.bind c.entity [] = .ok (records.map fun r => [some r]) := by
    rw [Tables.bind, Tables.table_ok.mpr htable]
    rfl
  rw [Tables.count, Tables.fetch, Tables.fetchBy, Plan.rows_eq]
  simp only [Plan.all, hbind, filterTuples_eq h, hsorted, hrows, bind, Except.bind,
    Projection.isAggregate, windowed, Bool.false_eq_true, if_false, List.length_map]

end Filter

/-! ## Parameters bound later -/

section Parameters

variable {c : Catalog} {b : Body} {planned : PlannedQuery} {more : List (String × Value)}

/-- The filter of a query without joins does not see parameters that are bound behind its own. -/
theorem Body.filter_truth_eq (h : b.clauses.plan c = .ok planned) (hjoins : planned.plan.joins = [])
    (hmore : planned.plan.parameters <+: more) {p : Predicate} (hp : planned.plan.filter = some p)
    (t : Tables) (r : Record) :
    p.truth ⟨t, more, .insertion⟩ [some r] [] = p.truth ⟨t, planned.plan.parameters, .insertion⟩ [some r] [] := by
  obtain ⟨q, selected, hq, hplanned, -⟩ := plan_plannedAs h
  cases hplanned with
  | @intro _ _ _ e g ys _ orderBy he hg hys _ _ _ =>
    have hbuilt := frame?_built hg
    have hnames := layout_names hg
    rw [hq] at hjoins hp
    have hjoins : g.joins = [] := hjoins
    have hp : Statement.combine .and .or ys = some p := hp
    -- The body binds nothing but its root, so a record alone is a tuple of it.
    have hbindings : (b.clauses.layout c (itemsRecords [])).bindings = [] := by
      have hlength := hnames.length
      rw [hjoins] at hlength
      exact List.length_eq_zero_iff.mp hlength
    have halign : Aligned c [g] [(g.scope, ⟨b.clauses.layout c (itemsRecords []),
        [(.root, some r)]⟩)] [[some r]] := by
      refine .cons (hbuilt.sound he) ⟨hnames, ?_, rfl⟩ .nil
      rw [Layout.places, hbindings]
      rfl
    have hs : Source.Extends ⟨t, more, .insertion⟩ ⟨t, planned.plan.parameters, .insertion⟩ := by
      refine ⟨rfl, fun name v hv => ?_, rfl⟩
      obtain ⟨rest, hrest⟩ := hmore
      show more.lookup name = some v
      rw [← hrest, List.lookup_append, hv]
      rfl
    have hsame : Source.Extends ⟨t, planned.plan.parameters, .insertion⟩ ⟨t, planned.plan.parameters, .insertion⟩ :=
      ⟨rfl, fun _ _ h => h, rfl⟩
    -- Under either parameters the filter is what the clauses mean, and that is the same.
    have hcombine := StatementsAgree.combine (statements_agree hs b.clauses) hys
    have hcombine' := StatementsAgree.combine (statements_agree hsame b.clauses) hys
    rw [hp] at hcombine hcombine'
    revert hcombine hcombine'
    generalize Statement.combine Condition.and Condition.or _ = condition
    intro hcombine hcombine'
    cases hcombine with
    | some htruth =>
      cases hcombine' with
      | some htruth' => rw [htruth _ _ _ halign, htruth' _ _ _ halign]

end Parameters

end EntityQuery
