import EntityQuery.Proofs.Engine.Pages
import EntityQuery.Proofs.Evaluation.Orderable
import EntityQuery.Proofs.Evaluation.Ordered

/-!
# Listings in order

The keys of a listing are those of the caller and then those of the body. A listing that neither
aggregates nor drops rows is arranged by them, whether it is read at once or page by page.
-/

namespace EntityQuery

section Keys

variable {c : Catalog} {b : Body} {planned : PlannedQuery}

/-- A planned body has a key for each of its orderings, in their order. -/
theorem Body.plan_orderBy (h : b.plan c = .ok planned) :
    ∃ frames, List.Forall₂ (OrderTerm.PlannedAs c frames) b.orderBy planned.plan.orderBy := by
  obtain ⟨q, selected, hq, hplanned, -⟩ := Body.plan_plannedAs h
  rw [hq]
  cases hplanned with
  | @intro _ _ _ e g ys _ orderBy he hg hys hxs hmix hkeys => exact ⟨[g], hkeys⟩

end Keys

/-- A plan with orderings of the caller before its own. -/
def Plan.sortedBy (q : Plan) (sort : List RootOrder) : Plan :=
  { q with orderBy := sort.map RootOrder.toSortKey ++ q.orderBy }

namespace Engine

variable {e : Engine} {b : Body} {t : RowType} {q plan : Plan} {tables tables' : Tables}
  {xs : List t.Carrier} {sort : List RootOrder} {request : PageRequest} {p : Page t}

theorem prepare_sorted_ok (hq : e.prepare t b = .ok q) (hplan : e.sorted b.entity sort q = .ok plan) :
    ∃ planned, b.plan e.catalog = .ok planned ∧ plan = planned.plan.sortedBy sort ∧
      plan.window = none := by
  obtain ⟨planned, hplanned, -, rfl⟩ := prepare_ok hq
  exact ⟨planned, hplanned, sorted_ok hplan, (sorted_window hplan).trans (prepare_window hq)⟩

theorem length_le_of_checkCount {rows : List Row} {limit : Nat}
    (hlimit : e.settings.maxResults = some limit) (h : e.checkCount rows = .ok ()) :
    rows.length ≤ limit := by
  unfold checkCount at h
  rw [hlimit] at h
  simp only at h
  split at h
  · cases h
  · omega

/-- What is listed has been read from the rows of the sorted plan, and from all of them unless the
settings allow the largest number there is. -/
theorem run_allSorted_ok
    (h : (e.allSorted Store.memory t sort b).run.run tables = (.ok xs, tables')) :
    ∃ planned rows n, b.plan e.catalog = .ok planned ∧
      tables.fetch (planned.plan.sortedBy sort) = .ok rows ∧
      readRows t (rows.take n) = .ok xs ∧
      ((∀ limit, e.settings.maxResults = some limit → limit < maxWord) → rows.length ≤ n) := by
  simp only [allSorted, Store.run_bind_ok, Store.run_check_ok, Store.run_fetch_ok] at h
  obtain ⟨q, _, ⟨hq, rfl⟩, plan, _, ⟨hplan, rfl⟩, cut, _, ⟨hcut, rfl⟩, _, _, ⟨hcount, rfl⟩, hread,
    -⟩ := h
  -- What is fetched belongs to the sorted plan of the body, with or without a bound.
  obtain ⟨planned, hplanned, rfl, hwindow⟩ := prepare_sorted_ok hq hplan
  unfold bounded at hcut
  cases hlimit : e.settings.maxResults with
  | none =>
    rw [hlimit] at hcut
    refine ⟨planned, cut, cut.length, hplanned, hcut, ?_, fun _ => Nat.le_refl _⟩
    rw [List.take_length]
    exact hread
  | some limit =>
    rw [hlimit] at hcut
    obtain ⟨rows, hrows, rfl⟩ := Tables.fetch_window_ok hwindow hcut
    refine ⟨planned, rows, min (limit + 1) maxWord, hplanned, hrows, hread, fun hbound => ?_⟩
    -- A cut that passes the check has not reached the bound, so nothing has been cut off.
    have hlt := hbound limit rfl
    have hfew : ((rows.drop 0).take (min (limit + 1) maxWord)).length ≤ limit :=
      length_le_of_checkCount hlimit hcount
    rw [List.length_take, List.drop_zero] at hfew
    omega

/-- The rows of a plan that neither aggregates nor drops or cuts off any, and whose keys have the values
of types without floats, are the rows without its keys, arranged by them. What is listed at once or on
a page has been read from the rows of a plan whose keys are those of the caller, and then one for each
ordering of the body. -/
theorem ordered_correct :
    (∀ {tables : Tables} {q : Plan}, q.projection.isAggregate = false → q.distinct = false →
      q.window = none →
      (∀ tuples, q.matching ⟨tables, q.parameters, .insertion⟩ [] = .ok tuples →
        ∀ key ∈ q.orderBy, key.Exact [] tuples) →
      (∃ err, tables.fetch q = .error err ∧ tables.fetch { q with orderBy := [] } = .error err) ∨
      ∃ tuples sorted, q.FetchesArranged tables tuples sorted ∧
        (∀ rows, tables.fetch q = .ok rows →
          ∃ rows', tables.fetch { q with orderBy := [] } = .ok rows' ∧ rows.Perm rows') ∧
        (∀ rows', tables.fetch { q with orderBy := [] } = .ok rows' →
          ∃ rows, tables.fetch q = .ok rows ∧ rows.Perm rows')) ∧
    (∀ {e : Engine} {b : Body} {t : RowType} {sort : List RootOrder} {tables tables' : Tables}
      {xs : List t.Carrier},
      (e.allSorted Store.memory t sort b).run.run tables = (.ok xs, tables') →
      ∃ planned frames rows n, b.plan e.catalog = .ok planned ∧
        List.Forall₂ (OrderTerm.PlannedAs e.catalog frames) b.orderBy planned.plan.orderBy ∧
        tables.fetch { planned.plan with
          orderBy := sort.map RootOrder.toSortKey ++ planned.plan.orderBy } = .ok rows ∧
        readRows t (rows.take n) = .ok xs ∧
        ((∀ limit, e.settings.maxResults = some limit → limit < maxWord) → rows.length ≤ n)) ∧
    (∀ {e : Engine} {b : Body} {t : RowType} {request : PageRequest} {tables tables' : Tables}
      {p : Page t}, (e.pages Store.memory t request b).run.run tables = (.ok p, tables') →
      ∃ planned frames rows, b.plan e.catalog = .ok planned ∧
        List.Forall₂ (OrderTerm.PlannedAs e.catalog frames) b.orderBy planned.plan.orderBy ∧
        p.plan = { planned.plan with
          orderBy := request.sort.map RootOrder.toSortKey ++ planned.plan.orderBy } ∧
        tables.fetch p.plan = .ok rows ∧
        readRows t ((rows.drop (request.index * request.size)).take request.size) =
          .ok p.rows) := by
  refine ⟨?_, ?_, ?_⟩
  · intro tables q hagg hdistinct hwindow hkeys
    -- Without the keys the same tuples are bound and filtered, or the same step fails.
    cases hmatching : q.matching ⟨tables, q.parameters, .insertion⟩ [] with
    | error err => exact .inl ⟨err, Plan.fetch_matching_error hmatching⟩
    | ok tuples =>
      obtain ⟨sorted, harranged⟩ :=
        Plan.fetchesArranged hagg hdistinct hwindow hmatching (hkeys tuples hmatching)
      exact .inr ⟨tuples, sorted, harranged, harranged.perm⟩
  · intro e b t sort tables tables' xs h
    -- The plan of a body is sorted before its own orderings, which are planned one for one.
    obtain ⟨planned, rows, n, hplanned, hrows, hread⟩ := run_allSorted_ok h
    obtain ⟨frames, hkeys⟩ := Body.plan_orderBy hplanned
    exact ⟨planned, frames, rows, n, hplanned, hkeys, hrows, hread⟩
  · intro e b t request tables tables' p h
    obtain ⟨q, rows, hq, hsorted, -, hrows, hread⟩ := run_pages_parts h
    obtain ⟨planned, hplanned, hplan, -⟩ := prepare_sorted_ok hq hsorted
    obtain ⟨frames, hkeys⟩ := Body.plan_orderBy hplanned
    exact ⟨planned, frames, rows, hplanned, hkeys, hplan, hrows, hread⟩

theorem ordered_correct_sample :
    (∃ planned tuples sorted, Sample.busyInBerlin.plan Sample.catalog = .ok planned ∧
      planned.plan.orderBy ≠ [] ∧ tuples ≠ [] ∧
      planned.plan.FetchesArranged Sample.tables tuples sorted) ∧
    (∃ planned rows n, Sample.ownerLogins.plan Sample.catalog = .ok planned ∧
      Sample.tables.fetch { planned.plan with
        orderBy := ⟨⟨0, 0, "importance"⟩, .desc⟩ :: planned.plan.orderBy } = .ok rows ∧
      readRows (.single (.optional (.base .string))) (rows.take n) =
        .ok [some "aaa", some "ccc", none] ∧ rows.length ≤ n) ∧
    ∃ (p : Page (.single (.optional (.base .string)))) (planned : PlannedQuery),
      Sample.ownerLogins.plan Sample.catalog = .ok planned ∧
      p.plan = { planned.plan with
        orderBy := ⟨⟨0, 0, "importance"⟩, .desc⟩ :: planned.plan.orderBy } := by
  obtain ⟨hplans, hlistings, hpages⟩ := ordered_correct
  refine ⟨?_, ?_, ?_⟩
  · obtain ⟨planned, tuples, rows, hplanned, hrows, hagg, hdistinct, hwindow, hkeys, hmatching,
      htuples, hreads⟩ := Sample.busyInBerlin_strings
    have hall : ∀ tuples', planned.plan.matching ⟨Sample.tables, planned.plan.parameters, .insertion⟩ [] =
        .ok tuples' → ∀ key ∈ planned.plan.orderBy, key.Exact [] tuples' := by
      -- The keys are logins, which are strings or missing.
      intro tuples' hmatching'
      obtain rfl := Except.ok.inj (hmatching.symm.trans hmatching')
      intro key hkey
      refine ⟨.string, rfl, fun tuple htuple => ?_⟩
      obtain ⟨v, hv, haccepts⟩ := hreads key hkey tuple htuple
      exact ⟨v, hv, .inr haccepts⟩
    obtain ⟨err, herr, -⟩ | ⟨tuples', sorted, harranged, -, -⟩ := hplans hagg hdistinct hwindow hall
    · rw [hrows] at herr
      cases herr
    · obtain rfl := Except.ok.inj (hmatching.symm.trans harranged.matching)
      exact ⟨planned, tuples, sorted, hplanned, hkeys, htuples, harranged⟩
  · obtain ⟨planned, -, rows, n, hplanned, -, hrows, hread, hlength⟩ :=
      hlistings (Prod.ext ownerLogins_listed rfl)
    exact ⟨planned, rows, n, hplanned, hrows, hread, hlength nofun⟩
  · obtain ⟨p, tables', h⟩ := Sample.exists_run_ok (r := ((Engine.ofCatalog Sample.catalog).pages
      Store.memory (.single (.optional (.base .string))) Sample.secondLogin
        Sample.ownerLogins).run.run Sample.tables) (by decide +kernel)
    obtain ⟨planned, -, -, hplanned, -, hplan, -, -⟩ := hpages h
    exact ⟨p, planned, hplanned, hplan⟩

end Engine

end EntityQuery
