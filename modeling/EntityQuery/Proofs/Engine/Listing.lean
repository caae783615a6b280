import EntityQuery.Engine.Pages
import EntityQuery.Proofs.Evaluation.Distinct
import EntityQuery.Proofs.Evaluation.KeyOrder
import EntityQuery.Proofs.Planning.Planned
import EntityQuery.Proofs.Store

/-!
# Listings

A plan without a window lists all rows. A window cuts its part out of them, and the plan that counts
has as many rows, although it does not order them and projects them to whole records where it can.
-/

namespace EntityQuery

/-! ## Windows -/

section Windows

variable {s : Source} {outer : List Tuple}

/-- The window comes last. -/
theorem Plan.rows_window (s : Source) (outer : List Tuple) {q : Plan} (hwindow : q.window = none)
    (w : Window) :
    Plan.rows s outer { q with window := some w } = (q.rows s outer).map w.apply := by
  rw [rows_eq, rows_eq s outer q, hwindow]
  cases hbound : s.tables.bind q.entity q.joins with
  | error e => rfl
  | ok bound =>
    simp only [bind, Except.bind]
    cases htuples : filterTuples s outer bound q.filter with
    | error e => rfl
    | ok tuples =>
      simp only
      -- Over one row of aggregates and over the rows of tuples alike the window comes last.
      split
      · cases hrow : q.projection.aggregateRow tuples outer with
        | error e => rfl
        | ok row => rfl
      · cases hsorted : sortTuples s.sorter q.orderBy tuples outer with
        | error e => rfl
        | ok sorted =>
          simp only
          cases hprojected : sorted.mapM fun tuple => q.projection.row s tuple outer with
          | error e => rfl
          | ok projected => rfl

theorem Tables.fetch_window {t : Tables} {q : Plan} (hwindow : q.window = none) (w : Window) :
    t.fetch { q with window := some w } = (t.fetch q).map w.apply :=
  Plan.rows_window ⟨t, q.parameters, .insertion⟩ [] hwindow w

/-- What a window shows has been cut from all rows. -/
theorem Tables.fetch_window_ok {t : Tables} {q : Plan} {w : Window} {cut : List Row}
    (hwindow : q.window = none) (h : t.fetch { q with window := some w } = .ok cut) :
    ∃ rows, t.fetch q = .ok rows ∧ cut = w.apply rows := by
  rw [Tables.fetch_window hwindow] at h
  cases hrows : t.fetch q with
  | error e =>
    rw [hrows] at h
    cases h
  | ok rows =>
    rw [hrows] at h
    exact ⟨rows, rfl, (Except.ok.inj h).symm⟩

/-- An aggregating plan without a window has one row. -/
theorem Plan.length_rows_aggregate {q : Plan} (hagg : q.projection.isAggregate = true)
    (hwindow : q.window = none) {rows : List Row} (h : q.rows s outer = .ok rows) :
    rows.length = 1 := by
  rw [rows_eq] at h
  simp only [hagg, if_true, bind_eq_ok, Except.ok.injEq, hwindow] at h
  obtain ⟨_, -, _, -, row, -, rfl⟩ := h
  rfl

end Windows

/-! ## Counting -/

/-- Tuples give the same rows in whatever order. -/
theorem projected_perm {s : Source} {outer sorted sorted' : List Tuple} {p : Projection}
    (hperm : sorted'.Perm sorted) {projected : List Row}
    (h : sorted.mapM (fun tuple => p.row s tuple outer) = .ok projected) :
    ∃ projected', sorted'.mapM (fun tuple => p.row s tuple outer) = .ok projected' ∧
      projected'.Perm projected := by
  obtain ⟨projected', hrows, hperm'⟩ := List.perm_comp_forall₂ hperm (mapM_eq_ok.mp h)
  exact ⟨projected', mapM_eq_ok.mpr hrows, hperm'⟩

/-- The plan that counts has as many rows as the plan itself. -/
theorem Tables.count_counting {t : Tables} {q : Plan} (hagg : q.projection.isAggregate = false)
    (hwindow : q.window = none) {rows : List Row} (h : t.fetch q = .ok rows) :
    t.count (Engine.counting q) = .ok rows.length := by
  obtain ⟨bound, tuples, sorted, projected, hbound, htuples, hsorted, hprojected, hrows⟩ :=
    (Plan.rows_ok hagg).mp h
  have hsorted' := sortTuples_nil .insertion tuples []
  have hperm : tuples.Perm sorted := (sortTuples_perm hsorted).symm
  have hcount : ∀ counted, t.fetch (Engine.counting q) = .ok counted →
      t.count (Engine.counting q) = .ok counted.length := by
    intro counted hcounted
    rw [Tables.count, hcounted]
    rfl
  cases hdistinct : q.distinct with
  | true =>
    -- Distinct rows are counted as they are projected, in the order of the tables.
    obtain ⟨projected', hprojected', hrowsperm⟩ := projected_perm hperm hprojected
    have hcounted : t.fetch (Engine.counting q) = .ok (distinctRows [] projected') := by
      refine (Plan.rows_ok ?_).mpr ⟨bound, tuples, tuples, projected', hbound, htuples, hsorted',
        ?_, ?_⟩
      · simp only [Engine.counting, hdistinct, if_true, hagg]
      · simp only [Engine.counting, hdistinct, if_true]
        exact hprojected'
      · simp only [Engine.counting, hdistinct, if_true, windowed]
    rw [hcount _ hcounted, length_distinctRows_perm hrowsperm, hrows, hwindow, hdistinct]
    rfl
  | false =>
    have hcounted : t.fetch (Engine.counting q) =
        .ok (tuples.map fun tuple => ⟨[.record tuple.head?.join]⟩) := by
      refine (Plan.rows_ok ?_).mpr ⟨bound, tuples, tuples,
        tuples.map fun tuple => ⟨[.record tuple.head?.join]⟩, hbound, htuples, hsorted', ?_, ?_⟩
      · simp only [Engine.counting, hdistinct]
        rfl
      · simp only [Engine.counting, hdistinct]
        exact Projection.mapM_root_row _ _ _
      · simp only [Engine.counting, hdistinct, windowed]
        rfl
    -- Each tuple gives one row, whatever it is projected to.
    have hlength : rows.length = sorted.length := by
      rw [hrows, hwindow, hdistinct]
      exact (mapM_eq_ok.mp hprojected).length_eq.symm
    rw [hcount _ hcounted, List.length_map, hperm.length_eq, hlength]

/-! ## Plans of listings -/

/-- A plan gives a listing: it has no window, and its rows are read as the listing. -/
structure Plan.Lists (q : Plan) (tables : Tables) (t : RowType) (xs : List t.Carrier) : Prop where
  window : q.window = none
  read : ∃ rows, tables.fetch q = .ok rows ∧ Engine.readRows t rows = .ok xs

section Listings

variable {q : Plan} {tables : Tables} {t : RowType} {xs : List t.Carrier}

theorem Engine.readRows_window {rows : List Row} (h : readRows t rows = .ok xs) (w : Window) :
    readRows t (w.apply rows) = .ok ((xs.drop w.offset).take w.limit) := by
  unfold readRows at h ⊢
  rw [mapM_eq_ok] at h ⊢
  exact List.forall₂_take w.limit (List.forall₂_drop w.offset h)

namespace Plan.Lists

/-- A window shows its part of the listing. -/
theorem fetch_window (h : q.Lists tables t xs) (w : Window) :
    ∃ rows, tables.fetch { q with window := some w } = .ok rows ∧
      Engine.readRows t rows = .ok ((xs.drop w.offset).take w.limit) := by
  obtain ⟨rows, hrows, hread⟩ := h.read
  refine ⟨w.apply rows, ?_, Engine.readRows_window hread w⟩
  rw [Tables.fetch_window h.window, hrows]
  rfl

/-- A page is a part of the listing. -/
theorem run_fetchPage (h : q.Lists tables t xs) {request : PageRequest}
    (hoffset : request.index * request.size ≤ maxWord) :
    (fetchPage Store.memory t q request).run.run tables =
      (.ok ((xs.drop (request.index * request.size)).take request.size), tables) := by
  let w : Window := ⟨request.size, request.index * request.size⟩
  have hwindow : request.window = .ok w := by
    simp only [PageRequest.window, PageRequest.offset, if_pos hoffset]
    rfl
  obtain ⟨rows, hfetch, hread⟩ := h.fetch_window w
  refine Store.run_bind_ok.mpr ⟨w, tables, Store.run_check_ok.mpr ⟨hwindow, rfl⟩, ?_⟩
  refine Store.run_bind_ok.mpr ⟨rows, tables, Store.run_fetch_ok.mpr ⟨hfetch, rfl⟩, ?_⟩
  exact Store.run_check_ok.mpr ⟨hread, rfl⟩

/-- The total is the length of the listing. -/
theorem run_total (h : q.Lists tables t xs) :
    (Engine.total Store.memory q).run.run tables = (.ok xs.length, tables) := by
  obtain ⟨rows, hrows, hread⟩ := h.read
  have hlength : rows.length = xs.length := (mapM_eq_ok.mp hread).length_eq
  unfold Engine.total
  split
  · next hagg =>
    -- The one row of an aggregate is not counted in the store.
    have hone := length_rows_aggregate hagg h.window hrows
    exact Store.run_pure_ok.mpr ⟨hone.symm.trans hlength, rfl⟩
  · next hagg =>
    rw [Store.run_count_ok, ← hlength]
    exact ⟨Tables.count_counting (Bool.not_eq_true _ ▸ hagg) h.window hrows, rfl⟩

end Plan.Lists

/-- No body asks for a window. -/
theorem Body.plan_window {c : Catalog} {b : Body} {planned : PlannedQuery}
    (h : b.plan c = .ok planned) : planned.plan.window = none := by
  obtain ⟨q, selected, hq, hplanned, -⟩ := Body.plan_plannedAs h
  rw [hq]
  cases hplanned
  rfl

namespace Engine

variable {e : Engine} {b : Body}

/-- The engine whose listings may have any number of rows. -/
def unbounded (e : Engine) : Engine where
  catalog := e.catalog
  settings := { e.settings with maxResults := none }
  usable := e.usable

/-- A body is prepared as it is planned. -/
theorem prepare_ok (h : e.prepare t b = .ok q) :
    ∃ planned, b.plan e.catalog = .ok planned ∧ t.shape.check planned.shapes = .ok () ∧
      q = planned.plan := by
  obtain ⟨planned, hplanned, h⟩ := bind_eq_ok.mp h
  obtain ⟨_, hcheck, h⟩ := bind_eq_ok.mp h
  exact ⟨planned, hplanned, hcheck, (Except.ok.inj h).symm⟩

/-- Orderings in front are all that sorting adds to a plan. -/
theorem sorted_ok {entity : String} {sort : List RootOrder} {plan : Plan}
    (h : e.sorted entity sort q = .ok plan) :
    plan = { q with orderBy := sort.map RootOrder.toSortKey ++ q.orderBy } := by
  obtain ⟨_, -, h⟩ := bind_eq_ok.mp h
  exact (Except.ok.inj h).symm

theorem sorted_nil {entity : String} : e.sorted entity [] q = .ok q := by
  cases q
  rfl

theorem prepare_window (h : e.prepare t b = .ok q) : q.window = none := by
  obtain ⟨planned, hplanned, -, rfl⟩ := prepare_ok h
  exact Body.plan_window hplanned

theorem sorted_window {entity : String} {sort : List RootOrder} {plan : Plan}
    (h : e.sorted entity sort q = .ok plan) : plan.window = q.window := by
  rw [sorted_ok h]

/-- What is listed without a bound is what the sorted plan gives. -/
theorem run_allSorted_unbounded_ok {sort : List RootOrder} {tables' : Tables}
    (h : (e.unbounded.allSorted Store.memory t sort b).run.run tables = (.ok xs, tables')) :
    ∃ q plan, e.prepare t b = .ok q ∧ e.sorted b.entity sort q = .ok plan ∧
      plan.Lists tables t xs := by
  simp only [allSorted, Store.run_bind_ok, Store.run_check_ok, Store.run_fetch_ok] at h
  obtain ⟨q, _, ⟨hq, rfl⟩, plan, _, ⟨hplan, rfl⟩, rows, _, ⟨hrows, rfl⟩, _, _, ⟨-, rfl⟩, hread, -⟩ :=
    h
  have hwindow : plan.window = none := (sorted_window hplan).trans (prepare_window hq)
  exact ⟨q, plan, hq, hplan, hwindow, rows, hrows, hread⟩

end Engine

end Listings

end EntityQuery
