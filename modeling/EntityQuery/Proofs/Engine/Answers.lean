import EntityQuery.Proofs.Engine.Changes
import EntityQuery.Proofs.Engine.Pages

/-!
# What other queries say of a listing

A body can be listed, counted, probed for a row, or asked for its first or its only row. Each of
these sends a plan of its own to the store: the count leaves out orderings and, where it can, the
selection; the others look through a window. As long as the tables stay the same they all speak of
one listing.
An aggregating selection alone is an exception: it always lists one row, while the count is of the
rows that it aggregates.
-/

namespace EntityQuery

/-- The only element of a list. Of several elements two are seen. -/
def onlyOf : List α → Except QueryError α
  | [] => .error .noResult
  | [x] => .ok x
  | _ :: _ :: _ => .error (.notUnique 2)

variable {e : Engine} {b : Body} {t : RowType} {q : Plan} {tables tables' : Tables}

namespace Engine

/-! ## Plans of one body -/

/-- Sorted or not, a plan is counted by the same plan. -/
theorem counting_sorted {entity : String} {sort : List RootOrder} {plan : Plan}
    (h : e.sorted entity sort q = .ok plan) : counting plan = counting q := by
  rw [sorted_ok h]
  rfl

/-- An engine without a bound is the unbounded one. -/
theorem unbounded_eq (h : e.settings.maxResults = none) : e.unbounded = e := by
  obtain ⟨c, ⟨defaultPageSize, maxPageSize, maxResults, traceQueries⟩, usable⟩ := e
  obtain rfl : maxResults = none := h
  rfl

/-! ## Counts -/

section Counts

variable {xs : List t.Carrier} {sort : List RootOrder}

/-- A listing comes from the rows of one plan of the body. -/
theorem exists_lists
    (h : (e.unbounded.allSorted Store.memory t sort b).run.run tables = (.ok xs, tables')) :
    ∃ planned plan, b.plan e.catalog = .ok planned ∧
      e.sorted b.entity sort planned.plan = .ok plan ∧ plan.Lists tables t xs := by
  obtain ⟨q, plan, hq, hplan, hlists⟩ := run_allSorted_unbounded_ok h
  obtain ⟨planned, hplanned, -, rfl⟩ := prepare_ok hq
  exact ⟨planned, plan, hplanned, hplan, hlists⟩

/-- The plan that counts gives the length of a listing that does not aggregate. -/
theorem count_of_lists {plan : Plan} (hagg : plan.projection.isAggregate = false)
    (h : plan.Lists tables t xs) : tables.count (counting plan) = .ok xs.length := by
  obtain ⟨rows, hrows, hread⟩ := h.read
  have hlength : rows.length = xs.length := (mapM_eq_ok.mp hread).length_eq
  rw [Tables.count_counting hagg h.window hrows, hlength]

/-- A page has been cut from the sorted plan of the body, after its rows were counted. -/
theorem run_pages_ok {request : PageRequest} {p : Page t}
    (h : (e.pages Store.memory t request b).run.run tables = (.ok p, tables')) :
    ∃ planned plan, b.plan e.catalog = .ok planned ∧
      e.sorted b.entity request.sort planned.plan = .ok plan ∧
      (total Store.memory plan).run.run tables = (.ok p.total, tables) := by
  obtain ⟨q, rows, hq, hplan, htotal, -, -⟩ := run_pages_parts h
  obtain ⟨planned, hplanned, -, rfl⟩ := prepare_ok hq
  exact ⟨planned, p.plan, hplanned, hplan, htotal⟩

/-- However a listing is sorted, the total of pages is its length. -/
theorem total_of_lists {plan plan' : Plan} {entity : String} {sort' : List RootOrder} {n : Nat}
    (hplan : e.sorted entity sort q = .ok plan) (hplan' : e.sorted entity sort' q = .ok plan')
    (hlists : plan.Lists tables t xs)
    (h : (total Store.memory plan').run.run tables = (.ok n, tables)) : n = xs.length := by
  have hprojection : plan'.projection = plan.projection := by
    rw [sorted_ok hplan, sorted_ok hplan']
  have hcounting : counting plan' = counting plan :=
    (counting_sorted hplan').trans (counting_sorted hplan).symm
  have htotal := hlists.run_total
  unfold total at h htotal
  rw [hprojection, hcounting] at h
  rw [h] at htotal
  exact Except.ok.inj (Prod.mk.inj htotal).1

end Counts

/-- The plan that counts gives the number of rows that the plan itself has without a window,
whatever its joins, its filter and its orderings, and also if rows are distinct that are not
identical to themselves. So the count of a body is the length of its listing, and the total on each
of its pages, however they are sorted, is too. -/
theorem count_correct :
    (∀ (tables : Tables) (q : Plan) (rows : List Row), q.projection.isAggregate = false →
      tables.fetch { q with window := none } = .ok rows →
        tables.count (counting q) = .ok rows.length) ∧
    ∀ (e : Engine) (b : Body) (t : RowType) (sort : List RootOrder) (tables tables' : Tables)
      (xs : List t.Carrier),
      (e.unbounded.allSorted Store.memory t sort b).run.run tables = (.ok xs, tables') →
        ∃ planned, b.plan e.catalog = .ok planned ∧
          (planned.plan.projection.isAggregate = false →
            (e.count Store.memory b).run.run tables = (.ok xs.length, tables)) ∧
          ∀ (t' : RowType) (request : PageRequest) (p : Page t') (tables'' : Tables),
            (e.pages Store.memory t' request b).run.run tables = (.ok p, tables'') →
              p.total = xs.length := by
  refine ⟨fun tables q rows hagg h => ?_, fun e b t sort tables tables' xs h => ?_⟩
  · have hcount := Tables.count_counting (q := { q with window := none }) hagg rfl h
    exact hcount
  · obtain ⟨planned, plan, hplanned, hplan, hlists⟩ := exists_lists h
    refine ⟨planned, hplanned, fun hagg => ?_, fun t' request p tables'' hp => ?_⟩
    · -- Sorting keeps the projection, so the sorted plan can be counted where the plan can.
      have hprojection : plan.projection.isAggregate = false := by
        rw [sorted_ok hplan]
        exact hagg
      have hcount := count_of_lists hprojection hlists
      rw [counting_sorted hplan] at hcount
      exact run_count_ok.mpr ⟨planned, hplanned, hcount, rfl⟩
    · -- The page comes from the same plan, whatever it is sorted by.
      obtain ⟨planned', plan', hplanned', hplan', htotal⟩ := run_pages_ok hp
      obtain rfl : planned = planned' := Except.ok.inj (hplanned.symm.trans hplanned')
      exact total_of_lists hplan hplan' hlists htotal

end Engine

namespace Sample

/-- Items whose readings repeat, one of the repeated readings being no number. -/
def readings : Tables :=
  ⟨[("Item", rows "Item" ["opt_dbl"] [
    [.float64 (float64 0x7ff8000000000000)], [.float64 1.5],
    [.float64 (float64 0x7ff8000000000000)], [.float64 1.5]])]⟩

/-- The readings without repetition, the largest first. -/
def distinctReadings : Plan :=
  { Plan.all "Item" with
    projection := .items [.expr (.column ⟨0, 0, "opt_dbl"⟩)]
    distinct := true
    orderBy := [⟨⟨0, 0, "opt_dbl"⟩, .desc⟩] }

/-- Both readings that are no number are kept, since they are not identical. -/
theorem distinctReadings_fetched :
    ∃ rows, readings.fetch distinctReadings = .ok rows ∧ rows.length = 3 := by
  obtain ⟨rows, hrows, h⟩ := exists_ok_and (x := readings.fetch distinctReadings)
    (p := (·.length = 3)) (by decide +kernel)
  exact ⟨rows, hrows, of_decide_eq_true h⟩

end Sample

namespace Engine

/-- The distinct logins of owners can be paged, and do not aggregate. -/
theorem ownerLogins_paged :
    ∃ planned, Sample.ownerLogins.plan Sample.catalog = .ok planned ∧
      planned.plan.projection.isAggregate = false ∧
      ∃ (p : Page (.single (.optional (.base .string)))) (tables : Tables),
        ((ofCatalog Sample.catalog).pages Store.memory _ ⟨1, 2, []⟩ Sample.ownerLogins).run.run
          Sample.tables = (.ok p, tables) := by
  have hplan : (Sample.ownerLogins.plan Sample.catalog).toOption.any
      (fun planned => !planned.plan.projection.isAggregate) = true := by
    decide +kernel
  have hpage : (((ofCatalog Sample.catalog).pages Store.memory
      (.single (.optional (.base .string))) ⟨1, 2, []⟩ Sample.ownerLogins).run.run
        Sample.tables).1.toBool = true := by
    decide +kernel
  cases hplanned : Sample.ownerLogins.plan Sample.catalog with
  | error err =>
    rw [hplanned] at hplan
    cases hplan
  | ok planned =>
    rw [hplanned] at hplan
    have hagg : (!planned.plan.projection.isAggregate) = true := hplan
    exact ⟨planned, rfl, Bool.not_eq_true' _ ▸ hagg, Sample.exists_run_ok hpage⟩

theorem count_correct_sample :
    Sample.readings.count (counting Sample.distinctReadings) = .ok 3 ∧
      ((ofCatalog Sample.catalog).count Store.memory Sample.ownerLogins).run.run Sample.tables =
        (.ok 3, Sample.tables) ∧
      ∃ (p : Page (.single (.optional (.base .string)))) (tables : Tables),
        ((ofCatalog Sample.catalog).pages Store.memory _ ⟨1, 2, []⟩ Sample.ownerLogins).run.run
          Sample.tables = (.ok p, tables) ∧ p.total = 3 := by
  obtain ⟨rows, hrows, hlength⟩ := Sample.distinctReadings_fetched
  obtain ⟨planned, hplanned, hagg, p, tables, hp⟩ := ownerLogins_paged
  obtain ⟨planned', hplanned', hcount, htotal⟩ := count_correct.2 (ofCatalog Sample.catalog)
    Sample.ownerLogins (.single (.optional (.base .string))) Sample.secondLogin.sort
    Sample.tables _ _ (Prod.ext ownerLogins_listed rfl)
  obtain rfl : planned = planned' := Except.ok.inj (hplanned.symm.trans hplanned')
  refine ⟨?_, hcount hagg, p, tables, hp, htotal _ _ p tables hp⟩
  rw [← hlength]
  exact count_correct.1 Sample.readings Sample.distinctReadings rows (by decide) hrows

/-! ## Probing for a row -/

section Probes

variable {found : Bool} {n : Nat}

/-- A probe looks at the first row of the plan of the body. -/
theorem run_hasRow_ok (h : (e.hasRow Store.memory b).run.run tables = (.ok found, tables')) :
    ∃ planned rows, b.plan e.catalog = .ok planned ∧ tables.fetch planned.plan = .ok rows ∧
      (!rows.isEmpty) = found := by
  simp only [hasRow, Store.run_bind_ok, Store.run_check_ok, Store.run_hasRow_ok] at h
  obtain ⟨planned, _, ⟨hplanned, rfl⟩, rows, hrows, hfound, -⟩ := h
  rw [Tables.fetch_window (Body.plan_window hplanned)] at hrows
  cases hfetch : tables.fetch planned.plan with
  | error err =>
    rw [hfetch] at hrows
    cases hrows
  | ok all =>
    rw [hfetch] at hrows
    obtain rfl : all.take 1 = rows := Except.ok.inj hrows
    refine ⟨planned, all, hplanned, hfetch, ?_⟩
    rw [← hfound]
    cases all <;> rfl

/-- A probe finds a row if the count is not zero, and always where the selection aggregates: such a
selection has its one row also if there is nothing to aggregate. -/
theorem hasRow_correct (hfound : (e.hasRow Store.memory b).run.run tables = (.ok found, tables'))
    {tables'' : Tables} (hcount : (e.count Store.memory b).run.run tables = (.ok n, tables'')) :
    ∃ planned, b.plan e.catalog = .ok planned ∧
      (found = true ↔ 0 < n ∨ planned.plan.projection.isAggregate = true) := by
  obtain ⟨planned, rows, hplanned, hrows, rfl⟩ := run_hasRow_ok hfound
  obtain ⟨planned', hplanned', hcount, -⟩ := run_count_ok.mp hcount
  obtain rfl : planned = planned' := Except.ok.inj (hplanned.symm.trans hplanned')
  have hwindow := Body.plan_window hplanned
  -- A probe tells whether there are rows, and a count how many.
  have hempty : (!rows.isEmpty) = true ↔ 0 < rows.length := by
    rw [Bool.not_eq_true', List.isEmpty_eq_false_iff, List.length_pos_iff]
  refine ⟨planned, hplanned, ?_⟩
  rw [hempty]
  cases hagg : planned.plan.projection.isAggregate with
  | true =>
    have hone := Plan.length_rows_aggregate hagg hwindow hrows
    simp [hone]
  | false =>
    -- Without an aggregate the count is the number of rows.
    have hn : n = rows.length := by
      rw [Tables.count_counting hagg hwindow hrows] at hcount
      exact (Except.ok.inj hcount).symm
    simp [hn]

theorem hasRow_correct_sample :
    (((ofCatalog Sample.catalog).hasRow Store.memory
        Sample.busyInBerlin).run.run Sample.tables).1 = .ok true ∧
      (((ofCatalog Sample.catalog).count Store.memory
        Sample.busyInBerlin).run.run Sample.tables).1 = .ok 1 ∧
      ∃ planned, Sample.busyInBerlin.plan Sample.catalog = .ok planned ∧
        (true = true ↔ 0 < 1 ∨ planned.plan.projection.isAggregate = true) := by
  have hfound := Sample.run_eq_ok (r := ((ofCatalog Sample.catalog).hasRow Store.memory
    Sample.busyInBerlin).run.run Sample.tables) (a := true) (by decide +kernel)
  have hcount := Sample.run_eq_ok (r := ((ofCatalog Sample.catalog).count Store.memory
    Sample.busyInBerlin).run.run Sample.tables) (a := 1) (by decide +kernel)
  exact ⟨congrArg Prod.fst hfound, congrArg Prod.fst hcount, hasRow_correct hfound hcount⟩

end Probes

end Engine

/-- The number of users without a number, of whom there are none. -/
def Sample.unnumberedCount : Body :=
  Recorder.record "User" fun user => do
    Recorder.clause user (.isNull (.path (user.child "id")) false)
    Recorder.select user [.aggregate .count none]

/-- No user is without a number, but the number of such users is a row. -/
theorem Engine.hasRow_without_match :
    (((ofCatalog Sample.catalog).hasRow Store.memory
        Sample.unnumberedCount).run.run Sample.tables).1 = .ok true ∧
      (((ofCatalog Sample.catalog).count Store.memory
        Sample.unnumberedCount).run.run Sample.tables).1 = .ok 0 :=
  ⟨Sample.eq_ok (by decide +kernel), Sample.eq_ok (by decide +kernel)⟩

namespace Engine

/-! ## First and only rows -/

section Listed

variable {xs : List t.Carrier}

/-- Without a bound, a body is listed by the plan that it is prepared as. -/
theorem exists_lists_all (hbound : e.settings.maxResults = none)
    (h : (e.all Store.memory t b).run.run tables = (.ok xs, tables')) :
    ∃ planned, b.plan e.catalog = .ok planned ∧ e.prepare t b = .ok planned.plan ∧
      planned.plan.Lists tables t xs := by
  have hall : (e.unbounded.allSorted Store.memory t [] b).run.run tables = (.ok xs, tables') := by
    rw [unbounded_eq hbound]
    exact h
  obtain ⟨q, plan, hq, hplan, hlists⟩ := run_allSorted_unbounded_ok hall
  obtain ⟨planned, hplanned, -, rfl⟩ := prepare_ok hq
  obtain rfl : planned.plan = plan := Except.ok.inj (sorted_nil.symm.trans hplan)
  exact ⟨planned, hplanned, hq, hlists⟩

/-- Rows that are read as a listing have a first one if it has. -/
theorem readRows_cons {rows : List Row} {x : t.Carrier} (h : readRows t rows = .ok (x :: xs)) :
    ∃ row rest, rows = row :: rest ∧ t.read row = .ok x ∧ readRows t rest = .ok xs := by
  obtain ⟨row, rest, hrow, hrest, heq⟩ := List.forall₂_cons_right_iff.mp (mapM_eq_ok.mp h)
  exact ⟨row, rest, heq, hrow, mapM_eq_ok.mpr hrest⟩

theorem readRows_nil {rows : List Row} (h : readRows t rows = .ok []) : rows = [] :=
  List.forall₂_nil_right_iff.mp (mapM_eq_ok.mp h)

/-- The first row of a body is the first of its listing. -/
theorem run_first (hprepare : e.prepare t b = .ok q) (h : q.Lists tables t xs) :
    (e.first Store.memory t b).run.run tables = (.ok xs.head?, tables) := by
  obtain ⟨rows, hrows, hread⟩ := h.fetch_window ⟨1, 0⟩
  rw [first, Store.run_bind_of_ok (Store.run_check_ok.mpr ⟨hprepare, rfl⟩),
    Store.run_bind_of_ok (Store.run_fetch_ok.mpr ⟨hrows, rfl⟩)]
  cases xs with
  | nil =>
    rw [readRows_nil hread]
    rfl
  | cons x xs =>
    obtain ⟨row, rest, rfl, hrow, -⟩ := readRows_cons hread
    exact Store.run_bind_of_ok (Store.run_check_ok.mpr ⟨hrow, rfl⟩)

/-- Two rows show whether a listing has none, one or more. -/
theorem run_one (hprepare : e.prepare t b = .ok q) (h : q.Lists tables t xs) :
    (e.one Store.memory t b).run.run tables = (onlyOf xs, tables) := by
  obtain ⟨rows, hrows, hread⟩ := h.fetch_window ⟨2, 0⟩
  rw [one, Store.run_bind_of_ok (Store.run_check_ok.mpr ⟨hprepare, rfl⟩),
    Store.run_bind_of_ok (Store.run_fetch_ok.mpr ⟨hrows, rfl⟩)]
  cases xs with
  | nil =>
    rw [readRows_nil hread]
    rfl
  | cons x xs =>
    obtain ⟨row, rest, rfl, hrow, hread⟩ := readRows_cons hread
    cases xs with
    | nil =>
      rw [readRows_nil hread]
      exact Store.run_check_ok.mpr ⟨hrow, rfl⟩
    | cons y xs =>
      -- Behind the second row the window ends.
      obtain ⟨row', rest, rfl, -, hread⟩ := readRows_cons hread
      rw [readRows_nil hread]
      rfl

/-- A body has a row if its listing has. -/
theorem run_hasRow {planned : PlannedQuery} (hplanned : b.plan e.catalog = .ok planned)
    (h : planned.plan.Lists tables t xs) :
    (e.hasRow Store.memory b).run.run tables = (.ok (!xs.isEmpty), tables) := by
  obtain ⟨rows, hrows, hread⟩ := h.fetch_window ⟨1, 0⟩
  rw [hasRow, Store.run_bind_of_ok (Store.run_check_ok.mpr ⟨hplanned, rfl⟩)]
  refine Store.run_hasRow_ok.mpr ⟨rows, hrows, ?_, rfl⟩
  cases xs with
  | nil =>
    rw [readRows_nil hread]
    rfl
  | cons x xs =>
    obtain ⟨row, rest, rfl, -, -⟩ := readRows_cons hread
    rfl

/-- Where a body can be listed without a bound, its first row is the first of the listing, its only
row is the only one of the listing, with a failure if there is none or are several, and it has a row
if the listing has. -/
theorem listed_correct (hbound : e.settings.maxResults = none)
    (hall : (e.all Store.memory t b).run.run tables = (.ok xs, tables')) :
    (e.first Store.memory t b).run.run tables = (.ok xs.head?, tables) ∧
      (e.one Store.memory t b).run.run tables = (onlyOf xs, tables) ∧
      (e.hasRow Store.memory b).run.run tables = (.ok (!xs.isEmpty), tables) := by
  obtain ⟨planned, hplanned, hprepare, hlists⟩ := exists_lists_all hbound hall
  exact ⟨run_first hprepare hlists, run_one hprepare hlists, run_hasRow hplanned hlists⟩

theorem listed_correct_sample :
    ((ofCatalog Sample.catalog).first Store.memory (.single (.optional (.base .string)))
        Sample.ownerLogins).run.run Sample.tables = (.ok (some (some "ccc")), Sample.tables) ∧
      ((ofCatalog Sample.catalog).one Store.memory (.single (.optional (.base .string)))
        Sample.ownerLogins).run.run Sample.tables = (.error (.notUnique 2), Sample.tables) ∧
      ((ofCatalog Sample.catalog).hasRow Store.memory Sample.ownerLogins).run.run Sample.tables =
        (.ok true, Sample.tables) := by
  have hall := Sample.run_eq_ok (r := ((ofCatalog Sample.catalog).all Store.memory
    (.single (.optional (.base .string))) Sample.ownerLogins).run.run Sample.tables)
    (a := ([some "ccc", some "aaa", none] : List (Option String))) (by decide +kernel)
  exact listed_correct rfl hall

end Listed

end Engine

end EntityQuery
