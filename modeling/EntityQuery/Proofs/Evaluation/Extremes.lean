import EntityQuery.Proofs.Evaluation.Ordered
import EntityQuery.Proofs.Sample

/-!
# The least and the greatest value

The least and the greatest value are found by going through the values once and keeping the best so
far, which only a better one replaces. A stable sort puts the same value first: among those of one level
the one that came first. Sorted upwards the values start with the nulls, which do not take part in an
aggregate; sorted downwards they end with them.
-/

namespace EntityQuery

/-! ## The first of a sorted list -/

section Sorting

variable {S : α → Prop} {order : α → α → Ordering} {best x : α} {xs ys : List α}

theorem TotalPreorderOn.mono {T : α → Prop} (h : TotalPreorderOn S order) (hT : ∀ a, T a → S a) :
    TotalPreorderOn T order :=
  h.comap id hT

/-- Whichever comes first, the earlier one where neither does. -/
def better (order : α → α → Ordering) (best x : α) : α :=
  if order x best = .lt then x else best

/-- Inserted into an ascending list that is given last element first, an element comes to its end if
it goes before the one that is there. -/
theorem getLast?_insertLast (h : TotalPreorderOn S order) (hx : S x) (hbest : S best)
    (hys : ∀ y ∈ ys, S y)
    (hascending : (ys ++ [best]).Pairwise fun b a => (order a b).isLE = true) :
    (insertLast order x (ys ++ [best])).getLast? = some (better order best x) := by
  induction ys with
  | nil =>
    rw [List.nil_append, insertLast, better]
    split <;> rfl
  | cons y ys ih =>
    obtain ⟨hy, hrest⟩ := List.pairwise_cons.mp hascending
    rw [List.cons_append, insertLast]
    split
    · rw [List.getLast?_cons, ih (fun z hz => hys z (List.mem_cons_of_mem _ hz)) hrest]
      rfl
    · next hlt =>
      -- It does not even go before an element that is not before the last.
      have hle : (order best y).isLE = true := hy best (by simp)
      have hbest' : order x best ≠ .lt := fun hlt' =>
        have := h.transCmp
        hlt (@Std.TransCmp.lt_of_lt_of_isLE _ (fun a b : Subtype S => order a b) _ ⟨x, hx⟩
          ⟨best, hbest⟩ ⟨y, hys y List.mem_cons_self⟩ hlt' hle)
      rw [better, if_neg hbest']
      exact List.getLast?_concat (l := x :: y :: ys)

theorem getLast?_foldl_insertLast (h : TotalPreorderOn S order) (hxs : ∀ x ∈ xs, S x)
    (hbest : S best) (hys : ∀ y ∈ ys, S y)
    (hascending : (ys ++ [best]).Pairwise fun b a => (order a b).isLE = true) :
    (xs.foldl (fun sorted x => insertLast order x sorted) (ys ++ [best])).getLast? =
      some (xs.foldl (better order) best) := by
  -- Over what is still to be inserted; that the best so far stands at the end is the invariant.
  induction xs generalizing ys best with
  | nil => simp
  | cons x xs ih =>
    have hx := hxs x List.mem_cons_self
    have hmem : ∀ y ∈ ys ++ [best], S y := by
      intro y hy
      rcases List.mem_append.mp hy with hy | hy
      · exact hys y hy
      · obtain rfl := List.mem_singleton.mp hy
        exact hbest
    have hlast := getLast?_insertLast h hx hbest hys hascending
    obtain ⟨ys', hys'⟩ := List.getLast?_eq_some_iff.mp hlast
    have hinserted : ∀ y ∈ ys' ++ [better order best x], S y := by
      intro y hy
      rw [← hys'] at hy
      rcases mem_insertLast.mp hy with rfl | hy
      · exact hx
      · exact hmem y hy
    have hascending' := insertLast_ascending h hx hmem hascending
    rw [hys'] at hascending'
    rw [List.foldl_cons, List.foldl_cons, hys']
    exact ih (fun y hy => hxs y (List.mem_cons_of_mem _ hy)) (hinserted _ (by simp))
      (fun y hy => hinserted y (List.mem_append_left _ hy)) hascending'

/-- The first element of a sorted list is the one that is kept by going through the elements. -/
theorem head?_sortBy (h : TotalPreorderOn (· ∈ x :: xs) order) :
    (sortBy order (x :: xs)).head? = some (xs.foldl (better order) x) := by
  have hnone : ∀ y ∈ ([] : List α), y ∈ x :: xs := by simp
  rw [sortBy, List.head?_reverse, List.foldl_cons]
  exact getLast?_foldl_insertLast h (fun y hy => List.mem_cons_of_mem _ hy) List.mem_cons_self hnone
    (List.pairwise_singleton ..)

theorem StableSort.filter (h : StableSort order xs ys) (p : α → Bool) :
    StableSort order (xs.filter p) (ys.filter p) where
  perm := h.perm.filter p
  ascending := h.ascending.filter p
  stable a ha := by
    rw [List.filter_comm, h.stable a (List.mem_of_mem_filter ha), List.filter_comm]

/-- Some of the elements are in the same order sorted on their own. -/
theorem filter_sortBy (h : TotalPreorderOn (· ∈ xs) order) (p : α → Bool) :
    (sortBy order xs).filter p = sortBy order (xs.filter p) :=
  (stableSort_iff (h.mono fun _ => List.mem_of_mem_filter)).mp ((sortBy_stableSort h).filter p)

theorem map_sortBy {β : Type} (order : β → β → Ordering) (f : α → β) (xs : List α) :
    (sortBy (fun a b => order (f a) (f b)) xs).map f = sortBy order (xs.map f) := by
  have h : List.Forall₂ (fun a b => f a = b) (sortBy (fun a b => order (f a) (f b)) xs)
      (sortBy order (xs.map f)) := by
    refine sortBy_forall₂ _ _ ?_ ?_
    · rintro a a' _ _ rfl rfl
      rfl
    · rw [List.forall₂_map_right_iff, List.forall₂_same]
      exact fun _ _ => rfl
  rw [← List.forall₂_eq_eq_eq, List.forall₂_map_left_iff]
  exact h

end Sorting

/-! ## Values -/

/-- The aggregate that gives what comes first in a direction. -/
def Direction.aggregate : Direction → Aggregate
  | asc => .min
  | desc => .max

namespace Value

variable {s : ScalarType} {best : Value} {vs : List Value}

/-- The values of a list that take part in an aggregate. -/
def present (vs : List Value) : List Value :=
  vs.filter fun v => !v.isNull

theorem ne_null_of_mem_present {v : Value} (h : v ∈ present vs) : v ≠ null := by
  rintro rfl
  cases (List.mem_filter.mp h).2

theorem better_eq (d : Direction) {v : Value} (hbest : best ≠ null) (hv : v ≠ null) :
    better d.order best v =
      match d with
      | .asc => if (v.order best).getD .eq = .lt then v else best
      | .desc => if (v.order best).getD .eq = .gt then v else best := by
  cases d with
  | asc => rw [better, Direction.order, sortOrder_of_ne_null hv hbest]
  | desc =>
    rw [better, Direction.order, sortOrder_of_ne_null hv hbest]
    cases (v.order best).getD .eq <;> rfl

theorem foldl_better (d : Direction) (hbest : best ≠ null) (hvs : ∀ v ∈ vs, v ≠ null) :
    vs.foldl (better d.order) best =
      match d with
      | .asc => extreme .lt best vs
      | .desc => extreme .gt best vs := by
  induction vs generalizing best with
  | nil => cases d <;> rfl
  | cons v vs ih =>
    have hv := hvs v List.mem_cons_self
    have hbest' : better d.order best v ≠ null := by
      rw [better]
      split
      · exact hv
      · exact hbest
    rw [List.foldl_cons, ih hbest' fun w hw => hvs w (List.mem_cons_of_mem _ hw),
      better_eq d hbest hv]
    cases d <;> rfl

theorem totalPreorderOn_of_exact (hs : s.isExact = true) (d : Direction)
    (hvs : ∀ v ∈ vs, v.StoredAs s) : TotalPreorderOn (· ∈ vs) d.order := by
  have h := (sortOrder_totalPreorderOn_of_exact hs).mono hvs
  cases d with
  | asc => exact h
  | desc => exact h.reverse

/-- The aggregate of a direction is the first value that is not null of those sorted in it. -/
theorem ofList_aggregate (hs : s.isExact = true) (d : Direction) (hvs : ∀ v ∈ vs, v.StoredAs s) :
    d.aggregate.ofList (present vs) =
      .ok (((sortBy d.order vs).find? fun v => !v.isNull).getD null) := by
  have h := totalPreorderOn_of_exact hs d hvs
  rw [← List.head?_filter, filter_sortBy h]
  have hne : ∀ v ∈ present vs, v ≠ null := fun _ => ne_null_of_mem_present
  unfold present at hne ⊢
  have h' := h.mono fun v => List.mem_of_mem_filter (p := fun v => !v.isNull) (a := v)
  generalize vs.filter (fun v => !v.isNull) = ws at h' hne ⊢
  cases ws with
  | nil => cases d <;> rfl
  | cons w ws =>
    rw [head?_sortBy h', Option.getD_some,
      foldl_better d (hne w List.mem_cons_self) fun v hv => hne v (List.mem_cons_of_mem _ hv)]
    cases d <;> rfl

/-- Sorted downwards a null is only first where all is null. -/
theorem head?_sortBy_desc (hs : s.isExact = true) (hvs : ∀ v ∈ vs, v.StoredAs s) :
    (sortBy Direction.desc.order vs).head?.getD null =
      ((sortBy Direction.desc.order vs).find? fun v => !v.isNull).getD null := by
  have hsorted := (sortBy_stableSort (totalPreorderOn_of_exact hs .desc hvs)).ascending
  cases hlist : sortBy Direction.desc.order vs with
  | nil => rfl
  | cons v ws =>
    by_cases hv : v = null
    · subst hv
      rw [hlist] at hsorted
      -- Null sorts before everything, so downwards nothing but null can be behind it.
      have hnull : ∀ w ∈ null :: ws, w = null := by
        refine List.forall_mem_cons.mpr ⟨rfl, fun w hw => ?_⟩
        by_contra hne
        have hle : ((null.sortOrder w).swap).isLE = true := (List.pairwise_cons.mp hsorted).1 w hw
        rw [null_sortOrder hne] at hle
        cases hle
      rw [List.find?_eq_none.mpr]
      · rfl
      · intro w hw
        rw [hnull w hw]
        decide
    · have hpresent : v.isNull = false := Bool.eq_false_iff.mpr fun h => hv (isNull_iff.mp h)
      rw [List.find?_cons, hpresent]
      rfl

/-- There is no value that is not null only where all are null. -/
theorem find?_sortBy_eq_null_iff (order : Value → Value → Ordering) :
    ((sortBy order vs).find? fun v => !v.isNull).getD null = null ↔ ∀ v ∈ vs, v = null := by
  constructor
  · intro h v hv
    by_contra hne
    -- Sorting keeps the values, so what is not null can be found.
    have hmem : v ∈ sortBy order vs := (sortBy_perm order vs).mem_iff.mpr hv
    cases hfind : (sortBy order vs).find? fun v => !v.isNull with
    | none =>
      have := List.find?_eq_none.mp hfind v hmem
      rw [Bool.not_eq_true, Bool.not_eq_false'] at this
      exact hne (isNull_iff.mp this)
    | some w =>
      rw [hfind] at h
      obtain rfl : w = null := h
      cases List.find?_some hfind
  · intro h
    rw [List.find?_eq_none.mpr]
    · rfl
    · intro v hv
      rw [h v ((sortBy_perm order vs).mem_iff.mp hv)]
      decide

end Value

/-! ## Plans -/

namespace Plan

/-- A plan with one row, the aggregate of a column. -/
def aggregating (q : Plan) (f : Aggregate) (c : Column) : Plan :=
  { q with projection := .items [.expr (.aggregate f (some c))], window := none }

/-- A plan with the values of a column as rows, ordered by them. -/
def listing (q : Plan) (c : Column) (d : Direction) : Plan :=
  { q with
    projection := .items [.expr (.column c)]
    distinct := false
    orderBy := [⟨c, d⟩]
    window := none }

end Plan

/-- The row of one value. -/
def Row.ofValue (v : Value) : Row :=
  ⟨[.value v]⟩

section Plans

variable {s : Source} {outer tuples : List Tuple} {q : Plan} {c : Column} {f : Aggregate}
  {value : Tuple → Value}

/-- An aggregate is computed of the values that are not null. -/
theorem Plan.rows_aggregating (hmatching : q.matching s outer = .ok tuples)
    (hvalue : ∀ tuple ∈ tuples, c.value tuple outer = .ok (value tuple)) :
    (q.aggregating f c).rows s outer =
      (f.ofList (Value.present (tuples.map value))).map fun v => [Row.ofValue v] := by
  obtain ⟨bound, hbound, hkept⟩ := bind_eq_ok.mp hmatching
  rw [rows_eq]
  simp only [aggregating, hbound, hkept, bind, Except.bind, Projection.isAggregate, List.any_cons,
    Item.isAggregate, Operand.isAggregate, Bool.true_or, if_true, Projection.aggregateRow,
    List.mapM_cons, List.mapM_nil, Item.aggregateCell, Aggregate.ofTuples, mapM_eq_map hvalue]
  rw [← Value.present]
  cases f.ofList (Value.present (tuples.map value)) <;> rfl

theorem Plan.rows_listing (hmatching : q.matching s outer = .ok tuples)
    (hvalue : ∀ tuple ∈ tuples, c.value tuple outer = .ok (value tuple)) {d : Direction}
    (hpreorder : TotalPreorderOn (· ∈ tuples.map value) d.order) :
    (q.listing c d).rows s outer =
      .ok ((sortBy d.order (tuples.map value)).map Row.ofValue) := by
  -- On bound tuples the column has a value, and the one key compares these values.
  let key : SortKey := ⟨c, d⟩
  have hread : ∀ tuple ∈ tuples, c.value tuple outer = .ok (key.read outer tuple) := by
    intro tuple htuple
    rw [SortKey.read, hvalue tuple htuple]
    rfl
  have hvalue' : tuples.map value = tuples.map (key.read outer) :=
    List.map_congr_left fun tuple htuple =>
      Except.ok.inj ((hvalue tuple htuple).symm.trans (hread tuple htuple))
  have horder : orderTuples [key] outer =
      fun a b => d.order (key.read outer a) (key.read outer b) := by
    funext a b
    rw [orderTuples_cons]
    exact Ordering.then_eq
  have htuples : TotalPreorderOn (· ∈ tuples) (orderTuples [key] outer) := by
    rw [horder]
    refine hpreorder.comap (key.read outer) fun tuple htuple => ?_
    rw [hvalue']
    exact List.mem_map_of_mem htuple
  -- Tuples are sorted as their values are.
  have hsorted : sortTuples s.sorter [key] tuples outer =
      .ok (sortBy (orderTuples [key] outer) tuples) :=
    sortTuples_eq (by simpa using hread) htuples
  have hmatching' : (q.listing c d).matching s outer = .ok tuples := hmatching
  have hrow : ∀ tuple ∈ sortBy (orderTuples [key] outer) tuples,
      (q.listing c d).projection.row s tuple outer = .ok (Row.ofValue (key.read outer tuple)) := by
    intro tuple htuple
    have hmem := (sortBy_perm _ _).mem_iff.mp htuple
    rw [listing, Projection.row, itemCells, Item.cell, Operand.value, itemCells, hread tuple hmem]
    rfl
  rw [rows_eq_mapM rfl rfl rfl hmatching' hsorted, mapM_eq_map hrow, horder, hvalue',
    ← map_sortBy d.order, List.map_map]
  rfl

/-- The least and the greatest value of a column of some values stand where the rows of the plan are
listed by it: the one is the first that is not null upwards, the other the first downwards. -/
structure Plan.Extremes (t : Tables) (q : Plan) (c : Column) (values ascending descending : List Value)
    (least greatest : Value) : Prop where
  min : t.fetch (q.aggregating .min c) = .ok [Row.ofValue least]
  max : t.fetch (q.aggregating .max c) = .ok [Row.ofValue greatest]
  asc : t.fetch (q.listing c .asc) = .ok (ascending.map Row.ofValue)
  desc : t.fetch (q.listing c .desc) = .ok (descending.map Row.ofValue)
  least_eq : least = (ascending.find? fun v => !v.isNull).getD .null
  greatest_eq : greatest = descending.head?.getD .null
  least_null : least = .null ↔ ∀ v ∈ values, v = .null
  greatest_null : greatest = .null ↔ ∀ v ∈ values, v = .null

theorem Plan.extremes_of_exact {t : Tables}
    (hmatching : q.matching ⟨t, q.parameters, .insertion⟩ [] = .ok tuples)
    (hexact : (SortKey.mk c .asc).Exact [] tuples) :
    ∃ values ascending descending least greatest,
      tuples.mapM (fun tuple => c.value tuple []) = .ok values ∧
        q.Extremes t c values ascending descending least greatest := by
  obtain ⟨s, hs, hreads⟩ := hexact
  -- A key that can be read is a value of every tuple, of one exact type.
  let value := (SortKey.mk c .asc).read []
  have hvalue : ∀ tuple ∈ tuples, c.value tuple [] = .ok (value tuple) :=
    fun _ htuple => hreads.value_eq htuple
  have hstored : ∀ v ∈ tuples.map value, v.StoredAs s :=
    List.forall_mem_map.mpr fun _ htuple => hreads.read htuple
  -- The extreme in a direction is the first value that is there when sorted in it.
  have hfetch (d : Direction) : t.fetch (q.aggregating d.aggregate c) = .ok [Row.ofValue
      (((sortBy d.order (tuples.map value)).find? fun v => !v.isNull).getD .null)] := by
    have hrows := rows_aggregating (f := d.aggregate) hmatching hvalue
    rw [Value.ofList_aggregate hs d hstored] at hrows
    exact hrows
  exact ⟨_, _, _, _, _, mapM_eq_map hvalue, hfetch .asc, hfetch .desc,
    rows_listing hmatching hvalue (Value.totalPreorderOn_of_exact hs .asc hstored),
    rows_listing hmatching hvalue (Value.totalPreorderOn_of_exact hs .desc hstored), rfl,
    (Value.head?_sortBy_desc hs hstored).symm, Value.find?_sortBy_eq_null_iff _,
    Value.find?_sortBy_eq_null_iff _⟩

/-- Over whatever tables, joins and filter, and for a column whose values are nulls and integers, nulls
and texts, or nulls, timestamps and 64-bit integers: the least value is, in the kind in which it is
stored, that of the first row in ascending order that has one, and the greatest that of the first row
in descending order. They are null only where there is no value, or no row. Where the rows cannot be
bound and filtered, neither query has a result. -/
theorem Plan.extremes_correct (t : Tables) (q : Plan) (c : Column) :
    (∀ e, q.matching ⟨t, q.parameters, .insertion⟩ [] = .error e → ∀ f d,
      t.fetch (q.aggregating f c) = .error e ∧ t.fetch (q.listing c d) = .error e) ∧
    ∀ tuples, q.matching ⟨t, q.parameters, .insertion⟩ [] = .ok tuples →
      (SortKey.mk c .asc).Exact [] tuples →
      ∃ values ascending descending least greatest,
        tuples.mapM (fun tuple => c.value tuple []) = .ok values ∧
          q.Extremes t c values ascending descending least greatest := by
  refine ⟨fun e he f d => ⟨?_, ?_⟩, fun tuples hmatching hexact => ?_⟩
  · exact rows_of_matching_error (q := q.aggregating f c) he
  · exact rows_of_matching_error (q := q.listing c d) he
  · exact extremes_of_exact hmatching hexact

/-- The addresses of those who own a task: two tasks are owned by nobody, and one by a user without an
address. -/
theorem Plan.extremes_correct_with_nulls :
    let q : Plan := ⟨"Todo", [Sample.ownerJoin], none, .root, false, [], none, []⟩
    ∃ ascending descending, q.Extremes Sample.tables ⟨0, 1, "address_id"⟩
      [.int64 1, .int64 1, .int64 2, .null, .null, .null] ascending descending (.int64 1)
        (.int64 2) := by
  intro q
  let c : Column := ⟨0, 1, "address_id"⟩
  obtain ⟨tuples, hmatching, hall⟩ := Sample.exists_ok_and
    (x := q.matching ⟨Sample.tables, [], .insertion⟩ [])
    (p := fun tuples =>
      (tuples.all fun tuple => (c.value tuple []).toOption.any fun v =>
        v.isNull || ScalarType.int64.accepts v) &&
      decide ((tuples.mapM fun tuple => c.value tuple []).toOption =
        some [.int64 1, .int64 1, .int64 2, .null, .null, .null]))
    (by decide +kernel)
  obtain ⟨hall, hvalues⟩ := Bool.and_eq_true_iff.mp hall
  -- The addresses are numbers of 64 bits, or missing.
  have hexact : (SortKey.mk c .asc).Exact [] tuples := by
    refine ⟨.int64, rfl, fun tuple htuple => ?_⟩
    obtain ⟨v, hv, hstored⟩ := Sample.exists_ok_and (List.all_eq_true.mp hall tuple htuple)
    rw [Bool.or_eq_true, Value.isNull_iff] at hstored
    exact ⟨v, hv, hstored⟩
  obtain ⟨values, ascending, descending, least, greatest, hvalues', h⟩ :=
    (extremes_correct Sample.tables q c).2 tuples hmatching hexact
  obtain rfl := Except.ok.inj (hvalues'.symm.trans (Sample.eq_ok (of_decide_eq_true hvalues)))
  -- The rows are single values, so they say what the extremes are.
  have hmin : Sample.tables.fetch (q.aggregating .min c) = .ok [Row.ofValue (.int64 1)] :=
    Sample.eq_ok (by decide +kernel)
  have hmax : Sample.tables.fetch (q.aggregating .max c) = .ok [Row.ofValue (.int64 2)] :=
    Sample.eq_ok (by decide +kernel)
  cases hmin.symm.trans h.min
  cases hmax.symm.trans h.max
  exact ⟨ascending, descending, h⟩

end Plans

end EntityQuery
