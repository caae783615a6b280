import EntityQuery.Proofs.Engine.Listing
import EntityQuery.Proofs.Evaluation.KeyOrder
import EntityQuery.Proofs.Evaluation.SortOrder

/-!
# Rows in order

The values of types without floats have a place each: null first, then numbers by size or texts by
their characters. Rows are ordered by the places of the values of their keys, each in its direction,
the first key that tells two rows apart deciding. Rows that no key tells apart stay as they were.
-/

namespace EntityQuery

/-! ## Places of values -/

/-- The orderable types that no float is a value of. -/
def ScalarType.isExact : ScalarType → Bool
  | int32 | int64 | string | timestamp => true
  | _ => false

namespace Value

/-- A value has its place before another: null before all others, integers and timestamps by their
numbers, strings by their characters. -/
def Before (v w : Value) : Prop :=
  match v.ordinate?, w.ordinate? with
  | none, some _ => True
  | some (.integer m), some (.integer n) => m < n
  | some (.text t), some (.text t') => t < t'
  | _, _ => False

/-- Values have the same place. -/
def Level (v w : Value) : Prop :=
  match v.ordinate?, w.ordinate? with
  | none, none => True
  | some (.integer m), some (.integer n) => m = n
  | some (.text t), some (.text t') => t = t'
  | _, _ => False

variable {s : ScalarType} {v w : Value}

theorem isOrderable_of_isExact (hs : s.isExact = true) : s.isOrderable = true := by
  cases s <;> first | rfl | cases hs

/-- What a type without floats accepts is a string if the type is that of strings, and an integer
otherwise. -/
theorem exact_ordinate (hs : s.isExact = true) (hv : s.accepts v = true) :
    (s = .string ∧ ∃ t, v.ordinate? = some (.text t)) ∨
      (s ≠ .string ∧ ∃ n, v.ordinate? = some (.integer n)) := by
  by_cases hstring : s = .string
  · subst hstring
    obtain ⟨t, rfl⟩ := string_of_accepts hv
    exact .inl ⟨rfl, t, rfl⟩
  · cases v with
    | int32 n | int64 n | timestamp n => exact .inr ⟨hstring, _, rfl⟩
    | string t => cases s <;> first | exact absurd rfl hstring | cases hv
    | _ => cases s <;> first | (cases hs; done) | cases hv

/-- Values of a type without floats sort by their places. -/
theorem sortOrder_iff (hs : s.isExact = true) (hv : v.StoredAs s) (hw : w.StoredAs s) :
    (v.sortOrder w = .lt ↔ v.Before w) ∧ (v.sortOrder w = .eq ↔ v.Level w) := by
  have hnull : null.ordinate? = none := rfl
  rcases hv with rfl | hv
  · rcases hw with rfl | hw
    · exact ⟨iff_of_false nofun id, iff_of_true rfl trivial⟩
    · obtain ⟨b, hb⟩ := exists_ordinate (isOrderable_of_isExact hs) hw
      rw [null_sortOrder (ne_null_of_accepts hw), Before, Level, hnull, hb]
      exact ⟨iff_of_true rfl trivial, iff_of_false nofun id⟩
  · rcases hw with rfl | hw
    · obtain ⟨a, ha⟩ := exists_ordinate (isOrderable_of_isExact hs) hv
      rw [sortOrder_null (ne_null_of_accepts hv), Before, Level, hnull, ha]
      exact ⟨iff_of_false nofun (by cases a <;> exact id),
        iff_of_false nofun (by cases a <;> exact id)⟩
    · rw [sortOrder_of_ne_null (ne_null_of_accepts hv) (ne_null_of_accepts hw)]
      -- Neither is null, and a type without floats has texts or integers for ordinates, not both.
      rcases exact_ordinate hs hv with ⟨hstring, t, ht⟩ | ⟨hstring, m, hm⟩
      · rcases exact_ordinate hs hw with ⟨-, t', ht'⟩ | ⟨hstring', -⟩
        · rw [order_eq hv hw ht ht', Before, Level, ht, ht']
          exact ⟨compare_lt_iff_lt, Std.compare_eq_iff_eq⟩
        · exact absurd hstring hstring'
      · rcases exact_ordinate hs hw with ⟨hstring', -⟩ | ⟨-, n, hn⟩
        · exact absurd hstring' hstring
        · rw [order_eq hv hw hm hn, Before, Level, hm, hn]
          exact ⟨compare_lt_iff_lt, Std.compare_eq_iff_eq⟩

/-- Only floats blur others. -/
theorem sortOrder_totalPreorderOn_of_exact (hs : s.isExact = true) :
    TotalPreorderOn (·.StoredAs s) sortOrder := by
  refine (sortOrder_totalPreorderOn_iff (isOrderable_of_isExact hs) fun _ hv => hv).mpr
    fun v w u _ hw _ hblurs => ?_
  rcases hblurs.float_type hw with rfl | rfl <;> cases hs

end Value

/-! ## Places of tuples -/

/-- A direction takes places forwards or backwards, and so puts null first or last. -/
def Direction.Before : Direction → Value → Value → Prop
  | asc, v, w => v.Before w
  | desc, v, w => w.Before v

namespace Tuple

/-- The first key that tells two tuples apart puts the one before the other, or there is none. -/
def AtOrBefore (outer : List Tuple) : List SortKey → Tuple → Tuple → Prop
  | [], _, _ => True
  | key :: keys, a, b =>
    key.direction.Before (key.read outer a) (key.read outer b) ∨
      (key.read outer a).Level (key.read outer b) ∧ AtOrBefore outer keys a b

/-- No key tells two tuples apart. -/
def Level (outer : List Tuple) (keys : List SortKey) (a b : Tuple) : Prop :=
  ∀ key ∈ keys, (key.read outer a).Level (key.read outer b)

end Tuple

variable {outer tuples sorted : List Tuple} {keys : List SortKey} {key : SortKey}

/-- The values that a key has are those of a type without floats. -/
def SortKey.Exact (outer tuples : List Tuple) (key : SortKey) : Prop :=
  ∃ s : ScalarType, s.isExact = true ∧ key.Reads outer (·.StoredAs s) tuples

theorem Direction.order_iff {s : ScalarType} (hs : s.isExact = true) {v w : Value}
    (hv : v.StoredAs s) (hw : w.StoredAs s) (d : Direction) :
    (d.order v w = .lt ↔ d.Before v w) ∧ (d.order v w = .eq ↔ v.Level w) := by
  obtain ⟨hlt, heq⟩ := Value.sortOrder_iff hs hv hw
  cases d with
  | asc => exact ⟨hlt, heq⟩
  | desc =>
    obtain ⟨hlt', -⟩ := Value.sortOrder_iff hs hw hv
    have hswap := Value.sortOrder_swap (Value.isOrderable_of_isExact hs) hv hw
    refine ⟨?_, ?_⟩
    · show (v.sortOrder w).swap = .lt ↔ _
      rw [← hswap]
      exact hlt'
    · show (v.sortOrder w).swap = .eq ↔ _
      rw [Ordering.swap_eq_eq]
      exact heq

/-- Tuples are ordered by their places. -/
theorem orderTuples_iff (hkeys : ∀ key ∈ keys, key.Exact outer tuples) {a b : Tuple}
    (ha : a ∈ tuples) (hb : b ∈ tuples) :
    ((orderTuples keys outer a b).isLE = true ↔ Tuple.AtOrBefore outer keys a b) ∧
      (orderTuples keys outer a b = .eq ↔ Tuple.Level outer keys a b) := by
  induction keys with
  | nil => exact ⟨iff_of_true rfl trivial, iff_of_true rfl nofun⟩
  | cons key keys ih =>
    obtain ⟨hle, heq⟩ := ih fun key' hkey' => hkeys key' (List.mem_cons_of_mem _ hkey')
    obtain ⟨s, hs, hread⟩ := hkeys key List.mem_cons_self
    obtain ⟨hbefore, hlevel⟩ := key.direction.order_iff hs (hread.read ha) (hread.read hb)
    rw [orderTuples_cons, Ordering.isLE_then_iff_or, Ordering.then_eq_eq, Tuple.AtOrBefore, hle, heq,
      hbefore, hlevel]
    refine ⟨Iff.rfl, ?_⟩
    simp only [Tuple.Level, List.forall_mem_cons]

theorem orderTuples_totalPreorderOn_of_exact (hkeys : ∀ key ∈ keys, key.Exact outer tuples) :
    TotalPreorderOn (· ∈ tuples) (orderTuples keys outer) := by
  refine orderTuples_totalPreorderOn fun key hkey => ?_
  obtain ⟨s, hs, hread⟩ := hkeys key hkey
  exact (Value.sortOrder_totalPreorderOn_of_exact hs).comap (key.read outer) fun _ htuple =>
    hread.read htuple

open Classical in
/-- Tuples arranged by keys: none stands before one whose place is before its own, and those that no key
tells apart follow each other as before. -/
structure Tuple.Arranged (outer : List Tuple) (keys : List SortKey) (tuples sorted : List Tuple) :
    Prop where
  perm : sorted.Perm tuples
  ascending : sorted.Pairwise (Tuple.AtOrBefore outer keys)
  stable : ∀ tuple ∈ tuples, (sorted.filter fun other => Tuple.Level outer keys tuple other) =
    tuples.filter fun other => Tuple.Level outer keys tuple other

theorem Tuple.arranged_iff (hkeys : ∀ key ∈ keys, key.Exact outer tuples) :
    Tuple.Arranged outer keys tuples sorted ↔
      StableSort (orderTuples keys outer) tuples sorted := by
  classical
  -- What is level with a tuple is what compares as equal to it.
  have hfilter : ∀ xs : List Tuple, (∀ x ∈ xs, x ∈ tuples) → ∀ a ∈ tuples,
      xs.filter (orderTuples keys outer a · == .eq) =
        xs.filter fun other => Tuple.Level outer keys a other := by
    intro xs hxs a ha
    refine List.filter_congr fun x hx => ?_
    rw [Bool.eq_iff_iff, beq_iff_eq, decide_eq_true_iff]
    exact (orderTuples_iff hkeys ha (hxs x hx)).2
  have hascending (hmem : ∀ x ∈ sorted, x ∈ tuples) :
      sorted.Pairwise (Tuple.AtOrBefore outer keys) ↔
        sorted.Pairwise fun a b => (orderTuples keys outer a b).isLE = true :=
    List.Pairwise.iff_of_mem fun ha hb => (orderTuples_iff hkeys (hmem _ ha) (hmem _ hb)).1.symm
  have hstable (hmem : ∀ x ∈ sorted, x ∈ tuples) :
      (∀ a ∈ tuples, (sorted.filter fun other => Tuple.Level outer keys a other) =
        tuples.filter fun other => Tuple.Level outer keys a other) ↔
      ∀ a ∈ tuples, sorted.filter (orderTuples keys outer a · == .eq) =
        tuples.filter (orderTuples keys outer a · == .eq) :=
    forall₂_congr fun a ha => by
      rw [hfilter sorted hmem a ha, hfilter tuples (fun _ hx => hx) a ha]
  -- Both sides hold only of lists of the same tuples, on which the two orders agree.
  constructor
  · intro h
    have hmem : ∀ x ∈ sorted, x ∈ tuples := fun x hx => h.perm.mem_iff.mp hx
    exact ⟨h.perm, (hascending hmem).mp h.ascending, (hstable hmem).mp h.stable⟩
  · intro h
    have hmem : ∀ x ∈ sorted, x ∈ tuples := fun x hx => h.perm.mem_iff.mp hx
    exact ⟨h.perm, (hascending hmem).mpr h.ascending, (hstable hmem).mpr h.stable⟩

theorem sortTuples_arranged (sorter : Sorter) (hkeys : ∀ key ∈ keys, key.Exact outer tuples) :
    ∃ sorted, sortTuples sorter keys tuples outer = .ok sorted ∧
      ∀ ys, Tuple.Arranged outer keys tuples ys ↔ ys = sorted := by
  have hpreorder := orderTuples_totalPreorderOn_of_exact hkeys
  have hread : ∀ key ∈ keys, ∀ tuple ∈ tuples,
      key.column.value tuple outer = .ok (key.read outer tuple) := by
    intro key hkey tuple htuple
    obtain ⟨s, -, hread⟩ := hkeys key hkey
    exact hread.value_eq htuple
  refine ⟨sortBy (orderTuples keys outer) tuples, sortTuples_eq hread hpreorder, fun ys => ?_⟩
  rw [Tuple.arranged_iff hkeys]
  exact stableSort_iff hpreorder

/-! ## Rows -/

section Rows

variable {s : Source} {q : Plan} {t : Tables} {rows : List Row}

/-- Where nothing is aggregated, dropped or cut off, each tuple gives a row. -/
theorem Plan.rows_eq_mapM (hagg : q.projection.isAggregate = false) (hdistinct : q.distinct = false)
    (hwindow : q.window = none) (hmatching : q.matching s outer = .ok tuples)
    (hsorted : sortTuples s.sorter q.orderBy tuples outer = .ok sorted) :
    q.rows s outer = sorted.mapM fun tuple => q.projection.row s tuple outer := by
  obtain ⟨bound, hbound, hkept⟩ := bind_eq_ok.mp hmatching
  rw [rows_eq]
  simp only [hbound, hkept, hsorted, hagg, hdistinct, hwindow, windowed, bind, Except.bind,
    Bool.false_eq_true, if_false]
  cases sorted.mapM fun tuple => q.projection.row s tuple outer <;> rfl

theorem Plan.rows_of_matching_error {e : StoreError} (h : q.matching s outer = .error e) :
    q.rows s outer = .error e := by
  rw [rows_eq]
  unfold matching at h
  cases hbound : s.tables.bind q.entity q.joins with
  | error e' =>
    rw [hbound] at h
    obtain rfl : e' = e := Except.error.inj h
    rfl
  | ok bound =>
    simp only [hbound, bind, Except.bind] at h ⊢
    rw [h]

/-- The rows of a plan are those of its tuples, arranged by its keys; without keys they are those of the
tuples as they are. -/
structure Plan.FetchesArranged (t : Tables) (q : Plan) (tuples sorted : List Tuple) : Prop where
  matching : q.matching ⟨t, q.parameters, .insertion⟩ [] = .ok tuples
  /-- There is one arrangement. -/
  arranged (ys : List Tuple) : Tuple.Arranged [] q.orderBy tuples ys ↔ ys = sorted
  rows : t.fetch q = sorted.mapM fun tuple => q.projection.row ⟨t, q.parameters, .insertion⟩ tuple []
  unordered : t.fetch { q with orderBy := [] } =
    tuples.mapM fun tuple => q.projection.row ⟨t, q.parameters, .insertion⟩ tuple []

theorem Plan.fetch_matching_error {e : StoreError}
    (h : q.matching ⟨t, q.parameters, .insertion⟩ [] = .error e) :
    t.fetch q = .error e ∧ t.fetch { q with orderBy := [] } = .error e := by
  have h' : Plan.matching ⟨t, q.parameters, .insertion⟩ [] { q with orderBy := [] } = .error e := h
  exact ⟨rows_of_matching_error h, rows_of_matching_error h'⟩

theorem Plan.fetchesArranged (hagg : q.projection.isAggregate = false)
    (hdistinct : q.distinct = false) (hwindow : q.window = none)
    (hmatching : q.matching ⟨t, q.parameters, .insertion⟩ [] = .ok tuples)
    (hkeys : ∀ key ∈ q.orderBy, key.Exact [] tuples) :
    ∃ sorted, q.FetchesArranged t tuples sorted := by
  obtain ⟨sorted, hsorted, harranged⟩ := sortTuples_arranged .insertion hkeys
  have hmatching' : Plan.matching ⟨t, q.parameters, .insertion⟩ [] { q with orderBy := [] } = .ok tuples :=
    hmatching
  exact ⟨sorted, hmatching, harranged, rows_eq_mapM hagg hdistinct hwindow hmatching hsorted,
    rows_eq_mapM hagg hdistinct hwindow hmatching' (sortTuples_nil _ tuples [])⟩

/-- Ordered rows are the same rows, but for their order, and there are some if there are any without the
keys. -/
theorem Plan.FetchesArranged.perm (h : q.FetchesArranged t tuples sorted) :
    (∀ rows, t.fetch q = .ok rows →
      ∃ rows', t.fetch { q with orderBy := [] } = .ok rows' ∧ rows.Perm rows') ∧
    (∀ rows', t.fetch { q with orderBy := [] } = .ok rows' →
      ∃ rows, t.fetch q = .ok rows ∧ rows.Perm rows') := by
  have hperm : sorted.Perm tuples := ((h.arranged sorted).mpr rfl).perm
  refine ⟨fun rows hrows => ?_, fun rows hrows => ?_⟩
  · obtain ⟨rows', hrows', hperm'⟩ := projected_perm hperm.symm (h.rows.symm.trans hrows)
    exact ⟨rows', h.unordered.trans hrows', hperm'.symm⟩
  · obtain ⟨rows', hrows', hperm'⟩ := projected_perm hperm (h.unordered.symm.trans hrows)
    exact ⟨rows', h.rows.trans hrows', hperm'⟩

end Rows

end EntityQuery
