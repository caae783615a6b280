import EntityQuery.Proofs.Evaluation.Fitting
import EntityQuery.Proofs.Evaluation.KeyOrder
import EntityQuery.Proofs.Evaluation.SortOrder
import EntityQuery.Proofs.Sample

/-!
# Orderings of planned bodies

A body can be ordered by attributes of orderable types alone, so each key of its plan has values that are
null or accepted by such a type. Whether the order of the tuples is well defined depends on nothing but
these values: it is, unless one of them blurs two others.
-/

namespace EntityQuery

/-- A field that can be ordered has the values of an orderable type. -/
theorem FieldType.storedAs {t : FieldType} (ht : t.isOrderable = true) :
    ∃ s : ScalarType, s.isOrderable = true ∧
      ∀ v, (StaticType.field t).Admits v → v.StoredAs s := by
  have hstored : ∀ s : ScalarType, t = .scalar s ∨ t = .optionalScalar s →
      ∀ v, (StaticType.field t).Admits v → v.StoredAs s := by
    rintro s hs v (rfl | hv)
    · exact .inl rfl
    · by_cases hnull : v.isNull = true
      · exact .inl (Value.isNull_iff.mp hnull)
      · rcases hs with rfl | rfl
        · exact .inr ((if_neg hnull).symm.trans hv)
        · exact .inr ((if_neg hnull).symm.trans hv)
  cases t with
  | scalar s => exact ⟨s, ht, hstored s (.inl rfl)⟩
  | optionalScalar s => exact ⟨s, ht, hstored s (.inr rfl)⟩
  | array | enumeration | optionalEnumeration => cases ht

section Bodies

variable {c : Catalog} {parameters : List (String × Value)} {s : Source} {frames : List Frame}
  {tuples outer : List Tuple} {b : Body} {es : List Expr} {q : Plan} {selected : List SelectedItem}
  {key : SortKey} {t : Tables} {planned : PlannedQuery}

/-- The keys of a planned body can be read, with values of an orderable type each. -/
theorem Body.PlannedAs.key_reads (htyped : s.tables.Typed c)
    (hfit : Tuple.FitAll c s.tables frames outer)
    (h : b.PlannedAs c parameters frames es q selected) (hmatching : q.matching s outer = .ok tuples)
    (hkey : key ∈ q.orderBy) :
    ∃ s : ScalarType, s.isOrderable = true ∧ key.Reads outer (·.StoredAs s) tuples := by
  obtain ⟨bound, hbound, hkept⟩ := bind_eq_ok.mp hmatching
  cases h with
  | @intro _ _ _ e g ys _ orderBy he hg hys hxs hmix hkeys =>
    have hbuilt := Body.frame?_built hg
    have hbind : s.tables.bind b.entity g.joins = .ok bound := hbound
    rw [← hbuilt.entity_eq] at hbind
    have hfits := Tables.bind_fits (hbuilt.sound he) hbind
    -- The key is the column that an ordering of the body was planned as.
    obtain ⟨i, hi⟩ := List.mem_iff_getElem?.mp hkey
    obtain ⟨term, -, p, column, f, -, htarget, horderable, -, rfl⟩ := forall₂_getElem? hkeys.flip hi
    obtain ⟨s', hs', hstored⟩ := FieldType.storedAs horderable
    refine ⟨s', hs', fun tuple htuple => ?_⟩
    -- A tuple that is kept was bound, and so it fits the frame.
    have hall : Tuple.FitAll c s.tables (g :: frames) (tuple :: outer) :=
      .cons (hfits tuple (mem_of_filterTuples hkept htuple)) hfit
    obtain ⟨v, hv, hadmits⟩ := hall.column htyped htarget
    exact ⟨v, hv, hstored v hadmits⟩

theorem Body.plan_key_reads (hplan : b.plan c = .ok planned) (htyped : t.Typed c)
    (hmatching : planned.plan.matching ⟨t, planned.plan.parameters, .insertion⟩ [] = .ok tuples)
    (hkey : key ∈ planned.plan.orderBy) :
    ∃ s : ScalarType, s.isOrderable = true ∧ key.Reads [] (·.StoredAs s) tuples := by
  obtain ⟨q, selected, hq, hplanned, -⟩ := Body.plan_plannedAs hplan
  rw [hq] at hmatching hkey
  exact hplanned.key_reads (s := ⟨t, planned.plan.parameters, .insertion⟩) htyped .nil hmatching hkey

/-- Keys are a total preorder if no value of any of them blurs two others. -/
theorem orderTuples_totalPreorderOn_of_clear {keys : List SortKey}
    (hreads : ∀ key ∈ keys, ∃ s : ScalarType, s.isOrderable = true ∧
      key.Reads outer (·.StoredAs s) tuples)
    (hclear : ∀ key ∈ keys, ∀ x ∈ tuples, ∀ y ∈ tuples, ∀ z ∈ tuples,
      ¬ Value.Blurs (key.read outer x) (key.read outer y) (key.read outer z)) :
    TotalPreorderOn (· ∈ tuples) (orderTuples keys outer) := by
  refine orderTuples_totalPreorderOn fun key hkey => ?_
  obtain ⟨s, hs, hread⟩ := hreads key hkey
  have hvalues : TotalPreorderOn (fun v => ∃ tuple ∈ tuples, key.read outer tuple = v)
      Value.sortOrder := by
    refine (Value.sortOrder_totalPreorderOn_iff hs ?_).mpr ?_
    · rintro _ ⟨tuple, htuple, rfl⟩
      exact hread.read htuple
    · rintro _ _ _ ⟨x, hx, rfl⟩ ⟨y, hy, rfl⟩ ⟨z, hz, rfl⟩
      exact hclear key hkey x hx y hy z hz
  exact hvalues.comap (key.read outer) fun tuple htuple => ⟨tuple, htuple, rfl⟩

end Bodies

/-- The order in which the values of an orderable type sort can be turned around, and it is transitive
but for values that blur others. Those stand on one level with both, and they are floats: a NaN, or one
that integers of more than 53 bits become. All that a planned body orders by are such values, so that its
tuples are sorted unless the sorter gives up. If none of them blurs others, its tuples are under a total
preorder, and every sorter sorts them into the one stable order. -/
theorem Body.orderings_correct {s : ScalarType} {v w u : Value} (hs : s.isOrderable = true)
    (hv : v.StoredAs s) (hw : w.StoredAs s) (hu : u.StoredAs s) :
    w.sortOrder v = (v.sortOrder w).swap ∧
    ((v.sortOrder w).isLE = true → (w.sortOrder u).isLE = true →
      ((v.sortOrder u).isLE = true ↔ ¬ Value.Blurs v w u)) ∧
    (Value.Blurs v w u →
      (v.sortOrder w = .eq ∧ w.sortOrder u = .eq) ∧
      (s = .float32 ∨ s = .float64) ∧
      ((∃ x, w.ordinate? = some (.float x) ∧ x.isNaN = true) ∨
        ∃ n, (v.ordinate? = some (.integer n) ∨ u.ordinate? = some (.integer n)) ∧
          2 ^ 53 < n.natAbs)) ∧
    ∀ {c : Catalog} {b : Body} {planned : PlannedQuery} {t : Tables} {tuples : List Tuple},
      b.plan c = .ok planned → t.Typed c →
      planned.plan.matching ⟨t, planned.plan.parameters, .insertion⟩ [] = .ok tuples →
      (∀ key ∈ planned.plan.orderBy, ∃ s : ScalarType, s.isOrderable = true ∧
        key.Reads [] (·.StoredAs s) tuples) ∧
      (∀ sorter : Sorter, sorter.IsTotal →
        ∃ sorted, sortTuples sorter planned.plan.orderBy tuples [] = .ok sorted) ∧
      ((∀ key ∈ planned.plan.orderBy, ∀ x ∈ tuples, ∀ y ∈ tuples, ∀ z ∈ tuples,
          ¬ Value.Blurs (key.read [] x) (key.read [] y) (key.read [] z)) →
        TotalPreorderOn (· ∈ tuples) (orderTuples planned.plan.orderBy []) ∧
        ∃ sorted,
          (∀ sorter, sortTuples sorter planned.plan.orderBy tuples [] = .ok sorted) ∧
          ∀ ys, StableSort (orderTuples planned.plan.orderBy []) tuples ys ↔ ys = sorted) := by
  refine ⟨Value.sortOrder_swap hs hv hw, Value.sortOrder_isLE_iff hs hv hw hu, fun hblurs => ?_, ?_⟩
  · exact ⟨hblurs.sortOrder_eq hs hv hw hu, hblurs.float_type hw, hblurs.extreme⟩
  · intro c b planned t tuples hplan htyped hmatching
    have hreads := fun key (hkey : key ∈ planned.plan.orderBy) =>
      Body.plan_key_reads hplan htyped hmatching hkey
    -- A key that can be read has a value on every tuple.
    have hread : ∀ key ∈ planned.plan.orderBy, ∀ tuple ∈ tuples,
        key.column.value tuple [] = .ok (key.read [] tuple) := by
      intro key hkey tuple htuple
      obtain ⟨s, -, hread⟩ := hreads key hkey
      exact hread.value_eq htuple
    refine ⟨hreads, fun sorter htotal => sortTuples_of_isTotal hread htotal, fun hclear => ?_⟩
    have hpreorder := orderTuples_totalPreorderOn_of_clear hreads hclear
    exact ⟨hpreorder, _, fun sorter => sortTuples_eq hread hpreorder,
      fun ys => stableSort_iff hpreorder⟩

/-- The users in Berlin are ordered by their logins, which are strings. -/
theorem Sample.busyInBerlin_strings :
    ∃ planned tuples rows, busyInBerlin.plan catalog = .ok planned ∧
      tables.fetch planned.plan = .ok rows ∧
      planned.plan.projection.isAggregate = false ∧ planned.plan.distinct = false ∧
      planned.plan.window = none ∧ planned.plan.orderBy ≠ [] ∧
      planned.plan.matching ⟨tables, planned.plan.parameters, .insertion⟩ [] = .ok tuples ∧ tuples ≠ [] ∧
      ∀ key ∈ planned.plan.orderBy,
        key.Reads [] (fun v => ScalarType.string.accepts v = true) tuples := by
  have h : (busyInBerlin.plan catalog).toOption.any (fun planned =>
      (tables.fetch planned.plan).toBool &&
      (planned.plan.matching ⟨tables, planned.plan.parameters, .insertion⟩ []).toOption.any fun tuples =>
        !planned.plan.projection.isAggregate && !planned.plan.distinct &&
          planned.plan.window.isNone && !planned.plan.orderBy.isEmpty && !tuples.isEmpty &&
          planned.plan.orderBy.all fun key => tuples.all fun tuple =>
            (key.column.value tuple []).toOption.any ScalarType.string.accepts) = true := by
    decide +kernel
  obtain ⟨planned, hplanned, h⟩ := exists_ok_and h
  rw [Bool.and_eq_true] at h
  obtain ⟨rows, hrows⟩ := exists_ok h.1
  obtain ⟨tuples, hmatching, h⟩ := exists_ok_and h.2
  -- All that is asked was decided at once, and is taken apart here.
  simp only [Bool.and_eq_true, Bool.not_eq_true', Option.isNone_iff_eq_none, List.isEmpty_eq_false_iff,
    List.all_eq_true] at h
  obtain ⟨⟨⟨⟨⟨hagg, hdistinct⟩, hwindow⟩, hkeys⟩, htuples⟩, hstrings⟩ := h
  exact ⟨planned, tuples, rows, hplanned, hrows, hagg, hdistinct, hwindow, hkeys, hmatching, htuples,
    fun key hkey tuple htuple => exists_ok_and (hstrings key hkey tuple htuple)⟩

theorem Body.orderings_correct_sample :
    ((Value.int64 2).sortOrder (.float64 1.5) = .gt ∧
      (Value.float64 1.5).sortOrder (.int64 2) = .lt) ∧
    ∃ planned tuples sorted, Sample.busyInBerlin.plan Sample.catalog = .ok planned ∧
      planned.plan.matching ⟨Sample.tables, planned.plan.parameters, .insertion⟩ [] = .ok tuples ∧
      tuples ≠ [] ∧ (∀ sorter, sortTuples sorter planned.plan.orderBy tuples [] = .ok sorted) ∧
      ∀ ys, StableSort (orderTuples planned.plan.orderBy []) tuples ys ↔ ys = sorted := by
  obtain ⟨hswap, -, -, hbodies⟩ := Body.orderings_correct (s := .float64) (v := .float64 1.5)
    (w := .int64 2) (u := .null) rfl (.inr rfl) (.inr rfl) (.inl rfl)
  constructor
  · have hlt : (Value.float64 1.5).sortOrder (.int64 2) = .lt := by decide +kernel
    exact ⟨hswap.trans (congrArg Ordering.swap hlt), hlt⟩
  · obtain ⟨planned, tuples, -, hplan, -, -, -, -, -, hmatching, htuples, hreads⟩ :=
      Sample.busyInBerlin_strings
    obtain ⟨-, -, hclear⟩ := hbodies hplan Sample.tables_conforms.typed hmatching
    obtain ⟨-, sorted, hsorted, hunique⟩ := hclear fun key hkey x _ y hy z _ hblurs => by
      have haccepts : ScalarType.string.accepts (key.read [] y) = true := (hreads key hkey).read hy
      obtain h | h := hblurs.float_type (.inr haccepts) <;> cases h
    exact ⟨planned, tuples, sorted, hplan, hmatching, htuples, hsorted, hunique⟩

/-- A float that two integers become. -/
theorem Value.sortOrder_rounded :
    (int64 9007199254740993).StoredAs .float64 ∧ (float64 9007199254740992).StoredAs .float64 ∧
      (int64 9007199254740992).StoredAs .float64 ∧
      ((int64 9007199254740993).sortOrder (float64 9007199254740992)).isLE = true ∧
      ((float64 9007199254740992).sortOrder (int64 9007199254740992)).isLE = true ∧
      ((int64 9007199254740993).sortOrder (int64 9007199254740992)).isLE = false :=
  ⟨.inr rfl, .inr rfl, .inr rfl, by decide +kernel, by decide +kernel, by decide +kernel⟩

end EntityQuery
