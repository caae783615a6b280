import EntityQuery.Proofs.Engine.Attributes
import EntityQuery.Proofs.Evaluation.EqualValues

/-!
# Equal rows

A query for distinct rows drops rows that are identical to an earlier one. Rows of attributes that
are equal cell by cell need not be identical, for equality widens. So both of them are kept where an
attribute holds one number as values of two kinds, or 64-bit integers that round alike.
-/

namespace EntityQuery

/-! ## Distinct rows -/

section Distinct

variable {rows : List Row}

theorem distinctRows_sublist (seen rows : List Row) : (distinctRows seen rows).Sublist rows := by
  induction rows generalizing seen with
  | nil => exact .slnil
  | cons row rows ih =>
    rw [distinctRows]
    split
    · exact (ih seen).cons row
    · exact (ih (row :: seen)).cons_cons row

/-- A row is kept, or it is identical to one that was seen before or is kept. -/
theorem distinctRows_covers {row : Row} (seen : List Row) (h : row ∈ rows) :
    row ∈ distinctRows seen rows ∨
      ∃ row' ∈ seen ++ distinctRows seen rows, row'.identical row = true := by
  induction rows generalizing seen with
  | nil => cases h
  | cons first rows ih =>
    rw [distinctRows]
    split
    case isTrue hseen =>
      rcases List.mem_cons.mp h with rfl | h
      · obtain ⟨row', hrow', hid⟩ := List.any_eq_true.mp hseen
        exact .inr ⟨row', List.mem_append_left _ hrow', hid⟩
      · exact ih seen h
    case isFalse =>
      rcases List.mem_cons.mp h with rfl | h
      · exact .inl List.mem_cons_self
      · rcases ih (first :: seen) h with hkept | ⟨row', hrow', hid⟩
        · exact .inl (List.mem_cons_of_mem _ hkept)
        · exact .inr ⟨row', by simp_all [or_left_comm], hid⟩

/-- A row that is kept is not identical to any that was seen or kept before. -/
theorem distinctRows_pairwise (seen rows : List Row) :
    (distinctRows seen rows).Pairwise (fun row row' => row.identical row' = false) ∧
      ∀ row ∈ distinctRows seen rows, ∀ row' ∈ seen, row'.identical row = false := by
  induction rows generalizing seen with
  | nil => simp [distinctRows]
  | cons first rows ih =>
    rw [distinctRows]
    split
    case isTrue => exact ih seen
    case isFalse hseen =>
      obtain ⟨hpairwise, hnew⟩ := ih (first :: seen)
      refine ⟨List.pairwise_cons.mpr ⟨fun row hrow => hnew row hrow first List.mem_cons_self,
        hpairwise⟩, ?_⟩
      intro row hrow row' hrow'
      rcases List.mem_cons.mp hrow with rfl | hrow
      · have hnone := List.any_eq_false.mp (Bool.eq_false_iff.mpr hseen) row' hrow'
        exact Bool.eq_false_iff.mpr hnone
      · exact hnew row hrow row' (List.mem_cons_of_mem _ hrow')

end Distinct

/-! ## Rows that are equal cell by cell -/

/-- Rows whose cells are equal. -/
def Row.CellwiseEqual (a b : Row) : Prop :=
  a.Like (fun v w => v.equal w = true) b

/-- Rows whose cells are values, and not records. -/
def Row.HoldsValues (row : Row) : Prop :=
  ∀ cell ∈ row.cells, ∃ v, cell = .value v

namespace Row

variable {a b : Row}

theorem cellwiseEqual_of_identical (ha : a.HoldsValues) (hb : b.HoldsValues)
    (h : a.identical b = true) : a.CellwiseEqual b := by
  obtain ⟨as⟩ := a
  obtain ⟨bs⟩ := b
  have h : List.Forall₂ (fun x y => x.identical y = true) as bs := identical_iff.mp h
  show List.Forall₂ (Cell.Like _) as bs
  refine List.forall₂_iff_zip.mpr ⟨h.length_eq, fun {x y} hxy => ?_⟩
  obtain ⟨v, rfl⟩ := ha x (List.of_mem_zip hxy).1
  obtain ⟨w, rfl⟩ := hb y (List.of_mem_zip hxy).2
  exact .value (Value.equal_of_identical ((List.forall₂_iff_zip.mp h).2 hxy))

theorem CellwiseEqual.symm (h : a.CellwiseEqual b) : b.CellwiseEqual a := by
  refine List.Forall₂.flip (List.Forall₂.imp (fun x y hxy => ?_) h)
  cases hxy with
  | value hequal => exact .value ((Value.equal_comm _ _).trans hequal)
  | record r => exact .record r

/-- What is identical to a row is equal to the same rows. -/
theorem CellwiseEqual.of_identical {a' : Row} (ha : a.HoldsValues) (ha' : a'.HoldsValues)
    (hid : a'.identical a = true) (h : a.CellwiseEqual b) : a'.CellwiseEqual b := by
  obtain ⟨as⟩ := a
  obtain ⟨as'⟩ := a'
  obtain ⟨bs⟩ := b
  have hid : List.Forall₂ (fun x y => x.identical y = true) as' as := identical_iff.mp hid
  have h : List.Forall₂ (Cell.Like fun v w => v.equal w = true) as bs := h
  show List.Forall₂ (Cell.Like _) as' bs
  -- The cells at one position are values, and equality goes along with identity.
  refine List.forall₂_iff_get.mpr ⟨hid.length_eq.trans h.length_eq, fun i hi hi' => ?_⟩
  have hi₀ : i < as.length := hid.length_eq ▸ hi
  have hcell := (List.forall₂_iff_get.mp h).2 i hi₀ hi'
  have hcell' := (List.forall₂_iff_get.mp hid).2 i hi hi₀
  obtain ⟨v, hv⟩ := ha _ (List.get_mem as ⟨i, hi₀⟩)
  obtain ⟨v', hv'⟩ := ha' _ (List.get_mem as' ⟨i, hi⟩)
  rw [hv] at hcell
  rw [hv, hv'] at hcell'
  rw [hv']
  generalize bs.get ⟨i, hi'⟩ = cell at hcell
  cases hcell with
  | value hequal => exact .value ((Value.compare_congr (.inr hcell') _).1.1.trans hequal)

theorem identical_self_of_cellwiseEqual (ha : a.HoldsValues) (h : a.CellwiseEqual a) :
    a.identical a = true := by
  refine identical_iff.mpr (List.forall₂_same.mpr fun x hx => ?_)
  obtain ⟨v, rfl⟩ := ha x hx
  have hcell := List.forall₂_same.mp h _ hx
  cases hcell with
  | value hequal => exact Value.identical_self_of_equal hequal

/-- Rows that are equal, but not identical, differ in a cell of that kind. -/
theorem exists_equalApart (ha : a.HoldsValues) (h : a.CellwiseEqual b) (hid : a.identical b = false) :
    ∃ (i : Nat) (v w : Value), a.cells[i]? = some (.value v) ∧ b.cells[i]? = some (.value w) ∧
      v.EqualApart w := by
  obtain ⟨as⟩ := a
  obtain ⟨bs⟩ := b
  have h : List.Forall₂ (Cell.Like fun v w => v.equal w = true) as bs := h
  have hid : ¬List.Forall₂ (fun x y => x.identical y = true) as bs := fun hall =>
    Bool.eq_false_iff.mp hid (identical_iff.mpr hall)
  -- If no cells were equal only, all of them would be identical.
  by_contra hnone
  refine hid (List.forall₂_iff_get.mpr ⟨h.length_eq, fun i hi hi' => ?_⟩)
  have hcell := (List.forall₂_iff_get.mp h).2 i hi hi'
  obtain ⟨v, hv⟩ := ha _ (List.get_mem as ⟨i, hi⟩)
  rw [hv] at hcell
  cases hw : bs.get ⟨i, hi'⟩ with
  | record r =>
    rw [hw] at hcell
    cases hcell
  | value w =>
    rw [hw] at hcell
    cases hcell with
    | value hequal =>
      rw [hv]
      by_contra hcells
      refine hnone ⟨i, v, w, ?_, ?_, .of_not_identical hequal (Bool.eq_false_iff.mpr hcells)⟩
      · exact (List.getElem?_eq_getElem hi).trans (congrArg some hv)
      · exact (List.getElem?_eq_getElem hi').trans (congrArg some hw)

end Row

/-- No two distinct rows are equal cell by cell if rows that are so are identical, and only then. -/
theorem distinctRows_pairwise_iff {rows : List Row} (hholds : ∀ row ∈ rows, row.HoldsValues) :
    (distinctRows [] rows).Pairwise (fun row row' => ¬row.CellwiseEqual row') ↔
      ∀ row ∈ rows, ∀ row' ∈ rows, row.CellwiseEqual row' → row.identical row' = true := by
  constructor
  · intro hpairwise row hrow row' hrow' hequal
    -- Each of the two is identical to a row that is kept, or is that row.
    have hkept : ∀ row ∈ rows, ∃ k ∈ distinctRows [] rows, (k = row ∨ k.identical row = true) ∧
        ∀ other, row.CellwiseEqual other → k.CellwiseEqual other := by
      intro row hrow
      rcases distinctRows_covers [] hrow with hkept | ⟨k, hk, hid⟩
      · exact ⟨row, hkept, .inl rfl, fun _ h => h⟩
      · exact ⟨k, hk, .inr hid, fun _ h =>
          h.of_identical (hholds row hrow) (hholds k (mem_of_mem_distinctRows hk)) hid⟩
    obtain ⟨k, hk, hrel, hcongr⟩ := hkept row hrow
    obtain ⟨k', hk', hrel', hcongr'⟩ := hkept row' hrow'
    have hequal' : k'.CellwiseEqual k := hcongr' k (hcongr row' hequal).symm
    obtain rfl : k = k' := by
      by_contra hne
      have hsymm : Std.Symm fun row row' : Row => ¬row.CellwiseEqual row' :=
        ⟨fun _ _ hab hba => hab hba.symm⟩
      exact hpairwise.forall hk' hk (Ne.symm hne) hequal'
    rcases hrel with rfl | hid
    · rcases hrel' with rfl | hid'
      · exact Row.identical_self_of_cellwiseEqual (hholds k hrow) hequal
      · exact hid'
    · rcases hrel' with rfl | hid'
      · exact Row.identical_symm hid
      · exact Row.identical_trans (Row.identical_symm hid) hid'
  · intro hall
    refine (distinctRows_pairwise [] rows).1.imp_of_mem fun hrow hrow' hid hequal => ?_
    have hid' := hall _ (mem_of_mem_distinctRows hrow) _ (mem_of_mem_distinctRows hrow') hequal
    rw [hid] at hid'
    cases hid'

/-! ## Queries for distinct rows -/

/-- A scope is planned alike whether its rows are to be distinct or not. -/
theorem Body.run_planScope_distinct {c : Catalog} {b : Body} {returns : Option Returned}
    {s s' : Scopes} {q : PlannedQuery} (h : (b.planScope c returns).run s = .ok (q, s'))
    (distinct : Bool) : ({ b with distinct := distinct }.planScope c returns).run s =
      .ok ({ q with plan := { q.plan with distinct := distinct } }, s') := by
  obtain ⟨scope, entity, statements, joins, selection, orderBy, distinct₀, assignments⟩ := b
  show (Body.planScope c returns
    ⟨scope, entity, statements, joins, selection, orderBy, distinct, assignments⟩).run s = _
  rw [Body.planScope] at h ⊢
  simp only [Planner.run_bind_ok, Planner.run_pure_ok] at h ⊢
  -- The steps of planning up to the plan, of which none looks at the mark.
  obtain ⟨e, s₀, he, ⟨t, g⟩, _, hscope, rfl, rfl⟩ := h
  rw [Planner.run_inScope_ok] at hscope
  simp only [Planner.run_bind_ok, Planner.run_pure_ok] at hscope
  obtain ⟨_, s₁, hjoins, ys, s₂, hys, selected, s₃, hselected, ⟨projection, shapes, types⟩, s₄,
    hprojection, keys, s₅, hkeys, rfl, rfl⟩ := hscope
  let plan : Plan := {
    entity
    joins := []
    filter := Statement.combine .and .or ys
    projection
    distinct
    orderBy := keys
    window := none
    parameters := [] }
  -- The same steps lead to the plan with the other mark.
  refine ⟨e, s₀, he, (⟨plan, shapes, types⟩, g), _, Planner.run_inScope_ok.mpr ?_, rfl, rfl⟩
  simp only [Planner.run_bind_ok, Planner.run_pure_ok]
  exact ⟨(), s₁, hjoins, ys, s₂, hys, selected, s₃, hselected, (projection, shapes, types), s₄,
    hprojection, keys, _, hkeys, rfl, rfl⟩

theorem Body.plan_distinct {c : Catalog} {b : Body} {planned : PlannedQuery}
    (h : b.plan c = .ok planned) (distinct : Bool) : { b with distinct := distinct }.plan c =
      .ok { planned with plan := { planned.plan with distinct := distinct } } := by
  obtain ⟨q, s, hrun, rfl⟩ := plan_ok.mp h
  exact plan_ok.mpr ⟨_, s, run_planScope_distinct hrun distinct, rfl⟩

/-- A plan for distinct rows fails where the one for all rows does. -/
theorem Tables.fetch_distinct {q : Plan} (t : Tables) (hagg : q.projection.isAggregate = false)
    (hwindow : q.window = none) (hdistinct : q.distinct = true) :
    t.fetch q = (t.fetch { q with distinct := false }).map (distinctRows []) := by
  rw [fetch, fetch, fetchBy, fetchBy, Plan.rows_eq, Plan.rows_eq]
  simp only [hagg, hwindow, hdistinct, Bool.false_eq_true, if_false, if_true, windowed]
  show _ = distinctRows [] <$> _
  simp only [map_bind]
  rfl

/-- Shapes of values, as opposed to those of records. -/
def Shape.isValue (shape : Shape) : Bool :=
  CellType.any.shape.accepts shape

/-- A query that selects attributes has rows of values that are given under its shapes. -/
theorem Body.plan_gives {c : Catalog} {t : Tables} {b : Body} {planned : PlannedQuery}
    (htyped : t.Typed c) (h : b.plan c = .ok planned)
    (hpaths : ∀ e ∈ b.selection.getD [], e.isPath = true)
    (hvalues : ∀ shape ∈ planned.shapes, shape.isValue = true) {rows : List Row}
    (hrows : t.fetch planned.plan = .ok rows) {row : Row} (hrow : row ∈ rows) {i : Nat}
    (hi : i < row.cells.length) :
    ∃ shape v, planned.shapes[i]? = some shape ∧ row.cells[i]? = some (.value v) ∧
      t.Gives c shape v := by
  obtain ⟨q, selected, hplan, hplanned, hshapes⟩ := plan_plannedAs h
  have hwidth : row.cells.length = planned.shapes.length :=
    (Plan.length_cells hrows hrow).trans (length_shapes h).symm
  -- The shapes of a body without a selection are those of its root, which is no value.
  have hselected : selected ≠ [] := by
    rintro rfl
    have hnone : b.selection.getD [] = [] := by
      cases hplanned with
      | intro _ _ _ hitems => exact List.forall₂_nil_right_iff.mp hitems.forall₂
    rw [shapes_root h hnone] at hvalues
    cases hvalues _ (List.mem_singleton_self _)
  have hshapes := (hshapes hselected).1
  -- So there is an item with this shape, and its cell is given under it.
  rw [hwidth, hshapes, List.length_map] at hi
  have hx := List.getElem?_eq_getElem hi
  have hshape : planned.shapes[i]? = some selected[i].shape := by
    rw [hshapes, List.getElem?_map, hx]
    rfl
  rw [Tables.fetch_eq_rows hplan] at hrows
  obtain ⟨entity, joins, filter, projection, distinct, orderBy, window, parameters⟩ := q
  obtain ⟨v, hv, hgives⟩ := hplanned.gives (s := ⟨t, planned.plan.parameters, .insertion⟩) htyped hpaths hrows hrow
    hx (t := .any) rfl (hvalues _ (List.mem_of_getElem? hshape))
  exact ⟨_, v, hshape, hv, hgives⟩

/-- Rows of a query that selects attributes are equal, but not identical, only because of a column of
a mixed type. -/
theorem Body.plan_equalApart {c : Catalog} {t : Tables} {b : Body} {planned : PlannedQuery}
    (htyped : t.Typed c) (h : b.plan c = .ok planned)
    (hpaths : ∀ e ∈ b.selection.getD [], e.isPath = true)
    (hvalues : ∀ shape ∈ planned.shapes, shape.isValue = true) {rows : List Row}
    (hrows : t.fetch planned.plan = .ok rows) {row row' : Row} (hrow : row ∈ rows)
    (hrow' : row' ∈ rows) {i : Nat} {v w : Value} (hv : row.cells[i]? = some (.value v))
    (hw : row'.cells[i]? = some (.value w)) (hvw : v.EqualApart w) :
    ∃ shape, planned.shapes[i]? = some shape ∧ shape.isMixed = true := by
  obtain ⟨hi, -⟩ := List.getElem?_eq_some_iff.mp hv
  obtain ⟨hi', -⟩ := List.getElem?_eq_some_iff.mp hw
  -- Both values are given under the one shape of their position.
  obtain ⟨shape, v', hshape, hv', hgives⟩ := plan_gives htyped h hpaths hvalues hrows hrow hi
  obtain ⟨shape', w', hshape', hw', hgives'⟩ := plan_gives htyped h hpaths hvalues hrows hrow' hi'
  cases hv.symm.trans hv'
  cases hw.symm.trans hw'
  cases hshape.symm.trans hshape'
  -- Null is only equal to what it is identical to, so both have been stored.
  obtain ⟨hstrict, hstrict'⟩ := hvw.not_isStrict
  have hnull : v.isNull = false := Bool.eq_false_iff.mpr fun hnull =>
    hstrict (Value.isNull_iff.mp hnull ▸ Value.isStrict_null)
  have hnull' : w.isNull = false := Bool.eq_false_iff.mpr fun hnull =>
    hstrict' (Value.isNull_iff.mp hnull ▸ Value.isStrict_null)
  obtain ⟨type, htype, hstored⟩ := hgives.stored hnull
  obtain ⟨type', htype', hstored'⟩ := hgives'.stored hnull'
  exact ⟨shape, hshape, FieldType.isMixed_of_equalApart htype htype' (htyped.stores hstored)
    (htyped.stores hstored') hvw⟩

/-- A query for distinct rows that selects attributes is planned like the query for all its rows,
and fails where it does. On conforming tables that query has rows, or a sum in it overflows, under
every sorter that never gives up, and under any where its sorts are by total preorders. The distinct
rows are some of all rows, in their order, and no two of them are identical; each row that is missing
is identical, and hence equal cell by cell, to one of them. No two of them are equal cell by cell if
rows that are so are identical, and only then. Other rows that are equal cell by cell have in a column
of 64-bit integers, floats or timestamps two equal values of different kinds, or 64-bit integers that
round alike. -/
theorem Body.distinct_correct {c : Catalog} {t : Tables} {b : Body} {planned : PlannedQuery}
    (htyped : t.Typed c) (h : b.plan c = .ok planned) (hdistinct : b.distinct = true)
    (hpaths : ∀ e ∈ b.selection.getD [], e.isPath = true)
    (hvalues : ∀ shape ∈ planned.shapes, shape.isValue = true) :
    { b with distinct := false }.plan c =
        .ok { planned with plan := { planned.plan with distinct := false } } ∧
      t.fetch planned.plan =
        (t.fetch { planned.plan with distinct := false }).map (distinctRows []) ∧
      (t.Conforms c → ∀ sorter : Sorter, sorter.IsTotal ∨
          Plan.SortsPreordered ⟨t, planned.plan.parameters, sorter⟩ []
            { planned.plan with distinct := false } →
        (∃ rows, t.fetchBy sorter { planned.plan with distinct := false } = .ok rows) ∨
          t.fetchBy sorter { planned.plan with distinct := false } =
            .error (.evaluation .sumOverflow)) ∧
      ∀ rows fetched, t.fetch { planned.plan with distinct := false } = .ok rows →
        t.fetch planned.plan = .ok fetched →
        fetched.Sublist rows ∧
        fetched.Pairwise (fun row row' => row.identical row' = false) ∧
        (∀ row ∈ rows, row ∈ fetched ∨
          ∃ row' ∈ fetched, row'.identical row = true ∧ row'.CellwiseEqual row) ∧
        (fetched.Pairwise (fun row row' => ¬row.CellwiseEqual row') ↔
          ∀ row ∈ rows, ∀ row' ∈ rows, row.CellwiseEqual row' → row.identical row' = true) ∧
        ∀ row ∈ rows, ∀ row' ∈ rows, row.CellwiseEqual row' → row.identical row' = false →
          ∃ (i : Nat) (v w : Value) (shape : Shape),
            row.cells[i]? = some (.value v) ∧ row'.cells[i]? = some (.value w) ∧ v.EqualApart w ∧
            planned.shapes[i]? = some shape ∧ shape.isMixed = true := by
  have hplain := plan_distinct h false
  -- The mark only acts on the rows at the end, so all rows are fetched either way.
  have hfetch : t.fetch planned.plan =
      (t.fetch { planned.plan with distinct := false }).map (distinctRows []) := by
    obtain ⟨q, selected, hplan, hplanned, -⟩ := plan_plannedAs h
    have hagg := hplanned.isAggregate_of_paths hpaths
    cases hplanned
    rw [hplan]
    exact t.fetch_distinct hagg rfl hdistinct
  refine ⟨hplain, hfetch, fun hconf sorter => (plan_fetch_safe hconf hplain sorter).2,
    fun rows fetched hrows hfetched => ?_⟩
  rw [hrows, Except.map] at hfetch
  obtain rfl : fetched = distinctRows [] rows := Except.ok.inj (hfetched.symm.trans hfetch)
  -- What attributes select are values, so identity and equality go cell by cell.
  have hholds : ∀ row ∈ rows, row.HoldsValues := by
    intro row hrow cell hcell
    obtain ⟨i, hi⟩ := List.mem_iff_getElem?.mp hcell
    obtain ⟨hlt, -⟩ := List.getElem?_eq_some_iff.mp hi
    obtain ⟨-, v, -, hv, -⟩ := plan_gives htyped hplain hpaths hvalues hrows hrow hlt
    cases hi.symm.trans hv
    exact ⟨v, rfl⟩
  have hpairwise := (distinctRows_pairwise [] rows).1
  have hcovers : ∀ row ∈ rows, row ∈ distinctRows [] rows ∨
      ∃ row' ∈ distinctRows [] rows, row'.identical row = true ∧ row'.CellwiseEqual row := by
    intro row hrow
    refine (distinctRows_covers [] hrow).imp_right fun ⟨row', hrow', hid⟩ => ?_
    have hall := hholds row' (mem_of_mem_distinctRows hrow')
    exact ⟨row', hrow', hid, Row.cellwiseEqual_of_identical hall (hholds row hrow) hid⟩
  refine ⟨distinctRows_sublist [] rows, hpairwise, hcovers, distinctRows_pairwise_iff hholds, ?_⟩
  · intro row hrow row' hrow' hequal hid
    -- Equal rows that are not identical differ in a cell, and so in a column of a mixed type.
    obtain ⟨i, v, w, hv, hw, hvw⟩ := Row.exists_equalApart (hholds row hrow) hequal hid
    obtain ⟨shape, hshape, hmixed⟩ :=
      plan_equalApart htyped hplain hpaths hvalues hrows hrow hrow' hv hw hvw
    exact ⟨i, v, w, shape, hv, hw, hvw, hshape, hmixed⟩

/-- Logins are strings, and so no two distinct logins are equal. -/
theorem Body.distinct_correct_sample :
    Sample.tables.Typed Sample.catalog ∧ Sample.ownerLogins.distinct = true ∧
      (∀ e ∈ Sample.ownerLogins.selection.getD [], e.isPath = true) ∧
      ∃ planned, Sample.ownerLogins.plan Sample.catalog = .ok planned ∧
        (∀ shape ∈ planned.shapes, shape.isValue = true) ∧
        ∃ fetched, Sample.tables.fetch planned.plan = .ok fetched ∧
          fetched.Pairwise fun row row' => ¬row.CellwiseEqual row' := by
  have hpaths : ∀ e ∈ Sample.ownerLogins.selection.getD [], e.isPath = true := by decide +kernel
  obtain ⟨planned, h, hplanned⟩ := Sample.exists_ok_and (x := Sample.ownerLogins.plan Sample.catalog)
    (p := fun planned => (Sample.tables.fetch planned.plan).toBool &&
      planned.shapes.all fun shape => shape.isValue && !shape.isMixed) (by decide +kernel)
  simp only [Bool.and_eq_true, List.all_eq_true, Bool.not_eq_true'] at hplanned
  obtain ⟨hok, hshapes⟩ := hplanned
  obtain ⟨fetched, hfetched⟩ := Sample.exists_ok hok
  have hvalues : ∀ shape ∈ planned.shapes, shape.isValue = true := fun shape hshape =>
    (hshapes shape hshape).1
  obtain ⟨-, hmap, -, hrows⟩ := Body.distinct_correct Sample.tables_conforms.typed h rfl hpaths hvalues
  refine ⟨Sample.tables_conforms.typed, rfl, hpaths, planned, h, hvalues, fetched, hfetched, ?_⟩
  cases hplain : Sample.tables.fetch { planned.plan with distinct := false } with
  | error e =>
    rw [hplain, hfetched] at hmap
    cases hmap
  | ok rows =>
    obtain ⟨-, -, -, hiff, hmixed⟩ := hrows rows fetched hplain hfetched
    -- If two logins were equal but not identical, their type would be mixed.
    refine hiff.mpr fun row hrow row' hrow' hequal => ?_
    by_contra hid
    obtain ⟨i, v, w, shape, -, -, -, hshape, htrue⟩ :=
      hmixed row hrow row' hrow' hequal (Bool.eq_false_iff.mpr hid)
    have hfalse := (hshapes shape (List.mem_of_getElem? hshape)).2
    rw [htrue] at hfalse
    cases hfalse

/-! ## One number in two kinds -/

namespace Sample

/-- A catalog of items that have a number. -/
def numbered : Catalog where
  schema := {
    version := 1
    entities := [("Item", {
      name := "Item"
      identityField := "id"
      fields := [.new "id" (.scalar .int64), .new "big" (.scalar .int64)] })]
    relations := [] }
  faultless := by decide +kernel

/-- Two items with one number, stored as integers of different widths. -/
def numberedTables : Tables :=
  ⟨[("Item", rows "Item" ["id", "big"] [[.int64 1, .int32 5], [.int64 2, .int64 5]])]⟩

/-- The numbers of all items without repetition. -/
def numbers : Body :=
  Recorder.record "Item" fun item => do
    Recorder.select item [.path (item.child "big")]
    Recorder.distinct item

end Sample

/-- Of a number that is stored in two kinds both are kept, although they are equal. -/
theorem Body.distinct_keeps_equal_rows :
    Sample.numberedTables.Conforms Sample.numbered ∧ Sample.numbers.distinct = true ∧
      (∀ e ∈ Sample.numbers.selection.getD [], e.isPath = true) ∧
      ∃ planned, Sample.numbers.plan Sample.numbered = .ok planned ∧
        (∀ shape ∈ planned.shapes, shape.isValue = true) ∧
        Sample.numberedTables.fetch planned.plan =
          .ok [⟨[.value (.int32 5)]⟩, ⟨[.value (.int64 5)]⟩] ∧
        Row.CellwiseEqual ⟨[.value (.int32 5)]⟩ ⟨[.value (.int64 5)]⟩ := by
  obtain ⟨planned, h, hplanned⟩ := Sample.exists_ok_and (x := Sample.numbers.plan Sample.numbered)
    (p := fun planned => planned.shapes.all Shape.isValue &&
      decide ((Sample.numberedTables.fetch planned.plan).toOption =
        some [⟨[.value (.int32 5)]⟩, ⟨[.value (.int64 5)]⟩])) (by decide +kernel)
  simp only [Bool.and_eq_true, List.all_eq_true, decide_eq_true_eq] at hplanned
  refine ⟨.of_all (by decide +kernel), rfl, by decide +kernel, planned, h, hplanned.1,
    Sample.eq_ok hplanned.2, ?_⟩
  exact .cons (.value (show (Value.int32 5).equal (.int64 5) = true by decide)) .nil

end EntityQuery
