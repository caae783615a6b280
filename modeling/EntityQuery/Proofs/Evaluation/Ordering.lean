import EntityQuery.Proofs.Evaluation.Outcomes

/-!
# Ordering and rows

Ordering tuples reads keys, which may fail, and then only rearranges. How many rows a query has does
not depend on it, and each row is still that of one tuple, with one cell for each item.
-/

namespace EntityQuery

section Rows

variable {s : Source} {outer : List Tuple}

/-- A plan is evaluated part by part. -/
theorem Plan.rows_eq (s : Source) (outer : List Tuple) (q : Plan) :
    q.rows s outer = (do
      let tuples ← s.tables.bind q.entity q.joins
      let tuples ← filterTuples s outer tuples q.filter
      if q.projection.isAggregate then do
        let row ← q.projection.aggregateRow tuples outer
        .ok (windowed q.window [row])
      else do
        let tuples ← sortTuples s.sorter q.orderBy tuples outer
        let rows ← tuples.mapM fun tuple => q.projection.row s tuple outer
        .ok (windowed q.window (if q.distinct then distinctRows [] rows else rows))) := by
  cases q
  rw [rows]

theorem Plan.bind_of_rows {q : Plan} {rows : List Row} (h : q.rows s outer = .ok rows) :
    ∃ bound, s.tables.bind q.entity q.joins = .ok bound := by
  rw [rows_eq] at h
  obtain ⟨bound, hbound, -⟩ := bind_eq_ok.mp h
  exact ⟨bound, hbound⟩

/-- The rows of a plan that does not aggregate are bound, filtered, ordered, projected and made
distinct. -/
theorem Plan.rows_ok {q : Plan} (hagg : q.projection.isAggregate = false) {rows : List Row} :
    q.rows s outer = .ok rows ↔
      ∃ bound tuples sorted projected, s.tables.bind q.entity q.joins = .ok bound ∧
        filterTuples s outer bound q.filter = .ok tuples ∧
        sortTuples s.sorter q.orderBy tuples outer = .ok sorted ∧
        sorted.mapM (fun tuple => q.projection.row s tuple outer) = .ok projected ∧
        rows = windowed q.window (if q.distinct then distinctRows [] projected else projected) := by
  rw [rows_eq]
  simp only [hagg, Bool.false_eq_true, if_false, bind_eq_ok, Except.ok.injEq]
  constructor
  · rintro ⟨bound, hbound, tuples, htuples, sorted, hsorted, projected, hprojected, h⟩
    exact ⟨bound, tuples, sorted, projected, hbound, htuples, hsorted, hprojected, h.symm⟩
  · rintro ⟨bound, tuples, sorted, projected, hbound, htuples, hsorted, hprojected, h⟩
    exact ⟨bound, hbound, tuples, htuples, sorted, hsorted, projected, hprojected, h.symm⟩

/-- A filter keeps tuples. -/
theorem mem_of_filterTuples {tuples kept : List Tuple}
    {filter : Option Predicate} (h : filterTuples s outer tuples filter = .ok kept) {tuple : Tuple}
    (htuple : tuple ∈ kept) : tuple ∈ tuples := by
  cases filter with
  | none =>
    rw [filterTuples] at h
    obtain rfl := Except.ok.inj h
    exact htuple
  | some p =>
    rw [filterTuples] at h
    obtain ⟨tuple', htuple', kept', hkept', hmem⟩ := mem_of_flatMapE h htuple
    obtain ⟨truth, -, hkept'⟩ := bind_eq_ok.mp hkept'
    obtain rfl := Except.ok.inj hkept'
    split at hmem
    · obtain rfl := List.mem_singleton.mp hmem
      exact htuple'
    · cases hmem

theorem Sorter.arrange_perm {sorter : Sorter} {keys : List SortKey}
    {keyed : List (List Value × Tuple)} {sorted : List Tuple}
    (h : sorter.arrange keys keyed = .ok sorted) : sorted.Perm (keyed.map Prod.snd) := by
  rw [arrange] at h
  split at h
  case h_1 arranged harranged =>
    obtain rfl := Except.ok.inj h
    exact (sorter.perm harranged).map Prod.snd
  case h_2 => cases h

theorem sortTuples_perm {sorter : Sorter} {keys : List SortKey} {tuples sorted : List Tuple}
    (h : sortTuples sorter keys tuples outer = .ok sorted) : sorted.Perm tuples := by
  obtain ⟨keyed, hkeyed, h⟩ := bind_eq_ok.mp h
  -- Each tuple stays beside its keys.
  have hsnd : keyed.map Prod.snd = tuples := by
    rw [← List.forall₂_eq_eq_eq, List.forall₂_map_left_iff]
    refine (mapM_eq_ok.mp hkeyed).flip.imp fun kv tuple hkv => ?_
    obtain ⟨values, -, hkv⟩ := bind_eq_ok.mp hkv
    obtain rfl := Except.ok.inj hkv
    rfl
  have hperm := Sorter.arrange_perm h
  rw [hsnd] at hperm
  exact hperm

/-- Whole records are projected without fail. -/
theorem Projection.mapM_root_row (s : Source) (outer tuples : List Tuple) :
    tuples.mapM (fun tuple => Projection.root.row s tuple outer) =
      .ok (tuples.map fun tuple => ⟨[.record tuple.head?.join]⟩) := by
  refine mapM_eq_map fun tuple _ => ?_
  rw [Projection.row]

/-- A row of a plan that does not aggregate comes from a tuple that has passed the filter. -/
theorem Plan.exists_tuple {q : Plan} (hagg : q.projection.isAggregate = false) {rows : List Row}
    (h : q.rows s outer = .ok rows) {row : Row} (hrow : row ∈ rows) :
    ∃ bound tuples tuple, s.tables.bind q.entity q.joins = .ok bound ∧
      filterTuples s outer bound q.filter = .ok tuples ∧ tuple ∈ tuples ∧
      q.projection.row s tuple outer = .ok row := by
  obtain ⟨bound, tuples, sorted, projected, hbound, htuples, hsorted, hprojected, rfl⟩ :=
    (rows_ok hagg).mp h
  have hmem : row ∈ projected := by
    have hmem := mem_windowed hrow
    split at hmem
    · exact mem_of_mem_distinctRows hmem
    · exact hmem
  obtain ⟨i, hi⟩ := List.mem_iff_getElem?.mp hmem
  obtain ⟨tuple, htuple, hrow'⟩ := forall₂_getElem? (mapM_eq_ok.mp hprojected).flip hi
  have hpassed := (sortTuples_perm hsorted).mem_iff.mp (List.mem_of_getElem? htuple)
  exact ⟨bound, tuples, tuple, hbound, htuples, hpassed, hrow'⟩

/-- The one row of a plan that aggregates comes from all tuples that have passed the filter. -/
theorem Plan.aggregateRow_of_rows {q : Plan} (hagg : q.projection.isAggregate = true)
    {rows : List Row} (h : q.rows s outer = .ok rows) :
    ∃ tuples row, q.projection.aggregateRow tuples outer = .ok row ∧
      rows = windowed q.window [row] := by
  rw [rows_eq] at h
  simp only [hagg, if_true, bind_eq_ok, Except.ok.injEq] at h
  obtain ⟨_, -, tuples, -, row, hrow, rfl⟩ := h
  exact ⟨tuples, row, hrow, rfl⟩

end Rows

/-! ## Cells -/

section Cells

variable {s : Source} {tuple : Tuple} {tuples outer : List Tuple} {xs : List Item} {cell : Cell}
  {cells : List Cell} {row : Row}

theorem Item.cell_record_ok {slot : Nat} (h : (Item.record slot).cell s tuple outer = .ok cell) :
    ∃ r, tuple.record outer 0 slot = .ok r ∧ cell = .record r := by
  rw [Item.cell] at h
  obtain ⟨r, hr, h⟩ := bind_eq_ok.mp h
  exact ⟨r, hr, (Except.ok.inj h).symm⟩

theorem Item.cell_expr_ok {operand : Operand}
    (h : (Item.expr operand).cell s tuple outer = .ok cell) :
    ∃ v, operand.value s tuple outer = .ok v ∧ cell = .value v := by
  rw [Item.cell] at h
  obtain ⟨v, hv, h⟩ := bind_eq_ok.mp h
  exact ⟨v, hv, (Except.ok.inj h).symm⟩

theorem Item.aggregateCell_ok {f : Aggregate} {column : Option Column}
    (h : (Item.expr (.aggregate f column)).aggregateCell tuples outer = .ok cell) :
    ∃ v, f.ofTuples column tuples outer = .ok v ∧ cell = .value v := by
  obtain ⟨v, hv, h⟩ := bind_eq_ok.mp h
  exact ⟨v, hv, (Except.ok.inj h).symm⟩

theorem itemCells_eq_ok : itemCells s tuple outer xs = .ok cells ↔
    List.Forall₂ (fun (x : Item) cell => x.cell s tuple outer = .ok cell) xs cells := by
  induction xs generalizing cells with
  | nil =>
    rw [itemCells, List.forall₂_nil_left_iff]
    exact ⟨fun h => (Except.ok.inj h).symm, fun h => congrArg Except.ok h.symm⟩
  | cons x xs ih =>
    rw [itemCells, List.forall₂_cons_left_iff]
    constructor
    · intro h
      obtain ⟨cell, hcell, h⟩ := bind_eq_ok.mp h
      obtain ⟨rest, hrest, h⟩ := bind_eq_ok.mp h
      exact ⟨cell, rest, hcell, ih.mp hrest, (Except.ok.inj h).symm⟩
    · rintro ⟨cell, rest, hcell, hrest, rfl⟩
      exact bind_eq_ok.mpr ⟨cell, hcell, bind_eq_ok.mpr ⟨rest, ih.mpr hrest, rfl⟩⟩

/-- A row of items has the cell of each. -/
theorem Projection.row_items_ok :
    (Projection.items xs).row s tuple outer = .ok row ↔
      List.Forall₂ (fun (x : Item) cell => x.cell s tuple outer = .ok cell) xs row.cells := by
  rw [Projection.row]
  simp only [bind_eq_ok, itemCells_eq_ok]
  constructor
  · rintro ⟨cells, hcells, h⟩
    obtain rfl := Except.ok.inj h
    exact hcells
  · exact fun h => ⟨row.cells, h, rfl⟩

theorem Projection.aggregateRow_items_ok :
    (Projection.items xs).aggregateRow tuples outer = .ok row ↔
      List.Forall₂ (fun (x : Item) cell => x.aggregateCell tuples outer = .ok cell) xs
        row.cells := by
  rw [Projection.aggregateRow]
  simp only [bind_eq_ok, mapM_eq_ok]
  constructor
  · rintro ⟨cells, hcells, h⟩
    obtain rfl := Except.ok.inj h
    exact hcells
  · exact fun h => ⟨row.cells, h, rfl⟩

end Cells

end EntityQuery
