import EntityQuery.Proofs.Evaluation.Filling
import EntityQuery.Proofs.Evaluation.Progress
import EntityQuery.Proofs.Evaluation.Widths

/-!
# Cells that are never null

The shape of a selected path is nullable where its slot is optional, that of an aggregate where it is
not a count. Otherwise the path reads a slot that is always filled, in the query itself or in one
around it, and so the cell is never null.
-/

namespace EntityQuery

/-! ## Shapes that are not nullable -/

theorem FieldType.isNull_of_shape {t : FieldType} {v : Value}
    (hshape : (Shape.ofFieldType t).isNullable = false) (hv : t.accepts v = true) :
    v.isNull = false := by
  unfold accepts at hv
  split at hv
  · -- Only a nullable type accepts null, and its shape is nullable.
    cases t with
    | scalar | array | enumeration => cases hv
    | optionalScalar | optionalEnumeration => cases hshape
  · rename_i hnull
    exact Bool.eq_false_iff.mpr hnull

namespace Shape

variable {frames : List Frame} {level slot : Nat} {shape : Shape}

theorem isNullable_optional (shape : Shape) : shape.optional.isNullable = true := by
  cases shape <;> rfl

theorem of_inSlot (h : (shape.inSlot frames level slot).isNullable = false) :
    shape.isNullable = false ∧
      ∀ f, frames[level]? = some f → f.optionalSlots.contains slot = false := by
  unfold inSlot at h
  split at h
  · rw [isNullable_optional] at h
    cases h
  · rename_i hany
    refine ⟨h, fun f hf => ?_⟩
    rw [hf] at hany
    exact Bool.eq_false_iff.mpr hany

end Shape

/-- Only a count is never null. -/
theorem Aggregate.type_isNullable {f : Aggregate} {entity label : String} {of : Option FieldType}
    {t : FieldType} (h : f.type entity label of = .ok t)
    (hshape : (Shape.ofFieldType t).isNullable = false) : f = .count := by
  cases of with
  | none =>
    cases f with
    | count => rfl
    | sum | avg | min | max => cases h
  | some s =>
    cases f with
    | count => rfl
    | sum =>
      obtain ⟨-, -, -, ⟨-, -, rfl⟩ | rfl⟩ := type_number_ok (.inl rfl) h <;> cases hshape
    | avg =>
      obtain ⟨-, -, -, ⟨-, -, rfl⟩ | rfl⟩ := type_number_ok (.inr rfl) h <;> cases hshape
    | min | max =>
      -- What has an order is a scalar, whose extremes may be missing.
      cases s with
      | scalar =>
        obtain rfl := type_extreme_ok (by simp) h
        cases hshape
      | optionalScalar =>
        obtain rfl := type_extreme_ok (by simp) h
        cases hshape
      | array | enumeration | optionalEnumeration => cases h

theorem Aggregate.isNull_count {column : Option Column} {tuples outer : List Tuple} {v : Value}
    (h : Aggregate.count.ofTuples column tuples outer = .ok v) : v.isNull = false := by
  cases column with
  | none =>
    obtain rfl := Except.ok.inj h
    rfl
  | some column =>
    obtain ⟨vs, -, h⟩ := bind_eq_ok.mp h
    cases hvs : vs.filter fun v => !v.isNull with
    | nil =>
      rw [hvs] at h
      obtain rfl := Except.ok.inj h
      rfl
    | cons w ws =>
      rw [hvs] at h
      obtain rfl := Except.ok.inj h
      rfl

/-! ## Selected items -/

/-- Expressions that read what a body binds: paths and aggregates. -/
def Expr.isBound : Expr → Bool
  | .path _ | .aggregate .. => true
  | _ => false

section Items

variable {c : Catalog} {parameters : List (String × Value)} {s : Source} {frames : List Frame}
  {outer : List Tuple} {e : Expr} {x : SelectedItem} {cell : Cell}

/-- A slot of earlier frames that is not optional there is filled in all tuples of later ones. -/
theorem Frame.ExtendAll.fills {earlier : List Frame} (hext : Frame.ExtendAll earlier frames)
    (hsound : ∀ f ∈ frames, f.Sound c) {level slot : Nat} {f : Frame}
    (hf : earlier[level]? = some f) {entity : String} (hslot : f.entityOf? slot = some entity)
    (hnot : f.optionalSlots.contains slot = false) :
    ∃ g, frames[level]? = some g ∧ Join.Fills g.joins slot := by
  obtain ⟨g, hg, hfg⟩ := forall₂_getElem? hext hf
  have hord := (hsound g (List.mem_of_getElem? hg)).ordered
  have hle := (hfg.ordered hord).slot_le hslot
  exact ⟨g, hg, hfg.fills hord hle (fills_of_not_optional hnot)⟩

/-- Where a path leads in earlier frames is bound there already. -/
theorem Frame.ExtendAll.boundIn {earlier : List Frame} (hext : Frame.ExtendAll earlier frames)
    (hsound : ∀ f ∈ frames, f.Sound c) {p : Path} {r : Resolved}
    (hr : p.target? c earlier = some r) :
    ∃ f, earlier[r.level]? = some f ∧ f.Sound c ∧ r.BoundIn c f := by
  obtain ⟨f, slot, entity, hf, -, hentity, htrace⟩ := Path.target?_eq_some hr
  have hf := Frame.locate?_getElem? hf
  obtain ⟨g, hg, hfg⟩ := forall₂_getElem? hext hf
  have hfsound := hfg.sound (hsound g (List.mem_of_getElem? hg))
  exact ⟨f, hf, hfsound, hfsound.trace?_boundIn hentity htrace⟩

/-- The cell of a selected path is not null if its shape is not nullable. -/
theorem Path.SelectedIn.cell_present {earlier : List Frame} {tuple : Tuple} {p : Path}
    (htyped : s.tables.Typed c)
    (hbound : List.Forall₂ (Tuple.BoundBy c s.tables) frames (tuple :: outer))
    (hext : Frame.ExtendAll earlier frames) (h : p.SelectedIn c earlier x)
    (hshape : x.shape.isNullable = false) (hcell : x.item.cell s tuple outer = .ok cell) :
    cell.isNull = false := by
  -- Each frame is one that a tuple has been bound by.
  have hsound : ∀ f ∈ frames, f.Sound c := by
    intro f hf
    obtain ⟨i, hi⟩ := List.mem_iff_getElem?.mp hf
    obtain ⟨_, _, hfits⟩ := forall₂_getElem? hbound hi
    exact hfits.fits.frame
  cases h with
  | @field column f htarget =>
    -- An attribute whose shape is not nullable is so in its type, and its slot is always filled.
    obtain ⟨htype, hslot⟩ := Shape.of_inSlot hshape
    obtain ⟨k, hk, -, owner, howner, -, -⟩ := hext.boundIn hsound htarget
    obtain ⟨g, hg, hfills⟩ := hext.fills hsound hk howner (hslot k hk)
    obtain ⟨v, hv, rfl⟩ := Item.cell_expr_ok hcell
    rw [Operand.value] at hv
    have haccepts := Tuple.BoundBy.column hbound htyped (hext.target? htarget) hg hfills hv
    exact FieldType.isNull_of_shape htype haccepts
  | @related parent slot r f htarget hmany hf hjoin =>
    obtain ⟨-, hslot⟩ := Shape.of_inSlot hshape
    obtain ⟨k, hk, hksound, owner, howner, hr⟩ := hext.boundIn hsound htarget
    -- The slot was found along the joins of the same frame, and it is always filled.
    obtain rfl : k = f := Option.some.inj (hk.symm.trans hf)
    have hentity := hksound.entityOf?_joinAlong? howner hr hjoin
    obtain ⟨g, hg, hfills⟩ := hext.fills hsound hf hentity (hslot k hf)
    obtain ⟨o, ho, rfl⟩ := Item.cell_record_ok hcell
    obtain ⟨record, rfl⟩ := Tuple.BoundBy.record hbound hg hfills ho
    rfl
  | @record slot entity htarget =>
    obtain ⟨-, hslot⟩ := Shape.of_inSlot hshape
    obtain ⟨k, hk, -, hentity⟩ := hext.boundIn hsound htarget
    obtain ⟨g, hg, hfills⟩ := hext.fills hsound hk hentity (hslot k hk)
    obtain ⟨o, ho, rfl⟩ := Item.cell_record_ok hcell
    obtain ⟨record, rfl⟩ := Tuple.BoundBy.record hbound hg hfills ho
    rfl

/-- The cell of an aggregate is not null if its shape is not nullable. -/
theorem Aggregate.PlannedAs.cell_present {tuples : List Tuple} {f : Aggregate} {p : Option Path}
    {o : Operand} {t : StaticType} (h : f.PlannedAs c frames p o t)
    (hshape : t.shape.isNullable = false)
    (hcell : (Item.expr o).aggregateCell tuples outer = .ok cell) : cell.isNull = false := by
  cases h with
  | rows =>
    obtain ⟨v, hv, rfl⟩ := Item.aggregateCell_ok hcell
    exact isNull_count hv
  | column htarget htype =>
    obtain rfl := type_isNullable htype hshape
    obtain ⟨v, hv, rfl⟩ := Item.aggregateCell_ok hcell
    exact isNull_count hv

/-- The cell of a path or an aggregate is not null if its shape is not nullable. -/
theorem Expr.SelectedAs.cell_present {tuple : Tuple} (htyped : s.tables.Typed c)
    (hbound : List.Forall₂ (Tuple.BoundBy c s.tables) frames (tuple :: outer))
    (h : e.SelectedAs c parameters frames x) (he : e.isBound = true)
    (hshape : x.shape.isNullable = false) (hcell : x.item.cell s tuple outer = .ok cell) :
    cell.isNull = false := by
  cases h with
  | path hext hselected => exact hselected.cell_present htyped hbound hext hshape hcell
  | aggregate hplanned =>
    -- No single tuple gives an aggregate.
    obtain ⟨v, hv, -⟩ := bind_eq_ok.mp hcell
    cases hplanned with
    | rows => cases hv
    | column => cases hv
  | operand hpath hagg _ =>
    cases e with
    | path p => exact absurd rfl (hpath p)
    | aggregate f p => exact absurd rfl (hagg f p)
    | literal | parameter | subquery => cases he

/-- Likewise in a row of aggregates. -/
theorem Expr.SelectedAs.aggregateCell_present {tuples : List Tuple}
    (h : e.SelectedAs c parameters frames x) (he : e.isBound = true)
    (hshape : x.shape.isNullable = false)
    (hcell : x.item.aggregateCell tuples outer = .ok cell) : cell.isNull = false := by
  cases h with
  | path _ hselected => cases hselected <;> cases hcell
  | aggregate hplanned => exact hplanned.cell_present hshape hcell
  | operand hpath hagg _ =>
    cases e with
    | path p => exact absurd rfl (hpath p)
    | aggregate f p => exact absurd rfl (hagg f p)
    | literal | parameter | subquery => cases he

end Items

/-! ## Rows -/

section Rows

variable {c : Catalog} {parameters : List (String × Value)} {s : Source} {frames : List Frame}
  {outer : List Tuple} {es : List Expr} {selected : List SelectedItem} {b : Body} {q : Plan}
  {rows : List Row}

/-- Where an item is selected, it is not the root record that is projected. -/
theorem Projection.ofSelected_of_getElem? {i : Nat} {x : SelectedItem} (hx : selected[i]? = some x) :
    ofSelected selected = .items (selected.map SelectedItem.item) := by
  cases selected with
  | nil => cases hx
  | cons y ys => rfl

/-- Each item is that of the expression at its position. -/
theorem ItemsPlannedAs.forall₂ (h : ItemsPlannedAs c parameters frames es selected) :
    List.Forall₂ (Expr.SelectedAs c parameters frames) es selected := by
  induction es generalizing selected with
  | nil =>
    cases h
    exact .nil
  | cons e es ih =>
    cases h with
    | cons he hes => exact .cons he (ih hes)

/-- What a planned body has bound: tuples of its frame and of those around it. -/
theorem Body.PlannedAs.bound {bound : List Tuple}
    (hbound : List.Forall₂ (Tuple.BoundBy c s.tables) frames outer)
    (h : b.PlannedAs c parameters frames es q selected)
    (hbind : s.tables.bind q.entity q.joins = .ok bound) :
    ∃ g : Frame, g.joins = q.joins ∧ q.projection = .ofSelected selected ∧
      ItemsPlannedAs c parameters (g :: frames) es selected ∧
      ∀ tuple ∈ bound,
        List.Forall₂ (Tuple.BoundBy c s.tables) (g :: frames) (tuple :: outer) := by
  cases h with
  | @intro _ _ _ e g ys _ orderBy he hg hys hxs hmix hkeys =>
    have hbuilt := Body.frame?_built hg
    have hbind : s.tables.bind b.entity g.joins = .ok bound := hbind
    rw [← hbuilt.entity_eq] at hbind
    have hfits := Tables.bind_fits (hbuilt.sound he) hbind
    exact ⟨g, rfl, rfl, hxs, fun tuple htuple =>
      .cons ⟨hfits tuple htuple, Tables.bind_filled hbind tuple htuple⟩ hbound⟩

/-- Where the rows of a planned body come from: each from a tuple that its frame has bound, or the one
row from all the tuples that have passed. -/
theorem Body.PlannedAs.rows_bound
    (hbound : List.Forall₂ (Tuple.BoundBy c s.tables) frames outer)
    (h : b.PlannedAs c parameters frames es q selected) (hrows : q.rows s outer = .ok rows) :
    ∃ (g : Frame) (bound : List Tuple), g.joins = q.joins ∧
      q.projection = .ofSelected selected ∧
      ItemsPlannedAs c parameters (g :: frames) es selected ∧
      s.tables.bind q.entity q.joins = .ok bound ∧
      (∀ tuple ∈ bound,
        List.Forall₂ (Tuple.BoundBy c s.tables) (g :: frames) (tuple :: outer)) ∧
      (q.projection.isAggregate = true → ∃ tuples row,
        q.projection.aggregateRow tuples outer = .ok row ∧ rows = [row]) ∧
      (q.projection.isAggregate = false →
        ∀ row ∈ rows, ∃ tuple ∈ bound, q.projection.row s tuple outer = .ok row) := by
  obtain ⟨tuples, hbind⟩ := Plan.bind_of_rows hrows
  obtain ⟨g, hjoins, hprojection, hitems, hall⟩ := h.bound hbound hbind
  refine ⟨g, tuples, hjoins, hprojection, hitems, hbind, hall, fun hagg => ?_,
    fun hagg row hrow => ?_⟩
  · -- An aggregate makes one row of all that has passed the filter.
    cases h
    exact Plan.aggregateRow_of_rows hagg hrows
  · obtain ⟨bound, kept, tuple, hbind', hkept, htuple, hrow'⟩ := Plan.exists_tuple hagg hrows hrow
    obtain rfl : tuples = bound := Except.ok.inj (hbind.symm.trans hbind')
    exact ⟨tuple, mem_of_filterTuples hkept htuple, hrow'⟩

/-- A cell of a planned body is not null if its shape is not nullable, provided that it is selected by
a path or an aggregate. -/
theorem Body.PlannedAs.cell_present (htyped : s.tables.Typed c)
    (hbound : List.Forall₂ (Tuple.BoundBy c s.tables) frames outer)
    (h : b.PlannedAs c parameters frames es q selected) (hrows : q.rows s outer = .ok rows)
    {row : Row} (hrow : row ∈ rows) {i : Nat} {x : SelectedItem} (hx : selected[i]? = some x)
    (hes : ∀ e, es[i]? = some e → e.isBound = true) (hshape : x.shape.isNullable = false) :
    ∃ cell, row.cells[i]? = some cell ∧ cell.isNull = false := by
  obtain ⟨g, bound, -, hprojection, hitems, -, hall, haggregate, htuple⟩ :=
    h.rows_bound hbound hrows
  obtain ⟨e, he, hselected⟩ := forall₂_getElem? hitems.forall₂.flip hx
  have hitem : (selected.map SelectedItem.item)[i]? = some x.item := by
    rw [List.getElem?_map, hx]
    rfl
  rw [Projection.ofSelected_of_getElem? hx] at hprojection
  cases hagg : q.projection.isAggregate with
  | true =>
    obtain ⟨tuples, row', hrow', rfl⟩ := haggregate hagg
    obtain rfl := List.mem_singleton.mp hrow
    -- The one row of an aggregating body.
    rw [hprojection] at hrow'
    obtain ⟨cell, hcell, hread⟩ :=
      forall₂_getElem? (Projection.aggregateRow_items_ok.mp hrow') hitem
    exact ⟨cell, hcell, hselected.aggregateCell_present (hes e he) hshape hread⟩
  | false =>
    obtain ⟨tuple, htuple, hrow'⟩ := htuple hagg row hrow
    -- A row of a tuple that the frame has bound.
    rw [hprojection] at hrow'
    obtain ⟨cell, hcell, hread⟩ := forall₂_getElem? (Projection.row_items_ok.mp hrow') hitem
    exact ⟨cell, hcell,
      hselected.cell_present htyped (hall tuple htuple) (hes e he) hshape hread⟩

/-- Where nothing is selected, a row is the root record, and that is there. -/
theorem Body.PlannedAs.root_present
    (hbound : List.Forall₂ (Tuple.BoundBy c s.tables) frames outer)
    (h : b.PlannedAs c parameters frames es q []) (hrows : q.rows s outer = .ok rows)
    {row : Row} (hrow : row ∈ rows) : ∃ r, row.cells = [.record (some r)] := by
  obtain ⟨g, bound, -, hprojection, -, -, hall, -, htuple⟩ := h.rows_bound hbound hrows
  have hprojection : q.projection = .root := hprojection
  obtain ⟨tuple, htuple, hrow'⟩ := htuple (by rw [hprojection]; rfl) row hrow
  obtain ⟨hfits, hfilled⟩ := (List.forall₂_cons.mp (hall tuple htuple)).1
  -- The joins have the slots behind the root.
  have hfills : Join.Fills g.joins 0 := by
    intro j hj hslot
    obtain ⟨i, hi⟩ := List.mem_iff_getElem?.mp hj
    have := (hfits.frame.ordered i j hi).1
    omega
  have hsome := hfilled 0 hfills
  rw [hprojection, Projection.row] at hrow'
  obtain rfl := Except.ok.inj hrow'
  cases tuple with
  | nil => cases hfits.length
  | cons o tuple =>
    cases o with
    | none => exact absurd rfl hsome
    | some r => exact ⟨r, rfl⟩

end Rows

/-- On typed tables the rows of a planned query have a cell for each shape, and no cell is null
that is selected by a path or an aggregate and whose shape is not nullable; nor is the root record, which
is the cell where nothing is selected. -/
theorem Body.cells_present_correct {c : Catalog} {t : Tables} (htyped : t.Typed c) {b : Body}
    {planned : PlannedQuery} (h : b.plan c = .ok planned) {rows : List Row}
    (hrows : t.fetch planned.plan = .ok rows) {row : Row} (hrow : row ∈ rows) :
    row.cells.length = planned.shapes.length ∧
      ∀ (i : Nat) (shape : Shape), planned.shapes[i]? = some shape → shape.isNullable = false →
        (∀ e, (b.selection.getD [])[i]? = some e → e.isBound = true) →
        ∃ cell, row.cells[i]? = some cell ∧ cell.isNull = false := by
  have hlength : row.cells.length = planned.shapes.length :=
    (Plan.length_cells hrows hrow).trans (length_shapes h).symm
  refine ⟨hlength, fun i shape hshape hnull hitem => ?_⟩
  obtain ⟨q, selected, hplan, hplanned, hshapes⟩ := Body.plan_plannedAs h
  rw [Tables.fetch_eq_rows hplan] at hrows
  cases selected with
  | nil =>
    -- Without a selection the root record is the only cell.
    obtain ⟨r, hr⟩ := hplanned.root_present .nil hrows hrow
    have hlt := (List.getElem?_eq_some_iff.mp hshape).1
    rw [← hlength, hr, List.length_singleton] at hlt
    obtain rfl : i = 0 := by omega
    exact ⟨.record (some r), by rw [hr]; rfl, rfl⟩
  | cons x xs =>
    rw [(hshapes (by simp)).1, List.getElem?_map] at hshape
    obtain ⟨y, hy, rfl⟩ := Option.map_eq_some_iff.mp hshape
    exact hplanned.cell_present htyped .nil hrows hrow hy hitem hnull

/-- One of the users with an address is at no task. -/
theorem Sample.placed_fetched :
    ∃ planned rows row, placed.plan catalog = .ok planned ∧ tables.fetch planned.plan = .ok rows ∧
      row ∈ rows ∧ planned.shapes.map Shape.isNullable = [true, true, false, false] ∧
      row.cells.map Cell.isNull = [true, true, false, false] :=
  exists_row (by decide +kernel)

/-- The task may be missing, and with it its importance; the city and the address are there. -/
theorem Body.cells_present_correct_outer_join :
    Sample.tables.Typed Sample.catalog ∧ ∃ planned rows row,
      Sample.placed.plan Sample.catalog = .ok planned ∧
      Sample.tables.fetch planned.plan = .ok rows ∧ row ∈ rows ∧
      planned.shapes.map Shape.isNullable = [true, true, false, false] ∧
      row.cells.map Cell.isNull = [true, true, false, false] ∧
      (∃ cell, row.cells[2]? = some cell ∧ cell.isNull = false) ∧
      ∃ cell, row.cells[3]? = some cell ∧ cell.isNull = false := by
  obtain ⟨planned, rows, row, h, hrows, hrow, hshapes, hcells⟩ := Sample.placed_fetched
  -- All items are paths, and two of the four shapes are not nullable.
  have hbound : ∀ e ∈ Sample.placed.selection.getD [], e.isBound = true :=
    List.all_eq_true.mp (by decide +kernel)
  have hitem : ∀ (i : Nat) (e : Expr), (Sample.placed.selection.getD [])[i]? = some e → e.isBound = true :=
    fun _ e he => hbound e (List.mem_of_getElem? he)
  have hshape : ∀ i : Nat, [true, true, false, false][i]? = some false →
      ∃ shape, planned.shapes[i]? = some shape ∧ shape.isNullable = false := by
    intro i hi
    rw [← hshapes, List.getElem?_map, Option.map_eq_some_iff] at hi
    exact hi
  obtain ⟨city, hcity, hnull⟩ := hshape 2 rfl
  obtain ⟨address, haddress, hnull'⟩ := hshape 3 rfl
  refine ⟨Sample.tables_conforms.typed, planned, rows, row, h, hrows, hrow, hshapes, hcells, ?_, ?_⟩
  · exact (Body.cells_present_correct Sample.tables_conforms.typed h hrows hrow).2 2 city hcity hnull
      (hitem 2)
  · exact (Body.cells_present_correct Sample.tables_conforms.typed h hrows hrow).2 3 address haddress
      hnull' (hitem 3)

end EntityQuery
