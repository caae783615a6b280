import EntityQuery.Proofs.Engine.Calls
import EntityQuery.Proofs.Evaluation.Readable

/-!
# Reading selected attributes

On tables that conform, a query that selects attributes alone is read as types of values that admit the
shapes of its selection. A cell is null only under a nullable shape, which only a nullable type admits,
and otherwise it holds what a record stores in a field of that shape. So no cell fails to be read but an
integer that is misread as a 32-bit float.
-/

namespace EntityQuery

/-! ## Stored values -/

/-- A record has a value in a field of a type. -/
def Tables.Stores (t : Tables) (c : Catalog) (type : FieldType) (v : Value) : Prop :=
  ∃ entity f, c.attribute? entity f.name = some (.field f) ∧ f.type = type ∧
    ∃ r ∈ t.records entity, fieldValue (some r) f.name = v

/-- A value under a shape: null only if the shape is nullable, and otherwise stored in a field of that
shape. -/
structure Tables.Gives (t : Tables) (c : Catalog) (shape : Shape) (v : Value) : Prop where
  null : v.isNull = true → shape.isNullable = true
  stored : v.isNull = false → ∃ type, shape.plain = (Shape.ofFieldType type).plain ∧
    t.Stores c type v

/-- What is stored in a field is accepted there. -/
theorem Tables.Typed.stores {c : Catalog} {t : Tables} {type : FieldType} {v : Value}
    (htyped : t.Typed c) (h : t.Stores c type v) : type.accepts v = true := by
  obtain ⟨entity, f, hf, rfl, r, hr, rfl⟩ := h
  exact htyped.field hf hr

/-! ## Selected cells -/

/-- Paths, as opposed to what is computed. -/
def Expr.isPath : Expr → Bool
  | .path _ => true
  | _ => false

theorem Expr.eq_path {e : Expr} (h : e.isPath = true) : ∃ p, e = .path p := by
  cases e with
  | path p => exact ⟨p, rfl⟩
  | literal | parameter | subquery | aggregate => cases h

/-- A path is selected in frames that are extended later. -/
theorem Expr.SelectedAs.of_path {c : Catalog} {parameters : List (String × Value)}
    {frames : List Frame} {p : Path} {x : SelectedItem}
    (h : (Expr.path p).SelectedAs c parameters frames x) :
    ∃ earlier, Frame.ExtendAll earlier frames ∧ p.SelectedIn c earlier x := by
  cases h with
  | path hext hp => exact ⟨_, hext, hp⟩
  | operand hpath => exact absurd rfl (hpath p)

/-- Types of values do not admit records. -/
theorem CellType.not_accepts_record {t : CellType} (ht : t.isValue = true) (entity : String) :
    t.shape.plain.accepts (.record entity) = false := by
  rw [plain_shape ht]
  cases t.base? with
  | none => rfl
  | some b => cases b <;> rfl

section Cells

variable {c : Catalog} {s : Source} {frames earlier : List Frame} {tuple : Tuple}
  {outer : List Tuple} {x : SelectedItem} {cell : Cell}

/-- A column that is not null has a value that is stored in its field. -/
theorem Tuple.BoundBy.column_stored {column : Column} {f : Field} {p : Path} {v : Value}
    (hbound : List.Forall₂ (Tuple.BoundBy c s.tables) frames (tuple :: outer))
    (hp : p.target? c frames = some (.field column f)) (hv : column.value tuple outer = .ok v)
    (hnull : v.isNull = false) : s.tables.Stores c f.type v := by
  obtain ⟨owner, o, -, hvalue, hattribute, hrecords⟩ := (fitAll hbound).column_record hp
  obtain rfl := Except.ok.inj (hv.symm.trans hvalue)
  cases o with
  | none => cases hnull
  | some r => exact ⟨owner, f, hattribute, rfl, r, hrecords r rfl, rfl⟩

/-- The cell of a path is a value given under its shape, if a type of values admits the shape. -/
theorem Path.SelectedIn.gives {p : Path} {t : CellType} (htyped : s.tables.Typed c)
    (hbound : List.Forall₂ (Tuple.BoundBy c s.tables) frames (tuple :: outer))
    (hext : Frame.ExtendAll earlier frames) (h : p.SelectedIn c earlier x)
    (ht : t.isValue = true) (haccepts : t.shape.accepts x.shape = true)
    (hcell : x.item.cell s tuple outer = .ok cell) :
    ∃ v, cell = .value v ∧ s.tables.Gives c x.shape v := by
  have hpresent : x.shape.isNullable = false → cell.isNull = false := fun hshape =>
    h.cell_present htyped hbound hext hshape hcell
  obtain ⟨hplain, -⟩ := Shape.accepts_plain haccepts
  have hrecord := CellType.not_accepts_record ht
  cases h with
  | @field column f htarget =>
    -- Where the column may be missing its shape says so; a value that is there is stored under the
    -- field.
    obtain ⟨v, hv, rfl⟩ := Item.cell_expr_ok hcell
    rw [Operand.value] at hv
    refine ⟨v, rfl, fun hnull => ?_, fun hnull => ⟨f.type, Shape.plain_inSlot .., ?_⟩⟩
    · by_contra hshape
      have hsome : v.isNull = false := hpresent (Bool.eq_false_iff.mpr hshape)
      rw [hnull] at hsome
      cases hsome
    · exact Tuple.BoundBy.column_stored hbound (hext.target? htarget) hv hnull
  | related | record =>
    -- A record has the shape of no value.
    rw [Shape.plain_inSlot] at hplain
    exact absurd hplain (Bool.eq_false_iff.mp (hrecord _))

end Cells

/-! ## Rows of attributes -/

/-- Where nothing is selected, the shape is that of the root record. -/
theorem Body.shapes_root {c : Catalog} {b : Body} {planned : PlannedQuery}
    (h : b.plan c = .ok planned) (hselection : b.selection.getD [] = []) :
    planned.shapes = [.record b.entity] := by
  obtain ⟨q, s, hrun, rfl⟩ := plan_ok.mp h
  obtain ⟨scope, entity, statements, joins, selection, orderBy, distinct, assignments⟩ := b
  rw [Body.planScope] at hrun
  simp only [Planner.run_bind_ok, Planner.run_lift_ok, Planner.run_pure_ok] at hrun
  obtain ⟨_, _, -, ⟨t, g⟩, _, hscope, rfl, -⟩ := hrun
  rw [Planner.run_inScope_ok] at hscope
  simp only [Planner.run_bind_ok, Planner.run_pure_ok] at hscope
  obtain ⟨_, _, -, _, _, -, ⟨labels, selected⟩, _, hitems, _, _, hprojection, _, _, -, rfl, -⟩ :=
    hscope
  obtain ⟨hitems, -⟩ := run_planSelection_none_ok.mp hitems
  have hselection : selection.getD [] = [] := hselection
  rw [hselection] at hitems
  obtain ⟨rfl, -⟩ := run_planItems_nil_ok.mp hitems
  obtain ⟨rfl, -⟩ := Planner.run_pure_ok.mp hprojection
  rfl

namespace RowType

/-- The types of the cells of a row. -/
def cellTypes : RowType → List CellType
  | single t => [t]
  | tuple types => types

theorem cells_shape (t : RowType) : t.shape.cells = t.cellTypes.map CellType.shape := by
  cases t with
  | single t => exact t.cells_shape
  | tuple types => rfl

end RowType

/-- Shapes that are checked one by one are admitted one by one. -/
theorem Shape.checkEach_ok {requested selected : List Shape}
    (hlength : requested.length = selected.length) (h : checkEach requested selected = .ok ()) :
    List.Forall₂ (fun want got => want.accepts got = true) requested selected := by
  induction requested generalizing selected with
  | nil =>
    obtain rfl := List.length_eq_zero_iff.mp hlength.symm
    exact .nil
  | cons want requested ih =>
    cases selected with
    | nil => cases hlength
    | cons got selected =>
      rw [checkEach] at h
      split at h
      · rename_i haccepts
        exact .cons haccepts (ih (Nat.succ.inj hlength) h)
      · cases h

theorem RowType.accepts_of_check {t : RowType} {shapes : List Shape}
    (h : t.shape.check shapes = .ok ()) :
    List.Forall₂ (fun (u : CellType) got => u.shape.accepts got = true) t.cellTypes shapes := by
  unfold Shape.check at h
  split at h
  · rename_i hlength
    have hall := Shape.checkEach_ok hlength h
    rw [t.cells_shape] at hall
    exact List.forall₂_map_left_iff.mp hall
  · cases h

/-- No path is an aggregate, and so each row comes from a tuple. -/
theorem Body.PlannedAs.isAggregate_of_paths {c : Catalog} {parameters : List (String × Value)}
    {frames : List Frame} {b : Body} {es : List Expr} {q : Plan} {selected : List SelectedItem}
    (h : b.PlannedAs c parameters frames es q selected) (hpaths : ∀ e ∈ es, e.isPath = true) :
    q.projection.isAggregate = false := by
  cases h with
  | intro he hg hys hitems hmix hkeys =>
    show (Projection.ofSelected selected).isAggregate = false
    rw [Projection.ofSelected_isAggregate, List.any_eq_false]
    intro item hitem
    obtain ⟨x, hx, rfl⟩ := List.mem_map.mp hitem
    obtain ⟨e, he, hex⟩ := forall₂_mem hitems.forall₂.flip hx
    obtain ⟨p, rfl⟩ := Expr.eq_path (hpaths e he)
    obtain ⟨earlier, -, hp⟩ := hex.of_path
    cases hp <;> exact Bool.false_ne_true

/-- The rows of a plan under other orderings and another window have the cells of its selection. -/
theorem Body.PlannedAs.gives {c : Catalog} {s : Source} {b : Body} {es : List Expr} {q : Plan}
    {selected : List SelectedItem} (htyped : s.tables.Typed c)
    (h : b.PlannedAs c s.parameters [] es q selected) (hpaths : ∀ e ∈ es, e.isPath = true)
    {orderBy : List SortKey} {window : Option Window} {rows : List Row}
    (hrows : Plan.rows s [] { q with orderBy, window } = .ok rows) {row : Row} (hrow : row ∈ rows)
    {i : Nat} {x : SelectedItem} (hx : selected[i]? = some x) {t : CellType}
    (ht : t.isValue = true) (haccepts : t.shape.accepts x.shape = true) :
    ∃ v, row.cells[i]? = some (.value v) ∧ s.tables.Gives c x.shape v := by
  have hagg : q.projection.isAggregate = false := h.isAggregate_of_paths hpaths
  obtain ⟨bound, kept, tuple, hbind, hkept, htuple, hrow'⟩ :=
    Plan.exists_tuple (q := { q with orderBy, window }) hagg hrows hrow
  obtain ⟨g, -, hprojection, hitems, hall⟩ := h.bound .nil hbind
  rw [Projection.ofSelected_of_getElem? hx] at hprojection
  -- The row comes from a bound tuple, and its cell from the item at that position.
  have hmem := mem_of_filterTuples hkept htuple
  have hrow' : (Projection.items (selected.map SelectedItem.item)).row s tuple [] = .ok row :=
    hprojection ▸ hrow'
  have hitem : (selected.map SelectedItem.item)[i]? = some x.item := by
    rw [List.getElem?_map, hx]
    rfl
  obtain ⟨cell, hcell, hread⟩ := forall₂_getElem? (Projection.row_items_ok.mp hrow') hitem
  -- The item is the path that was selected there, planned in frames that the last one extends.
  obtain ⟨e, he, hex⟩ := forall₂_getElem? hitems.forall₂.flip hx
  obtain ⟨p, rfl⟩ := Expr.eq_path (hpaths e (List.mem_of_getElem? he))
  obtain ⟨earlier, hext, hp⟩ := hex.of_path
  obtain ⟨v, rfl, hgives⟩ := hp.gives htyped (hall tuple hmem) hext ht haccepts hread
  exact ⟨v, hcell, hgives⟩

/-! ## Reading rows -/

/-- A value that is given under an admitted shape is read, unless it is misread. -/
theorem CellType.read_gives {c : Catalog} {t : Tables} {u : CellType} {shape : Shape} {v : Value}
    (htyped : t.Typed c) (hu : u.isValue = true) (haccepts : u.shape.accepts shape = true)
    (h : t.Gives c shape v) {position : Nat} {err : QueryError}
    (herr : u.read position (.value v) = .error err) :
    err = misread position ∧ ∃ type, shape.plain = (Shape.ofFieldType type).plain ∧
      u.Misreads type v ∧ t.Stores c type v := by
  obtain ⟨hplain, hnullable⟩ := Shape.accepts_plain haccepts
  cases hnull : v.isNull with
  | true =>
    -- Only optional types admit a shape that may be null, and they read null.
    obtain rfl := Value.isNull_iff.mp hnull
    obtain ⟨a, ha⟩ := read_null hu (hnullable (h.null rfl)) position
    rw [ha] at herr
    cases herr
  | false =>
    -- What is there has been stored under a field of the shape.
    obtain ⟨type, hshape, hstored⟩ := h.stored hnull
    rw [hshape] at hplain
    rcases read_accepted hu hplain (htyped.stores hstored) hnull position with
      ⟨hmisreads, hread⟩ | ⟨-, a, hread⟩
    · rw [hread] at herr
      exact ⟨(Except.error.inj herr).symm, type, hshape, hmisreads, hstored⟩
    · rw [hread] at herr
      cases herr

/-- Where cells cannot be read, there is one that cannot. -/
theorem Cells.exists_error {types : List CellType} {position : Nat} {cells : List Cell}
    {err : QueryError} (hlength : cells.length = types.length)
    (h : Cells.read types position cells = .error err) :
    ∃ (i : Nat) (u : CellType) (cell : Cell), types[i]? = some u ∧ cells[i]? = some cell ∧
      u.read (position + i) cell = .error err := by
  induction types generalizing position cells with
  | nil => cases h
  | cons u types ih =>
    cases cells with
    | nil => cases hlength
    | cons cell cells =>
      rcases bind_eq_error.mp h with h | ⟨a, -, h⟩
      · exact ⟨0, u, cell, rfl, rfl, h⟩
      · rcases bind_eq_error.mp h with h | ⟨rest, -, h⟩
        · obtain ⟨i, u', cell', hu', hcell', h⟩ := ih (Nat.succ.inj hlength) h
          refine ⟨i + 1, u', cell', hu', hcell', ?_⟩
          rw [← Nat.add_assoc, Nat.add_right_comm]
          exact h
        · cases h

theorem RowType.exists_error {t : RowType} {row : Row} {err : QueryError}
    (hlength : row.cells.length = t.cellTypes.length) (h : t.read row = .error err) :
    ∃ (i : Nat) (u : CellType) (cell : Cell), t.cellTypes[i]? = some u ∧
      row.cells[i]? = some cell ∧ u.read i cell = .error err := by
  obtain ⟨cells⟩ := row
  cases t with
  | single u =>
    obtain ⟨cell, rfl⟩ := List.length_eq_one_iff.mp hlength
    exact ⟨0, u, cell, rfl, rfl, h⟩
  | tuple types =>
    have hlength : cells.length = types.length := hlength
    rw [read, if_pos hlength] at h
    obtain ⟨i, u, cell, hu, hcell, h⟩ := Cells.exists_error hlength h
    rw [Nat.zero_add] at h
    exact ⟨i, u, cell, hu, hcell, h⟩

/-- At a position a type of rows asks for a 32-bit float under the shape of a field that stores an
integer. -/
def RowType.MisreadsAt (t : RowType) (c : Catalog) (tables : Tables) (shapes : List Shape) (i : Nat) :
    Prop :=
  ∃ u shape type v, t.cellTypes[i]? = some u ∧ shapes[i]? = some shape ∧
    shape.plain = (Shape.ofFieldType type).plain ∧ u.Misreads type v ∧ tables.Stores c type v

/-! ## Failures of queries -/

/-- Operations that ask for rows, as opposed to those that change records. -/
def Operation.isQuery : Operation → Bool
  | update | delete => false
  | _ => true

/-- Under some orderings and some window a plan has a row that cannot be read. -/
def Plan.Unreadable (q : Plan) (tables : Tables) (t : RowType) (err : QueryError) : Prop :=
  ∃ orderBy window rows row, tables.fetch { q with orderBy, window } = .ok rows ∧ row ∈ rows ∧
    t.read row = .error err

namespace Engine

variable {e : Engine} {b : Body} {t : RowType} {q plan : Plan} {tables tables' : Tables}
  {err : QueryError}

theorem isReading_of_checkOrder {entity : String} {o : RootOrder}
    (h : e.checkOrder entity o = .error err) : err.isReading = false := by
  unfold checkOrder at h
  split at h
  · split at h
    · cases h
    · obtain rfl := Except.error.inj h
      rfl
  all_goals
    obtain rfl := Except.error.inj h
    rfl

theorem isReading_of_checkOrders {entity : String} {sort : List RootOrder}
    (h : sort.forM (e.checkOrder entity) = .error err) : err.isReading = false := by
  induction sort with
  | nil => cases h
  | cons o sort ih =>
    rcases bind_eq_error.mp h with h | ⟨_, -, h⟩
    · exact isReading_of_checkOrder h
    · exact ih h

theorem isReading_of_sorted {entity : String} {sort : List RootOrder} (err : QueryError)
    (h : e.sorted entity sort q = .error err) : err.isReading = false := by
  rcases bind_eq_error.mp h with h | ⟨_, -, h⟩
  · exact isReading_of_checkOrders h
  · cases h

/-- What is sorted and what is bounded differ in orderings and window. -/
theorem bounded_sorted {entity : String} {sort : List RootOrder}
    (h : e.sorted entity sort q = .ok plan) :
    ∃ orderBy window, e.bounded plan = { q with orderBy, window } := by
  obtain rfl := sorted_ok h
  unfold bounded
  split
  · exact ⟨_, q.window, rfl⟩
  · exact ⟨_, _, rfl⟩

/-- Where rows cannot be read, there is one that cannot. -/
theorem unreadable_of_readRows {orderBy : List SortKey} {window : Option Window} {rows : List Row}
    (hrows : tables.fetch { q with orderBy, window } = .ok rows)
    (h : readRows t rows = .error err) : q.Unreadable tables t err := by
  obtain ⟨row, hrow, h⟩ := mapM_eq_error h
  exact ⟨orderBy, window, rows, row, hrows, hrow, h⟩

/-! ### Steps that read no cell -/

section Steps

variable {α β : Type} {f : α → ExceptT QueryError (StateM Tables) β}

/-- Where a reading fails after a check that does not read, the check has passed. -/
theorem after_check {r : Except QueryError α} (hr : ∀ err, r = .error err → err.isReading = false)
    (h : ((liftM r : ExceptT QueryError (StateM Tables) α) >>= f).run.run tables =
      (.error err, tables')) (herr : err.isReading = true) :
    ∃ a, r = .ok a ∧ (f a).run.run tables = (.error err, tables') := by
  rcases Store.run_bind_error.mp h with hcheck | ⟨a, t, hcheck, h⟩
  · obtain ⟨hcheck, -⟩ := Store.run_check_error.mp hcheck
    rw [hr err hcheck] at herr
    cases herr
  · obtain ⟨ha, rfl⟩ := Store.run_check_ok.mp hcheck
    exact ⟨a, ha, h⟩

/-- A failure of the store is not about a cell. -/
theorem not_isReading_of_store {x : StateM Tables (Except StoreError α)}
    (h : (Store.lift x).run.run tables = (.error err, tables')) : err.isReading ≠ true := by
  obtain ⟨e, rfl⟩ := Store.run_lift_error h
  exact Bool.false_ne_true

theorem after_fetch {f : List Row → ExceptT QueryError (StateM Tables) β}
    (h : (Store.lift (Store.memory.fetch q) >>= f).run.run tables = (.error err, tables'))
    (herr : err.isReading = true) :
    ∃ rows, tables.fetch q = .ok rows ∧ (f rows).run.run tables = (.error err, tables') := by
  rcases Store.run_bind_error.mp h with hfetch | ⟨rows, t, hfetch, h⟩
  · exact absurd herr (not_isReading_of_store hfetch)
  · obtain ⟨hrows, rfl⟩ := Store.run_fetch_ok.mp hfetch
    exact ⟨rows, hrows, h⟩

theorem after_total {f : Nat → ExceptT QueryError (StateM Tables) β}
    (h : (total Store.memory q >>= f).run.run tables = (.error err, tables'))
    (herr : err.isReading = true) : ∃ n, (f n).run.run tables = (.error err, tables') := by
  unfold total at h
  split at h
  · exact ⟨1, h⟩
  · rcases Store.run_bind_error.mp h with hcount | ⟨n, t, hcount, h⟩
    · exact absurd herr (not_isReading_of_store hcount)
    · obtain ⟨-, rfl⟩ := Store.run_count_ok.mp hcount
      exact ⟨n, h⟩

end Steps

theorem isReading_of_checkCount {rows : List Row} (err : QueryError)
    (h : e.checkCount rows = .error err) : err.isReading = false := by
  obtain ⟨limit, rfl⟩ := checkCount_error h
  rfl

theorem isReading_of_offset {request : PageRequest} (err : QueryError)
    (h : request.offset = .error err) : err.isReading = false := by
  unfold PageRequest.offset at h
  split at h
  · cases h
  · obtain rfl := Except.error.inj h
    rfl

theorem isReading_of_window {request : PageRequest} (err : QueryError)
    (h : request.window = .error err) : err.isReading = false := by
  rcases bind_eq_error.mp h with h | ⟨_, -, h⟩
  · exact isReading_of_offset err h
  · cases h

theorem isReading_of_checkSize {request : PageRequest} (err : QueryError)
    (h : e.checkSize request = .error err) : err.isReading = false := by
  unfold checkSize at h
  split at h
  · obtain rfl := Except.error.inj h
    rfl
  · split at h
    · obtain rfl := Except.error.inj h
      rfl
    · cases h

/-! ### Queries one by one -/

theorem unreadable_of_allSorted {sort : List RootOrder} (hq : e.prepare t b = .ok q)
    (h : (e.allSorted Store.memory t sort b).run.run tables = (.error err, tables'))
    (herr : err.isReading = true) : q.Unreadable tables t err := by
  rw [allSorted, Store.run_bind_of_ok (Store.run_check_ok.mpr ⟨hq, rfl⟩)] at h
  obtain ⟨plan, hplan, h⟩ := after_check isReading_of_sorted h herr
  obtain ⟨rows, hrows, h⟩ := after_fetch h herr
  obtain ⟨_, -, h⟩ := after_check isReading_of_checkCount h herr
  obtain ⟨h, -⟩ := Store.run_check_error.mp h
  obtain ⟨orderBy, window, hbounded⟩ := bounded_sorted hplan
  rw [hbounded] at hrows
  exact unreadable_of_readRows hrows h

theorem unreadable_of_one (hq : e.prepare t b = .ok q)
    (h : (e.one Store.memory t b).run.run tables = (.error err, tables'))
    (herr : err.isReading = true) : q.Unreadable tables t err := by
  rw [one, Store.run_bind_of_ok (Store.run_check_ok.mpr ⟨hq, rfl⟩)] at h
  obtain ⟨rows, hrows, h⟩ := after_fetch h herr
  match rows with
  | [] =>
    cases h
    cases herr
  | [row] =>
    obtain ⟨h, -⟩ := Store.run_check_error.mp h
    exact ⟨_, _, [row], row, hrows, List.mem_singleton_self row, h⟩
  | _ :: _ :: _ =>
    cases h
    cases herr

theorem unreadable_of_first (hq : e.prepare t b = .ok q)
    (h : (e.first Store.memory t b).run.run tables = (.error err, tables'))
    (herr : err.isReading = true) : q.Unreadable tables t err := by
  rw [first, Store.run_bind_of_ok (Store.run_check_ok.mpr ⟨hq, rfl⟩)] at h
  obtain ⟨rows, hrows, h⟩ := after_fetch h herr
  match rows with
  | [] => cases h
  | row :: rows =>
    rcases Store.run_bind_error.mp h with h | ⟨_, _, -, h⟩
    · obtain ⟨h, -⟩ := Store.run_check_error.mp h
      exact ⟨_, _, row :: rows, row, hrows, List.mem_cons_self, h⟩
    · cases h

theorem unreadable_of_fetchPage {orderBy : List SortKey} {request : PageRequest}
    (h : (fetchPage Store.memory t { q with orderBy } request).run.run tables =
      (.error err, tables')) (herr : err.isReading = true) : q.Unreadable tables t err := by
  obtain ⟨window, -, h⟩ := after_check isReading_of_window h herr
  obtain ⟨rows, hrows, h⟩ := after_fetch h herr
  obtain ⟨h, -⟩ := Store.run_check_error.mp h
  exact unreadable_of_readRows hrows h

theorem unreadable_of_pages {request : PageRequest} (hq : e.prepare t b = .ok q)
    (h : (e.pages Store.memory t request b).run.run tables = (.error err, tables'))
    (herr : err.isReading = true) : q.Unreadable tables t err := by
  obtain ⟨_, -, h⟩ := after_check isReading_of_checkSize h herr
  obtain ⟨_, -, h⟩ := after_check isReading_of_offset h herr
  rw [Store.run_bind_of_ok (Store.run_check_ok.mpr ⟨hq, rfl⟩)] at h
  obtain ⟨plan, hplan, h⟩ := after_check isReading_of_sorted h herr
  obtain rfl := sorted_ok hplan
  obtain ⟨total, h⟩ := after_total h herr
  rcases Store.run_bind_error.mp h with h | ⟨rows, _, -, h⟩
  · exact unreadable_of_fetchPage h herr
  · cases h

end Engine

/-- A query whose body has been prepared fails to read only what is in a row of the plan. -/
theorem Operation.unreadable {e : Engine} {b : Body} {t : RowType} {q : Plan}
    {tables tables' : Tables} {err : QueryError} {op : Operation} (hop : op.isQuery = true)
    (hq : e.prepare t b = .ok q)
    (h : (op.perform Store.memory e t b).run.run tables = (.error err, tables'))
    (herr : err.isReading = true) : q.Unreadable tables t err := by
  obtain ⟨planned, hplanned, -, -⟩ := Engine.prepare_ok hq
  have hplan := Store.run_check_ok (t := tables).mpr ⟨hplanned, rfl⟩
  cases op with
  | all => exact Engine.unreadable_of_allSorted hq h herr
  | allSorted sort => exact Engine.unreadable_of_allSorted hq h herr
  | one => exact Engine.unreadable_of_one hq h herr
  | first => exact Engine.unreadable_of_first hq h herr
  | pages request => exact Engine.unreadable_of_pages hq h herr
  | pagesSorted field request => exact Engine.unreadable_of_pages hq h herr
  | hasRow =>
    -- The store answers with a number or fails, and reads no row.
    rw [perform, Engine.hasRow, Store.run_bind_of_ok hplan] at h
    exact absurd herr (Engine.not_isReading_of_store h)
  | count =>
    rw [perform, Engine.count, Store.run_bind_of_ok hplan] at h
    exact absurd herr (Engine.not_isReading_of_store h)
  | update | delete => cases hop

/-- A body that is prepared for types of values selects items whose shapes are admitted one by one. The
root record would not be admitted. -/
theorem Engine.prepare_selected {e : Engine} {b : Body} {t : RowType} {q : Plan}
    (hq : e.prepare t b = .ok q) (htypes : ∀ u ∈ t.cellTypes, u.isValue = true) :
    ∃ planned q' selected, b.plan e.catalog = .ok planned ∧
      q = { q' with parameters := q.parameters } ∧
      b.PlannedAs e.catalog q.parameters [] (b.selection.getD []) q' selected ∧
      planned.shapes = selected.map SelectedItem.shape ∧
      List.Forall₂ (fun (u : CellType) got => u.shape.accepts got = true) t.cellTypes
        planned.shapes := by
  obtain ⟨planned, hplanned, hcheck, rfl⟩ := prepare_ok hq
  obtain ⟨q', selected, hplan, hplannedAs, hshapes⟩ := Body.plan_plannedAs hplanned
  have haccepts := RowType.accepts_of_check hcheck
  refine ⟨planned, q', selected, hplanned, hplan, hplannedAs, (hshapes ?_).1, haccepts⟩
  rintro rfl
  -- Without a selection the root record stands in the row, and no type of values admits it.
  have hnone : b.selection.getD [] = [] := by
    cases hplannedAs with
    | intro _ _ _ hitems => exact List.forall₂_nil_right_iff.mp hitems.forall₂
  rw [Body.shapes_root hplanned hnone] at haccepts
  obtain ⟨u, _, hu, -, htypes'⟩ := List.forall₂_cons_right_iff.mp haccepts
  have hvalue := htypes u (htypes' ▸ List.mem_cons_self)
  exact absurd (Shape.accepts_plain hu).1
    (Bool.eq_false_iff.mp (CellType.not_accepts_record hvalue b.entity))

/-- On typed tables a row of attributes that cannot be read is misread at some position. -/
theorem Plan.Unreadable.misread {e : Engine} {b : Body} {t : RowType} {q : Plan} {tables : Tables}
    {err : QueryError} (htyped : tables.Typed e.catalog) (hq : e.prepare t b = .ok q)
    (htypes : ∀ u ∈ t.cellTypes, u.isValue = true)
    (hpaths : ∀ x ∈ b.selection.getD [], x.isPath = true) (h : q.Unreadable tables t err) :
    ∃ planned i, b.plan e.catalog = .ok planned ∧ err = CellType.misread i ∧
      t.MisreadsAt e.catalog tables planned.shapes i := by
  obtain ⟨orderBy, window, rows, row, hrows, hrow, herr⟩ := h
  have hlength : row.cells.length = t.cellTypes.length := by
    have hwidth : q.projection.width = t.shape.cells.length := Engine.prepare_width hq
    rw [t.cells_shape, List.length_map] at hwidth
    exact (Plan.length_cells hrows hrow).trans hwidth
  -- The row has a cell for each type, so one of them is at fault.
  obtain ⟨i, u, cell, hu, hcell, herr⟩ := RowType.exists_error hlength herr
  have hvalue := htypes u (List.mem_of_getElem? hu)
  obtain ⟨planned, q', selected, hplanned, hplan, hplannedAs, hshapes, hall⟩ :=
    Engine.prepare_selected hq htypes
  -- Its shape is admitted and comes from the item selected at that position.
  obtain ⟨shape, hshape, haccepts⟩ := forall₂_getElem? hall hu
  have hitem := hshape
  rw [hshapes, List.getElem?_map] at hitem
  obtain ⟨x, hx, rfl⟩ := Option.map_eq_some_iff.mp hitem
  have hrows : Plan.rows ⟨tables, q.parameters, .insertion⟩ [] { q' with orderBy, window } = .ok rows := by
    rw [← hrows]
    refine (Tables.fetch_eq_rows (q := { q with orderBy, window }) ?_).symm
    exact congrArg (fun p : Plan => { p with orderBy, window }) hplan
  obtain ⟨v, hv, hgives⟩ := hplannedAs.gives htyped hpaths hrows hrow hx hvalue haccepts
  obtain rfl : cell = .value v := Option.some.inj (hcell.symm.trans hv)
  -- So the cell is a value given under that shape, and it is misread.
  obtain ⟨rfl, type, hplain, hmisreads, hstored⟩ :=
    CellType.read_gives htyped hvalue haccepts hgives herr
  exact ⟨planned, i, hplanned, rfl, u, x.shape, type, v, hu, hshape, hplain, hmisreads, hstored⟩

/-- What a field accepts is read as any type of values that admits the shape of the field, unless it is
an integer misread as a 32-bit float. So a query that selects attributes only, for such types, fails to
read nothing else on typed tables. -/
theorem Operation.attributes_read_correct (e : Engine) (tables : Tables) :
    (∀ (t : CellType) (type : FieldType) (v : Value) (position : Nat), t.isValue = true →
      t.shape.accepts (Shape.ofFieldType type) = true → type.accepts v = true →
      v.isNull = false →
        (t.Misreads type v →
          t.read position (.value v) = .error (CellType.misread position)) ∧
        (¬ t.Misreads type v → ∃ a, t.read position (.value v) = .ok a)) ∧
    ∀ (b : Body) (t : RowType) (q : Plan) (op : Operation) (tables' : Tables)
      (err : QueryError), tables.Typed e.catalog → op.isQuery = true →
      e.prepare t b = .ok q → (∀ u ∈ t.cellTypes, u.isValue = true) →
      (∀ x ∈ b.selection.getD [], x.isPath = true) →
      (op.perform Store.memory e t b).run.run tables = (.error err, tables') →
      err.isReading = true →
        ∃ planned i, b.plan e.catalog = .ok planned ∧ err = CellType.misread i ∧
          t.MisreadsAt e.catalog tables planned.shapes i := by
  refine ⟨fun t type v position ht haccepts hv hnull => ?_,
    fun b t q op tables' err htyped hop hq htypes hpaths h herr => ?_⟩
  · obtain ⟨hplain, -⟩ := Shape.accepts_plain haccepts
    rcases CellType.read_accepted ht hplain hv hnull position with
      ⟨hmisreads, hread⟩ | ⟨hmisreads, hread⟩
    · exact ⟨fun _ => hread, fun hnot => absurd hmisreads hnot⟩
    · exact ⟨fun hmis => absurd hmis hmisreads, fun _ => hread⟩
  · exact (Operation.unreadable hop hq h herr).misread htyped hq htypes hpaths

namespace Sample

/-- A catalog of items that are measured in 32-bit floats. -/
def measured : Catalog where
  schema := {
    version := 1
    entities := [("Item", {
      name := "Item"
      identityField := "id"
      fields := [.new "id" (.scalar .int64), .new "single" (.scalar .float32)] })]
    relations := [] }
  faultless := by decide +kernel

/-- An item whose measurement is stored as an integer. -/
def measuredTables : Tables :=
  ⟨[("Item", rows "Item" ["id", "single"] [[.int64 1, .int32 5]])]⟩

theorem measuredTables_conforms : measuredTables.Conforms measured :=
  .of_all (by decide +kernel)

/-- The measurements of all items. -/
def measurements : Body :=
  Recorder.record "Item" fun item =>
    Recorder.select item [.path (item.child "single")]

end Sample

/-- The integer is read as a 64-bit float, and is misread as a 32-bit float by itself and in a row. -/
theorem Operation.attributes_read_correct_integer :
    Sample.measuredTables.Typed Sample.measured ∧
      (∃ a, CellType.read (.optional (.base .float64)) 0 (.value (.int32 5)) = .ok a) ∧
      CellType.read (.base .float32) 0 (.value (.int32 5)) = .error (CellType.misread 0) ∧
      ∃ err tables' planned i,
        (all.perform Store.memory (.ofCatalog Sample.measured) (.single (.base .float32))
          Sample.measurements).run.run Sample.measuredTables = (.error err, tables') ∧
        Sample.measurements.plan Sample.measured = .ok planned ∧ err = CellType.misread i ∧
        RowType.MisreadsAt (.single (.base .float32)) Sample.measured Sample.measuredTables
          planned.shapes i := by
  obtain ⟨hcell, hquery⟩ :=
    attributes_read_correct (.ofCatalog Sample.measured) Sample.measuredTables
  have hprepare : ∃ q, (Engine.ofCatalog Sample.measured).prepare (.single (.base .float32))
      Sample.measurements = .ok q := Sample.exists_ok (by decide +kernel)
  obtain ⟨q, hq⟩ := hprepare
  have hfailure : failure? ((all.perform Store.memory (.ofCatalog Sample.measured)
      (.single (.base .float32)) Sample.measurements).run.run Sample.measuredTables).1 =
        some (CellType.misread 0) := by
    decide +kernel
  -- The misread type is not the wide one.
  have hwide : ¬ CellType.Misreads (.optional (.base .float64)) (.scalar .float32) (.int32 5) :=
    fun h => by cases h.1
  refine ⟨Sample.measuredTables_conforms.typed, ?_, ?_, ?_⟩
  · exact (hcell _ (.scalar .float32) _ 0 rfl rfl rfl rfl).2 hwide
  · exact (hcell _ (.scalar .float32) _ 0 rfl rfl rfl rfl).1 ⟨rfl, rfl, 5, rfl⟩
  · -- The run fails, so its error is one of those that the theorem speaks of.
    generalize hrun : (all.perform Store.memory (.ofCatalog Sample.measured)
      (.single (.base .float32)) Sample.measurements).run.run Sample.measuredTables = r at hfailure
    obtain ⟨answer, tables'⟩ := r
    obtain rfl := failure?_eq_some.mp hfailure
    obtain ⟨planned, i, hplanned, herr, hmisreads⟩ := hquery _ _ q all _ _
      Sample.measuredTables_conforms.typed rfl hq (by decide) (by decide) hrun rfl
    exact ⟨_, tables', planned, i, rfl, hplanned, herr, hmisreads⟩

/-- A field of 32-bit floats holds an integer, which it accepts, and is selected for a result of 32-bit
floats, which admits it. The integer cannot be read, and so neither can the row. -/
theorem Operation.attributes_read_integer :
    (CellType.shape (.base .float32)).accepts (Shape.ofFieldType (.scalar .float32)) = true ∧
      (FieldType.scalar .float32).accepts (.int32 5) = true ∧
      CellType.read (.base .float32) 0 (.value (.int32 5)) = .error (CellType.misread 0) ∧
      Sample.measuredTables.Conforms Sample.measured ∧
      (∀ x ∈ Sample.measurements.selection.getD [], x.isPath = true) ∧
      ((Engine.ofCatalog Sample.measured).prepare (.single (.base .float32))
        Sample.measurements).toBool = true ∧
      (((Engine.ofCatalog Sample.measured).all Store.memory (.single (.base .float32))
        Sample.measurements).run.run Sample.measuredTables).1 =
          .error (.undecodable "column 0" (.unexpected "float32" "int32")) := by
  refine ⟨rfl, rfl, rfl, Sample.measuredTables_conforms, by decide, by decide +kernel, ?_⟩
  exact failure?_eq_some.mp (by decide +kernel)

end EntityQuery
