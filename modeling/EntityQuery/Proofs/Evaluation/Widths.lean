import EntityQuery.Engine
import EntityQuery.Proofs.Evaluation.Ordering
import EntityQuery.Proofs.Planning.BodyRuns

/-!
# Widths of rows

Every row of a plan has a cell for each item that the plan selects, and a planned body has a shape
for each of them. So rows that are read as a type whose shape has been checked have as many cells as
the type, and a failure to read them is about what a cell holds.
-/

namespace EntityQuery

/-! ## Rows of a plan -/

section Rows

variable {s : Source} {tuple : Tuple} {outer : List Tuple}

theorem Projection.length_row {p : Projection} {row : Row} (h : p.row s tuple outer = .ok row) :
    row.cells.length = p.width := by
  cases p with
  | root =>
    rw [Projection.row] at h
    obtain rfl := Except.ok.inj h
    rfl
  | items xs => exact (row_items_ok.mp h).length_eq.symm

theorem Projection.length_aggregateRow {p : Projection} {tuples : List Tuple} {row : Row}
    (h : p.aggregateRow tuples outer = .ok row) : row.cells.length = p.width := by
  cases p with
  | root => cases h
  | items xs => exact (aggregateRow_items_ok.mp h).length_eq.symm

/-- All rows of a plan are as wide as its selection. -/
theorem Plan.length_cells {q : Plan} {rows : List Row} (h : q.rows s outer = .ok rows) {row : Row}
    (hrow : row ∈ rows) : row.cells.length = q.projection.width := by
  cases hagg : q.projection.isAggregate with
  | true =>
    obtain ⟨tuples, row', hrow', rfl⟩ := aggregateRow_of_rows hagg h
    obtain rfl := List.mem_singleton.mp (mem_windowed hrow)
    exact Projection.length_aggregateRow hrow'
  | false =>
    obtain ⟨bound, tuples, tuple, -, -, -, hrow'⟩ := exists_tuple hagg h hrow
    exact Projection.length_row hrow'

end Rows

/-! ## Shapes of a planned body -/

section Shapes

variable {c : Catalog} {s s' : Scopes}

theorem Planner.run_projection_length {entity : String} {labels : List String}
    {selected : List SelectedItem} {r : Projection × List Shape × List StaticType}
    (h : (projection entity labels selected).run s = .ok (r, s')) : r.2.1.length = r.1.width := by
  cases selected with
  | nil =>
    obtain ⟨rfl, -⟩ := run_pure_ok.mp h
    rfl
  | cons x xs =>
    obtain ⟨_, _, -, h⟩ := run_bind_ok.mp h
    obtain ⟨rfl, -⟩ := run_pure_ok.mp h
    simp only [Projection.width, List.length_map]

/-- Each item of a planned body has a shape. -/
theorem Body.length_shapes {b : Body} {planned : PlannedQuery} (h : b.plan c = .ok planned) :
    planned.shapes.length = planned.plan.projection.width := by
  obtain ⟨q, s, hrun, rfl⟩ := plan_ok.mp h
  obtain ⟨scope, entity, statements, joins, selection, orderBy, distinct, assignments⟩ := b
  rw [Body.planScope] at hrun
  simp only [Planner.run_bind_ok, Planner.run_lift_ok, Planner.run_pure_ok] at hrun
  obtain ⟨_, _, -, ⟨t, g⟩, _, hscope, rfl, -⟩ := hrun
  rw [Planner.run_inScope_ok] at hscope
  simp only [Planner.run_bind_ok, Planner.run_pure_ok] at hscope
  obtain ⟨_, _, -, _, _, -, _, _, -, _, _, hprojection, _, _, -, rfl, -⟩ := hscope
  exact Planner.run_projection_length hprojection

end Shapes

theorem Shape.length_of_check {requested : Shape} {selected : List Shape}
    (h : requested.check selected = .ok ()) : requested.cells.length = selected.length := by
  unfold check at h
  split at h
  · assumption
  · cases h

/-! ## Types of rows -/

namespace CellType

theorem cells_optional (s : Shape) : s.optional.cells = [s.optional] := by
  cases s <;> rfl

/-- A cell is not read as several. -/
theorem cells_shape (t : CellType) : t.shape.cells = [t.shape] := by
  cases t with
  | base t => cases t <;> rfl
  | optional t => exact cells_optional t.shape
  | any | anyRecord | record | entity => rfl

end CellType

/-! ## Failures to read -/

section Reading

variable {err : QueryError}

theorem BaseType.read_error {t : BaseType} {v : Value} {field : String}
    (h : t.read v field = .error err) : err.isReading = true := by
  unfold read at h
  split at h
  · cases h
  · obtain rfl := Except.error.inj h
    rfl

namespace CellType

variable {position : Nat} {cell : Cell}

theorem readRecord_error (h : readRecord position cell = .error err) : err.isReading = true := by
  unfold readRecord at h
  split at h
  · cases h
  all_goals
    obtain rfl := Except.error.inj h
    rfl

theorem readBase_error {t : BaseType} (h : readBase t position cell = .error err) :
    err.isReading = true := by
  unfold readBase at h
  split at h
  case h_3 => exact BaseType.read_error h
  all_goals
    obtain rfl := Except.error.inj h
    rfl

theorem readAny_error (h : readAny position cell = .error err) : err.isReading = true := by
  cases cell with
  | value => cases h
  | record =>
    obtain rfl := Except.error.inj h
    rfl

theorem read_error {t : CellType} (h : t.read position cell = .error err) :
    err.isReading = true := by
  induction t with
  | base t => exact readBase_error h
  | any => exact readAny_error h
  | anyRecord | record => exact readRecord_error h
  | entity e =>
    rcases bind_eq_error.mp h with h | ⟨r, -, h⟩
    · exact readRecord_error h
    · exact e.isReading h
  | optional t ih =>
    unfold read at h
    split at h
    · cases h
    · rcases bind_eq_error.mp h with h | ⟨a, -, h⟩
      · exact ih h
      · cases h

end CellType

theorem Cells.read_error {types : List CellType} {position : Nat} {cells : List Cell}
    (h : Cells.read types position cells = .error err) : err.isReading = true := by
  induction types generalizing position cells with
  | nil => cases h
  | cons t types ih =>
    cases cells with
    | nil =>
      obtain rfl := Except.error.inj h
      rfl
    | cons cell cells =>
      rcases bind_eq_error.mp h with h | ⟨a, -, h⟩
      · exact CellType.read_error h
      · rcases bind_eq_error.mp h with h | ⟨rest, -, h⟩
        · exact ih h
        · cases h

/-- A row that is as wide as its type is not refused for its width. -/
theorem RowType.read_error {t : RowType} {row : Row}
    (hwidth : row.cells.length = t.shape.cells.length) (h : t.read row = .error err) :
    err.isReading = true := by
  cases t with
  | single t =>
    obtain ⟨cells⟩ := row
    have hone : cells.length = [t.shape].length := by
      rw [← CellType.cells_shape t]
      exact hwidth
    obtain ⟨cell, rfl⟩ := List.length_eq_one_iff.mp hone
    exact CellType.read_error h
  | tuple types =>
    have hlength : row.cells.length = types.length := by
      rw [hwidth]
      exact List.length_map _
    rw [read, if_pos hlength] at h
    exact Cells.read_error h

/-- Nor is any of the rows of a type. -/
theorem Engine.readRows_error {t : RowType} {rows : List Row}
    (hwidth : ∀ row ∈ rows, row.cells.length = t.shape.cells.length)
    (h : readRows t rows = .error err) : err.isReading = true := by
  obtain ⟨row, hrow, h⟩ := mapM_eq_error h
  exact RowType.read_error (hwidth row hrow) h

end Reading

end EntityQuery
