import EntityQuery.Proofs.Evaluation.Presence
import EntityQuery.Proofs.Meaning.Bodies

/-!
# Cells of nested queries

The shape of a selected nested query is that of what it returns, as if it always had a row. Its cell is
null where it has none, though, also under a shape that is not nullable. Where it has a row, what it
returns is as it is in any row.
-/

namespace EntityQuery

/-- Whether what a query returns is there in each of its rows: a value that is not null, an aggregate,
or the column of a slot that is always filled. The queries are given from the innermost to the
outermost. What a query within returns need not be there, since it may have no row. -/
def Operand.isPresent (parameters : List (String × Value)) (around : List Plan) : Operand → Bool
  | column c => around[c.level]?.any fun q => decide (Join.Fills q.joins c.slot)
  | literal v => !v.isNull
  | parameter name => (parameters.lookup name).any fun v => !v.isNull
  | query _ => false
  | aggregate .. => true

section Nested

variable {c : Catalog} {s : Source} {frames : List Frame} {outer : List Tuple}

/-- What is there in each row of a query, under a type whose shape is not nullable, is not null. -/
theorem Expr.SelectedAs.value_present {tuple : Tuple} {around : List Plan} {e : Expr}
    {x : SelectedItem} {o : Operand} {v : Value} (htyped : s.tables.Typed c)
    (hbound : List.Forall₂ (Tuple.BoundBy c s.tables) frames (tuple :: outer))
    (haround : List.Forall₂ (fun (f : Frame) (q : Plan) => f.joins = q.joins) frames around)
    (h : e.SelectedAs c s.parameters frames x) (ho : x.item = .expr o)
    (hpresent : o.isPresent s.parameters around = true) (hshape : x.type.shape.isNullable = false)
    (hv : o.value s tuple outer = .ok v) : v.isNull = false := by
  cases o with
  | column column =>
    -- A column of a slot that is always filled has a value of its type, which is not nullable.
    rw [Operand.isPresent, Option.any_eq_true] at hpresent
    obtain ⟨q, hq, hfills⟩ := hpresent
    obtain ⟨f, hf, hjoins⟩ := forall₂_getElem? haround.flip hq
    have hfills : Join.Fills f.joins column.slot := hjoins ▸ of_decide_eq_true hfills
    rw [Operand.value] at hv
    cases h with
    | path hext hselected =>
      cases hselected with
      | field htarget =>
        cases ho
        have haccepts := Tuple.BoundBy.column hbound htyped (hext.target? htarget) hf hfills hv
        exact FieldType.isNull_of_shape hshape haccepts
      | related => cases ho
      | record => cases ho
    | aggregate hplanned => cases hplanned <;> cases ho
    | operand hpath _ hplanned =>
      cases ho
      cases hplanned with
      | path => exact absurd rfl (hpath _)
  | literal w =>
    rw [Operand.value] at hv
    obtain rfl := Except.ok.inj hv
    simpa [Operand.isPresent] using hpresent
  | parameter name =>
    -- A parameter has a value that is there.
    rw [Operand.isPresent, Option.any_eq_true] at hpresent
    obtain ⟨w, hw, hnull⟩ := hpresent
    rw [Operand.value, Source.parameter, hw] at hv
    obtain rfl := Except.ok.inj hv
    simpa using hnull
  | query q => cases hpresent
  | aggregate f column =>
    rw [Operand.value] at hv
    cases hv

/-- The first value of rows is that of the first cell. -/
theorem firstValue_cons {row : Row} {rows : List Row} {v : Value} {cells : List Cell}
    (h : row.cells = .value v :: cells) : firstValue (row :: rows) = v := by
  show (row.cells.head?).elim .null Cell.toValue = v
  rw [h]
  rfl

/-- Only aggregates are planned as aggregates. -/
theorem Expr.SelectedAs.of_aggregate {parameters : List (String × Value)} {e : Expr}
    {x : SelectedItem} {f : Aggregate} {column : Option Column}
    (h : e.SelectedAs c parameters frames x) (ho : x.item = .expr (.aggregate f column)) :
    ∃ p, f.PlannedAs c frames p (.aggregate f column) x.type := by
  cases h with
  | path _ hselected => cases hselected <;> cases ho
  | aggregate hplanned =>
    cases ho
    cases hplanned with
    | rows => exact ⟨none, .rows⟩
    | @column _ p _ _ _ _ _ htarget htype => exact ⟨some p, .column htarget htype⟩
  | operand _ _ hplanned =>
    cases ho
    cases hplanned

/-- The value of a nested query whose rows are known. It is null if there are none, and otherwise only
if what the query returns may be missing. A query that aggregates has a row. -/
theorem Body.PlannedAs.firstValue_present {b : Body} {returns : Expr} {q : Plan} {x : SelectedItem}
    {o : Operand} {around : List Plan} {rows : List Row} (htyped : s.tables.Typed c)
    (hbound : List.Forall₂ (Tuple.BoundBy c s.tables) frames outer)
    (haround : List.Forall₂ (fun (f : Frame) (q : Plan) => f.joins = q.joins) frames around)
    (h : b.PlannedAs c s.parameters frames [returns] q [x]) (ho : x.item = .expr o)
    (hshape : x.type.shape.isNullable = false) (hrows : q.rows s outer = .ok rows) :
    (o.isAggregate = true → rows ≠ []) ∧
      (o.isPresent s.parameters (q :: around) = true → rows ≠ [] → firstValue rows ≠ .null) := by
  obtain ⟨g, bound, hjoins, hprojection, hitems, -, hall, haggregate, htuple⟩ :=
    h.rows_bound hbound hrows
  -- The one item is what the query returns, and it aggregates just if the item does.
  have hprojection : q.projection = .items [.expr o] := by
    rw [hprojection]
    show Projection.items [x.item] = _
    rw [ho]
  have hagg : q.projection.isAggregate = o.isAggregate := by
    rw [hprojection]
    simp [Projection.isAggregate, Item.isAggregate]
  obtain ⟨hselected, -⟩ := List.forall₂_cons.mp hitems.forall₂
  cases hkind : o.isAggregate with
  | true =>
    -- An aggregating query has one row. Its cell is a count, since no other aggregate has this
    -- shape.
    obtain ⟨tuples, row, hrow, rfl⟩ := haggregate (hagg.trans hkind)
    refine ⟨fun _ => List.cons_ne_nil row [], fun _ _ => ?_⟩
    rw [hprojection] at hrow
    obtain ⟨cell, cells, hread, -, hcells⟩ :=
      List.forall₂_cons_left_iff.mp (Projection.aggregateRow_items_ok.mp hrow)
    cases o with
    | aggregate f column =>
      obtain ⟨p, hplanned⟩ := hselected.of_aggregate ho
      have hnull := hplanned.cell_present hshape hread
      obtain ⟨v, -, rfl⟩ := Item.aggregateCell_ok hread
      rw [firstValue_cons hcells]
      rintro rfl
      cases hnull
    | column | literal | parameter | query => cases hkind
  | false =>
    refine ⟨fun h => (Bool.false_ne_true h).elim, fun hpresent hsome => ?_⟩
    obtain ⟨row, rest, rfl⟩ := List.exists_cons_of_ne_nil hsome
    -- The first row has been read from a bound tuple, and what it returns is there.
    obtain ⟨tuple, hmem, hrow⟩ := htuple (hagg.trans hkind) row List.mem_cons_self
    rw [hprojection] at hrow
    obtain ⟨cell, cells, hread, -, hcells⟩ :=
      List.forall₂_cons_left_iff.mp (Projection.row_items_ok.mp hrow)
    obtain ⟨v, hv, rfl⟩ := Item.cell_expr_ok hread
    have hnull : v.isNull = false := hselected.value_present htyped (hall tuple hmem)
      (.cons hjoins haround) ho hpresent hshape hv
    rw [firstValue_cons hcells]
    rintro rfl
    cases hnull

/-- The cell of a selected nested query is the first value of its rows over the tuple that the row comes
from. -/
theorem Body.PlannedAs.subquery_cell {b : Body} {es : List Expr} {q : Plan}
    {selected : List SelectedItem} {rows : List Row}
    (hbound : List.Forall₂ (Tuple.BoundBy c s.tables) frames outer)
    (h : b.PlannedAs c s.parameters frames es q selected) (hrows : q.rows s outer = .ok rows)
    {row : Row} (hrow : row ∈ rows) {i : Nat} {body : Body} {returns : Expr}
    (hitem : es[i]? = some (.subquery body returns)) :
    ∃ (g : Frame) (bound : List Tuple) (tuple : Tuple) (q' : Plan) (x : SelectedItem) (o : Operand)
      (nested : List Row), g.joins = q.joins ∧ s.tables.bind q.entity q.joins = .ok bound ∧
      tuple ∈ bound ∧ List.Forall₂ (Tuple.BoundBy c s.tables) (g :: frames) (tuple :: outer) ∧
      selected[i]? = some ⟨.expr (.query q'), x.type.shape, x.type⟩ ∧ x.item = .expr o ∧
      body.PlannedAs c s.parameters (g :: frames) [returns] q' [x] ∧
      q.projection = .items (selected.map SelectedItem.item) ∧
      q'.rows s (tuple :: outer) = .ok nested ∧
      row.cells[i]? = some (.value (firstValue nested)) := by
  obtain ⟨g, bound, hjoins, hprojection, hitems, hbind, hall, haggregate, htuple⟩ :=
    h.rows_bound hbound hrows
  obtain ⟨y, hy, hselected⟩ := forall₂_getElem? hitems.forall₂ hitem
  rw [Projection.ofSelected_of_getElem? hy] at hprojection
  cases hselected with
  | @operand _ _ o t _ _ hoperand =>
    cases hoperand with
    | @subquery _ _ _ q' x o hnone hbody ho =>
      have hquery : (selected.map SelectedItem.item)[i]? = some (.expr (.query q')) := by
        rw [List.getElem?_map, hy]
        rfl
      cases hagg : q.projection.isAggregate with
      | true =>
        -- A nested query does not stand beside aggregates.
        obtain ⟨tuples, row', hrow', -⟩ := haggregate hagg
        rw [hprojection] at hrow'
        obtain ⟨cell, -, hread⟩ :=
          forall₂_getElem? (Projection.aggregateRow_items_ok.mp hrow') hquery
        cases hread
      | false =>
        obtain ⟨tuple, hmem, hrow'⟩ := htuple hagg row hrow
        rw [hprojection] at hrow'
        obtain ⟨cell, hcell, hread⟩ := forall₂_getElem? (Projection.row_items_ok.mp hrow') hquery
        obtain ⟨v, hv, rfl⟩ := Item.cell_expr_ok hread
        rw [Operand.value] at hv
        obtain ⟨nested, hnested, hv⟩ := bind_eq_ok.mp hv
        obtain rfl := Except.ok.inj hv
        exact ⟨g, bound, tuple, q', x, o, nested, hjoins, hbind, hmem, hall tuple hmem, hy, ho,
          hbody, hprojection, hnested, hcell⟩

end Nested

/-- At a position a plan selects a nested query that returns an operand, and a row has there the first
value of its rows over one of the tuples that the plan binds. -/
structure Plan.SelectsNested (t : Tables) (p : Plan) (i : Nat) (row : Row) (q : Plan) (o : Operand)
    (nested : List Row) : Prop where
  item : ∃ items, p.projection = .items items ∧ items[i]? = some (.expr (.query q))
  returned : q.projection = .items [.expr o]
  rows : ∃ bound tuple, t.bind p.entity p.joins = .ok bound ∧ tuple ∈ bound ∧
    q.rows ⟨t, p.parameters, .insertion⟩ [tuple] = .ok nested
  cell : row.cells[i]? = some (.value (firstValue nested))

/-- The cell of a selected nested query whose shape is not nullable is null where the nested query has
no row, and elsewhere only if what it returns may be missing from its rows. A nested query that
aggregates has a row. -/
theorem Body.subquery_cells_correct {c : Catalog} {t : Tables} (htyped : t.Typed c) {b : Body}
    {planned : PlannedQuery} (h : b.plan c = .ok planned) {rows : List Row}
    (hrows : t.fetch planned.plan = .ok rows) {row : Row} (hrow : row ∈ rows) {i : Nat} {body : Body}
    {returns : Expr} (hitem : (b.selection.getD [])[i]? = some (.subquery body returns))
    {shape : Shape} (hshape : planned.shapes[i]? = some shape) (hnull : shape.isNullable = false) :
    ∃ q o nested, planned.plan.SelectsNested t i row q o nested ∧
      (nested = [] → firstValue nested = .null) ∧
      (o.isPresent planned.plan.parameters [q, planned.plan] = true →
        (firstValue nested = .null ↔ nested = [])) ∧
      (o.isAggregate = true → nested ≠ []) := by
  obtain ⟨q, selected, hplan, hplanned, hshapes⟩ := Body.plan_plannedAs h
  rw [Tables.fetch_eq_rows hplan] at hrows
  obtain ⟨g, bound, tuple, q', x, o, nested, hjoins, hbind, hmem, hall, hselected, ho, hbody, hitems,
    hnested, hcell⟩ := hplanned.subquery_cell .nil hrows hrow hitem
  have hsome : selected ≠ [] := by
    rintro rfl
    cases hselected
  -- The shape is that of the type of what the nested query returns.
  have htype : x.type.shape.isNullable = false := by
    rw [(hshapes hsome).1, List.getElem?_map, hselected] at hshape
    obtain rfl := Option.some.inj hshape
    exact hnull
  -- Only the query itself is around the nested one.
  have haround : List.Forall₂ (fun (f : Frame) (q : Plan) => f.joins = q.joins) [g]
      [planned.plan] := by
    rw [hplan]
    exact .cons hjoins .nil
  obtain ⟨haggregate, hpresent⟩ := hbody.firstValue_present htyped hall haround ho htype hnested
  have hitem' : (selected.map SelectedItem.item)[i]? = some (.expr (.query q')) := by
    rw [List.getElem?_map, hselected]
    rfl
  have hreturned : q'.projection = .items [.expr o] := by
    obtain ⟨-, -, -, hprojection, -⟩ := hbody.rows_bound hall hnested
    rw [hprojection]
    show Projection.items [x.item] = _
    rw [ho]
  -- The nested query is the item at that position, evaluated for the tuple that the row comes from.
  have hselects : planned.plan.SelectsNested t i row q' o nested := by
    refine ⟨⟨selected.map SelectedItem.item, ?_, hitem'⟩, hreturned,
      ⟨bound, tuple, ?_, hmem, hnested⟩, hcell⟩
    · rw [hplan]
      exact hitems
    · rw [hplan]
      exact hbind
  refine ⟨q', o, nested, hselects, ?_, fun hthere => ⟨fun hvalue => ?_, ?_⟩, haggregate⟩
  · rintro rfl
    rfl
  · by_contra hsome
    exact hpresent hthere hsome hvalue
  · rintro rfl
    rfl

namespace Sample

/-- The importance of a task above one that users have, and the number of all such tasks. -/
def pressing : Body :=
  Recorder.record "User" fun user => do
    let importance ← Recorder.subquery "Todo" fun todo => do
      Recorder.clause todo (.compare (.path (todo.child "user_id")) .eq (.path (user.child "id")))
      Recorder.clause todo
        (.compare (.path (todo.child "importance")) .gt (.parameter "floor" (.int32 4)))
      return .path (todo.child "importance")
    let number ← Recorder.subquery "Todo" fun todo => do
      Recorder.clause todo (.compare (.path (todo.child "user_id")) .eq (.path (user.child "id")))
      return .aggregate .count none
    Recorder.select user [importance, number]

/-- One of the users has no task above the importance. -/
theorem pressing_fetched :
    ∃ planned rows row, pressing.plan catalog = .ok planned ∧ tables.fetch planned.plan = .ok rows ∧
      row ∈ rows ∧ planned.shapes.map Shape.isNullable = [false, false] ∧
      row.cells.map Cell.isNull = [true, false] :=
  exists_row (by decide +kernel)

end Sample

/-- A user has no task that is above the importance, and still a number of tasks. -/
theorem Body.subquery_cells_correct_half_null :
    Sample.tables.Typed Sample.catalog ∧ ∃ planned rows row,
      Sample.pressing.plan Sample.catalog = .ok planned ∧
      Sample.tables.fetch planned.plan = .ok rows ∧ row ∈ rows ∧
      planned.shapes.map Shape.isNullable = [false, false] ∧
      row.cells.map Cell.isNull = [true, false] ∧
      ∀ i < 2, ∃ q o nested, planned.plan.SelectsNested Sample.tables i row q o nested ∧
        (nested = [] → firstValue nested = .null) ∧
        (o.isPresent planned.plan.parameters [q, planned.plan] = true →
          (firstValue nested = .null ↔ nested = [])) ∧
        (o.isAggregate = true → nested ≠ []) := by
  obtain ⟨planned, rows, row, h, hrows, hrow, hshapes, hcells⟩ := Sample.pressing_fetched
  refine ⟨Sample.tables_conforms.typed, planned, rows, row, h, hrows, hrow, hshapes, hcells,
    fun i hi => ?_⟩
  have hi : i = 0 ∨ i = 1 := by omega
  have hitem : ∃ body returns,
      (Sample.pressing.selection.getD [])[i]? = some (.subquery body returns) := by
    rcases hi with rfl | rfl
    · exact ⟨_, _, rfl⟩
    · exact ⟨_, _, rfl⟩
  -- Neither shape is nullable.
  have hshape : ∃ shape, planned.shapes[i]? = some shape ∧ shape.isNullable = false := by
    have hfalse : (planned.shapes.map Shape.isNullable)[i]? = some false := by
      rw [hshapes]
      rcases hi with rfl | rfl
      · rfl
      · rfl
    rw [List.getElem?_map, Option.map_eq_some_iff] at hfalse
    exact hfalse
  obtain ⟨body, returns, hitem⟩ := hitem
  obtain ⟨shape, hshape, hnull⟩ := hshape
  exact Body.subquery_cells_correct Sample.tables_conforms.typed h hrows hrow hitem hshape hnull

namespace Sample

/-- For each user a task without a number, of which there is none. -/
def unnumberedTask : Body :=
  Recorder.record "User" fun user => do
    let task ← Recorder.subquery "Todo" fun todo => do
      Recorder.clause todo (.isNull (.path (todo.child "id")) false)
      return .path (todo.child "id")
    Recorder.select user [task]

/-- The importance of the task that a user is at, found once more by the number of the user. -/
def ownImportance : Body :=
  Recorder.record "User" fun user => do
    let importance ← Recorder.subquery "User" fun same => do
      let task ← Recorder.join same "current_todo" "Todo" false .left
      Recorder.clause same (.compare (.path (same.child "id")) .eq (.path (user.child "id")))
      return .path (task.child "importance")
    Recorder.select user [importance]

end Sample

/-- The tasks found for users are read as numbers that cannot be missing, and none is found. -/
theorem Body.subquery_cells_without_row :
    Sample.tables.Conforms Sample.catalog ∧
      ((Engine.ofCatalog Sample.catalog).prepare (.single (.base .int64))
        Sample.unnumberedTask).toBool = true ∧
      (Sample.unnumberedTask.plan Sample.catalog).toOption.map
        (fun planned => planned.shapes.map Shape.isNullable) = some [false] ∧
      (((Engine.ofCatalog Sample.catalog).all Store.memory (.single (.base .int64))
        Sample.unnumberedTask).run.run Sample.tables).1 = .error (.unexpectedNull 0) :=
  ⟨Sample.tables_conforms, by decide +kernel, by decide +kernel, by decide +kernel⟩

/-- Every user is found once more, and one of them is at no task. -/
theorem Body.subquery_cells_without_record :
    ((Engine.ofCatalog Sample.catalog).prepare (.single (.base .int32))
        Sample.ownImportance).toBool = true ∧
      (Sample.ownImportance.plan Sample.catalog).toOption.map
        (fun planned => planned.shapes.map Shape.isNullable) = some [false] ∧
      (((Engine.ofCatalog Sample.catalog).all Store.memory (.single (.base .int32))
        Sample.ownImportance).run.run Sample.tables).1 = .error (.unexpectedNull 0) :=
  ⟨by decide +kernel, by decide +kernel, by decide +kernel⟩

end EntityQuery
