import EntityQuery.Proofs.Changes.Applying

/-!
# Parameters and literals

A parameter stands for the value that is bound to it, wherever in a query it is met. A plan with its
parameters replaced by literals of their values needs no parameters any more, and gives the same rows
or the same failure; so does a change.
-/

namespace EntityQuery

/-! ## Replacing parameters -/

section Inline

variable (values : String → Option Value)

mutual

/-- A query with literals in place of the parameters that have values; it carries none itself. -/
def Plan.inline (q : Plan) : Plan :=
  match q with
  | ⟨entity, joins, filter, projection, distinct, orderBy, window, _⟩ =>
    ⟨entity, joins, filterInline filter, projection.inline, distinct, orderBy, window, []⟩
termination_by structural q

def filterInline (filter : Option Predicate) : Option Predicate :=
  match filter with
  | none => none
  | some p => some p.inline
termination_by structural filter

def Projection.inline (projection : Projection) : Projection :=
  match projection with
  | .root => .root
  | .items xs => .items (itemsInline xs)
termination_by structural projection

def itemsInline (xs : List Item) : List Item :=
  match xs with
  | [] => []
  | x :: xs => x.inline :: itemsInline xs
termination_by structural xs

def Item.inline (x : Item) : Item :=
  match x with
  | .record slot => .record slot
  | .expr operand => .expr operand.inline
termination_by structural x

/-- An operand with the literal of a value in place of a parameter that has one. -/
def Operand.inline (o : Operand) : Operand :=
  match o with
  | .column c => .column c
  | .literal v => .literal v
  | .parameter name => (values name).elim (.parameter name) .literal
  | .query q => .query q.inline
  | .aggregate f column => .aggregate f column
termination_by structural o

def Predicate.inline (p : Predicate) : Predicate :=
  match p with
  | .compare left op right => .compare left.inline op right.inline
  | .like operand pattern negated => .like operand.inline pattern negated
  | .inList operand vs negated => .inList operand.inline vs negated
  | .inQuery operand q negated => .inQuery operand.inline q.inline negated
  | .isNull operand negated => .isNull operand.inline negated
  | .isEmpty collection negated => .isEmpty collection negated
  | .isMember value collection negated => .isMember value.inline collection negated
  | .and left right => .and left.inline right.inline
  | .or left right => .or left.inline right.inline
termination_by structural p

end

theorem itemsInline_eq (xs : List Item) : itemsInline values xs = xs.map (Item.inline values) := by
  induction xs with
  | nil => rfl
  | cons x xs ih => rw [itemsInline, ih, List.map_cons]

/-- A change with literals in place of the parameters bound in it. -/
def Change.inline : Change → Change
  | update entity assignments filter parameters =>
    update entity assignments (filterInline (parameters.lookup ·) filter) []
  | delete entity filter parameters => delete entity (filterInline (parameters.lookup ·) filter) []

namespace Change

@[simp]
theorem entity_inline (c : Change) : c.inline.entity = c.entity := by
  cases c <;> rfl

@[simp]
theorem filter_inline (c : Change) :
    c.inline.filter = filterInline (c.parameters.lookup ·) c.filter := by
  cases c <;> rfl

@[simp]
theorem parameters_inline (c : Change) : c.inline.parameters = [] := by
  cases c <;> rfl

/-- What a change does to the records that it concerns has no parameters in it. -/
@[simp]
theorem recordsAfter_inline (c : Change) : c.inline.recordsAfter = c.recordsAfter := by
  cases c <;> rfl

end Change

/-! ## Aggregates

Parameters are not aggregates, and no aggregate has a parameter in it. -/

theorem Operand.isAggregate_inline (o : Operand) : (o.inline values).isAggregate = o.isAggregate := by
  cases o with
  | parameter name =>
    rw [inline]
    cases values name with
    | none => rfl
    | some v => rfl
  | column | literal | query | aggregate => rfl

theorem Item.isAggregate_inline (x : Item) : (x.inline values).isAggregate = x.isAggregate := by
  cases x with
  | record slot => rfl
  | expr operand => exact operand.isAggregate_inline values

theorem Projection.isAggregate_inline (projection : Projection) :
    (projection.inline values).isAggregate = projection.isAggregate := by
  cases projection with
  | root => rfl
  | items xs =>
    have hitem : Item.isAggregate ∘ Item.inline values = Item.isAggregate :=
      funext (Item.isAggregate_inline values)
    rw [inline, itemsInline_eq, isAggregate, isAggregate, List.any_map, hitem]

theorem Item.aggregateCell_inline (x : Item) (tuples outer : List Tuple) :
    (x.inline values).aggregateCell tuples outer = x.aggregateCell tuples outer := by
  cases x with
  | record slot => rfl
  | expr operand =>
    cases operand with
    | parameter name =>
      rw [inline, Operand.inline]
      cases values name with
      | none => rfl
      | some v => rfl
    | column | literal | query | aggregate => rfl

theorem Projection.aggregateRow_inline (projection : Projection) (tuples outer : List Tuple) :
    (projection.inline values).aggregateRow tuples outer =
      projection.aggregateRow tuples outer := by
  cases projection with
  | root => rfl
  | items xs =>
    have hcells : (itemsInline values xs).mapM (·.aggregateCell tuples outer) =
        xs.mapM (·.aggregateCell tuples outer) := by
      rw [itemsInline_eq, List.mapM_map]
      simp only [Function.comp_def, Item.aggregateCell_inline]
    rw [inline, aggregateRow, aggregateRow, hcells]

end Inline

/-! ## Evaluation

A parameter has the value that takes its place, or is unbound on both sides. -/

section Evaluation

variable (t : Tables) (ps : List (String × Value))

theorem Source.elements_unbound (collection : Collection) (tuple : Tuple) (outer : List Tuple) :
    Source.elements ⟨t, [], .insertion⟩ collection tuple outer =
      Source.elements ⟨t, ps, .insertion⟩ collection tuple outer := by
  cases collection with
  | related r => rfl
  | stored column => rfl

mutual

theorem Plan.rows_inline (q : Plan) (outer : List Tuple) :
    (q.inline (ps.lookup ·)).rows ⟨t, [], .insertion⟩ outer = q.rows ⟨t, ps, .insertion⟩ outer := by
  match q with
  | ⟨entity, joins, filter, projection, distinct, orderBy, window, parameters⟩ =>
    have hfilter := fun tuples => filterTuples_inline filter outer tuples
    have hrow := fun tuple => Projection.row_inline projection tuple outer
    simp only [Plan.inline, Plan.rows, hfilter, hrow, Projection.isAggregate_inline,
      Projection.aggregateRow_inline]
termination_by structural q

theorem filterTuples_inline (filter : Option Predicate) (outer tuples : List Tuple) :
    filterTuples ⟨t, [], .insertion⟩ outer tuples (filterInline (ps.lookup ·) filter) =
      filterTuples ⟨t, ps, .insertion⟩ outer tuples filter := by
  match filter with
  | none => rw [filterInline, filterTuples, filterTuples]
  | some p =>
    have htruth := fun tuple => Predicate.truth_inline p tuple outer
    simp only [filterInline, filterTuples, htruth]
termination_by structural filter

theorem Projection.row_inline (projection : Projection) (tuple : Tuple) (outer : List Tuple) :
    (projection.inline (ps.lookup ·)).row ⟨t, [], .insertion⟩ tuple outer =
      projection.row ⟨t, ps, .insertion⟩ tuple outer := by
  match projection with
  | .root => rw [Projection.inline, Projection.row, Projection.row]
  | .items xs =>
    rw [Projection.inline, Projection.row, Projection.row, itemCells_inline xs tuple outer]
termination_by structural projection

theorem itemCells_inline (xs : List Item) (tuple : Tuple) (outer : List Tuple) :
    itemCells ⟨t, [], .insertion⟩ tuple outer (itemsInline (ps.lookup ·) xs) =
      itemCells ⟨t, ps, .insertion⟩ tuple outer xs := by
  match xs with
  | [] => rw [itemsInline, itemCells, itemCells]
  | x :: xs =>
    rw [itemsInline, itemCells, itemCells, Item.cell_inline x tuple outer,
      itemCells_inline xs tuple outer]
termination_by structural xs

theorem Item.cell_inline (x : Item) (tuple : Tuple) (outer : List Tuple) :
    (x.inline (ps.lookup ·)).cell ⟨t, [], .insertion⟩ tuple outer = x.cell ⟨t, ps, .insertion⟩ tuple outer := by
  match x with
  | .record slot => rw [Item.inline, Item.cell, Item.cell]
  | .expr operand =>
    rw [Item.inline, Item.cell, Item.cell, Operand.value_inline operand tuple outer]
termination_by structural x

theorem Operand.value_inline (o : Operand) (tuple : Tuple) (outer : List Tuple) :
    (o.inline (ps.lookup ·)).value ⟨t, [], .insertion⟩ tuple outer = o.value ⟨t, ps, .insertion⟩ tuple outer := by
  match o with
  | .column c => rw [Operand.inline, Operand.value, Operand.value]
  | .literal v => rw [Operand.inline, Operand.value, Operand.value]
  | .parameter name =>
    rw [Operand.inline, Operand.value, Source.parameter]
    cases ps.lookup name with
    | none => rfl
    | some v => rfl
  | .query q => rw [Operand.inline, Operand.value, Operand.value, Plan.rows_inline q (tuple :: outer)]
  | .aggregate f column => rw [Operand.inline, Operand.value, Operand.value]
termination_by structural o

theorem Predicate.truth_inline (p : Predicate) (tuple : Tuple) (outer : List Tuple) :
    (p.inline (ps.lookup ·)).truth ⟨t, [], .insertion⟩ tuple outer = p.truth ⟨t, ps, .insertion⟩ tuple outer := by
  match p with
  | .compare left op right =>
    rw [Predicate.inline, Predicate.truth, Predicate.truth, Operand.value_inline left tuple outer,
      Operand.value_inline right tuple outer]
  | .like operand pattern negated =>
    rw [Predicate.inline, Predicate.truth, Predicate.truth, Operand.value_inline operand tuple outer]
  | .inList operand values negated =>
    rw [Predicate.inline, Predicate.truth, Predicate.truth, Operand.value_inline operand tuple outer]
  | .inQuery operand q negated =>
    rw [Predicate.inline, Predicate.truth, Predicate.truth, Operand.value_inline operand tuple outer,
      Plan.rows_inline q (tuple :: outer)]
  | .isNull operand negated =>
    rw [Predicate.inline, Predicate.truth, Predicate.truth, Operand.value_inline operand tuple outer]
  | .isEmpty collection negated =>
    rw [Predicate.inline, Predicate.truth, Predicate.truth, Source.elements_unbound t ps]
  | .isMember value collection negated =>
    rw [Predicate.inline, Predicate.truth, Predicate.truth, Operand.value_inline value tuple outer,
      Source.elements_unbound t ps]
  | .and left right =>
    rw [Predicate.inline, Predicate.truth, Predicate.truth, Predicate.truth_inline left tuple outer,
      Predicate.truth_inline right tuple outer]
  | .or left right =>
    rw [Predicate.inline, Predicate.truth, Predicate.truth, Predicate.truth_inline left tuple outer,
      Predicate.truth_inline right tuple outer]
termination_by structural p

end

/-- A query gives what it gives with literals in place of its own parameters. -/
theorem Tables.fetch_inline (q : Plan) : t.fetch (q.inline q.parameter?) = t.fetch q := by
  obtain ⟨entity, joins, filter, projection, distinct, orderBy, window, parameters⟩ := q
  exact Plan.rows_inline t parameters _ []

namespace Change

theorem selects_inline (c : Change) (r : Record) :
    c.inline.selects ⟨t, [], .insertion⟩ r = c.selects ⟨t, c.parameters, .insertion⟩ r := by
  unfold selects
  rw [filter_inline]
  cases c.filter with
  | none => rfl
  | some p => simp only [filterInline, Predicate.matches, Predicate.truth_inline]

theorem positions_inline (c : Change) (i : Nat) (records : List Record) :
    c.inline.positions ⟨t, [], .insertion⟩ i records = c.positions ⟨t, c.parameters, .insertion⟩ i records := by
  induction records generalizing i with
  | nil => rfl
  | cons r records ih => rw [positions, positions, selects_inline, ih]

end Change

/-- So does a change. -/
theorem Tables.apply_inline (c : Change) : t.apply c.inline = t.apply c := by
  have hpositions := fun records => Change.positions_inline t c 0 records
  simp only [Tables.apply, Change.entity_inline, Change.parameters_inline,
    Change.recordsAfter_inline, hpositions]

end Evaluation

end EntityQuery
