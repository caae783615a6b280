import EntityQuery.Like
import EntityQuery.Tables.Aggregate
import EntityQuery.Tables.Sort

/-!
# Evaluating plans

A plan is evaluated by binding tuples, keeping those whose filter is true, ordering them and
projecting them to rows. Conditions have three truth values: a comparison with null is unknown, and
only what is true passes a filter.
-/

namespace EntityQuery

/-! ## Three-valued logic -/

/-- A truth value; `none` is unknown. -/
abbrev Truth := Option Bool

namespace Truth

def and : Truth → Truth → Truth
  | some false, _ | _, some false => some false
  | some true, some true => some true
  | _, _ => none

def or : Truth → Truth → Truth
  | some true, _ | _, some true => some true
  | some false, some false => some false
  | _, _ => none

end Truth

/-- The truth of a comparison. -/
def Comparison.truth (op : Comparison) (a b : Value) : Truth :=
  if a.isNull || b.isNull then none
  else match op with
    | eq => some (a.equal b)
    | ne => some !(a.equal b)
    | lt => (a.order b).map Ordering.isLT
    | le => (a.order b).map Ordering.isLE
    | gt => (a.order b).map Ordering.isGT
    | ge => (a.order b).map Ordering.isGE

/-- Whether a value is among candidates: unknown for null, and where it is not found but might be
one of the candidates that are null. -/
def membership (v : Value) (candidates : List Value) (negated : Bool) : Truth :=
  if v.isNull then none
  else if candidates.any (·.equal v) then some !negated
  else if candidates.any Value.isNull then none
  else some negated

/-! ## Rows -/

/-- Rows without those identical to one seen before. -/
def distinctRows (seen : List Row) : List Row → List Row
  | [] => []
  | row :: rows =>
    if seen.any (·.identical row) then distinctRows seen rows
    else row :: distinctRows (row :: seen) rows

/-- The rows in a window. -/
def Window.apply (w : Window) (rows : List Row) : List Row :=
  (rows.drop w.offset).take w.limit

/-- The rows in a window that may be missing. -/
def windowed (window : Option Window) (rows : List Row) : List Row :=
  match window with
  | none => rows
  | some w => w.apply rows

/-! ## Evaluation -/

/-- What a plan is evaluated over: tables and bound parameters, and with which sorter. -/
structure Source where
  tables : Tables
  parameters : List (String × Value)
  sorter : Sorter
deriving Inhabited

namespace Source

/-- The value bound to a parameter. -/
def parameter (s : Source) (name : String) : Except StoreError Value :=
  match s.parameters.lookup name with
  | some v => .ok v
  | none => .error (.evaluation (.unboundParameter name))

/-- The identities of the rows related to a bound slot. -/
def relatedIdentities (s : Source) (r : RelatedRows) (tuple : Tuple) (outer : List Tuple) :
    Except StoreError (List Value) := do
  let owner ← tuple.record outer r.level r.slot
  let key := fieldValue owner r.parentField
  if key.isNull then .ok []
  else do
    let targets ← s.tables.table r.entity
    .ok ((related key r.entityField targets).map fun t => fieldValue (some t) r.identityField)

/-- The elements of a collection; a null collection has none. -/
def elements (s : Source) (c : Collection) (tuple : Tuple) (outer : List Tuple) :
    Except StoreError (List Value) :=
  match c with
  | .related r => s.relatedIdentities r tuple outer
  | .stored column => do
    let v ← column.value tuple outer
    if v.isNull then .ok []
    else match v.elements? with
      | some vs => .ok vs
      | none => .error (.evaluation (.notCollection column.field v.typeName))

end Source

mutual

/-- The rows of a query. -/
def Plan.rows (s : Source) (outer : List Tuple) (q : Plan) : Except StoreError (List Row) :=
  match q with
  | ⟨entity, joins, filter, projection, distinct, orderBy, window, _⟩ => do
    let tuples ← s.tables.bind entity joins
    let tuples ← filterTuples s outer tuples filter
    if projection.isAggregate then do
      let row ← projection.aggregateRow tuples outer
      .ok (windowed window [row])
    else do
      let tuples ← sortTuples s.sorter orderBy tuples outer
      let rows ← tuples.mapM fun tuple => projection.row s tuple outer
      .ok (windowed window (if distinct then distinctRows [] rows else rows))
termination_by structural q

/-- The tuples that pass a filter. -/
def filterTuples (s : Source) (outer tuples : List Tuple) (filter : Option Predicate) :
    Except StoreError (List Tuple) :=
  match filter with
  | none => .ok tuples
  | some p => flatMapE (fun tuple => do
      let truth ← p.truth s tuple outer
      .ok (if truth = some true then [tuple] else [])) tuples
termination_by structural filter

/-- The row of a tuple. -/
def Projection.row (s : Source) (tuple : Tuple) (outer : List Tuple) (p : Projection) :
    Except StoreError Row :=
  match p with
  | .root => .ok ⟨[.record (tuple.head?.join)]⟩
  | .items xs => do
    let cells ← itemCells s tuple outer xs
    .ok ⟨cells⟩
termination_by structural p

/-- The cells of selected items. -/
def itemCells (s : Source) (tuple : Tuple) (outer : List Tuple) (xs : List Item) :
    Except StoreError (List Cell) :=
  match xs with
  | [] => .ok []
  | x :: xs => do
    let cell ← x.cell s tuple outer
    let cells ← itemCells s tuple outer xs
    .ok (cell :: cells)
termination_by structural xs

/-- The cell of a selected item. -/
def Item.cell (s : Source) (tuple : Tuple) (outer : List Tuple) (x : Item) :
    Except StoreError Cell :=
  match x with
  | .record slot => do
    let r ← tuple.record outer 0 slot
    .ok (.record r)
  | .expr operand => do
    let v ← operand.value s tuple outer
    .ok (.value v)
termination_by structural x

/-- The value of an operand. -/
def Operand.value (s : Source) (tuple : Tuple) (outer : List Tuple) (o : Operand) :
    Except StoreError Value :=
  match o with
  | .column c => c.value tuple outer
  | .literal v => .ok v
  | .parameter name => s.parameter name
  | .query q => do
    let rows ← q.rows s (tuple :: outer)
    .ok ((rows.head?.bind (·.cells.head?)).elim .null Cell.toValue)
  | .aggregate .. => .error (.evaluation .misplacedAggregate)
termination_by structural o

/-- The truth of a condition. -/
def Predicate.truth (s : Source) (tuple : Tuple) (outer : List Tuple) (p : Predicate) :
    Except StoreError Truth :=
  match p with
  | .compare left op right => do
    let a ← left.value s tuple outer
    let b ← right.value s tuple outer
    .ok (op.truth a b)
  | .like operand pattern negated => do
    match ← operand.value s tuple outer with
    | .null => .ok none
    | .string text => .ok (some (Like.holds pattern text != negated))
    | v => .error (.evaluation (.likeOnNonText v.typeName))
  | .inList operand values negated => do
    let v ← operand.value s tuple outer
    .ok (membership v values negated)
  | .inQuery operand q negated => do
    let v ← operand.value s tuple outer
    if v.isNull then .ok none
    else do
      let rows ← q.rows s (tuple :: outer)
      let candidates := rows.map fun row => row.cells.head?.elim .null Cell.toValue
      .ok (membership v candidates negated)
  | .isNull operand negated => do
    let v ← operand.value s tuple outer
    .ok (some (v.isNull != negated))
  | .isEmpty collection negated => do
    let vs ← s.elements collection tuple outer
    .ok (some (vs.isEmpty != negated))
  | .isMember value collection negated => do
    let v ← value.value s tuple outer
    if v.isNull then .ok none
    else do
      let vs ← s.elements collection tuple outer
      .ok (some (vs.any (·.equal v) != negated))
  | .and left right => do
    let a ← left.truth s tuple outer
    if a = some false then .ok a
    else do
      let b ← right.truth s tuple outer
      .ok (a.and b)
  | .or left right => do
    let a ← left.truth s tuple outer
    if a = some true then .ok a
    else do
      let b ← right.truth s tuple outer
      .ok (a.or b)
termination_by structural p

end

namespace Tables

/-- The rows of a query over tables, under its own parameters and with a sorter. -/
def fetchBy (sorter : Sorter) (t : Tables) (q : Plan) : Except StoreError (List Row) :=
  q.rows ⟨t, q.parameters, sorter⟩ []

/-- The rows of a query, sorted by insertion. -/
def fetch (t : Tables) (q : Plan) : Except StoreError (List Row) :=
  t.fetchBy .insertion q

/-- The number of rows of a query. -/
def count (t : Tables) (q : Plan) : Except StoreError Nat := do
  let rows ← t.fetch q
  .ok rows.length

end Tables

/-- Whether a record alone passes a condition. -/
def Predicate.matches (s : Source) (r : Record) (p : Predicate) : Except StoreError Bool := do
  let truth ← p.truth s [some r] []
  .ok (truth = some true)

end EntityQuery
