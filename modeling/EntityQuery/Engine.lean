import EntityQuery.Result.RowType
import EntityQuery.Settings
import EntityQuery.Store
import EntityQuery.Planning.Change

/-!
# The engine

An engine plans bodies against its catalog, runs the plans on a store and reads the rows. Planning
comes first, so a body that does not fit never reaches the store.
-/

namespace EntityQuery

/-- A catalog and the settings for all queries against it. -/
structure Engine where
  catalog : Catalog
  settings : Settings
  usable : settings.fault? = none

namespace Engine

/-! ## Building an engine -/

/-- The engine of a catalog with the standard settings. -/
def ofCatalog (c : Catalog) : Engine :=
  ⟨c, .standard, rfl⟩

/-- The engine of a schema with the standard settings. -/
def ofSchema (s : Schema) : Except QueryError Engine := do
  let c ← Catalog.ofSchema s
  return ofCatalog c

/-- The engine with other settings, if they are usable. -/
def withSettings (e : Engine) (settings : Settings) : Except QueryError Engine :=
  match h : settings.fault? with
  | some fault => .error (.invalidSettings fault)
  | none => .ok { e with settings, usable := h }

/-! ## Preparing queries -/

/-- The plan of a body whose rows can be read as a type. -/
def prepare (e : Engine) (t : RowType) (b : Body) : Except QueryError Plan := do
  let planned ← b.plan e.catalog
  t.shape.check planned.shapes
  return planned.plan

/-- Check an ordering by an attribute of an entity. -/
def checkOrder (e : Engine) (entity : String) (o : RootOrder) : Except QueryError Unit :=
  let place := entity ++ "." ++ o.field
  match e.catalog.attribute? entity o.field with
  | some (.field f) =>
    if f.type.isOrderable then .ok ()
    else .error (.mismatch place "an orderable attribute" f.type.describe)
  | some (.relation _) => .error (.path entity place .sortByRelation)
  | none => .error (.path entity place .unknownSortAttribute)

/-- A plan with orderings before its own. -/
def sorted (e : Engine) (entity : String) (sort : List RootOrder) (q : Plan) :
    Except QueryError Plan := do
  sort.forM (e.checkOrder entity)
  return { q with orderBy := sort.map RootOrder.toSortKey ++ q.orderBy }

/-- The plan that counts the rows of a plan: without ordering and window, and with whole records as
rows unless the rows are distinct. -/
def counting (q : Plan) : Plan :=
  { q with
    orderBy := []
    window := none
    projection := if q.distinct then q.projection else .root }

/-! ## Running queries -/

variable {m : Type → Type} [Monad m]

/-- Read rows one after the other. -/
def readRows (t : RowType) (rows : List Row) : Except QueryError (List t.Carrier) :=
  rows.mapM t.read

/-- Fetch the rows of a plan and read them. -/
def run (store : Store m) (t : RowType) (q : Plan) : ExceptT QueryError m (List t.Carrier) := do
  let rows ← Store.lift (store.fetch q)
  readRows t rows

/-- A plan within the bound of the settings: one row more than allowed shows that it has too many. -/
def bounded (e : Engine) (q : Plan) : Plan :=
  match e.settings.maxResults with
  | none => q
  | some limit => { q with window := some ⟨min (limit + 1) maxWord, 0⟩ }

/-- Check that there are not more rows than the settings allow. -/
def checkCount (e : Engine) (rows : List Row) : Except QueryError Unit :=
  match e.settings.maxResults with
  | none => .ok ()
  | some limit => if limit < rows.length then .error (.tooManyResults limit) else .ok ()

/-- All rows, under orderings before those of the body. -/
def allSorted (e : Engine) (store : Store m) (t : RowType) (sort : List RootOrder) (b : Body) :
    ExceptT QueryError m (List t.Carrier) := do
  let q ← e.prepare t b
  let q ← e.sorted b.entity sort q
  let rows ← Store.lift (store.fetch (e.bounded q))
  e.checkCount rows
  readRows t rows

/-- All rows. -/
def all (e : Engine) (store : Store m) (t : RowType) (b : Body) :
    ExceptT QueryError m (List t.Carrier) :=
  e.allSorted store t [] b

/-- The only row. At most two are fetched. -/
def one (e : Engine) (store : Store m) (t : RowType) (b : Body) :
    ExceptT QueryError m t.Carrier := do
  let q ← e.prepare t b
  let rows ← Store.lift (store.fetch { q with window := some ⟨2, 0⟩ })
  match rows with
  | [] => throw .noResult
  | [row] => t.read row
  | rows => throw (.notUnique rows.length)

/-- The first row, if there is one. -/
def first (e : Engine) (store : Store m) (t : RowType) (b : Body) :
    ExceptT QueryError m (Option t.Carrier) := do
  let q ← e.prepare t b
  let rows ← Store.lift (store.fetch { q with window := some ⟨1, 0⟩ })
  match rows with
  | [] => return none
  | row :: _ => do
    let a ← t.read row
    return some a

/-- Whether there is a row. -/
def hasRow (e : Engine) (store : Store m) (b : Body) : ExceptT QueryError m Bool := do
  let planned ← b.plan e.catalog
  Store.lift (store.hasRow planned.plan)

/-- The number of rows. -/
def count (e : Engine) (store : Store m) (b : Body) : ExceptT QueryError m Nat := do
  let planned ← b.plan e.catalog
  Store.lift (store.count (counting planned.plan))

/-! ## Running changes -/

/-- Update the records that the body selects; gives their number. Without assignments nothing is
done. -/
def update (e : Engine) (store : Store m) (b : Body) : ExceptT QueryError m Nat := do
  let parts ← b.planChange e.catalog
  if parts.assignments.isEmpty then return 0
  else Store.lift (store.execute
    (.update b.entity parts.assignments parts.filter parts.parameters))

/-- Delete the records that the body selects; gives their number. -/
def delete (e : Engine) (store : Store m) (b : Body) : ExceptT QueryError m Nat := do
  let parts ← b.planChange e.catalog
  Store.lift (store.execute (.delete b.entity parts.filter parts.parameters))

end Engine

end EntityQuery
