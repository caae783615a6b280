import EntityQuery.Engine

/-!
# Paging

A page comes with the number of all rows and the plan it was cut from, so that the pages after it can
be fetched one by one. Paging ends at an empty page, after a short one, and after a failure.
-/

namespace EntityQuery

variable {m : Type → Type} [Monad m]

/-! ## Pages -/

/-- A page of rows. -/
structure Page (t : RowType) where
  request : PageRequest
  /-- The number of rows on all pages. -/
  total : Nat
  rows : List t.Carrier
  /-- The plan of all pages. -/
  plan : Plan

namespace Page

variable {t : RowType}

/-- The number of pages. -/
def pageCount (p : Page t) : Nat :=
  let size := max p.request.size 1
  (p.total + size - 1) / size

/-- Whether there is a page after this one. -/
def hasNext (p : Page t) : Bool :=
  p.request.index + 1 < p.pageCount

end Page

/-- Fetch the rows of a page of a plan. -/
def fetchPage (store : Store m) (t : RowType) (q : Plan) (request : PageRequest) :
    ExceptT QueryError m (List t.Carrier) := do
  let window ← request.window
  Engine.run store t { q with window := some window }

namespace Engine

/-- What is wrong with the size of a page. -/
def checkSize (e : Engine) (request : PageRequest) : Except QueryError Unit :=
  if request.size = 0 then .error (.invalidPage .zeroSize)
  else if e.settings.maxPageSize < request.size then
    .error (.invalidPage (.sizeAboveMaximum request.size e.settings.maxPageSize))
  else .ok ()

/-- The number of rows of a plan on all pages: an aggregating selection has one. -/
def total (store : Store m) (q : Plan) : ExceptT QueryError m Nat :=
  if q.projection.isAggregate then return 1
  else Store.lift (store.count (counting q))

/-- A page of the rows of a body. The rows are counted by a query of their own, unless the selection
aggregates: then there is one. -/
def pages (e : Engine) (store : Store m) (t : RowType) (request : PageRequest) (b : Body) :
    ExceptT QueryError m (Page t) := do
  e.checkSize request
  let _ ← request.offset
  let q ← e.prepare t b
  let plan ← e.sorted b.entity request.sort q
  let total ← total store plan
  let rows ← fetchPage store t plan request
  return { request, total, rows, plan : Page t }

/-- A page of the rows of a body, ordered by an attribute before all else. -/
def pagesSorted (e : Engine) (store : Store m) (t : RowType) (field : String)
    (request : PageRequest) (b : Body) : ExceptT QueryError m (Page t) :=
  e.pages store t { request with sort := ⟨field, .asc⟩ :: request.sort } b

end Engine

/-! ## From page to page -/

/-- Where paging stands: the page to come, with its rows if they are there already. -/
structure Cursor (t : RowType) where
  plan : Plan
  request : PageRequest
  pending : Option (List t.Carrier)
  done : Bool

namespace Cursor

variable {t : RowType}

/-- Start with a page that has been fetched. -/
def ofPage (p : Page t) : Cursor t :=
  ⟨p.plan, p.request, some p.rows, false⟩

/-- The rows of the page to come. -/
def rows (store : Store m) (c : Cursor t) : ExceptT QueryError m (List t.Carrier) :=
  match c.pending with
  | some rows => return rows
  | none => fetchPage store t c.plan c.request

/-- The cursor behind a page that is not empty: done after a short page and after the last index. -/
def advance (c : Cursor t) (rows : List t.Carrier) : Cursor t :=
  { c with
    pending := none
    done := rows.length < c.request.size || c.request.index = maxWord
    request := { c.request with
      index := if c.request.index = maxWord then maxWord else c.request.index + 1 } }

/-- The next page or failure, if paging has not ended. -/
def next (store : Store m) (c : Cursor t) :
    m (Option (Except QueryError (List t.Carrier)) × Cursor t) := do
  if c.done then return (none, c)
  else do
    match ← (c.rows store).run with
    | .error e => return (some (.error e), { c with pending := none, done := true })
    | .ok [] => return (none, { c with pending := none, done := true })
    | .ok rows => return (some (.ok rows), c.advance rows)

/-- Visit at most so many pages, until the visitor stops. -/
def visit (store : Store m) (visitor : σ → List t.Carrier → σ × Bool) :
    (steps : Nat) → σ → Cursor t → m (σ × Except QueryError Unit)
  | 0, s, _ => return (s, .ok ())
  | steps + 1, s, c => do
    match ← c.next store with
    | (none, _) => return (s, .ok ())
    | (some (.error e), _) => return (s, .error e)
    | (some (.ok rows), c) =>
      match visitor s rows with
      | (s, true) => return (s, .ok ())
      | (s, false) => visit store visitor steps s c

end Cursor

/-- Visit a page and those after it until the visitor stops. There are no more pages than indices. -/
def Page.visitUntil {t : RowType} (store : Store m) (visitor : σ → List t.Carrier → σ × Bool)
    (init : σ) (p : Page t) : m (σ × Except QueryError Unit) :=
  (Cursor.ofPage p).visit store visitor (maxWord + 2) init

end EntityQuery
