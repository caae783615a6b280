import EntityQuery.Error

/-!
# Page requests

A page is a window over the rows of a query: so many rows, after all rows of the pages before it.
Page numbers, page sizes and offsets are words of 32 bits.
-/

namespace EntityQuery

/-- The largest word. -/
def maxWord : Nat := 0xffffffff

/-- The page size used where none is asked for. -/
def standardPageSize : Nat := 20

/-- An ordering by an attribute of the root entity. -/
structure RootOrder where
  field : String
  direction : Direction
deriving DecidableEq, Inhabited

def RootOrder.toSortKey (o : RootOrder) : SortKey :=
  ⟨⟨0, 0, o.field⟩, o.direction⟩

/-- A request for the page of an index, counted from zero, under additional orderings. -/
structure PageRequest where
  index : Nat
  size : Nat
  /-- Orderings that come before those of the query. -/
  sort : List RootOrder
deriving DecidableEq, Inhabited

namespace PageRequest

/-- The first page of the standard size. -/
def standard : PageRequest := ⟨0, standardPageSize, []⟩

/-- The number of rows before the page, which must be a word. -/
def offset (p : PageRequest) : Except QueryError Nat :=
  if p.index * p.size ≤ maxWord then .ok (p.index * p.size)
  else .error (.invalidPage (.offsetOverflow p.index p.size))

/-- The window of the page. -/
def window (p : PageRequest) : Except QueryError Window := do
  let offset ← p.offset
  .ok ⟨p.size, offset⟩

end PageRequest

end EntityQuery
