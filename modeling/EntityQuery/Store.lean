import EntityQuery.Change
import EntityQuery.Error
import EntityQuery.Record
import EntityQuery.Tables.Apply

/-!
# Stores

A store answers plans with rows or their number, and applies changes. What it does besides is the
effect of a monad; the store in memory keeps tables as state.
-/

namespace EntityQuery

/-- A store with effects in a monad. -/
structure Store (m : Type → Type) where
  /-- The rows of a plan, in order and within its window. -/
  fetch : Plan → m (Except StoreError (List Row))
  /-- The number of rows of a plan. -/
  count : Plan → m (Except StoreError Nat)
  /-- Apply a change; gives the number of records concerned. -/
  execute : Change → m (Except StoreError Nat)

namespace Store

variable {m : Type → Type} [Monad m]

/-- Whether a plan has a row, of which at most one is fetched. -/
def hasRow (store : Store m) (q : Plan) : m (Except StoreError Bool) := do
  let answer ← store.fetch { q with window := some ⟨1, 0⟩ }
  return answer.map fun rows => !rows.isEmpty

/-- Pass a failure of a store on as it is. -/
def lift (answer : m (Except StoreError α)) : ExceptT QueryError m α :=
  ExceptT.mk do
    let a ← answer
    return a.mapError .store

/-! ## The store in memory -/

/-- The store whose state is the tables. -/
def memory : Store (StateM Tables) where
  fetch q := do
    let t ← get
    return t.fetch q
  count q := do
    let t ← get
    return t.count q
  execute c := do
    let t ← get
    match t.apply c with
    | .error e => return .error e
    | .ok (affected, t) => do
      set t
      return .ok affected

end Store

end EntityQuery
