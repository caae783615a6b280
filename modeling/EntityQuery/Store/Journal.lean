import EntityQuery.Store

/-!
# Journals and faults

A store can be watched: every call is noted in a journal, also one that fails. It can be made to fail
on purpose: the calls of a kind fail after a number of them.
-/

namespace EntityQuery

/-! ## Calls -/

inductive CallKind where
  | fetch
  | count
  | execute
deriving DecidableEq, Inhabited

/-- A call of a store. -/
inductive Call where
  | fetch (plan : Plan)
  | count (plan : Plan)
  | execute (change : Change)
deriving Inhabited

def Call.kind : Call → CallKind
  | fetch _ => .fetch
  | count _ => .count
  | execute _ => .execute

/-- The failure of all calls of a kind but the first so many. -/
structure Fault where
  kind : CallKind
  after : Nat
  error : StoreError
deriving DecidableEq, Inhabited

/-! ## Watched stores -/

/-- The state of a watched store: its tables, and the calls so far in the order they were made. -/
structure Watched where
  tables : Tables
  calls : List Call
deriving Inhabited

namespace Watched

/-- The fault that a call meets, given the calls before it. -/
def fault? (faults : List Fault) (calls : List Call) (kind : CallKind) : Option StoreError :=
  (faults.find? fun f => f.kind == kind && f.after ≤ calls.countP (·.kind == kind)).map Fault.error

/-- Note a call, and answer it from the tables unless it meets a fault. -/
def answer (faults : List Fault) (call : Call) (run : StateM Tables (Except StoreError α)) :
    StateM Watched (Except StoreError α) := do
  let s ← get
  match fault? faults s.calls call.kind with
  | some e => do
    set { s with calls := s.calls ++ [call] }
    return .error e
  | none => do
    let (a, tables) := run.run s.tables
    set { tables, calls := s.calls ++ [call] : Watched }
    return a

/-- The store in memory, watched and with faults. -/
def store (faults : List Fault) : Store (StateM Watched) where
  fetch q := answer faults (.fetch q) (Store.memory.fetch q)
  count q := answer faults (.count q) (Store.memory.count q)
  execute c := answer faults (.execute c) (Store.memory.execute c)

end Watched

end EntityQuery
