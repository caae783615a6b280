import EntityQuery.Change
import EntityQuery.Tables.Evaluate

/-!
# Applying changes

The rows that a change concerns are chosen before the first is written, by their positions, so filters
see the tables as they were. A change that fails leaves them so.
-/

namespace EntityQuery

namespace Record

/-- A record after assignments, one after the other. -/
def assign (r : Record) (assignments : List Assignment) : Record :=
  assignments.foldl (fun r a => r.set a.field a.value) r

end Record

namespace Change

/-- Whether a change concerns a record. -/
def selects (s : Source) (c : Change) (r : Record) : Except StoreError Bool :=
  match c.filter with
  | none => .ok true
  | some p => p.matches s r

/-- The positions of the records that a change concerns, the first record having a given one. -/
def positions (s : Source) (c : Change) (index : Nat) : List Record → Except StoreError (List Nat)
  | [] => .ok []
  | r :: records => do
    let selected ← c.selects s r
    let rest ← c.positions s (index + 1) records
    .ok (if selected then index :: rest else rest)

/-- Assign to the records at positions, one after the other. -/
def assignAt (assignments : List Assignment) (positions : List Nat) (records : List Record) :
    List Record :=
  positions.foldl (fun records i => records.modify i (·.assign assignments)) records

/-- The records that are not at positions. The positions are in order, so only the first of those
left over has to be compared. -/
def retain (index : Nat) (positions : List Nat) : List Record → List Record
  | [] => []
  | r :: records =>
    if positions.head? = some index then retain (index + 1) positions.tail records
    else r :: retain (index + 1) positions records

/-- The table that a change leaves, given the positions of the records concerned. -/
def recordsAfter : Change → List Nat → List Record → List Record
  | update _ assignments .., positions, records => assignAt assignments positions records
  | delete .., positions, records => retain 0 positions records

end Change

/-- The tables after a change and the number of records concerned. -/
def Tables.apply (t : Tables) (c : Change) : Except StoreError (Nat × Tables) := do
  let records ← t.table c.entity
  let positions ← c.positions ⟨t, c.parameters, .insertion⟩ 0 records
  .ok (positions.length, t.setTable c.entity (c.recordsAfter positions records))

end EntityQuery
