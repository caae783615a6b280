import EntityQuery.Tables
import EntityQuery.Value.Order

/-!
# Tuples and joins

While a query is evaluated, a row is a tuple: the record of each slot, absent where an outer join
found none. A nested query sees the tuples of the queries around it, the nearest first.
-/

namespace EntityQuery

/-- The record bound to each slot. -/
abbrev Tuple := List (Option Record)

/-- Map a list to lists that are joined; the first failure ends it. -/
def flatMapE (f : α → Except ε (List β)) : List α → Except ε (List β)
  | [] => .ok []
  | x :: xs => do
    let ys ← f x
    let zs ← flatMapE f xs
    .ok (ys ++ zs)

/-! ## Reading bound records -/

namespace Tuple

/-- The record in a slot of the tuple so many levels out. -/
def record (tuple : Tuple) (outer : List Tuple) (level slot : Nat) :
    Except StoreError (Option Record) :=
  match (tuple :: outer)[level]? with
  | none => .error (.evaluation (.noEnclosingQuery level))
  | some frame =>
    match frame[slot]? with
    | none => .error (.evaluation (.unboundSlot slot))
    | some r => .ok r

end Tuple

/-- The value under a name of a record that may be absent; null where there is none. -/
def fieldValue (r : Option Record) (field : String) : Value :=
  (r.bind (·.get? field)).getD .null

/-- The value of a column. -/
def Column.value (c : Column) (tuple : Tuple) (outer : List Tuple) : Except StoreError Value := do
  let r ← tuple.record outer c.level c.slot
  .ok (fieldValue r c.field)

/-- The records whose field equals a key. A null key is related to nothing. -/
def related (key : Value) (field : String) (targets : List Record) : List Record :=
  if key.isNull then []
  else targets.filter fun r => (r.get? field).any (·.equal key)

/-! ## Joining -/

namespace Join

/-- The records that a tuple is joined with. -/
def matching (j : Join) (targets : List Record) (tuple : Tuple) : List Record :=
  related (fieldValue (tuple[j.parent]?.join) j.parentField) j.entityField targets

/-- A tuple with each record that it is joined with in the next slot. -/
def extend (j : Join) (targets : List Record) (tuple : Tuple) : List Tuple :=
  match j.matching targets tuple, j.kind with
  | [], .inner => []
  | [], .left => [tuple ++ [none]]
  | records, _ => records.map fun r => tuple ++ [some r]

/-- Join tuples with the table of an entity. The slot of the join must be the next free one. -/
def apply (j : Join) (t : Tables) (tuples : List Tuple) : Except StoreError (List Tuple) := do
  let targets ← t.table j.entity
  flatMapE (fun tuple =>
    if tuple.length = j.slot then .ok (j.extend targets tuple)
    else .error (.evaluation (.joinOutOfOrder j.slot))) tuples

end Join

/-- Apply joins one after the other. -/
def Tables.joinAll (t : Tables) : List Join → List Tuple → Except StoreError (List Tuple)
  | [], tuples => .ok tuples
  | j :: joins, tuples => do
    let tuples ← j.apply t tuples
    t.joinAll joins tuples

/-- The tuples of an entity under joins, unfiltered. -/
def Tables.bind (t : Tables) (entity : String) (joins : List Join) :
    Except StoreError (List Tuple) := do
  let records ← t.table entity
  t.joinAll joins (records.map fun r => [some r])

end EntityQuery
