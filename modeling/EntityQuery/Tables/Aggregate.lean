import EntityQuery.Tables.Tuple

/-!
# Aggregates

An aggregate turns the values of a column into one. Null values do not take part; without values
everything but a count is null.
-/

namespace EntityQuery

/-- Add 64-bit integers, unless a partial sum leaves their range. -/
def sumInt64 (total : Int64) : List Int64 → Option Int64
  | [] => some total
  | n :: ns =>
    let t := total.toInt + n.toInt
    if Int64.minValue.toInt ≤ t ∧ t ≤ Int64.maxValue.toInt then sumInt64 (.ofInt t) ns else none

/-- The sum of floats, from left to right. -/
def sumFloat (xs : List Float) : Float :=
  xs.foldl (· + ·) (-0.0)

namespace Value

def isInteger : Value → Bool
  | int32 _ | int64 _ => true
  | _ => false

/-- The first of the values that no later one is beyond in the given direction. -/
def extreme (beyond : Ordering) (best : Value) (vs : List Value) : Value :=
  vs.foldl (fun best v => if (order v best).getD .eq = beyond then v else best) best

end Value

namespace Aggregate

/-- The aggregate of at least one value. Integers sum to a 64-bit integer, all other numbers to a
float; what is no number does not add to a sum, but counts in a mean. -/
def ofValues (first : Value) (rest : List Value) : Aggregate → Except StoreError Value
  | count => .ok (.int64 (.ofNat (rest.length + 1)))
  | sum =>
    let values := first :: rest
    if values.all Value.isInteger then
      match sumInt64 0 (values.filterMap Value.int64?) with
      | some total => .ok (.int64 total)
      | none => .error (.evaluation .sumOverflow)
    else
      .ok (.float64 (sumFloat (values.filterMap Value.float64?)))
  | avg =>
    let total := sumFloat ((first :: rest).filterMap Value.float64?)
    .ok (.float64 (total / Number.ofInt (rest.length + 1)))
  | min => .ok (Value.extreme .lt first rest)
  | max => .ok (Value.extreme .gt first rest)

/-- The aggregate of values that are not null. -/
def ofList (f : Aggregate) : List Value → Except StoreError Value
  | [] =>
    match f with
    | count => .ok (.int64 0)
    | _ => .ok .null
  | v :: vs => f.ofValues v vs

/-- The aggregate of a column over tuples, or of the tuples themselves without a column. -/
def ofTuples (f : Aggregate) (column : Option Column) (tuples outer : List Tuple) :
    Except StoreError Value := do
  match column with
  | none =>
    match f with
    | count => .ok (.int64 (.ofNat tuples.length))
    | f => .error (.evaluation (.aggregateWithoutColumn f))
  | some c =>
    let values ← tuples.mapM fun tuple => c.value tuple outer
    f.ofList (values.filter fun v => !v.isNull)

end Aggregate

/-- The cell of an item in a row of aggregates. -/
def Item.aggregateCell (tuples outer : List Tuple) : Item → Except StoreError Cell
  | expr (.aggregate f column) => do
    let v ← f.ofTuples column tuples outer
    .ok (.value v)
  | _ => .error (.evaluation .mixedAggregates)

/-- The one row of an aggregating projection. -/
def Projection.aggregateRow (tuples outer : List Tuple) : Projection → Except StoreError Row
  | root => .error (.evaluation .aggregateOverRoot)
  | items xs => do
    let cells ← xs.mapM (·.aggregateCell tuples outer)
    .ok ⟨cells⟩

end EntityQuery
