import EntityQuery.Plan

/-!
# Failures of a store

A store that cannot answer says why. The causes an evaluation can have are listed one by one, so
that it can be said which of them a well-formed plan never meets.
-/

namespace EntityQuery

/-- The name of an aggregate in messages. -/
def Aggregate.name : Aggregate → String
  | count => "Count"
  | sum => "Sum"
  | avg => "Avg"
  | min => "Min"
  | max => "Max"

/-- Why a plan cannot be evaluated. -/
inductive EvaluationFault where
  /-- A join's slot is not the next free one. -/
  | joinOutOfOrder (slot : Nat)
  | likeOnNonText (kind : String)
  | unboundParameter (name : String)
  | misplacedAggregate
  | noEnclosingQuery (level : Nat)
  | unboundSlot (slot : Nat)
  | notCollection (field kind : String)
  | aggregateOverRoot
  | mixedAggregates
  | aggregateWithoutColumn (function : Aggregate)
  | sumOverflow
  /-- A sort gave up, as its keys are in no total preorder. -/
  | unsorted
  /-- A cause known to the store alone. -/
  | other (text : String)
deriving DecidableEq, Inhabited

def EvaluationFault.message : EvaluationFault → String
  | joinOutOfOrder slot => s!"join alias {slot} is out of order"
  | likeOnNonText kind => s!"LIKE applied to {kind}"
  | unboundParameter name => s!"unbound parameter :{name}"
  | misplacedAggregate => "aggregate used outside a selection"
  | noEnclosingQuery level => s!"no enclosing query at level {level}"
  | unboundSlot slot => s!"alias {slot} is not bound"
  | notCollection field kind => s!"{field} is not a collection ({kind})"
  | aggregateOverRoot => "aggregate over the root entity"
  | mixedAggregates => "aggregates mixed with per-row selections"
  | aggregateWithoutColumn function =>
    let name := function.name
    s!"{name} requires an attribute"
  | sumOverflow => "sum overflows int64"
  | unsorted => "user-provided comparison function does not correctly implement a total order"
  | other text => text

/-- A failure reported by a store. -/
inductive StoreError where
  | connection (reason : String)
  | constraint (reason : String)
  | timeout (milliseconds : Nat)
  | unknownEntity (name : String)
  | evaluation (fault : EvaluationFault)
deriving DecidableEq, Inhabited

def StoreError.message : StoreError → String
  | connection reason => s!"connection error: {reason}"
  | constraint reason => s!"constraint violation: {reason}"
  | timeout milliseconds => s!"operation timed out after {milliseconds} ms"
  | unknownEntity name => s!"unknown entity: {name}"
  | evaluation fault =>
    let text := fault.message
    s!"evaluation error: {text}"

end EntityQuery
