import EntityQuery.Plan

/-!
# Changes

A change updates or removes every row of an entity that passes a filter.
-/

namespace EntityQuery

/-- A new value for an attribute. -/
structure Assignment where
  field : String
  value : Value
deriving DecidableEq, Inhabited

/-- A bulk update or delete; without a filter it concerns every row. -/
inductive Change where
  | update (entity : String) (assignments : List Assignment) (filter : Option Predicate)
      (parameters : List (String × Value))
  | delete (entity : String) (filter : Option Predicate) (parameters : List (String × Value))
deriving Inhabited

namespace Change

def entity : Change → String
  | update entity .. | delete entity .. => entity

def filter : Change → Option Predicate
  | update _ _ filter _ | delete _ filter _ => filter

def parameters : Change → List (String × Value)
  | update _ _ _ parameters | delete _ _ parameters => parameters

end Change

end EntityQuery
