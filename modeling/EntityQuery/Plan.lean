import EntityQuery.Value

/-!
# Query plans

A plan is a query ready for a store: every path is resolved to a column. The root entity has slot 0
and the joins have the slots 1, 2, … in order; a join's parent has a smaller slot. A column names the
slot of a query so many levels out, level 0 being the query in which the column stands.
-/

namespace EntityQuery

/-! ## Parts without nested queries -/

/-- What an aggregate computes. -/
inductive Aggregate where
  /-- The number of values that are not null, or of rows where no column is given. -/
  | count
  | sum
  | avg
  | min
  | max
deriving DecidableEq, Inhabited

/-- What a join does with a row that has no related row. -/
inductive JoinKind where
  /-- Drop it. -/
  | inner
  /-- Keep it, with the joined slot absent. -/
  | left
deriving DecidableEq, Inhabited

/-- A join of a related entity onto a bound slot. -/
structure Join where
  slot : Nat
  parent : Nat
  relation : String
  entity : String
  parentField : String
  entityField : String
  kind : JoinKind
deriving DecidableEq, Inhabited

/-- An attribute of a bound slot. -/
structure Column where
  level : Nat
  slot : Nat
  field : String
deriving DecidableEq, Inhabited

/-- The rows related to a bound slot by a to-many relation, left unjoined. -/
structure RelatedRows where
  level : Nat
  slot : Nat
  relation : String
  entity : String
  parentField : String
  entityField : String
  /-- The field that stands for a related row in membership tests. -/
  identityField : String
deriving DecidableEq, Inhabited

/-- What can be tested for emptiness and membership. -/
inductive Collection where
  | related (rows : RelatedRows)
  | stored (column : Column)
deriving DecidableEq, Inhabited

/-- A comparison operator. -/
inductive Comparison where
  | eq
  | ne
  | lt
  | le
  | gt
  | ge
deriving DecidableEq, Inhabited

/-- Whether an operator needs an order, and not only equality. -/
def Comparison.isOrdering : Comparison → Bool
  | eq | ne => false
  | lt | le | gt | ge => true

inductive Direction where
  | asc
  | desc
deriving DecidableEq, Inhabited

/-- One key of an ordering. -/
structure SortKey where
  column : Column
  direction : Direction
deriving DecidableEq, Inhabited

/-- The part of the rows that a query returns: at most `limit` of them, after the first `offset`. -/
structure Window where
  limit : Nat
  offset : Nat
deriving DecidableEq, Inhabited

/-! ## Queries and the expressions in them -/

mutual

/-- A query plan. -/
structure Plan where
  entity : String
  joins : List Join
  /-- Which rows to keep; without a filter all of them. -/
  filter : Option Predicate
  projection : Projection
  /-- Whether to drop rows identical to an earlier one. -/
  distinct : Bool
  orderBy : List SortKey
  window : Option Window
  /-- The bound parameters; those of the outermost query count. -/
  parameters : List (String × Value)

/-- An expression with a value. -/
inductive Operand where
  | column (column : Column)
  | literal (value : Value)
  | parameter (name : String)
  /-- The first cell of the first row of a query, null where there is none. -/
  | query (plan : Plan)
  /-- An aggregate over the rows of the query whose selection it stands in. -/
  | aggregate (function : Aggregate) (column : Option Column)

/-- A condition on a row. -/
inductive Predicate where
  | compare (left : Operand) (op : Comparison) (right : Operand)
  | like (operand : Operand) (pattern : String) (negated : Bool)
  | inList (operand : Operand) (values : List Value) (negated : Bool)
  | inQuery (operand : Operand) (plan : Plan) (negated : Bool)
  | isNull (operand : Operand) (negated : Bool)
  | isEmpty (collection : Collection) (negated : Bool)
  | isMember (value : Operand) (collection : Collection) (negated : Bool)
  | and (left right : Predicate)
  | or (left right : Predicate)

/-- What the cells of a row are. -/
inductive Projection where
  /-- The root record alone. -/
  | root
  | items (xs : List Item)

/-- One selected item. -/
inductive Item where
  /-- The record of a slot as a whole. -/
  | record (slot : Nat)
  | expr (operand : Operand)

end

instance : Inhabited Operand := ⟨.literal .null⟩
instance : Inhabited Predicate := ⟨.isNull default false⟩
instance : Inhabited Projection := ⟨.root⟩

namespace Operand

def isAggregate : Operand → Bool
  | aggregate .. => true
  | _ => false

end Operand

/-- Whether an item is an aggregate as a whole. -/
def Item.isAggregate : Item → Bool
  | record _ => false
  | expr operand => operand.isAggregate

namespace Projection

/-- Whether any item aggregates; such a projection gives exactly one row. -/
def isAggregate : Projection → Bool
  | root => false
  | items xs => xs.any Item.isAggregate

/-- The number of cells in a row. -/
def width : Projection → Nat
  | root => 1
  | items xs => xs.length

end Projection

namespace Plan

/-- The plan of every row of an entity. -/
def all (entity : String) : Plan where
  entity
  joins := []
  filter := none
  projection := .root
  distinct := false
  orderBy := []
  window := none
  parameters := []

instance : Inhabited Plan := ⟨.all ""⟩

/-- The value bound to a parameter. -/
def parameter? (q : Plan) (name : String) : Option Value :=
  q.parameters.lookup name

/-- The join bound to a slot. -/
def join? (q : Plan) (slot : Nat) : Option Join :=
  q.joins.find? (·.slot == slot)

/-- The entity bound to a slot. -/
def entityOf? (q : Plan) (slot : Nat) : Option String :=
  if slot = 0 then some q.entity else (q.join? slot).map Join.entity

end Plan

end EntityQuery
