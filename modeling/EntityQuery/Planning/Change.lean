import EntityQuery.Change
import EntityQuery.Planning

/-!
# Planning changes

The clauses of an update or delete stay on its entity: it has no joins and follows no relations, but
queries nested in it may.
-/

namespace EntityQuery

/-- The parts of a planned update or delete. -/
structure ChangeParts where
  filter : Option Predicate
  assignments : List Assignment
  parameters : List (String × Value)
deriving Inhabited

namespace Planner

/-- The value that is assigned: a literal or a parameter. -/
def assignedValue (place : String) : Expr → Planner Value
  | .literal v => return v
  | .parameter name v => do
    bindParameter name v
    return v
  | e => failMismatch place "literal or parameter" e.label

/-- Check an assignment to a stored field that is no collection. -/
def assignment (c : Catalog) (entity : Entity) (t : SetTerm) : Planner Assignment := do
  let place := entity.name ++ "." ++ t.field
  match c.attribute? entity.name t.field with
  | none => failPath entity.name place (.unknownAttribute t.field)
  | some (.relation _) => failPath entity.name place .relationAssigned
  | some (.field f) =>
    if f.type.isArray then failPath entity.name place .collectionAssigned
    else do
      let v ← assignedValue place t.expr
      if f.type.accepts v then return ⟨f.name, v⟩
      else failMismatch place f.type.describe v.typeName

/-- Plan the clauses of a change and see that they bound no joins. -/
def changeFilter (c : Catalog) (b : Body) : Planner (Option Predicate) := do
  let (statements, frame) ← inScope (.new b.scope b.entity) <|
    planStatements c b.entity b.statements
  match frame.joins with
  | j :: _ => failPath b.entity j.relation .hopInChange
  | [] => return Statement.combine .and .or statements

end Planner

/-- Plan an update or delete. -/
def Body.planChange (c : Catalog) (b : Body) : Except QueryError ChangeParts := do
  let entity ← c.entity b.entity
  match b.joins with
  | d :: _ => throw (.path b.entity d.relation .joinInChange)
  | [] => do
    let steps : Planner (Option Predicate × List Assignment) := do
      let filter ← Planner.changeFilter c b
      let assignments ← b.assignments.mapM (Planner.assignment c entity)
      return (filter, assignments)
    let ((filter, assignments), s) ← steps.run ⟨[], []⟩
    return { filter, assignments, parameters := s.parameters }

end EntityQuery
