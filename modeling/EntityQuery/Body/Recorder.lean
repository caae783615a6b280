import EntityQuery.Body

/-!
# Recording bodies

A body is recorded step by step. Every step goes to the body of the scope that its path belongs to, so
a clause on an outer path reaches the outer body also from within a nested one. The path without hops
that a scope or a join gives is the handle for what is built on it.
-/

namespace EntityQuery

/-- The bodies under recording, innermost first, and the number of the next scope. -/
structure Recording where
  nextScope : Nat
  bodies : List Body
deriving Inhabited

/-- A recording step. -/
abbrev Recorder := StateM Recording

namespace Body

/-- Assign a field, in place of an earlier assignment to it. -/
def assignTerm (field : String) (e : Expr) : List SetTerm → List SetTerm
  | [] => [⟨field, e⟩]
  | t :: terms =>
    if t.field = field then ⟨field, e⟩ :: terms else t :: assignTerm field e terms

end Body

namespace Recorder

/-- Change the body of a scope. -/
def modifyBody (scope : Nat) (f : Body → Body) : Recorder Unit :=
  modify fun s => { s with bodies := s.bodies.map fun b => if b.scope = scope then f b else b }

/-! ## Scopes -/

/-- Record a body in a scope of its own. -/
def inScope (entity : String) (steps : (root : Path) → Recorder α) : Recorder (α × Body) := do
  let s ← get
  let scope := s.nextScope
  set { s with nextScope := scope + 1, bodies := .empty scope entity :: s.bodies : Recording }
  let a ← steps ⟨scope, entity, .root, []⟩
  let s ← get
  match s.bodies with
  | [] => return (a, .empty scope entity)
  | b :: bodies => do
    set { s with bodies }
    return (a, b)

/-- A nested query that returns the value of an expression. -/
def subquery (entity : String) (steps : (root : Path) → Recorder Expr) : Recorder Expr := do
  let (returns, body) ← inScope entity steps
  return .subquery body returns

/-- The body that steps record. -/
def record (entity : String) (steps : (root : Path) → Recorder Unit) : Body :=
  ((inScope entity steps).run ⟨1, []⟩).1.2

/-! ## Steps -/

/-- Append a clause to the body that a path belongs to. -/
def clause (p : Path) (c : Clause) : Recorder Unit :=
  modifyBody p.scope fun b => { b with statements := b.statements ++ [.clause c] }

/-- Link the next clause by OR. -/
def or (root : Path) : Recorder Unit :=
  modifyBody root.scope fun b => { b with statements := b.statements ++ [.or] }

/-- Join a relation of the root or of a join; gives the handle of the joined entity. -/
def join (parent : Path) (relation entity : String) (many : Bool) (kind : JoinKind) :
    Recorder Path := do
  let s ← get
  let index := ((s.bodies.find? (·.scope == parent.scope)).map (·.joins.length)).getD 0
  modifyBody parent.scope fun b =>
    { b with joins := b.joins ++ [⟨parent.origin, relation, entity, many, kind⟩] }
  return ⟨parent.scope, entity, .join index, []⟩

/-- Select items instead of the root record; the last selection counts. -/
def select (root : Path) (items : List Expr) : Recorder Unit :=
  modifyBody root.scope fun b => { b with selection := some items }

/-- Append an ordering. -/
def orderBy (root : Path) (e : Expr) (direction : Direction) : Recorder Unit :=
  modifyBody root.scope fun b => { b with orderBy := b.orderBy ++ [⟨e, direction⟩] }

/-- Drop repeated rows. -/
def distinct (root : Path) : Recorder Unit :=
  modifyBody root.scope fun b => { b with distinct := true }

/-- Assign a field; the last assignment counts. -/
def assign (root : Path) (field : String) (e : Expr) : Recorder Unit :=
  modifyBody root.scope fun b => { b with assignments := Body.assignTerm field e b.assignments }

end Recorder

end EntityQuery
