import EntityQuery.Body

/-!
# Records that are read

Which records a body reads, and in which order, can be read off its paths: a path to an attribute
reads the record that holds the attribute. A nested body also reads records of the scopes around it.
-/

namespace EntityQuery

namespace Path

/-- The path of the record that holds what a path leads to. -/
def holder (p : Path) : Path :=
  { p with hops := p.hops.dropLast }

/-- The paths among some that belong to other scopes than a given one. -/
def leaving (scope : Nat) (ps : List Path) : List Path :=
  ps.filter (·.scope != scope)

end Path

/-- The records that an item reads, given those that it reads as an operand. A selected path may
stand for a record as a whole. -/
def Expr.selectedRecords (operand : List Path) : Expr → List Path
  | .path p => [p]
  | .aggregate _ (some p) => [p.holder]
  | .aggregate _ none => []
  | _ => operand

/-- The records that an ordering reads. -/
def OrderTerm.records (t : OrderTerm) : List Path :=
  match t.expr with
  | .path p => [p.holder]
  | _ => []

mutual

/-- The records that a body reads, in its own scope and in those around it, given the ones that its
items read. -/
def Body.records (items : List Path) (b : Body) : List Path :=
  match b with
  | ⟨_, _, statements, _, _, orderBy, _, _⟩ =>
    statementsRecords statements ++ items ++ orderBy.flatMap OrderTerm.records
termination_by structural b

def statementsRecords (xs : List (Statement Clause)) : List Path :=
  match xs with
  | [] => []
  | x :: xs => statementRecords x ++ statementsRecords xs
termination_by structural xs

def statementRecords (x : Statement Clause) : List Path :=
  match x with
  | .or => []
  | .clause clause => clause.records
termination_by structural x

/-- The records that a condition reads. -/
def Clause.records (clause : Clause) : List Path :=
  match clause with
  | .compare left _ right => left.records ++ right.records
  | .like operand .. => operand.records
  | .inList operand .. => operand.records
  | .inSubquery operand subquery _ => operand.records ++ subquery.records
  | .isNull operand _ => operand.records
  | .isEmpty collection _ => [collection.holder]
  | .isMember value collection _ => value.records ++ [collection.holder]
termination_by structural clause

/-- The records that an operand reads; of those that a nested query reads, the ones of the scopes
around it. -/
def Expr.records (e : Expr) : List Path :=
  match e with
  | .path p => [p.holder]
  | .literal _ => []
  | .parameter .. => []
  | .subquery body returns =>
    Path.leaving body.scope (body.records (returns.selectedRecords returns.records))
  | .aggregate .. => []
termination_by structural e

end

theorem statementsRecords_eq (xs : List (Statement Clause)) :
    statementsRecords xs = xs.flatMap statementRecords := by
  induction xs with
  | nil => rfl
  | cons x xs ih => rw [statementsRecords, ih, List.flatMap_cons]

theorem Body.records_eq (b : Body) (items : List Path) :
    b.records items =
      statementsRecords b.statements ++ items ++ b.orderBy.flatMap OrderTerm.records := by
  cases b
  rw [records]

/-- The records that selected items read. -/
def itemsRecords (es : List Expr) : List Path :=
  es.flatMap fun e => e.selectedRecords e.records

end EntityQuery
