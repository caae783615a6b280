import EntityQuery.Body.Statement
import EntityQuery.Error

/-!
# Query bodies

A body is a query as it is recorded: clauses, joins, a selection and orderings, over paths that are
not resolved yet. Each body has a scope of its own; a path belongs to the scope it starts in, and may
be used in the bodies nested in that scope.
-/

namespace EntityQuery

/-! ## Paths -/

/-- Where a path starts within its scope. -/
inductive Origin where
  | root
  /-- A declared join, counted from zero. -/
  | join (index : Nat)
deriving DecidableEq, Inhabited

/-- A path of names from the root or a join of a scope. Without hops it stands for the record there
as a whole. -/
structure Path where
  scope : Nat
  /-- The name of the entity where the path starts. -/
  entity : String
  origin : Origin
  hops : List String
deriving DecidableEq, Inhabited

namespace Path

/-- The path one hop further. -/
def child (p : Path) (hop : String) : Path :=
  { p with hops := p.hops ++ [hop] }

/-- The path as messages name it. -/
def label (p : Path) : String :=
  ".".intercalate (p.entity :: p.hops)

end Path

/-- A join that a body declares. -/
structure JoinDeclaration where
  parent : Origin
  relation : String
  entity : String
  /-- Whether the relation is declared to lead to several rows. -/
  many : Bool
  kind : JoinKind
deriving DecidableEq, Inhabited

/-! ## Bodies -/

mutual

/-- An expression with a value, or a record as a whole. -/
inductive Expr where
  | path (path : Path)
  | literal (value : Value)
  /-- A named parameter and the value bound to it. -/
  | parameter (name : String) (value : Value)
  /-- A nested query for the value of an expression. -/
  | subquery (body : Body) (returns : Expr)
  | aggregate (function : Aggregate) (path : Option Path)

/-- A condition. -/
inductive Clause where
  | compare (left : Expr) (op : Comparison) (right : Expr)
  | like (operand : Expr) (pattern : String) (negated : Bool)
  | inList (operand : Expr) (values : List Value) (negated : Bool)
  | inSubquery (operand subquery : Expr) (negated : Bool)
  | isNull (operand : Expr) (negated : Bool)
  | isEmpty (collection : Path) (negated : Bool)
  | isMember (value : Expr) (collection : Path) (negated : Bool)

/-- An ordering by an expression. -/
structure OrderTerm where
  expr : Expr
  direction : Direction

/-- A new value for a field. -/
structure SetTerm where
  field : String
  expr : Expr

/-- A recorded query, update or delete. -/
structure Body where
  scope : Nat
  entity : String
  statements : List (Statement Clause)
  joins : List JoinDeclaration
  /-- The selected items; the root record if nothing is selected. -/
  selection : Option (List Expr)
  orderBy : List OrderTerm
  distinct : Bool
  assignments : List SetTerm

end

/-- The name of an expression in messages. -/
def Expr.label : Expr → String
  | path p => p.label
  | literal v => "literal " ++ v.typeName
  | parameter name _ => ":" ++ name
  | subquery body _ => "subquery on " ++ body.entity
  | aggregate f none => f.name ++ "(*)"
  | aggregate f (some p) => f.name ++ "(" ++ p.label ++ ")"

def Expr.isSubquery : Expr → Bool
  | subquery .. => true
  | _ => false

namespace Body

/-- A body in which nothing is recorded. -/
def empty (scope : Nat) (entity : String) : Body where
  scope
  entity
  statements := []
  joins := []
  selection := none
  orderBy := []
  distinct := false
  assignments := []

instance : Inhabited Body := ⟨empty 0 ""⟩

end Body

instance : Inhabited Expr := ⟨.literal .null⟩

end EntityQuery
