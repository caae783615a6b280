import EntityQuery.Body
import EntityQuery.Catalog
import EntityQuery.Shape
import EntityQuery.Value.Inspect

/-!
# State of the planner

While a body is planned, each open scope has a frame with the joins bound so far. The frames stand
innermost first, so the position of a frame is the level of its columns.
-/

namespace EntityQuery

/-! ## Frames -/

/-- The bindings of an open scope. -/
structure Frame where
  scope : Nat
  entity : String
  joins : List Join
  /-- The slots of the declared joins, in the order of declaration. -/
  declared : List Nat
deriving DecidableEq, Inhabited

namespace Frame

/-- A scope without joins. -/
def new (scope : Nat) (entity : String) : Frame :=
  ⟨scope, entity, [], []⟩

/-- The entity bound to a slot. -/
def entityOf? (f : Frame) (slot : Nat) : Option String :=
  if slot = 0 then some f.entity
  else (f.joins.find? (·.slot == slot)).map Join.entity

/-- The slots that rows may lack: those of outer joins, and those joined to such a slot. -/
def optionalSlots (f : Frame) : List Nat :=
  f.joins.foldl (fun slots j =>
    if j.kind = .left ∨ j.parent ∈ slots then j.slot :: slots else slots) []

/-- The slot of the first join along a relation from a slot. -/
def joinAlong? (f : Frame) (parent : Nat) (relation : String) : Option Nat :=
  (f.joins.find? fun j => j.parent == parent && j.relation == relation).map Join.slot

def nextSlot (f : Frame) : Nat :=
  f.joins.length + 1

/-- Bind the next slot to the target of a relation. -/
def pushJoin (f : Frame) (parent : Nat) (r : Relation) (kind : JoinKind) : Frame :=
  { f with joins := f.joins ++ [{
      slot := f.nextSlot
      parent
      relation := r.name
      entity := r.toEntity
      parentField := r.fromField
      entityField := r.toField
      kind }] }

/-- Bind the next slot to a declared join. -/
def declare (f : Frame) (parent : Nat) (r : Relation) (kind : JoinKind) : Frame :=
  { f.pushJoin parent r kind with declared := f.declared ++ [f.nextSlot] }

/-- The slot of the root or of a declared join. -/
def slotOf? (f : Frame) : Origin → Option Nat
  | .root => some 0
  | .join index => f.declared[index]?

/-- The frame of a scope with its level. -/
def locate? (scope : Nat) : List Frame → Option (Nat × Frame)
  | [] => none
  | f :: frames =>
    if f.scope = scope then some (0, f)
    else (locate? scope frames).map fun (level, g) => (level + 1, g)

end Frame

/-! ## The planner -/

/-- The open scopes, innermost first, and the parameters bound so far. -/
structure Scopes where
  frames : List Frame
  parameters : List (String × Value)
deriving Inhabited

/-- A step of planning. -/
abbrev Planner := StateT Scopes (Except QueryError)

namespace Planner

/-- Stop because a path cannot be used. -/
def failPath (entity path : String) (fault : PathFault) : Planner α :=
  throw (.path entity path fault)

/-- Stop because types do not fit. -/
def failMismatch (path expected found : String) : Planner α :=
  throw (.mismatch path expected found)

/-- Change the frame of a level. -/
def modifyFrame (level : Nat) (f : Frame → Frame) : Planner Unit :=
  modify fun s => { s with frames := s.frames.modify level f }

/-- Run a step within a new scope; gives its frame too. -/
def inScope (f : Frame) (step : Planner α) : Planner (α × Frame) := do
  modify fun s => { s with frames := f :: s.frames }
  let a ← step
  let s ← get
  match s.frames with
  | [] => failPath f.entity f.entity .noOpenScope
  | g :: frames => do
    set { s with frames }
    return (a, g)

/-- Whether a slot of the frame of a level may be absent. -/
def isOptional (level slot : Nat) : Planner Bool := do
  let s ← get
  return (s.frames[level]?).any fun f => f.optionalSlots.contains slot

/-- The entity of the innermost scope. -/
def scopeEntity : Planner String := do
  let s ← get
  return (s.frames.head?.map Frame.entity).getD ""

/-- Bind a parameter; a name that is bound already keeps one identical value. -/
def bindParameter (name : String) (v : Value) : Planner Unit := do
  let s ← get
  match s.parameters.lookup name with
  | none => set { s with parameters := s.parameters ++ [(name, v)] }
  | some bound =>
    if bound.identical v then return
    else failMismatch (":" ++ name) bound.inspect v.inspect

end Planner

/-! ## Static types -/

/-- The static type of an operand. -/
inductive StaticType where
  | field (type : FieldType)
  | value (value : Value)
  | unknown
deriving DecidableEq, Inhabited

namespace StaticType

def shape : StaticType → Shape
  | field t => .ofFieldType t
  | value v => .ofValue v
  | unknown => .anyValue

/-- The type of an operand that cannot be ordered, if it is known to be so. -/
def unorderable? : StaticType → Option FieldType
  | field t => if t.isOrderable then none else some t
  | _ => none

/-- The types that keep two operands from being compared, named as the expected and the found one. -/
def conflict? (op : Comparison) (left right : StaticType) : Option (String × String) :=
  match (if op.isOrdering then left.unorderable? <|> right.unorderable? else none) with
  | some t => some ("orderable type", t.describe)
  | none =>
    match left, right with
    | field a, field b => if a.comparableWith b then none else some (a.describe, b.describe)
    | field t, value v | value v, field t =>
      if v.isNull || t.accepts v then none else some (t.describe, v.typeName)
    | _, _ => none

end StaticType

end EntityQuery
