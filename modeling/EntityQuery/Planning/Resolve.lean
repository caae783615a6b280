import EntityQuery.Planning.Frame

/-!
# Resolving paths

A path is followed hop by hop from its scope. A hop along a to-one relation uses the first join along
that relation, and adds an inner join where there is none; every path that takes the hop shares it.
-/

namespace EntityQuery

/-- What a path stands for. -/
inductive Resolved where
  | field (column : Column) (field : Field)
  /-- A relation from a slot, not followed. -/
  | relation (level slot : Nat) (relation : Relation)
  /-- The record in a slot. -/
  | record (level slot : Nat) (entity : String)
deriving DecidableEq, Inhabited

namespace Path

/-- The slot that a relation leads to. -/
def hop (p : Path) (level parent : Nat) (r : Relation) : Planner Nat := do
  let s ← get
  match s.frames[level]? with
  | none => Planner.failPath p.entity p.label .outOfScope
  | some frame =>
    match frame.joinAlong? parent r.name with
    | some slot => return slot
    | none =>
      if r.isToMany then
        Planner.failPath r.fromEntity p.label (.toManyHop r.name)
      else do
        Planner.modifyFrame level (·.pushJoin parent r .inner)
        return frame.nextSlot

/-- Follow hops from a slot bound to an entity. All hops but the last must be relations. -/
def follow (c : Catalog) (p : Path) (level : Nat) : (slot : Nat) → (entity : String) →
    (hops : List String) → Planner Resolved
  | slot, entity, [] => return .record level slot entity
  | slot, entity, [last] =>
    match c.attribute? entity last with
    | some (.field f) => return .field ⟨level, slot, f.name⟩ f
    | some (.relation r) => return .relation level slot r
    | none => Planner.failPath entity p.label (.unknownAttribute last)
  | slot, entity, name :: rest =>
    match c.attribute? entity name with
    | some (.relation r) => do
      let slot ← p.hop level slot r
      p.follow c level slot r.toEntity rest
    | some (.field _) => Planner.failPath entity p.label (.notRelation name)
    | none => Planner.failPath entity p.label (.unknownAttribute name)

/-- Resolve a path. Its scope must be one of the open ones. -/
def resolve (c : Catalog) (p : Path) : Planner Resolved := do
  let s ← get
  match Frame.locate? p.scope s.frames with
  | none => Planner.failPath p.entity p.label .outOfScope
  | some (level, frame) =>
    match frame.slotOf? p.origin with
    | none => Planner.failPath p.entity p.label .undeclaredJoin
    | some slot =>
      match frame.entityOf? slot with
      | none => Planner.failPath p.entity p.label .unboundSlot
      | some entity => p.follow c level slot entity p.hops

end Path

/-! ## Collections -/

namespace Catalog

/-- The rows related to a slot, with the field that identifies them. -/
def relatedRows (c : Catalog) (level slot : Nat) (r : Relation) : Except QueryError RelatedRows := do
  let target ← c.entity r.toEntity
  return {
    level
    slot
    relation := r.name
    entity := r.toEntity
    parentField := r.fromField
    entityField := r.toField
    identityField := target.identityField }

/-- The type of the field that identifies the rows of an entity. -/
def identityType (e : Entity) : Except QueryError FieldType :=
  match e.identity? with
  | some f => return f.type
  | none => throw (.invalidSchema (.undeclaredIdentity e.name))

/-- The condition that a to-one relation leads nowhere: a null key where the key is on the owner's
side, no related row where the owner is found by its identity. -/
def relationIsNull (c : Catalog) (p : Path) (level slot : Nat) (r : Relation) (negated : Bool) :
    Except QueryError Predicate := do
  let owner ← c.entity r.fromEntity
  if r.isToMany then
    throw (.mismatch p.label "to-one relation" "to-many relation")
  else if r.fromField ≠ owner.identityField then
    return .isNull (.column ⟨level, slot, r.fromField⟩) negated
  else do
    let rows ← c.relatedRows level slot r
    return .isEmpty (.related rows) negated

end Catalog

/-- Resolve a path to a collection and the type of its elements. -/
def Path.collection (c : Catalog) (p : Path) : Planner (Collection × FieldType) := do
  match ← p.resolve c with
  | .field column f =>
    match f.type with
    | .array s => return (.stored column, .scalar s)
    | t => Planner.failMismatch p.label "collection" t.describe
  | .relation level slot r =>
    if r.isToMany then do
      let target ← c.entity r.toEntity
      let identity ← Catalog.identityType target
      let rows ← c.relatedRows level slot r
      return (.related rows, identity)
    else Planner.failMismatch p.label "collection" "to-one relation"
  | .record _ _ entity => Planner.failMismatch p.label "collection" ("entity " ++ entity)

end EntityQuery
