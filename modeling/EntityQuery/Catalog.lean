import EntityQuery.Schema

/-!
# Catalogs

A catalog is a schema found to be consistent. Paths are resolved against it.
-/

namespace EntityQuery

/-- A schema without faults. -/
structure Catalog where
  schema : Schema
  faultless : schema.fault? = none

/-- What a name on an entity stands for. -/
inductive Attribute where
  | field (field : Field)
  | relation (relation : Relation)
deriving DecidableEq, Inhabited

namespace Catalog

/-- The catalog of a schema, or the first fault in it. -/
def ofSchema (s : Schema) : Except QueryError Catalog :=
  match h : s.fault? with
  | some fault => .error (.invalidSchema fault)
  | none => .ok ⟨s, h⟩

def entity? (c : Catalog) (name : String) : Option Entity :=
  c.schema.entity? name

/-- The entity of a name; an unknown one is an error. -/
def entity (c : Catalog) (name : String) : Except QueryError Entity :=
  match c.entity? name with
  | some e => .ok e
  | none => .error (.unknownEntity name)

def relation? (c : Catalog) (entity name : String) : Option Relation :=
  c.schema.relation? entity name

/-- The attribute of an entity under a name. -/
def attribute? (c : Catalog) (entity name : String) : Option Attribute :=
  (c.entity? entity).bind fun e =>
    match e.field? name with
    | some f => some (.field f)
    | none => (c.relation? entity name).map .relation

end Catalog

end EntityQuery
