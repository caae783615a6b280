import EntityQuery.Schema.FieldType
import EntityQuery.Error

/-!
# Schemas

A schema lists the entities that can be queried, their stored fields, and the relations between
them. Fields and relations of an entity share one space of names.
-/

namespace EntityQuery

/-! ## Definitions -/

/-- A stored field. -/
structure Field where
  name : String
  type : FieldType
  /-- Whether the field rejects null. -/
  required : Bool
deriving DecidableEq, Inhabited

namespace Field

/-- A field that is required unless its type is nullable. -/
def new (name : String) (type : FieldType) : Field :=
  ⟨name, type, !type.isNullable⟩

/-- A field that is not required and, unless it is a collection, nullable. -/
def optional (name : String) (type : FieldType) : Field :=
  ⟨name, type.optional, false⟩

def isNullable (f : Field) : Bool :=
  !f.required || f.type.isNullable

end Field

/-- An entity with its stored fields in order. -/
structure Entity where
  name : String
  /-- The field that identifies a row. -/
  identityField : String
  fields : List Field
deriving DecidableEq, Inhabited

namespace Entity

def field? (e : Entity) (name : String) : Option Field :=
  e.fields.find? (·.name == name)

def identity? (e : Entity) : Option Field :=
  e.field? e.identityField

/-- The names of the fields that reject null. -/
def requiredFields (e : Entity) : List String :=
  (e.fields.filter Field.required).map Field.name

end Entity

/-- How many rows a relation leads to, seen from its owner. -/
inductive Cardinality where
  | manyToOne
  | oneToOne
  | oneToMany
deriving DecidableEq, Inhabited

/-- A relation between entities: a row of the owner is related to every row of the target whose
`toField` equals its `fromField`. -/
structure Relation where
  name : String
  fromEntity : String
  fromField : String
  toEntity : String
  toField : String
  cardinality : Cardinality
deriving DecidableEq, Inhabited

/-- Whether following a relation can give several rows. -/
def Relation.isToMany (r : Relation) : Bool :=
  r.cardinality == .oneToMany

/-- A versioned set of entities, each under a key, and of relations. -/
structure Schema where
  version : Nat
  entities : List (String × Entity)
  relations : List Relation
deriving DecidableEq, Inhabited

namespace Schema

def empty (version : Nat) : Schema :=
  ⟨version, [], []⟩

/-- Put an entity under a key, in place of the one that was there. -/
def put (key : String) (e : Entity) : List (String × Entity) → List (String × Entity)
  | [] => [(key, e)]
  | (k, old) :: rest => if k = key then (k, e) :: rest else (k, old) :: put key e rest

/-- Add an entity under its name. -/
def withEntity (s : Schema) (e : Entity) : Schema :=
  { s with entities := put e.name e s.entities }

def withRelation (s : Schema) (r : Relation) : Schema :=
  { s with relations := s.relations ++ [r] }

/-! ## Look-ups -/

def entity? (s : Schema) (name : String) : Option Entity :=
  s.entities.lookup name

/-- The relation of an owner under a name. -/
def relation? (s : Schema) (entity name : String) : Option Relation :=
  s.relations.find? fun r => r.fromEntity == entity && r.name == name

def relationsFrom (s : Schema) (entity : String) : List Relation :=
  s.relations.filter (·.fromEntity == entity)

def relationsTo (s : Schema) (entity : String) : List Relation :=
  s.relations.filter (·.toEntity == entity)

/-- The keys of the entities, in ascending order. -/
def entityNames (s : Schema) : List String :=
  (s.entities.map Prod.fst).mergeSort fun a b => a ≤ b

/-! ## Validation -/

/-- The first name that occurs before in a list. -/
def firstDuplicate? : (seen names : List String) → Option String
  | _, [] => none
  | seen, name :: names =>
    if seen.contains name then some name else firstDuplicate? (name :: seen) names

/-- What is wrong with an entity under a key: it must carry that name, declare its identity field,
and name its fields and relations apart. -/
def entityFault? (s : Schema) (key : String) (e : Entity) : Option SchemaFault :=
  if key ≠ e.name then
    some (.misnamedEntity key e.name)
  else if e.identity?.isNone then
    some (.missingIdentity e.name e.identityField)
  else
    let names := e.fields.map Field.name ++ (s.relationsFrom e.name).map Relation.name
    (firstDuplicate? [] names).map (.duplicateAttribute · e.name)

/-- What is wrong with a relation: it must connect known entities through known fields. -/
def relationFault? (s : Schema) (r : Relation) : Option SchemaFault :=
  match s.entity? r.fromEntity, s.entity? r.toEntity with
  | none, _ => some (.unknownSource r.name r.fromEntity)
  | some _, none => some (.unknownTarget r.name r.toEntity)
  | some owner, some target =>
    if (owner.field? r.fromField).isNone then
      some (.unknownSourceField owner.name r.name r.fromField)
    else if (target.field? r.toField).isNone then
      some (.unknownTargetField owner.name r.name target.name r.toField)
    else
      none

/-- What is wrong with a schema, the entities being looked at before the relations. -/
def fault? (s : Schema) : Option SchemaFault :=
  (s.entities.findSome? fun (key, e) => s.entityFault? key e) <|>
    s.relations.findSome? s.relationFault?

end Schema

end EntityQuery
