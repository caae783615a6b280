import EntityQuery.Json.Parser
import EntityQuery.Schema

/-!
# Schemas as JSON
-/

namespace EntityQuery

namespace ScalarType

def toJson : ScalarType → Json
  | bool => .string "Bool"
  | int32 => .string "Int32"
  | int64 => .string "Int64"
  | float32 => .string "Float32"
  | float64 => .string "Float64"
  | string => .string "String"
  | bytes => .string "Bytes"
  | timestamp => .string "Timestamp"
  | uuid => .string "Uuid"

def ofJson? (x : Json) : Option ScalarType :=
  match x.tag? with
  | some "Bool" => some bool
  | some "Int32" => some int32
  | some "Int64" => some int64
  | some "Float32" => some float32
  | some "Float64" => some float64
  | some "String" => some string
  | some "Bytes" => some bytes
  | some "Timestamp" => some timestamp
  | some "Uuid" => some uuid
  | _ => none

end ScalarType

namespace FieldType

/-- An enumeration is a structure of its own: a name and variants. -/
def enumerationToJson (name : String) (variants : List String) : Json :=
  .object [("name", .string name), ("variants", .array (variants.map .string))]

def enumerationOfJson? (x : Json) : Option (String × List String) := do
  match ← x.fields? ["name", "variants"] with
  | [some name, some variants] => do
    let name ← name.string?
    let variants ← variants.listOf? Json.string?
    some (name, variants)
  | _ => none

def toJson : FieldType → Json
  | scalar s => .tagged "Scalar" s.toJson
  | optionalScalar s => .tagged "OptionalScalar" s.toJson
  | array s => .tagged "ArrayScalar" s.toJson
  | enumeration name variants => .tagged "Enum" (enumerationToJson name variants)
  | optionalEnumeration name variants => .tagged "OptionalEnum" (enumerationToJson name variants)

def ofJson? (x : Json) : Option FieldType :=
  match x.variant? with
  | some ("Scalar", some content) => (ScalarType.ofJson? content).map scalar
  | some ("OptionalScalar", some content) => (ScalarType.ofJson? content).map optionalScalar
  | some ("ArrayScalar", some content) => (ScalarType.ofJson? content).map array
  | some ("Enum", some content) =>
    (enumerationOfJson? content).map fun (name, variants) => enumeration name variants
  | some ("OptionalEnum", some content) =>
    (enumerationOfJson? content).map fun (name, variants) => optionalEnumeration name variants
  | _ => none

end FieldType

namespace Field

def toJson (f : Field) : Json :=
  .object [("name", .string f.name), ("field_type", f.type.toJson), ("required", .bool f.required)]

def ofJson? (x : Json) : Option Field := do
  match ← x.fields? ["name", "field_type", "required"] with
  | [some name, some type, some required] => do
    let name ← name.string?
    let type ← FieldType.ofJson? type
    let required ← required.bool?
    some { name, type, required }
  | _ => none

end Field

namespace Entity

def toJson (e : Entity) : Json :=
  .object [("name", .string e.name), ("identity_field", .string e.identityField),
    ("fields", .array (e.fields.map Field.toJson))]

def ofJson? (x : Json) : Option Entity := do
  match ← x.fields? ["name", "identity_field", "fields"] with
  | [some name, some identityField, some fields] => do
    let name ← name.string?
    let identityField ← identityField.string?
    let fields ← fields.listOf? Field.ofJson?
    some { name, identityField, fields }
  | _ => none

end Entity

namespace Cardinality

def toJson : Cardinality → Json
  | manyToOne => .string "ManyToOne"
  | oneToOne => .string "OneToOne"
  | oneToMany => .string "OneToMany"

def ofJson? (x : Json) : Option Cardinality :=
  match x.tag? with
  | some "ManyToOne" => some manyToOne
  | some "OneToOne" => some oneToOne
  | some "OneToMany" => some oneToMany
  | _ => none

end Cardinality

namespace Relation

def toJson (r : Relation) : Json :=
  .object [
    ("name", .string r.name), ("from_entity", .string r.fromEntity),
    ("from_field", .string r.fromField), ("to_entity", .string r.toEntity),
    ("to_field", .string r.toField), ("cardinality", r.cardinality.toJson)]

def ofJson? (x : Json) : Option Relation := do
  match ← x.fields?
    ["name", "from_entity", "from_field", "to_entity", "to_field", "cardinality"] with
  | [some name, some fromEntity, some fromField, some toEntity, some toField,
      some cardinality] => do
    let name ← name.string?
    let fromEntity ← fromEntity.string?
    let fromField ← fromField.string?
    let toEntity ← toEntity.string?
    let toField ← toField.string?
    let cardinality ← Cardinality.ofJson? cardinality
    some { name, fromEntity, fromField, toEntity, toField, cardinality }
  | _ => none

end Relation

namespace Schema

def toJson (s : Schema) : Json :=
  .object [
    ("version", .int s.version),
    ("entities", .object (s.entities.map fun (key, e) => (key, e.toJson))),
    ("relations", .array (s.relations.map Relation.toJson))]

/-- Entities under their keys; of two under one key the later one counts. -/
def entitiesOfJson? : Json → Option (List (String × Entity))
  | .object members =>
    members.foldlM (fun entities (key, x) => (Entity.ofJson? x).map (put key · entities)) []
  | _ => none

def ofJson? (x : Json) : Option Schema := do
  match ← x.fields? ["version", "entities", "relations"] with
  | [some version, some entities, some relations] => do
    let version ← version.word64?
    let entities ← entitiesOfJson? entities
    let relations ← relations.listOf? Relation.ofJson?
    some { version, entities, relations }
  | _ => none

/-- The schema that a text holds, consistent or not. -/
def ofText? (text : String) : Option Schema :=
  (Json.ofText? text).bind ofJson?

end Schema

end EntityQuery
