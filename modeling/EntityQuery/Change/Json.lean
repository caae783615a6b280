import EntityQuery.Change
import EntityQuery.Plan.Json

/-!
# Changes as JSON
-/

namespace EntityQuery

namespace Assignment

def toJsonIn (form : FloatForm) (a : Assignment) : Json :=
  .object [("field", .string a.field), ("value", a.value.toJsonIn form)]

def ofJsonIn? (form : FloatForm) (x : Json) : Option Assignment := do
  match ← x.fields? ["field", "value"] with
  | [some field, some value] => do
    let field ← field.string?
    let value ← Value.ofJsonIn? form value
    some { field, value }
  | _ => none

end Assignment

namespace Change

/-- A change as JSON, the floats in it in a given form. -/
def toJsonIn (form : FloatForm) : Change → Json
  | update entity assignments filter parameters => .tagged "Update" <|
    .object [
      ("entity", .string entity), ("assignments", .array (assignments.map (Assignment.toJsonIn form))),
      ("filter", filterToJsonIn form filter), ("parameters", .ofParameters form parameters)]
  | delete entity filter parameters => .tagged "Delete" <|
    .object [
      ("entity", .string entity), ("filter", filterToJsonIn form filter),
      ("parameters", .ofParameters form parameters)]

/-- The change that a document holds, its floats in a given form. -/
def ofJsonIn? (form : FloatForm) (x : Json) : Option Change :=
  match x.variant? with
  | some ("Update", some content) => do
    match ← content.members? ["entity", "assignments", "filter", "parameters"] with
    | [some entity, some assignments, filter, some parameters] => do
      let entity ← entity.string?
      let assignments ← assignments.listOf? (Assignment.ofJsonIn? form)
      let filter ← Json.optionalField? (Predicate.ofJsonIn? form) filter
      let parameters ← parameters.parameters? form
      some (update entity assignments filter parameters)
    | _ => none
  | some ("Delete", some content) => do
    match ← content.members? ["entity", "filter", "parameters"] with
    | [some entity, filter, some parameters] => do
      let entity ← entity.string?
      let filter ← Json.optionalField? (Predicate.ofJsonIn? form) filter
      let parameters ← parameters.parameters? form
      some (delete entity filter parameters)
    | _ => none
  | _ => none

/-- The change that a text holds, its floats in a given form. -/
def ofTextIn? (form : FloatForm) (text : String) : Option Change :=
  (Json.ofNestedText? text).bind (ofJsonIn? form)

/-- A change as JSON, its floats by their bits. -/
def toJson (c : Change) : Json :=
  c.toJsonIn .finite

def ofJson? (x : Json) : Option Change :=
  ofJsonIn? .finite x

end Change

end EntityQuery
