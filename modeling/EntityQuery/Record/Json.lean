import EntityQuery.Record
import EntityQuery.Value.Json

/-!
# Records and rows as JSON
-/

namespace EntityQuery

/-- A pair is an array of two. -/
def Json.pair? {α β : Type} (first : Json → Option α) (second : Json → Option β) :
    Json → Option (α × β)
  | .array [x, y] => do
    let a ← first x
    let b ← second y
    some (a, b)
  | _ => none

def Json.ofPair (p : String × Value) : Json :=
  .array [.string p.1, p.2.toJson]

namespace Record

def toJson (r : Record) : Json :=
  .object [("entity", .string r.entity), ("fields", .array (r.fields.map .ofPair))]

def ofJson? (x : Json) : Option Record := do
  match ← x.fields? ["entity", "fields"] with
  | [some entity, some fields] => do
    let entity ← entity.string?
    let fields ← fields.listOf? (Json.pair? Json.string? Value.ofJson?)
    some ⟨entity, fields⟩
  | _ => none

end Record

namespace Cell

def toJson : Cell → Json
  | value v => .tagged "Value" v.toJson
  | record r => .tagged "Entity" (r.elim .null Record.toJson)

def ofJson? (x : Json) : Option Cell :=
  match x.variant? with
  | some ("Value", some content) => (Value.ofJson? content).map value
  | some ("Entity", some content) => (content.optional? Record.ofJson?).map record
  | _ => none

end Cell

namespace Row

/-- A row is the array of its cells. -/
def toJson (r : Row) : Json :=
  .array (r.cells.map Cell.toJson)

def ofJson? (x : Json) : Option Row :=
  (x.listOf? Cell.ofJson?).map Row.mk

end Row

end EntityQuery
