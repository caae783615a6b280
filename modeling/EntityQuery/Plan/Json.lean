import EntityQuery.Json.Parser
import EntityQuery.Plan
import EntityQuery.Record.Json

/-!
# Plans as JSON

Structures are written as objects, alternatives under their tags, the floats in them in a given form.
Reading follows the nesting of the document, whose depth serves as fuel.
-/

namespace EntityQuery

/-! ## Parts without nested queries -/

namespace Aggregate

def toJson : Aggregate → Json
  | count => .string "Count"
  | sum => .string "Sum"
  | avg => .string "Avg"
  | min => .string "Min"
  | max => .string "Max"

def ofJson? (x : Json) : Option Aggregate :=
  match x.tag? with
  | some "Count" => some count
  | some "Sum" => some sum
  | some "Avg" => some avg
  | some "Min" => some min
  | some "Max" => some max
  | _ => none

end Aggregate

namespace JoinKind

def toJson : JoinKind → Json
  | inner => .string "Inner"
  | left => .string "Left"

def ofJson? (x : Json) : Option JoinKind :=
  match x.tag? with
  | some "Inner" => some inner
  | some "Left" => some left
  | _ => none

end JoinKind

namespace Comparison

def toJson : Comparison → Json
  | eq => .string "Eq"
  | ne => .string "Ne"
  | lt => .string "Lt"
  | le => .string "Le"
  | gt => .string "Gt"
  | ge => .string "Ge"

def ofJson? (x : Json) : Option Comparison :=
  match x.tag? with
  | some "Eq" => some eq
  | some "Ne" => some ne
  | some "Lt" => some lt
  | some "Le" => some le
  | some "Gt" => some gt
  | some "Ge" => some ge
  | _ => none

end Comparison

namespace Direction

def toJson : Direction → Json
  | asc => .string "Asc"
  | desc => .string "Desc"

def ofJson? (x : Json) : Option Direction :=
  match x.tag? with
  | some "Asc" => some asc
  | some "Desc" => some desc
  | _ => none

end Direction

namespace Join

def toJson (j : Join) : Json :=
  .object [
    ("alias", .ofNat j.slot), ("parent", .ofNat j.parent), ("relation", .string j.relation),
    ("entity", .string j.entity), ("parent_field", .string j.parentField),
    ("entity_field", .string j.entityField), ("kind", j.kind.toJson)]

def ofJson? (x : Json) : Option Join := do
  match ← x.fields?
    ["alias", "parent", "relation", "entity", "parent_field", "entity_field", "kind"] with
  | [some slot, some parent, some relation, some entity, some parentField, some entityField,
      some kind] => do
    let slot ← slot.word32?
    let parent ← parent.word32?
    let relation ← relation.string?
    let entity ← entity.string?
    let parentField ← parentField.string?
    let entityField ← entityField.string?
    let kind ← JoinKind.ofJson? kind
    some { slot, parent, relation, entity, parentField, entityField, kind }
  | _ => none

end Join

namespace Column

def toJson (c : Column) : Json :=
  .object [("level", .ofNat c.level), ("alias", .ofNat c.slot), ("field", .string c.field)]

def ofJson? (x : Json) : Option Column := do
  match ← x.fields? ["level", "alias", "field"] with
  | [some level, some slot, some field] => do
    let level ← level.word32?
    let slot ← slot.word32?
    let field ← field.string?
    some { level, slot, field }
  | _ => none

end Column

namespace RelatedRows

def toJson (r : RelatedRows) : Json :=
  .object [
    ("level", .ofNat r.level), ("alias", .ofNat r.slot), ("relation", .string r.relation),
    ("entity", .string r.entity), ("parent_field", .string r.parentField),
    ("entity_field", .string r.entityField), ("identity_field", .string r.identityField)]

def ofJson? (x : Json) : Option RelatedRows := do
  match ← x.fields?
    ["level", "alias", "relation", "entity", "parent_field", "entity_field", "identity_field"] with
  | [some level, some slot, some relation, some entity, some parentField, some entityField,
      some identityField] => do
    let level ← level.word32?
    let slot ← slot.word32?
    let relation ← relation.string?
    let entity ← entity.string?
    let parentField ← parentField.string?
    let entityField ← entityField.string?
    let identityField ← identityField.string?
    some { level, slot, relation, entity, parentField, entityField, identityField }
  | _ => none

end RelatedRows

namespace Collection

def toJson : Collection → Json
  | related rows => .tagged "Relation" rows.toJson
  | stored column => .tagged "Attribute" column.toJson

def ofJson? (x : Json) : Option Collection :=
  match x.variant? with
  | some ("Relation", some content) => (RelatedRows.ofJson? content).map related
  | some ("Attribute", some content) => (Column.ofJson? content).map stored
  | _ => none

end Collection

namespace SortKey

def toJson (k : SortKey) : Json :=
  .object [("column", k.column.toJson), ("direction", k.direction.toJson)]

def ofJson? (x : Json) : Option SortKey := do
  match ← x.fields? ["column", "direction"] with
  | [some column, some direction] => do
    let column ← Column.ofJson? column
    let direction ← Direction.ofJson? direction
    some { column, direction }
  | _ => none

end SortKey

namespace Window

def toJson (w : Window) : Json :=
  .object [("limit", .ofNat w.limit), ("offset", .ofNat w.offset)]

def ofJson? (x : Json) : Option Window := do
  match ← x.fields? ["limit", "offset"] with
  | [some limit, some offset] => do
    let limit ← limit.word32?
    let offset ← offset.word32?
    some { limit, offset }
  | _ => none

end Window

/-- Bound parameters are an array of pairs. -/
def Json.ofParameters (form : FloatForm) (parameters : List (String × Value)) : Json :=
  .array (parameters.map fun (name, v) => .array [.string name, v.toJsonIn form])

def Json.parameters? (form : FloatForm) (x : Json) : Option (List (String × Value)) :=
  x.listOf? (Json.pair? Json.string? (Value.ofJsonIn? form))

/-! ## Writing -/

mutual

def Plan.toJsonIn (form : FloatForm) (q : Plan) : Json :=
  match q with
  | ⟨entity, joins, filter, projection, distinct, orderBy, window, parameters⟩ =>
    .object [
      ("root_entity", .string entity), ("joins", .array (joins.map Join.toJson)),
      ("filter", filterToJsonIn form filter), ("projection", projection.toJsonIn form),
      ("distinct", .bool distinct), ("order_by", .array (orderBy.map SortKey.toJson)),
      ("pagination", window.elim .null Window.toJson), ("parameters", .ofParameters form parameters)]
termination_by structural q

def filterToJsonIn (form : FloatForm) (filter : Option Predicate) : Json :=
  match filter with
  | none => .null
  | some p => p.toJsonIn form
termination_by structural filter

def Operand.toJsonIn (form : FloatForm) (o : Operand) : Json :=
  match o with
  | .column c => .tagged "Column" c.toJson
  | .literal v => .tagged "Literal" (v.toJsonIn form)
  | .parameter name => .tagged "Parameter" (.string name)
  | .query q => .tagged "Subquery" (q.toJsonIn form)
  | .aggregate f column => .tagged "Aggregate" <|
    .object [("function", f.toJson), ("column", column.elim .null Column.toJson)]
termination_by structural o

def Predicate.toJsonIn (form : FloatForm) (p : Predicate) : Json :=
  match p with
  | .compare left op right => .tagged "Compare" <|
    .object [("left", left.toJsonIn form), ("op", op.toJson), ("right", right.toJsonIn form)]
  | .like operand pattern negated => .tagged "Like" <|
    .object [("operand", operand.toJsonIn form), ("pattern", .string pattern),
      ("negated", .bool negated)]
  | .inList operand values negated => .tagged "InList" <|
    .object [("operand", operand.toJsonIn form), ("values", .array (values.map (Value.toJsonIn form))),
      ("negated", .bool negated)]
  | .inQuery operand q negated => .tagged "InSubquery" <|
    .object [("operand", operand.toJsonIn form), ("subquery", q.toJsonIn form),
      ("negated", .bool negated)]
  | .isNull operand negated => .tagged "IsNull" <|
    .object [("operand", operand.toJsonIn form), ("negated", .bool negated)]
  | .isEmpty collection negated => .tagged "IsEmpty" <|
    .object [("collection", collection.toJson), ("negated", .bool negated)]
  | .isMember value collection negated => .tagged "IsMember" <|
    .object [("value", value.toJsonIn form), ("collection", collection.toJson),
      ("negated", .bool negated)]
  | .and left right => .tagged "And" (.array [left.toJsonIn form, right.toJsonIn form])
  | .or left right => .tagged "Or" (.array [left.toJsonIn form, right.toJsonIn form])
termination_by structural p

def Projection.toJsonIn (form : FloatForm) (p : Projection) : Json :=
  match p with
  | .root => .string "Root"
  | .items xs => .tagged "Items" (.array (itemsToJsonIn form xs))
termination_by structural p

def itemsToJsonIn (form : FloatForm) (xs : List Item) : List Json :=
  match xs with
  | [] => []
  | x :: xs => x.toJsonIn form :: itemsToJsonIn form xs
termination_by structural xs

def Item.toJsonIn (form : FloatForm) (x : Item) : Json :=
  match x with
  | .record slot => .tagged "Entity" (.object [("alias", .ofNat slot)])
  | .expr operand => .tagged "Expr" (operand.toJsonIn form)
termination_by structural x

end

/-! ## Reading

A reader under fuel reads documents no deeper than its fuel. -/

mutual

def Plan.read? (form : FloatForm) (fuel : Nat) (x : Json) : Option Plan :=
  match fuel with
  | 0 => none
  | fuel + 1 => do
    match ← x.fields? ["root_entity", "joins", "filter", "projection", "distinct", "order_by",
      "pagination", "parameters"] with
    | [some entity, some joins, filter, some projection, some distinct, some orderBy, window,
        some parameters] => do
      let entity ← entity.string?
      let joins ← joins.listOf? Join.ofJson?
      let filter ← Json.optionalField? (Predicate.read? form fuel) filter
      let projection ← Projection.read? form fuel projection
      let distinct ← distinct.bool?
      let orderBy ← orderBy.listOf? SortKey.ofJson?
      let window ← Json.optionalField? Window.ofJson? window
      let parameters ← parameters.parameters? form
      some { entity, joins, filter, projection, distinct, orderBy, window, parameters }
    | _ => none

def Operand.read? (form : FloatForm) (fuel : Nat) (x : Json) : Option Operand :=
  match fuel with
  | 0 => none
  | fuel + 1 =>
    match x.variant? with
    | some ("Column", some content) => (Column.ofJson? content).map .column
    | some ("Literal", some content) => (Value.ofJsonIn? form content).map .literal
    | some ("Parameter", some content) => content.string?.map .parameter
    | some ("Subquery", some content) => (Plan.read? form fuel content).map .query
    | some ("Aggregate", some content) => do
      match ← content.members? ["function", "column"] with
      | [some f, column] => do
        let f ← Aggregate.ofJson? f
        let column ← Json.optionalField? Column.ofJson? column
        some (.aggregate f column)
      | _ => none
    | _ => none

def Predicate.read? (form : FloatForm) (fuel : Nat) (x : Json) : Option Predicate :=
  match fuel with
  | 0 => none
  | fuel + 1 =>
    match x.variant? with
    | some ("Compare", some content) => do
      match ← content.members? ["left", "op", "right"] with
      | [some left, some op, some right] => do
        let left ← Operand.read? form fuel left
        let op ← Comparison.ofJson? op
        let right ← Operand.read? form fuel right
        some (.compare left op right)
      | _ => none
    | some ("Like", some content) => do
      match ← content.members? ["operand", "pattern", "negated"] with
      | [some operand, some pattern, some negated] => do
        let operand ← Operand.read? form fuel operand
        let pattern ← pattern.string?
        let negated ← negated.bool?
        some (.like operand pattern negated)
      | _ => none
    | some ("InList", some content) => do
      match ← content.members? ["operand", "values", "negated"] with
      | [some operand, some values, some negated] => do
        let operand ← Operand.read? form fuel operand
        let values ← values.listOf? (Value.ofJsonIn? form)
        let negated ← negated.bool?
        some (.inList operand values negated)
      | _ => none
    | some ("InSubquery", some content) => do
      match ← content.members? ["operand", "subquery", "negated"] with
      | [some operand, some q, some negated] => do
        let operand ← Operand.read? form fuel operand
        let q ← Plan.read? form fuel q
        let negated ← negated.bool?
        some (.inQuery operand q negated)
      | _ => none
    | some ("IsNull", some content) => do
      match ← content.members? ["operand", "negated"] with
      | [some operand, some negated] => do
        let operand ← Operand.read? form fuel operand
        let negated ← negated.bool?
        some (.isNull operand negated)
      | _ => none
    | some ("IsEmpty", some content) => do
      match ← content.members? ["collection", "negated"] with
      | [some collection, some negated] => do
        let collection ← Collection.ofJson? collection
        let negated ← negated.bool?
        some (.isEmpty collection negated)
      | _ => none
    | some ("IsMember", some content) => do
      match ← content.members? ["value", "collection", "negated"] with
      | [some value, some collection, some negated] => do
        let value ← Operand.read? form fuel value
        let collection ← Collection.ofJson? collection
        let negated ← negated.bool?
        some (.isMember value collection negated)
      | _ => none
    | some ("And", some content) => do
      match content with
      | .array [left, right] => do
        let left ← Predicate.read? form fuel left
        let right ← Predicate.read? form fuel right
        some (.and left right)
      | _ => none
    | some ("Or", some content) => do
      match content with
      | .array [left, right] => do
        let left ← Predicate.read? form fuel left
        let right ← Predicate.read? form fuel right
        some (.or left right)
      | _ => none
    | _ => none

def Projection.read? (form : FloatForm) (fuel : Nat) (x : Json) : Option Projection :=
  match fuel with
  | 0 => none
  | fuel + 1 =>
    match x.variant? with
    | some ("Root", none) | some ("Root", some .null) => some .root
    | some ("Items", some content) => (content.listOf? (Item.read? form fuel)).map .items
    | _ => none

def Item.read? (form : FloatForm) (fuel : Nat) (x : Json) : Option Item :=
  match fuel with
  | 0 => none
  | fuel + 1 =>
    match x.variant? with
    | some ("Entity", some content) => do
      match ← content.members? ["alias"] with
      | [some slot] => slot.word32?.map .record
      | _ => none
    | some ("Expr", some content) => (Operand.read? form fuel content).map .expr
    | _ => none

end

/-- The plan that a document holds, its floats in a given form. -/
def Plan.ofJsonIn? (form : FloatForm) (x : Json) : Option Plan :=
  Plan.read? form (x.depth + 1) x

/-- The condition that a document holds, its floats in a given form. -/
def Predicate.ofJsonIn? (form : FloatForm) (x : Json) : Option Predicate :=
  Predicate.read? form (x.depth + 1) x

/-- The plan that a text holds, its floats in a given form. -/
def Plan.ofTextIn? (form : FloatForm) (text : String) : Option Plan :=
  (Json.ofNestedText? text).bind (ofJsonIn? form)

/-! ## Plans with the bits of their floats -/

def Plan.toJson (q : Plan) : Json :=
  q.toJsonIn .finite

def Plan.ofJson? (x : Json) : Option Plan :=
  Plan.ofJsonIn? .finite x

def Predicate.ofJson? (x : Json) : Option Predicate :=
  Predicate.ofJsonIn? .finite x

end EntityQuery
