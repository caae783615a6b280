import EntityQuery.Catalog
import EntityQuery.Proofs.Records
import EntityQuery.Tables.Tuple

/-!
# Records by name

Bodies can be read without numbering anything. A slot of a tuple has a name, the place where its
paths start and the relations that they follow from there; the tuples of the bodies around an
expression are found by the number of their scope. A layout says which places a body binds and how.
-/

namespace EntityQuery

/-! ## Places -/

/-- The name of a slot: an origin, and the relations followed from it. -/
structure Place where
  origin : Origin
  chain : List String
deriving DecidableEq, Inhabited

namespace Place

def root : Place := ⟨.root, []⟩

/-- The place that a relation leads to. -/
def child (a : Place) (relation : String) : Place :=
  ⟨a.origin, a.chain ++ [relation]⟩

end Place

/-- How a place is bound: as the target of a relation from another place. -/
structure Binding where
  place : Place
  parent : Place
  relation : Relation
  kind : JoinKind
deriving DecidableEq, Inhabited

/-! ## Layouts -/

/-- The places that a body binds besides its root, in the order in which they are joined. -/
structure Layout where
  entity : String
  bindings : List Binding
deriving DecidableEq, Inhabited

namespace Layout

def push (l : Layout) (x : Binding) : Layout :=
  { l with bindings := l.bindings ++ [x] }

/-- All places, the root in front. -/
def places (l : Layout) : List Place :=
  .root :: l.bindings.map Binding.place

/-- The entity bound to a place. -/
def entity? (l : Layout) (a : Place) : Option String :=
  if a = .root then some l.entity
  else (l.bindings.find? (·.place == a)).map (·.relation.toEntity)

/-- The place that is bound first along a relation from a place. -/
def along? (l : Layout) (a : Place) (relation : String) : Option Place :=
  (l.bindings.find? fun x => x.parent == a && x.relation.name == relation).map Binding.place

/-- The place to which relations lead. -/
def follow (l : Layout) (a : Place) (hops : List String) : Place :=
  hops.foldl (fun a name => (l.along? a name).getD (a.child name)) a

/-- Bind declared joins, each at an origin of its own. -/
def declareAll (c : Catalog) (l : Layout) : List JoinDeclaration → Layout
  | [] => l
  | d :: ds =>
    match (l.entity? ⟨d.parent, []⟩).bind fun owner => c.relation? owner d.relation with
    | some r =>
      (l.push ⟨⟨.join l.bindings.length, []⟩, ⟨d.parent, []⟩, r, d.kind⟩).declareAll c ds
    | none => l.declareAll c ds

/-- Bind what is not bound yet along relations from a place; of each record there is one at most. -/
def bindHops (c : Catalog) (l : Layout) (a : Place) (entity : String) : List String → Layout
  | [] => l
  | name :: rest =>
    match c.attribute? entity name with
    | some (.relation r) =>
      match l.along? a name with
      | some b => l.bindHops c b r.toEntity rest
      | none =>
        if r.isToMany then l
        else (l.push ⟨a.child name, a, r, .inner⟩).bindHops c (a.child name) r.toEntity rest
    | _ => l

/-- Bind the places of a path from its origin. -/
def bindFrom (c : Catalog) (l : Layout) (origin : Origin) (hops : List String) : Layout :=
  match l.entity? ⟨origin, []⟩ with
  | some entity => l.bindHops c ⟨origin, []⟩ entity hops
  | none => l

/-- Bind the places of those among paths that belong to a scope. -/
def bindOwn (c : Catalog) (scope : Nat) (l : Layout) : List Path → Layout
  | [] => l
  | p :: ps =>
    if scope = p.scope then (l.bindFrom c p.origin p.hops).bindOwn c scope ps
    else l.bindOwn c scope ps

end Layout

/-- The layout of a body: its declared joins, and the records that it and its nested bodies read. -/
def Body.layout (c : Catalog) (items : List Path) (b : Body) : Layout :=
  ((⟨b.entity, []⟩ : Layout).declareAll c b.joins).bindOwn c b.scope (b.records items)

/-! ## Scenes and environments -/

/-- The record at each place. -/
abbrev NamedTuple := List (Place × Option Record)

/-- A tuple with the layout of the body that bound it. -/
structure Scene where
  layout : Layout
  tuple : NamedTuple
deriving DecidableEq, Inhabited

/-- The record at a place; none where nothing is bound. -/
def Scene.record (x : Scene) (a : Place) : Option Record :=
  (x.tuple.lookup a).join

/-- The scenes of the bodies around an expression, under the numbers of their scopes. -/
abbrev Environment := List (Nat × Scene)

namespace Environment

variable (env : Environment) (p : Path)

/-- The record that a path leads to, every hop being a relation. -/
def record : Option Record :=
  (env.lookup p.scope).bind fun x => x.record (x.layout.follow ⟨p.origin, []⟩ p.hops)

/-- The entity that a path leads to, every hop being a relation. -/
def entity? : Option String :=
  (env.lookup p.scope).bind fun x => x.layout.entity? (x.layout.follow ⟨p.origin, []⟩ p.hops)

/-- The attribute that the last hop of a path names. -/
def attribute? (c : Catalog) : Option Attribute :=
  p.hops.getLast?.bind fun name =>
    (entity? env p.holder).bind fun entity => c.attribute? entity name

/-- The value that a path leads to. -/
def value : Value :=
  fieldValue (record env p.holder) (p.hops.getLast?.getD "")

end Environment

/-! ## Binding -/

/-- A tuple with each record that a binding gives for it. -/
def Binding.extend (x : Binding) (targets : List Record) (tuple : NamedTuple) : List NamedTuple :=
  match related (fieldValue (tuple.lookup x.parent).join x.relation.fromField) x.relation.toField
    targets, x.kind with
  | [], .inner => []
  | [], .left => [tuple ++ [(x.place, none)]]
  | records, _ => records.map fun r => tuple ++ [(x.place, some r)]

/-- Extend tuples by bindings one after the other. -/
def bindAll (t : Tables) : List Binding → List NamedTuple → Except StoreError (List NamedTuple)
  | [], tuples => .ok tuples
  | x :: bindings, tuples => do
    let targets ← t.table x.relation.toEntity
    bindAll t bindings (tuples.flatMap (x.extend targets))

/-- The tuples of a layout. -/
def Layout.bind (l : Layout) (t : Tables) : Except StoreError (List NamedTuple) := do
  let records ← t.table l.entity
  bindAll t l.bindings (records.map fun r => [(.root, some r)])

end EntityQuery
