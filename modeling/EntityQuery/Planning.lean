import EntityQuery.Planning.Resolve

/-!
# Planning queries

Declared joins are bound first, then the clauses, the selection and the orderings are planned in
this order. Nothing is asked of a store: every path and every type is checked here.
-/

namespace EntityQuery

/-! ## Operands and selected items -/

/-- The column of a path to a stored field, with its type. -/
def Path.operand (c : Catalog) (p : Path) : Planner (Operand × StaticType) := do
  match ← p.resolve c with
  | .field column f => return (.column column, .field f.type)
  | .relation _ _ r => Planner.failPath r.fromEntity p.label (.relationAsValue r.name)
  | .record _ _ entity => Planner.failPath entity p.label .recordAsValue

/-- The type of an aggregate over a field type. Everything but a count may be null. -/
def Aggregate.type (f : Aggregate) (entity label : String) (of : Option FieldType) :
    Except QueryError FieldType :=
  match f, of with
  | count, _ => return .scalar .int64
  | _, none => throw (.path entity label .aggregateWithoutPath)
  | sum, some t | avg, some t =>
    match t.isArray, t.scalar? with
    | false, some s =>
      if s.isNumeric then
        match f, s with
        | sum, .int32 | sum, .int64 => return .optionalScalar .int64
        | _, _ => return .optionalScalar .float64
      else throw (.mismatch label "numeric" t.describe)
    | _, _ => throw (.mismatch label "numeric" t.describe)
  | min, some t | max, some t =>
    if t.isOrderable then return t.optional
    else throw (.mismatch label "orderable type" t.describe)

/-- An aggregate of the innermost query. -/
def Aggregate.plan (c : Catalog) (f : Aggregate) (p : Option Path) :
    Planner (Operand × StaticType) := do
  let entity ← Planner.scopeEntity
  let label := (Expr.aggregate f p).label
  match p with
  | none => do
    let t ← f.type entity label none
    return (.aggregate f none, .field t)
  | some p => do
    match ← p.resolve c with
    | .field column field => do
      let t ← f.type entity label field.type
      return (.aggregate f column, .field t)
    | _ => Planner.failPath entity label .aggregateOfNonField

/-- A planned item with its shape and type. -/
structure SelectedItem where
  item : Item
  shape : Shape
  type : StaticType

/-- An item that is a record as a whole. -/
def selectRecord (slot : Nat) (entity : String) : Planner SelectedItem := do
  let optional ← Planner.isOptional 0 slot
  let shape := Shape.record entity
  return ⟨.record slot, if optional then shape.optional else shape, .unknown⟩

/-- The item that a path selects: a field, or a record as a whole. -/
def Path.select (c : Catalog) (p : Path) : Planner SelectedItem := do
  match ← p.resolve c with
  | .field column f => do
    let optional ← Planner.isOptional column.level column.slot
    let shape := Shape.ofFieldType f.type
    return ⟨.expr (.column column), if optional then shape.optional else shape, .field f.type⟩
  | .relation level slot r =>
    if r.isToMany then Planner.failPath r.fromEntity p.label .toManySelected
    else if 0 < level then Planner.failPath r.fromEntity p.label .enclosingRecordSelected
    else do
      let slot ← p.hop 0 slot r
      selectRecord slot r.toEntity
  | .record level slot entity =>
    if 0 < level then Planner.failPath entity p.label .enclosingRecordSelected
    else selectRecord slot entity

/-- The item that an expression selects, given how it is planned as an operand. Paths and
aggregates mean more in a selection than elsewhere. -/
def Expr.selectWith (c : Catalog) (e : Expr) (operand : Planner (Operand × StaticType)) :
    Planner SelectedItem := do
  match e with
  | .path p => p.select c
  | .aggregate f p => do
    let (o, t) ← f.plan c p
    return ⟨.expr o, t.shape, t⟩
  | _ => do
    let (o, t) ← operand
    return ⟨.expr o, t.shape, t⟩

/-- The condition that an expression is null, given how it is planned as an operand. A path may
lead to a to-one relation, which is null if it leads nowhere. -/
def Expr.isNullWith (c : Catalog) (e : Expr) (operand : Planner (Operand × StaticType))
    (negated : Bool) : Planner Predicate := do
  match e with
  | .path p => do
    match ← p.resolve c with
    | .field column _ => return .isNull (.column column) negated
    | .relation level slot r => c.relationIsNull p level slot r negated
    | .record _ _ entity => Planner.failPath entity p.label .recordAsValue
  | _ => do
    let (o, _) ← operand
    return .isNull o negated

/-! ## Parts of a body -/

namespace Planner

/-- The relation of a declared join, which must be declared as it is. -/
def declaredRelation (c : Catalog) (owner : String) (d : JoinDeclaration) :
    Except QueryError Relation :=
  match c.relation? owner d.relation with
  | none => throw (.path owner d.relation .unknownRelation)
  | some r =>
    if r.toEntity ≠ d.entity then
      throw (.mismatch (owner ++ "." ++ d.relation) r.toEntity d.entity)
    else if r.isToMany ≠ d.many then
      throw (.path owner d.relation (if d.many then .joinOnToOne else .joinOnToMany))
    else
      return r

/-- Bind the join of a declaration. -/
def declareJoin (c : Catalog) (root : String) (d : JoinDeclaration) : Planner Unit := do
  let s ← get
  match s.frames with
  | [] => failPath root root .noOpenScope
  | frame :: _ =>
    match frame.slotOf? d.parent with
    | none => failPath root d.relation .undeclaredParent
    | some parent =>
      match frame.entityOf? parent with
      | none => failPath root d.relation .unboundParent
      | some owner => do
        let r ← declaredRelation c owner d
        modifyFrame 0 (·.declare parent r d.kind)

/-- Bind the joins of declarations in order. -/
def declareJoins (c : Catalog) (root : String) : List JoinDeclaration → Planner Unit
  | [] => return
  | d :: declarations => do
    declareJoin c root d
    declareJoins c root declarations

/-- Check that two operands can be compared. -/
def checkComparable (label : String) (op : Comparison) (left right : StaticType) :
    Planner Unit :=
  match StaticType.conflict? op left right with
  | none => return
  | some (expected, found) => failMismatch label expected found

/-- Check that LIKE applies to an operand. -/
def checkText (label : String) : StaticType → Planner Unit
  | .field t => if t.isText then return else failMismatch label "text" t.describe
  | .value v =>
    if v.isNull || v.string?.isSome then return else failMismatch label "text" v.typeName
  | .unknown => return

/-- Check that values can be compared with an operand. -/
def checkCandidates (label : String) (values : List Value) : StaticType → Planner Unit
  | .field t =>
    match values.find? fun v => !v.isNull && !t.accepts v with
    | some v => failMismatch label t.describe v.typeName
    | none => return
  | _ => return

/-- Check that a value can be an element of a collection. -/
def checkElement (label : String) (element : FieldType) : StaticType → Planner Unit
  | .value v =>
    if v.isNull || element.accepts v then return
    else failMismatch label element.describe v.typeName
  | _ => return

/-- The key of an ordering: a stored field of the query itself. -/
def orderTerm (c : Catalog) (entity : String) (t : OrderTerm) : Planner SortKey := do
  match t.expr with
  | .path p => do
    let (o, type) ← p.operand c
    match type.unorderable? with
    | some t => failMismatch p.label "orderable type" t.describe
    | none =>
      match o with
      | .column column =>
        if column.level = 0 then return ⟨column, t.direction⟩
        else failPath entity p.label .enclosingColumnOrdered
      | _ => failPath entity p.label .enclosingColumnOrdered
  | e => failPath entity e.label .orderByNonPath

/-- Check that aggregates are not selected beside values of single rows. -/
def checkAggregates (entity : String) (labels : List String) (items : List Item) :
    Planner Unit :=
  if items.any Item.isAggregate && !items.all Item.isAggregate then
    failPath entity (labels.head?.getD "") .mixedAggregates
  else
    return

/-- The projection of planned items, with its shapes and types; the root record without items. -/
def projection (entity : String) (labels : List String) (selected : List SelectedItem) :
    Planner (Projection × List Shape × List StaticType) := do
  match selected with
  | [] => return (.root, [.record entity], [.unknown])
  | _ => do
    let items := selected.map SelectedItem.item
    checkAggregates entity labels items
    return (.items items, selected.map SelectedItem.shape, selected.map SelectedItem.type)

/-- Check that a nested query selects a value. -/
def checkReturned (entity label : String) (selected : SelectedItem) : Planner Unit :=
  match selected.item with
  | .record _ => failPath entity label .recordFromSubquery
  | .expr _ => return

end Planner

/-! ## Bodies -/

/-- A planned query with the shapes and types of its items. -/
structure PlannedQuery where
  plan : Plan
  shapes : List Shape
  types : List StaticType

/-- What a nested query returns: the expression's name, and how to plan it as an item. -/
structure Returned where
  label : String
  item : Planner SelectedItem

mutual

/-- Plan a query in a scope of its own. -/
def Body.planScope (c : Catalog) (returns : Option Returned) (b : Body) :
    Planner PlannedQuery :=
  match b with
  | ⟨scope, entity, statements, joins, selection, orderBy, distinct, _⟩ => do
    let _ ← c.entity entity
    let (t, frame) ← Planner.inScope (.new scope entity) do
      Planner.declareJoins c entity joins
      let statements ← planStatements c entity statements
      let (labels, selected) ← planSelection c entity returns selection
      let (projection, shapes, types) ← Planner.projection entity labels selected
      let orderBy ← orderBy.mapM (Planner.orderTerm c entity)
      let plan : Plan := {
        entity
        joins := []
        filter := Statement.combine .and .or statements
        projection
        distinct
        orderBy
        window := none
        parameters := [] }
      return { plan, shapes, types : PlannedQuery }
    return { t with plan := { t.plan with joins := frame.joins } }
termination_by structural b

/-- Plan the clauses among statements. -/
def planStatements (c : Catalog) (entity : String) (xs : List (Statement Clause)) :
    Planner (List (Statement Predicate)) :=
  match xs with
  | [] => return []
  | x :: xs => do
    let y ← planStatement c entity x
    let ys ← planStatements c entity xs
    return y :: ys
termination_by structural xs

def planStatement (c : Catalog) (entity : String) (x : Statement Clause) :
    Planner (Statement Predicate) :=
  match x with
  | .or => return .or
  | .clause clause => do
    let p ← clause.plan c entity
    return .clause p
termination_by structural x

/-- Plan the selected items, with their names. A nested query has the one item that it returns
and no selection of its own. -/
def planSelection (c : Catalog) (entity : String) (returns : Option Returned)
    (selection : Option (List Expr)) : Planner (List String × List SelectedItem) :=
  match selection with
  | none =>
    match returns with
    | none => return ([], [])
    | some r => do
      let selected ← r.item
      Planner.checkReturned entity r.label selected
      return ([r.label], [selected])
  | some es =>
    match returns with
    | none => do
      let selected ← planItems c entity es
      return (es.map Expr.label, selected)
    | some _ => Planner.failPath entity entity .selectInSubquery
termination_by structural selection

def planItems (c : Catalog) (entity : String) (es : List Expr) :
    Planner (List SelectedItem) :=
  match es with
  | [] => return []
  | e :: es => do
    let item ← e.selectWith c (e.plan c entity)
    let items ← planItems c entity es
    return item :: items
termination_by structural es

/-- Plan a condition of a query on an entity. -/
def Clause.plan (c : Catalog) (entity : String) (clause : Clause) : Planner Predicate :=
  match clause with
  | .compare left op right => do
    let (l, leftType) ← left.plan c entity
    let (r, rightType) ← right.plan c entity
    Planner.checkComparable left.label op leftType rightType
    return .compare l op r
  | .like operand pattern negated => do
    let (o, type) ← operand.plan c entity
    Planner.checkText operand.label type
    return .like o pattern negated
  | .inList operand values negated => do
    let (o, type) ← operand.plan c entity
    Planner.checkCandidates operand.label values type
    return .inList o values negated
  | .inSubquery operand subquery negated => do
    let (o, type) ← operand.plan c entity
    if !subquery.isSubquery then Planner.failPath entity operand.label .notSubquery
    else do
      match ← subquery.plan c entity with
      | (.query q, selected) => do
        Planner.checkComparable operand.label .eq type selected
        return .inQuery o q negated
      | _ => Planner.failPath entity operand.label .notSubquery
  | .isNull operand negated => operand.isNullWith c (operand.plan c entity) negated
  | .isEmpty collection negated => do
    let (rows, _) ← collection.collection c
    return .isEmpty rows negated
  | .isMember value collection negated => do
    let (v, type) ← value.plan c entity
    let (rows, element) ← collection.collection c
    Planner.checkElement collection.label element type
    return .isMember v rows negated
termination_by structural clause

/-- Plan an expression as an operand of a query on an entity. -/
def Expr.plan (c : Catalog) (entity : String) (e : Expr) : Planner (Operand × StaticType) :=
  match e with
  | .path p => p.operand c
  | .literal v => return (.literal v, .value v)
  | .parameter name v => do
    Planner.bindParameter name v
    return (.parameter name, .value v)
  | .subquery body returns => do
    let item := returns.selectWith c (returns.plan c body.entity)
    let t ← body.planScope c (some ⟨returns.label, item⟩)
    return (.query t.plan, t.types.head?.getD .unknown)
  | .aggregate f p => Planner.failPath entity (Expr.aggregate f p).label .misplacedAggregate
termination_by structural e

end

/-- Plan a query; the plan carries all parameters bound in it. -/
def Body.plan (c : Catalog) (b : Body) : Except QueryError PlannedQuery := do
  let (t, s) ← (b.planScope c none).run ⟨[], []⟩
  return { t with plan := { t.plan with parameters := s.parameters } }

end EntityQuery
