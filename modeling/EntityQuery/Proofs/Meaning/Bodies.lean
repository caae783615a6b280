import EntityQuery.Proofs.Meaning.Scenes
import EntityQuery.Tables.Evaluate

/-!
# The meaning of bodies

The answer to a body, read off the body as it is recorded. Each path is read in the tuple of its own
scope, by name; no level and no slot number occurs.
-/

namespace EntityQuery

/-! ## Expressions without nested bodies -/

/-- What a selected item contributes to a row: a cell for each tuple, or one over all of them. -/
inductive ItemMeaning where
  | cell (read : Environment → Except StoreError Cell)
  | aggregate (read : List Environment → Except StoreError Cell)

namespace ItemMeaning

def isAggregate : ItemMeaning → Bool
  | cell _ => false
  | aggregate _ => true

/-- The cell for a tuple. -/
def cellIn (env : Environment) : ItemMeaning → Except StoreError Cell
  | cell read => read env
  | aggregate _ => .error (.evaluation .misplacedAggregate)

/-- The cell over all tuples. -/
def cellOver (envs : List Environment) : ItemMeaning → Except StoreError Cell
  | cell _ => .error (.evaluation .mixedAggregates)
  | aggregate read => read envs

end ItemMeaning

namespace Environment

variable (c : Catalog) (s : Source) (env : Environment)

/-- The records that a relation leads to from the record of a path, by their identities. -/
def relatedIdentities (p : Path) (r : Relation) : Except StoreError (List Value) :=
  let key := fieldValue (record env p) r.fromField
  if key.isNull then .ok []
  else do
    let targets ← s.tables.table r.toEntity
    let identity := ((c.entity? r.toEntity).map Entity.identityField).getD ""
    .ok ((related key r.toField targets).map fun t => fieldValue (some t) identity)

/-- The elements of the collection that a path leads to. -/
def elements (p : Path) : Except StoreError (List Value) :=
  match attribute? env p c with
  | some (.relation r) => relatedIdentities c s env p.holder r
  | _ =>
    let v := value env p
    if v.isNull then .ok []
    else match v.elements? with
      | some vs => .ok vs
      | none => .error (.evaluation (.notCollection (p.hops.getLast?.getD "") v.typeName))

/-- Whether a path leads to null, or along a to-one relation to nothing. A relation whose key is on
the side of its owner leads to nothing if the key is null. -/
def isNull (p : Path) : Except StoreError Bool :=
  match attribute? env p c with
  | some (.relation r) =>
    if ((c.entity? r.fromEntity).map Entity.identityField) = some r.fromField then do
      let vs ← relatedIdentities c s env p.holder r
      .ok vs.isEmpty
    else .ok (fieldValue (record env p.holder) r.fromField).isNull
  | _ => .ok (value env p).isNull

end Environment

/-- An aggregate over the tuples of a body. -/
def Aggregate.meaning (f : Aggregate) (path : Option Path) (envs : List Environment) :
    Except StoreError Value :=
  match path with
  | none => .ok (.int64 (.ofNat envs.length))
  | some p => f.ofList ((envs.map fun env => env.value p).filter fun v => !v.isNull)

/-- The item that an expression selects, given its value. A path may select a whole record. -/
def Expr.item (c : Catalog) (value : Environment → Except StoreError Value) : Expr → ItemMeaning
  | .path p => .cell fun env =>
    match env.attribute? p c with
    | some (.field _) => .ok (.value (env.value p))
    | _ => .ok (.record (env.record p))
  | .aggregate f p => .aggregate fun envs => do
    let v ← f.meaning p envs
    .ok (.value v)
  | _ => .cell fun env => do
    let v ← value env
    .ok (.value v)

/-- Whether an expression is null, given its value. A path may lead to a relation. -/
def Expr.isNull (c : Catalog) (s : Source) (value : Environment → Except StoreError Value)
    (e : Expr) (env : Environment) : Except StoreError Bool :=
  match e with
  | .path p => env.isNull c s p
  | _ => do
    let v ← value env
    .ok v.isNull

/-! ## Conditions -/

/-- A condition on an environment. -/
abbrev Condition := Environment → Except StoreError Truth

namespace Condition

def and (a b : Condition) : Condition := fun env => do
  let x ← a env
  if x = some false then .ok x
  else do
    let y ← b env
    .ok (x.and y)

def or (a b : Condition) : Condition := fun env => do
  let x ← a env
  if x = some true then .ok x
  else do
    let y ← b env
    .ok (x.or y)

/-- The environments in which a condition is true. -/
def keep (p : Option Condition) (envs : List Environment) : Except StoreError (List Environment) :=
  match p with
  | none => .ok envs
  | some p => flatMapE (fun env => do
      let truth ← p env
      .ok (if truth = some true then [env] else [])) envs

end Condition

/-! ## Rows -/

/-- The order of two lists of key values under directions. -/
def orderValues : List Direction → List Value → List Value → Ordering
  | d :: ds, a :: as, b :: bs => (d.order a b).then (orderValues ds as bs)
  | _, _, _ => .eq

/-- The value that an ordering reads. -/
def OrderTerm.value (t : OrderTerm) (env : Environment) : Value :=
  match t.expr with
  | .path p => env.value p
  | _ => .null

/-- Order environments by the values that orderings read in them. -/
def orderEnvironments (ts : List OrderTerm) (envs : List Environment) : List Environment :=
  let keyed := envs.map fun env => (ts.map fun t => t.value env, env)
  (sortBy (fun a b => orderValues (ts.map OrderTerm.direction) a.1 b.1) keyed).map Prod.snd

/-- The row of an environment; without items the root record of the innermost scene. -/
def rowIn (items : List ItemMeaning) (env : Environment) : Except StoreError Row :=
  match items with
  | [] => .ok ⟨[.record (env.head?.bind fun x => x.2.record .root)]⟩
  | items => do
    let cells ← items.mapM (·.cellIn env)
    .ok ⟨cells⟩

/-- The rows of items over environments: one row if the items aggregate. -/
def rowsOver (items : List ItemMeaning) (ts : List OrderTerm) (distinct : Bool)
    (envs : List Environment) : Except StoreError (List Row) :=
  if items.any ItemMeaning.isAggregate then do
    let cells ← items.mapM (·.cellOver envs)
    .ok [⟨cells⟩]
  else do
    let rows ← (orderEnvironments ts envs).mapM (rowIn items)
    .ok (if distinct then distinctRows [] rows else rows)

/-- The value of a nested query: the first cell of its first row. -/
def firstValue (rows : List Row) : Value :=
  (rows.head?.bind (·.cells.head?)).elim .null Cell.toValue

/-- The first cell of each row. -/
def firstValues (rows : List Row) : List Value :=
  rows.map fun row => row.cells.head?.elim .null Cell.toValue

/-! ## Bodies -/

mutual

/-- The rows of a body that selects given items, which read given records. -/
def Body.meaning (c : Catalog) (s : Source) (items : List ItemMeaning) (records : List Path)
    (b : Body) : Environment → Except StoreError (List Row) :=
  match b with
  | ⟨scope, entity, statements, joins, selection, orderBy, distinct, assignments⟩ => fun env => do
    let layout :=
      Body.layout c records
        ⟨scope, entity, statements, joins, selection, orderBy, distinct, assignments⟩
    let tuples ← layout.bind s.tables
    let envs := tuples.map fun tuple => (scope, ⟨layout, tuple⟩) :: env
    let kept ← Condition.keep
      (Statement.combine .and .or (statementsMeaning c s statements)) envs
    rowsOver items orderBy distinct kept
termination_by structural b

def statementsMeaning (c : Catalog) (s : Source) (xs : List (Statement Clause)) :
    List (Statement Condition) :=
  match xs with
  | [] => []
  | x :: xs => statementMeaning c s x :: statementsMeaning c s xs
termination_by structural xs

def statementMeaning (c : Catalog) (s : Source) (x : Statement Clause) : Statement Condition :=
  match x with
  | .or => .or
  | .clause clause => .clause (clause.meaning c s)
termination_by structural x

/-- The truth of a clause. -/
def Clause.meaning (c : Catalog) (s : Source) (clause : Clause) : Condition :=
  match clause with
  | .compare left op right => fun env => do
    let a ← left.meaning c s env
    let b ← right.meaning c s env
    .ok (op.truth a b)
  | .like operand pattern negated => fun env => do
    match ← operand.meaning c s env with
    | .null => .ok none
    | .string text => .ok (some (Like.holds pattern text != negated))
    | v => .error (.evaluation (.likeOnNonText v.typeName))
  | .inList operand values negated => fun env => do
    let v ← operand.meaning c s env
    .ok (membership v values negated)
  | .inSubquery operand subquery negated => fun env => do
    let v ← operand.meaning c s env
    if v.isNull then .ok none
    else do
      let rows ← subquery.rowsMeaning c s env
      .ok (membership v (firstValues rows) negated)
  | .isNull operand negated => fun env => do
    let null ← operand.isNull c s (operand.meaning c s) env
    .ok (some (null != negated))
  | .isEmpty collection negated => fun env => do
    let vs ← env.elements c s collection
    .ok (some (vs.isEmpty != negated))
  | .isMember value collection negated => fun env => do
    let v ← value.meaning c s env
    if v.isNull then .ok none
    else do
      let vs ← env.elements c s collection
      .ok (some (vs.any (·.equal v) != negated))
termination_by structural clause

/-- The rows of a nested query. -/
def Expr.rowsMeaning (c : Catalog) (s : Source) (e : Expr) :
    Environment → Except StoreError (List Row) :=
  match e with
  | .subquery body returns =>
    body.meaning c s [returns.item c (returns.meaning c s)] (returns.selectedRecords returns.records)
  | _ => fun _ => .ok []
termination_by structural e

/-- The value of an expression. -/
def Expr.meaning (c : Catalog) (s : Source) (e : Expr) : Environment → Except StoreError Value :=
  match e with
  | .path p => fun env => .ok (env.value p)
  | .literal v => fun _ => .ok v
  | .parameter name _ => fun _ => s.parameter name
  | .subquery body returns => fun env => do
    let rows ← body.meaning c s [returns.item c (returns.meaning c s)]
      (returns.selectedRecords returns.records) env
    .ok (firstValue rows)
  | .aggregate .. => fun _ => .error (.evaluation .misplacedAggregate)
termination_by structural e

end

/-- The rows of a body: its tuples are bound, those that its filter keeps are ordered, and rows are made
of them. -/
theorem Body.meaning_eq (c : Catalog) (s : Source) (items : List ItemMeaning)
    (records : List Path) (b : Body) (env : Environment) :
    b.meaning c s items records env = (do
      let tuples ← (b.layout c records).bind s.tables
      let envs := tuples.map fun tuple => (b.scope, (⟨b.layout c records, tuple⟩ : Scene)) :: env
      let kept ← Condition.keep
        (Statement.combine .and .or (statementsMeaning c s b.statements)) envs
      rowsOver items b.orderBy b.distinct kept) := by
  cases b
  rw [meaning]

/-- The answer to a body with its own selection. -/
def Body.answer (c : Catalog) (s : Source) (b : Body) : Except StoreError (List Row) :=
  let es := b.selection.getD []
  b.meaning c s (es.map fun e => e.item c (e.meaning c s)) (itemsRecords es) []

end EntityQuery
