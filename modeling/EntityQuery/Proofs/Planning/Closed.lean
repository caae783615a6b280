import EntityQuery.Proofs.Planning.Parameters
import EntityQuery.Proofs.Planning.Planned
import EntityQuery.Proofs.Sample
import EntityQuery.Proofs.Statement

/-!
# Closed plans

A plan is closed when everything in it that names something names what is there: a slot that a query
around it binds, a field that the entity in the slot stores, a relation that the catalog has, a
parameter that is bound. Planning gives closed plans only, although a nested body goes on joining in
the queries around it after columns of these have been given out.
-/

namespace EntityQuery

/-! ## What is named -/

/-- An entity has a stored field of a name. -/
def Catalog.Stores (c : Catalog) (entity field : String) : Prop :=
  ∃ e f, c.entity? entity = some e ∧ e.field? field = some f

/-- A join copies the relation of its name on the entity in its parent slot, and both ends of it are
stored fields. -/
def Join.CopiedFrom (c : Catalog) (q : Plan) (j : Join) : Prop :=
  ∃ owner r, q.entityOf? j.parent = some owner ∧ c.relation? owner j.relation = some r ∧
    j.entity = r.toEntity ∧ j.parentField = r.fromField ∧ j.entityField = r.toField ∧
    c.Stores owner j.parentField ∧ c.Stores j.entity j.entityField

/-- A column names a slot that the query so many levels out binds, and a stored field of the entity in
it. The queries are given from the innermost to the outermost. -/
def Column.BoundIn (c : Catalog) (around : List Plan) (column : Column) : Prop :=
  ∃ q entity, around[column.level]? = some q ∧ q.entityOf? column.slot = some entity ∧
    c.Stores entity column.field

/-- Related rows are those of a relation on the entity in a bound slot, found and identified by stored
fields. -/
def RelatedRows.BoundIn (c : Catalog) (around : List Plan) (rows : RelatedRows) : Prop :=
  ∃ q owner r, around[rows.level]? = some q ∧ q.entityOf? rows.slot = some owner ∧
    c.relation? owner rows.relation = some r ∧ rows.entity = r.toEntity ∧
    rows.parentField = r.fromField ∧ rows.entityField = r.toField ∧
    c.Stores owner rows.parentField ∧ c.Stores rows.entity rows.entityField ∧
    c.Stores rows.entity rows.identityField

def Collection.BoundIn (c : Catalog) (around : List Plan) : Collection → Prop
  | related rows => rows.BoundIn c around
  | stored column => column.BoundIn c around

/-- An aggregate of a bound column, or of the rows themselves. -/
def Operand.IsBoundAggregate (c : Catalog) (around : List Plan) : Operand → Prop
  | aggregate _ of => ∀ column ∈ of, column.BoundIn c around
  | _ => False

/-- The joins of a query have the slots 1, 2, … in order, each behind its parent, and copy relations
of the catalog. -/
structure Plan.WellJoined (c : Catalog) (q : Plan) : Prop where
  entity : ∃ e, c.entity? q.entity = some e
  numbered : ∀ (k : Nat) (j : Join), q.joins[k]? = some j → j.slot = k + 1 ∧ j.parent < j.slot
  copied : ∀ j ∈ q.joins, j.CopiedFrom c q

/-! ## Closed plans and their parts -/

mutual

/-- A query within others, given from the innermost to the outermost, is well joined, orders by its own
columns, and everything in it is closed. Aggregates are selected on their own. -/
def Plan.Closed (c : Catalog) (names : List String) (outer : List Plan) (q : Plan) : Prop :=
  match q with
  | ⟨entity, joins, filter, projection, distinct, orderBy, window, parameters⟩ =>
    let q : Plan := ⟨entity, joins, filter, projection, distinct, orderBy, window, parameters⟩
    q.WellJoined c ∧ FilterClosed c names (q :: outer) filter ∧
      projection.Closed c names (q :: outer) ∧
      ∀ key ∈ orderBy, key.column.level = 0 ∧ key.column.BoundIn c (q :: outer)
termination_by structural q

def FilterClosed (c : Catalog) (names : List String) (around : List Plan)
    (filter : Option Predicate) : Prop :=
  match filter with
  | none => True
  | some p => p.Closed c names around
termination_by structural filter

def Projection.Closed (c : Catalog) (names : List String) (around : List Plan)
    (projection : Projection) : Prop :=
  match projection with
  | .root => True
  | .items xs => (xs.any Item.isAggregate = true → xs.all Item.isAggregate = true) ∧
    ItemsClosed c names around xs
termination_by structural projection

def ItemsClosed (c : Catalog) (names : List String) (around : List Plan) (xs : List Item) : Prop :=
  match xs with
  | [] => True
  | x :: xs => x.Closed c names around ∧ ItemsClosed c names around xs
termination_by structural xs

/-- A selected record is one of the innermost query; an aggregate is selected as a whole. -/
def Item.Closed (c : Catalog) (names : List String) (around : List Plan) (x : Item) : Prop :=
  match x with
  | .record slot => ∃ q entity, around[0]? = some q ∧ q.entityOf? slot = some entity
  | .expr operand => operand.IsBoundAggregate c around ∨ operand.Closed c names around
termination_by structural x

/-- No aggregate stands in an operand, and a nested query has no parameters of its own. -/
def Operand.Closed (c : Catalog) (names : List String) (around : List Plan) (o : Operand) : Prop :=
  match o with
  | .column column => column.BoundIn c around
  | .literal _ => True
  | .parameter name => name ∈ names
  | .query q => q.parameters = [] ∧ q.Closed c names around
  | .aggregate .. => False
termination_by structural o

def Predicate.Closed (c : Catalog) (names : List String) (around : List Plan) (p : Predicate) :
    Prop :=
  match p with
  | .compare left _ right => left.Closed c names around ∧ right.Closed c names around
  | .like operand .. => operand.Closed c names around
  | .inList operand .. => operand.Closed c names around
  | .inQuery operand q _ =>
    operand.Closed c names around ∧ q.parameters = [] ∧ q.Closed c names around
  | .isNull operand _ => operand.Closed c names around
  | .isEmpty collection _ => collection.BoundIn c around
  | .isMember value collection _ => value.Closed c names around ∧ collection.BoundIn c around
  | .and left right => left.Closed c names around ∧ right.Closed c names around
  | .or left right => left.Closed c names around ∧ right.Closed c names around
termination_by structural p

end

/-! ## Names of the catalog -/

section Stores

variable {c : Catalog} {entity name : String}

theorem Catalog.stores_of_attribute? {f : Field} (h : c.attribute? entity name = some (.field f)) :
    c.Stores entity name := by
  obtain ⟨e, he, hf⟩ := Catalog.attribute?_field h
  exact ⟨e, f, he, hf⟩

/-- Both ends of a relation are stored fields. -/
theorem Catalog.relation?_stores {r : Relation} (h : c.relation? entity name = some r) :
    c.Stores entity r.fromField ∧ c.Stores r.toEntity r.toField := by
  have hfault := c.relationFault?_eq_none (Schema.relation?_mem h)
  obtain ⟨owner, target, howner, htarget, hfrom, hto⟩ := Schema.relationFault?_eq_none hfault
  rw [(Schema.relation?_name h).1] at howner
  obtain ⟨f, hf⟩ := Option.isSome_iff_exists.mp hfrom
  obtain ⟨f', hf'⟩ := Option.isSome_iff_exists.mp hto
  exact ⟨⟨owner, f, howner, hf⟩, target, f', htarget, hf'⟩

/-- Every entity stores its identity. -/
theorem Catalog.stores_identity {e : Entity} (h : c.entity? name = some e) :
    c.Stores name e.identityField := by
  have hfault := c.faultless
  rw [Schema.fault?, Option.orElse_eq_orElse, Option.orElse_eq_or, Option.or_eq_none_iff] at hfault
  have hmem : (name, e) ∈ c.schema.entities := mem_of_lookup h
  have hnone := List.findSome?_eq_none_iff.mp hfault.1 (name, e) hmem
  simp only [Schema.entityFault?] at hnone
  split at hnone
  · cases hnone
  · split at hnone
    · cases hnone
    · rename_i hidentity
      rw [Option.isNone_iff_eq_none] at hidentity
      obtain ⟨f, hf⟩ := Option.ne_none_iff_exists'.mp hidentity
      exact ⟨e, f, h, hf⟩

end Stores

/-! ## Plans beside frames -/

/-- A plan binds the slots of a frame. -/
structure Plan.Mirrors (c : Catalog) (f : Frame) (q : Plan) : Prop where
  sound : f.Sound c
  entity : q.entity = f.entity
  joins : q.joins = f.joins

namespace Plan.Mirrors

variable {c : Catalog} {f : Frame} {q : Plan}

theorem entityOf? (h : q.Mirrors c f) (slot : Nat) : q.entityOf? slot = f.entityOf? slot := by
  rw [Plan.entityOf?, Plan.join?, h.entity, h.joins]
  rfl

theorem wellJoined (h : q.Mirrors c f) : q.WellJoined c where
  entity := by
    rw [h.entity]
    exact h.sound.root
  numbered k j hj := by
    rw [h.joins] at hj
    obtain ⟨hslot, hparent⟩ := h.sound.ordered k j hj
    exact ⟨hslot, by omega⟩
  copied j hj := by
    rw [h.joins] at hj
    obtain ⟨owner, r, howner, hr, hentity, hfrom, hto⟩ := h.sound.relational j hj
    obtain ⟨hstored, hstored'⟩ := Catalog.relation?_stores hr
    refine ⟨owner, r, by rw [h.entityOf?, howner], hr, hentity, hfrom, hto, ?_, ?_⟩
    · rwa [hfrom]
    · rwa [hentity, hto]

end Plan.Mirrors

section Paths

variable {c : Catalog} {frames : List Frame} {around : List Plan} {p : Path}

/-- What a path stands for is bound by the query that many levels out. -/
theorem Path.target?_bound (hframes : List.Forall₂ (fun f q => Plan.Mirrors c f q) frames around)
    {r : Resolved} (h : p.target? c frames = some r) :
    ∃ f q, frames[r.level]? = some f ∧ around[r.level]? = some q ∧ q.Mirrors c f ∧
      r.BoundIn c f := by
  obtain ⟨f, slot, entity, hlocate, -, hentity, htrace⟩ := Path.target?_eq_some h
  have hf := Frame.locate?_getElem? hlocate
  obtain ⟨q, hq, hmirrors⟩ := forall₂_getElem? hframes hf
  exact ⟨f, q, hf, hq, hmirrors, hmirrors.sound.trace?_boundIn hentity htrace⟩

theorem Path.target?_column (hframes : List.Forall₂ (fun f q => Plan.Mirrors c f q) frames around)
    {column : Column} {f : Field} (h : p.target? c frames = some (.field column f)) :
    column.BoundIn c around := by
  obtain ⟨g, q, -, hq, hmirrors, owner, howner, hname, hfield⟩ := target?_bound hframes h
  refine ⟨q, owner, hq, by rw [hmirrors.entityOf?, howner], ?_⟩
  rw [hfield]
  exact Catalog.stores_of_attribute? hname

theorem Path.target?_relatedRows
    (hframes : List.Forall₂ (fun f q => Plan.Mirrors c f q) frames around) {level slot : Nat}
    {r : Relation} (h : p.target? c frames = some (.relation level slot r)) {rows : RelatedRows}
    (hrows : c.relatedRows level slot r = .ok rows) : rows.BoundIn c around := by
  obtain ⟨g, q, -, hq, hmirrors, owner, howner, hr⟩ := target?_bound hframes h
  obtain ⟨target, htarget, rfl⟩ := Catalog.relatedRows_ok.mp hrows
  obtain ⟨hfrom, hto⟩ := Catalog.relation?_stores hr
  exact ⟨q, owner, r, hq, by rw [hmirrors.entityOf?, howner], hr, rfl, rfl, rfl, hfrom, hto,
    Catalog.stores_identity htarget⟩

theorem Path.CollectedAs.boundIn
    (hframes : List.Forall₂ (fun f q => Plan.Mirrors c f q) frames around) {rows : Collection}
    {element : FieldType} (h : p.CollectedAs c frames rows element) : rows.BoundIn c around := by
  cases h with
  | stored htarget _ => exact target?_column hframes htarget
  | related htarget _ _ _ hrows => exact target?_relatedRows hframes htarget hrows

/-- The test whether a relation leads nowhere reads the key of the relation, or its rows. -/
theorem Path.relationIsNull_closed
    (hframes : List.Forall₂ (fun f q => Plan.Mirrors c f q) frames around) {level slot : Nat}
    {r : Relation} (h : p.target? c frames = some (.relation level slot r)) {negated : Bool}
    {predicate : Predicate} (hnull : c.relationIsNull p level slot r negated = .ok predicate)
    (names : List String) : predicate.Closed c names around := by
  obtain ⟨owner, -, -, ⟨-, rfl⟩ | ⟨-, rows, hrows, rfl⟩⟩ := Catalog.relationIsNull_ok.mp hnull
  · obtain ⟨g, q, -, hq, hmirrors, entity, hentity, hr⟩ := target?_bound hframes h
    exact ⟨q, entity, hq, by rw [hmirrors.entityOf?, hentity], (Catalog.relation?_stores hr).1⟩
  · exact target?_relatedRows hframes h hrows

theorem OrderTerm.PlannedAs.boundIn
    (hframes : List.Forall₂ (fun f q => Plan.Mirrors c f q) frames around) {t : OrderTerm}
    {key : SortKey} (h : t.PlannedAs c frames key) :
    key.column.level = 0 ∧ key.column.BoundIn c around := by
  obtain ⟨p, column, f, -, htarget, -, hlevel, rfl⟩ := h
  exact ⟨hlevel, Path.target?_column hframes htarget⟩

end Paths

/-! ## Planned expressions are closed -/

section Planned

variable {c : Catalog} {parameters : List (String × Value)} {frames : List Frame}
  {around : List Plan}

theorem Expr.SelectedAs.closed
    (hframes : List.Forall₂ (fun f q => Plan.Mirrors c f q) frames around) {e : Expr}
    {x : SelectedItem} (h : e.SelectedAs c parameters frames x)
    (he : ∀ {o : Operand} {t : StaticType}, e.PlannedAs c parameters frames o t →
      o.Closed c (parameters.map Prod.fst) around) :
    x.item.Closed c (parameters.map Prod.fst) around := by
  cases h with
  | path hext hselected =>
    cases hselected with
    | field htarget => exact .inr (Path.target?_column hframes (hext.target? htarget))
    | @related parent slot r f htarget _ hf hslot =>
      -- The slot was joined when the record was selected, and the frame has only grown.
      obtain ⟨g, q, hg, hq, hmirrors, owner, howner, hr⟩ :=
        Path.target?_bound hframes (hext.target? htarget)
      obtain ⟨g', hg', hfg⟩ := forall₂_getElem? hext hf
      obtain rfl : g = g' := Option.some.inj (hg.symm.trans hg')
      have hentity := hmirrors.sound.entityOf?_joinAlong? howner hr (hfg.joinAlong? hslot)
      exact ⟨q, _, hq, by rw [hmirrors.entityOf?, hentity]⟩
    | record htarget =>
      obtain ⟨g, q, -, hq, hmirrors, hentity⟩ :=
        Path.target?_bound hframes (hext.target? htarget)
      exact ⟨q, _, hq, by rw [hmirrors.entityOf?, hentity]⟩
  | aggregate hplanned =>
    refine .inl ?_
    cases hplanned with
    | rows =>
      intro column hcolumn
      cases hcolumn
    | column htarget _ =>
      intro column hcolumn
      cases hcolumn
      exact Path.target?_column hframes htarget
  | operand _ _ hplanned => exact .inr (he hplanned)

/-- A planned query is closed within the queries around it, whatever parameters it carries, if its
clauses and items are. -/
theorem Body.PlannedAs.closed
    (hframes : List.Forall₂ (fun f q => Plan.Mirrors c f q) frames around) {es : List Expr}
    {b : Body} {q : Plan} {selected : List SelectedItem}
    (h : b.PlannedAs c parameters frames es q selected)
    (hstatements : ∀ {frames : List Frame} {around : List Plan} {ys : List (Statement Predicate)},
      List.Forall₂ (fun f q => Plan.Mirrors c f q) frames around →
      StatementsPlannedAs c parameters frames b.statements ys →
      ∀ p, .clause p ∈ ys → p.Closed c (parameters.map Prod.fst) around)
    (hes : ∀ {frames : List Frame} {around : List Plan},
      List.Forall₂ (fun f q => Plan.Mirrors c f q) frames around →
      ItemsPlannedAs c parameters frames es selected →
      ItemsClosed c (parameters.map Prod.fst) around (selected.map SelectedItem.item))
    (own : List (String × Value)) :
    Plan.Closed c (parameters.map Prod.fst) around { q with parameters := own } := by
  cases h with
  | @intro _ _ _ e g ys _ keys he hg hys hxs hmix hkeys =>
    have hbuilt := Body.frame?_built hg
    -- The frame after all parts mirrors the joins of the plan, whatever parameters it carries.
    have hmirrors : Plan.Mirrors c g { b.assemble g ys selected keys with parameters := own } :=
      ⟨hbuilt.sound he, hbuilt.entity_eq.symm, rfl⟩
    have hframes' := List.Forall₂.cons hmirrors hframes
    refine ⟨hmirrors.wellJoined, ?_, ?_, fun key hkey => ?_⟩
    · -- The clauses.
      show FilterClosed c _ _ (Statement.combine .and .or ys)
      cases hcombine : Statement.combine .and .or ys with
      | none => exact trivial
      | some p =>
        exact Statement.combine_induction (fun _ _ hp hq => ⟨hp, hq⟩) (fun _ _ hp hq => ⟨hp, hq⟩)
          (hstatements hframes' hys) hcombine
    · -- The items.
      show (Projection.ofSelected selected).Closed c _ _
      have hitems := hes hframes' hxs
      cases selected with
      | nil => exact trivial
      | cons x xs => exact ⟨hmix, hitems⟩
    · -- The keys of ordering.
      obtain ⟨i, hi⟩ := List.mem_iff_getElem?.mp hkey
      obtain ⟨t, -, ht⟩ := forall₂_getElem? hkeys.flip hi
      exact OrderTerm.PlannedAs.boundIn hframes' ht

mutual

theorem Expr.PlannedAs.closed {frames : List Frame} {around : List Plan}
    (hframes : List.Forall₂ (fun f q => Plan.Mirrors c f q) frames around) (e : Expr) {o : Operand}
    {t : StaticType} (h : e.PlannedAs c parameters frames o t) :
    o.Closed c (parameters.map Prod.fst) around := by
  match e with
  | .path p =>
    cases h with
    | path htarget => exact Path.target?_column hframes htarget
  | .literal v =>
    cases h
    exact trivial
  | .parameter name v =>
    cases h with
    | parameter hlookup _ =>
      show name ∈ parameters.map Prod.fst
      exact List.mem_map_of_mem (mem_of_lookup hlookup)
  | .subquery body returns =>
    cases h with
    | @subquery _ _ _ q x _ _ hbody _ =>
      have hclosed := hbody.closed hframes (fun hframes => Body.statements_closed hframes body)
        (fun hframes h => by
          cases h with
          | cons hx _ => exact ⟨hx.closed hframes (Expr.PlannedAs.closed hframes returns), trivial⟩)
        []
      cases hbody
      exact ⟨rfl, hclosed⟩
  | .aggregate f p => cases h
termination_by structural e

theorem Clause.PlannedAs.closed {frames : List Frame} {around : List Plan}
    (hframes : List.Forall₂ (fun f q => Plan.Mirrors c f q) frames around) (clause : Clause)
    {p : Predicate} (h : clause.PlannedAs c parameters frames p) :
    p.Closed c (parameters.map Prod.fst) around := by
  match clause with
  | .compare left op right =>
    cases h with
    | compare hleft hright _ =>
      exact ⟨Expr.PlannedAs.closed hframes left hleft, Expr.PlannedAs.closed hframes right hright⟩
  | .like operand pattern negated =>
    cases h with
    | like ho _ => exact Expr.PlannedAs.closed hframes operand ho
  | .inList operand values negated =>
    cases h with
    | inList ho _ => exact Expr.PlannedAs.closed hframes operand ho
  | .inSubquery operand subquery negated =>
    cases h with
    | inSubquery ho hq _ =>
      exact ⟨Expr.PlannedAs.closed hframes operand ho, Expr.PlannedAs.closed hframes subquery hq⟩
  | .isNull operand negated =>
    cases h with
    | isNull ho => exact Expr.PlannedAs.closed hframes operand ho
    | isNullRelation htarget hnull => exact Path.relationIsNull_closed hframes htarget hnull _
  | .isEmpty collection negated =>
    cases h with
    | isEmpty hcollected => exact hcollected.boundIn hframes
  | .isMember value collection negated =>
    cases h with
    | isMember hv hcollected _ =>
      exact ⟨Expr.PlannedAs.closed hframes value hv, hcollected.boundIn hframes⟩
termination_by structural clause

theorem StatementsPlannedAs.closed {frames : List Frame} {around : List Plan}
    (hframes : List.Forall₂ (fun f q => Plan.Mirrors c f q) frames around)
    (xs : List (Statement Clause)) {ys : List (Statement Predicate)}
    (h : StatementsPlannedAs c parameters frames xs ys) :
    ∀ p, .clause p ∈ ys → p.Closed c (parameters.map Prod.fst) around := by
  match xs with
  | [] =>
    cases h
    exact fun p hp => absurd hp List.not_mem_nil
  | .or :: xs =>
    cases h with
    | or hxs =>
      intro p hp
      rcases List.mem_cons.mp hp with h | hp
      · cases h
      · exact StatementsPlannedAs.closed hframes xs hxs p hp
  | .clause x :: xs =>
    cases h with
    | clause hx hxs =>
      intro p hp
      rcases List.mem_cons.mp hp with h | hp
      · cases h
        exact Clause.PlannedAs.closed hframes x hx
      · exact StatementsPlannedAs.closed hframes xs hxs p hp
termination_by structural xs

theorem Body.statements_closed {frames : List Frame} {around : List Plan}
    (hframes : List.Forall₂ (fun f q => Plan.Mirrors c f q) frames around) (b : Body)
    {ys : List (Statement Predicate)}
    (h : StatementsPlannedAs c parameters frames b.statements ys) :
    ∀ p, .clause p ∈ ys → p.Closed c (parameters.map Prod.fst) around := by
  match b with
  | ⟨scope, entity, statements, joins, selection, orderBy, distinct, assignments⟩ =>
    exact StatementsPlannedAs.closed hframes statements h
termination_by structural b

end

theorem ItemsPlannedAs.closed
    (hframes : List.Forall₂ (fun f q => Plan.Mirrors c f q) frames around) {es : List Expr}
    {selected : List SelectedItem} (h : ItemsPlannedAs c parameters frames es selected) :
    ItemsClosed c (parameters.map Prod.fst) around (selected.map SelectedItem.item) := by
  induction es generalizing selected with
  | nil =>
    cases h
    exact trivial
  | cons e es ih =>
    cases h with
    | cons hx hxs => exact ⟨hx.closed hframes (Expr.PlannedAs.closed hframes e), ih hxs⟩

end Planned

/-! ## Whole plans -/

section Plans

variable {c : Catalog} {b : Body}

/-- A planned query is closed under its own parameters, whose names are unique. -/
theorem Body.closed_of_plan {planned : PlannedQuery} (h : b.plan c = .ok planned) :
    planned.plan.Closed c (planned.plan.parameters.map Prod.fst) [] ∧
      (planned.plan.parameters.map Prod.fst).Nodup := by
  obtain ⟨q, selected, hplan, hplanned, -⟩ := plan_plannedAs h
  refine ⟨?_, bindParameters?_nodup (plan_parameters h) List.nodup_nil⟩
  have hclosed := hplanned.closed .nil (fun hframes => StatementsPlannedAs.closed hframes _)
    (fun hframes => ItemsPlannedAs.closed hframes) planned.plan.parameters
  rwa [← hplan] at hclosed

/-- The filter of a planned change is closed in the query of all records of its entity. -/
theorem Body.closed_of_planChange {parts : ChangeParts} (h : b.planChange c = .ok parts) :
    FilterClosed c (parts.parameters.map Prod.fst) [Plan.all b.entity] parts.filter ∧
      (parts.parameters.map Prod.fst).Nodup := by
  refine ⟨?_, bindParameters?_nodup (planChange_parameters h) List.nodup_nil⟩
  obtain ⟨entity, s, s', he, -, hfilter, hassignments, hparameters⟩ := planChange_ok h
  obtain ⟨ys, g, hys, hjoins, hcombine⟩ := Planner.run_changeFilter_ok.mp hfilter
  obtain ⟨-, hprefix⟩ := Planner.run_assignments_ok hassignments
  have hext := (planStatements_binds b.statements hys).extendAll
  -- The one frame has bound no joins, so it has the root slot and no other.
  cases hext with
  | cons hg hrest =>
    have hentity : g.entity = b.entity := hg.entity.symm
    have hmirrors : Plan.Mirrors c g (Plan.all b.entity) := by
      refine ⟨⟨?_, ?_, entity, by rw [hentity, he]⟩, hentity.symm, hjoins.symm⟩
      · intro i j hj
        rw [hjoins] at hj
        cases hj
      · intro j hj
        rw [hjoins] at hj
        cases hj
    have hreach : Scopes.Reaches ⟨g :: s.frames, s.parameters⟩ (g :: s.frames) parts.parameters :=
      ⟨.refl _, by rw [hparameters]; exact hprefix⟩
    have hplanned := planStatements_plannedAs b.statements hys hreach
    rw [List.forall₂_nil_left_iff] at hrest
    rw [hrest] at hplanned
    have hclosed := StatementsPlannedAs.closed (.cons hmirrors .nil) b.statements hplanned
    rw [hcombine]
    cases hfilter : Statement.combine .and .or ys with
    | none => exact trivial
    | some p =>
      exact Statement.combine_induction (fun _ _ hp hq => ⟨hp, hq⟩) (fun _ _ hp hq => ⟨hp, hq⟩)
        hclosed hfilter

/-- Every plan of a body is closed: as a query in itself, and as a change in the query of all records
of its entity, which has no joins and so no slot but the root. Parameters have unique names. -/
theorem Body.plan_closed (c : Catalog) (b : Body) :
    (∀ planned, b.plan c = .ok planned →
      planned.plan.Closed c (planned.plan.parameters.map Prod.fst) [] ∧
        (planned.plan.parameters.map Prod.fst).Nodup) ∧
    ∀ parts, b.planChange c = .ok parts →
      FilterClosed c (parts.parameters.map Prod.fst) [Plan.all b.entity] parts.filter ∧
        (parts.parameters.map Prod.fst).Nodup :=
  ⟨fun _ => closed_of_plan, fun _ => closed_of_planChange⟩

/-- A query whose nested body joins in the query around it, and an update whose filter has a nested
body. -/
theorem Body.plan_closed_sample :
    (∃ planned, Sample.busyInBerlin.plan Sample.catalog = .ok planned ∧
      planned.plan.Closed Sample.catalog (planned.plan.parameters.map Prod.fst) [] ∧
      (planned.plan.parameters.map Prod.fst).Nodup) ∧
    ∃ parts, (ChangeStep.body "User" Sample.relogin).planChange Sample.catalog = .ok parts ∧
      FilterClosed Sample.catalog (parts.parameters.map Prod.fst) [Plan.all "User"] parts.filter ∧
      (parts.parameters.map Prod.fst).Nodup := by
  obtain ⟨planned, hplanned⟩ := Sample.busyInBerlin_planned
  obtain ⟨parts, hparts⟩ := Sample.exists_ok
    (show ((ChangeStep.body "User" Sample.relogin).planChange Sample.catalog).toBool = true by
      decide +kernel)
  have hentity : (ChangeStep.body "User" Sample.relogin).entity = "User" := by decide +kernel
  have hclosed := (plan_closed Sample.catalog (ChangeStep.body "User" Sample.relogin)).2 parts hparts
  rw [hentity] at hclosed
  exact ⟨⟨planned, hplanned, (plan_closed _ _).1 planned hplanned⟩, parts, hparts, hclosed⟩

end Plans

end EntityQuery
