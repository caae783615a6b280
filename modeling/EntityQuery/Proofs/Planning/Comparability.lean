import EntityQuery.Proofs.Planning.Nested

/-!
# Comparisons of collections

Attributes are compared with each other if their types have comparable scalars, and collections are not
meant to be among them. One pair of types passes nevertheless: a collection of strings beside an
enumeration, either way round, can be tested for equality. Every other comparison of a collection with
an attribute, or with the attribute that a nested query selects, is refused as a mismatch of types.
-/

namespace EntityQuery

/-! ## Comparable types -/

/-- A collection of strings and an enumeration, which pass for comparable. -/
inductive FieldType.Confused : FieldType → FieldType → Prop
  | left {b : FieldType} : b.variants?.isSome = true → Confused (.array .string) b
  | right {a : FieldType} : a.variants?.isSome = true → Confused a (.array .string)

namespace FieldType

variable {a b : FieldType}

/-- A type has a scalar unless it is an enumeration. -/
theorem scalar?_eq_none_iff : a.scalar? = none ↔ a.variants?.isSome = true := by
  cases a <;> simp [scalar?, variants?]

theorem isArray_iff : a.isArray = true ↔ ∃ s, a = .array s := by
  cases a <;> simp [isArray]

theorem Confused.symm (h : Confused a b) : Confused b a := by
  cases h with
  | left hb => exact .right hb
  | right ha => exact .left ha

theorem comparableWith_comm (a b : FieldType) : a.comparableWith b = b.comparableWith a := by
  have hscalars : ∀ s t : ScalarType, s.comparableWith t = t.comparableWith s := by
    intro s t
    rw [ScalarType.comparableWith, ScalarType.comparableWith, Bool.and_comm, BEq.comm]
  rw [comparableWith, comparableWith]
  cases a.scalar? <;> cases b.scalar? <;> simp [hscalars, Bool.and_comm]

/-- A collection is comparable only if it is confused with an enumeration. -/
theorem comparableWith_array {s : ScalarType} :
    (array s).comparableWith b = true ↔ Confused (.array s) b := by
  constructor
  · intro h
    cases hb : b.scalar? with
    | some t =>
      simp only [comparableWith, hb] at h
      cases h
    | none =>
      simp only [comparableWith, hb] at h
      obtain rfl := eq_of_beq h
      exact .left (scalar?_eq_none_iff.mp hb)
  · intro h
    cases h with
    | left hb =>
      rw [comparableWith, scalar?_eq_none_iff.mpr hb]
      rfl
    | right ha => cases ha

theorem comparableWith_collection (h : a.isArray = true ∨ b.isArray = true) :
    a.comparableWith b = true ↔ Confused a b := by
  rcases h with h | h
  · obtain ⟨s, rfl⟩ := isArray_iff.mp h
    exact comparableWith_array
  · obtain ⟨s, rfl⟩ := isArray_iff.mp h
    rw [comparableWith_comm, comparableWith_array]
    exact ⟨Confused.symm, Confused.symm⟩

/-- Collections have no order. -/
theorem not_isOrderable_of_collection (h : a.isArray = true ∨ b.isArray = true) :
    ¬ (a.isOrderable = true ∧ b.isOrderable = true) := by
  rintro ⟨ha, hb⟩
  rcases h with h | h
  · obtain ⟨s, rfl⟩ := isArray_iff.mp h
    cases ha
  · obtain ⟨s, rfl⟩ := isArray_iff.mp h
    cases hb

end FieldType

/-- Attributes of which one is a collection can be compared only by equality, and only if they are
confused. -/
theorem StaticType.conflict?_collection {op : Comparison} {a b : FieldType}
    (h : a.isArray = true ∨ b.isArray = true) :
    conflict? op (.field a) (.field b) = none ↔ op.isOrdering = false ∧ a.Confused b := by
  rw [conflict?_fields, FieldType.comparableWith_collection h]
  refine and_congr_left fun _ => ?_
  rw [← Bool.not_eq_true]
  exact ⟨fun horder hop => FieldType.not_isOrderable_of_collection h (horder hop),
    fun hop h => absurd h hop⟩

/-! ## Attributes in plans -/

/-- A column is an attribute of a type. The queries are given from the one that it stands in to the
outermost. -/
def Column.HasType (c : Catalog) (around : List Plan) (column : Column) (t : FieldType) : Prop :=
  ∃ q entity f, around[column.level]? = some q ∧ q.entityOf? column.slot = some entity ∧
    c.attribute? entity column.field = some (.field f) ∧ f.type = t

/-- An operand is an attribute, or a nested query that selects one. -/
inductive Operand.IsAttribute (c : Catalog) : List Plan → Operand → FieldType → Prop
  | column {around : List Plan} {column : Column} {t : FieldType} :
      column.HasType c around t → IsAttribute c around (.column column) t
  | query {around : List Plan} {q : Plan} {o : Operand} {t : FieldType} :
      q.projection = .items [.expr o] → IsAttribute c (q :: around) o t →
      IsAttribute c around (.query q) t

/-- A condition compares two operands: by an operator, or for equality with each candidate of a nested
query. -/
inductive Predicate.Compares : Predicate → Operand → Comparison → Operand → Prop
  | compare {left right : Operand} {op : Comparison} :
      Compares (.compare left op right) left op right
  | inQuery {operand : Operand} {q : Plan} {negated : Bool} :
      Compares (.inQuery operand q negated) operand .eq (.query q)

/-- A query within others compares no two attributes of which one is a collection, but by equality and
where they are confused. -/
def Plan.ComparesNoCollections (c : Catalog) (around : List Plan) (q : Plan) : Prop :=
  ∀ p ∈ q.conditions, ∀ left op right, p.Compares left op right →
    ∀ a b, left.IsAttribute c (q :: around) a → right.IsAttribute c (q :: around) b →
      a.isArray = true ∨ b.isArray = true → op.isOrdering = false ∧ a.Confused b

/-! ## Planned comparisons -/

section Planned

variable {c : Catalog} {parameters : List (String × Value)} {frames : List Frame}
  {around : List Plan} {q : Plan}

/-- A path has the type of the attribute that it is planned as. -/
theorem Path.target?_hasType
    (hframes : List.Forall₂ (fun f q => Plan.Mirrors c f q) frames around) {p : Path}
    {column : Column} {f : Field} (hp : p.target? c frames = some (.field column f))
    {t : FieldType} (ht : column.HasType c around t) : f.type = t := by
  obtain ⟨g, q, -, hq, hmirrors, owner, howner, hf, hname⟩ := target?_bound hframes hp
  obtain ⟨q', entity, f', hq', hentity, hf', rfl⟩ := ht
  cases hq.symm.trans hq'
  rw [hmirrors.entityOf?] at hentity
  cases howner.symm.trans hentity
  rw [hname, hf] at hf'
  cases hf'
  rfl

/-- An operand that is an attribute is planned with its type. -/
theorem Expr.PlannedAs.type_of_isAttribute {o : Operand} {a : FieldType}
    (ho : o.IsAttribute c around a) {e : Expr} {t : StaticType}
    (hframes : List.Forall₂ (fun f q => Plan.Mirrors c f q) frames around)
    (h : e.PlannedAs c parameters frames o t) : t = .field a := by
  induction ho generalizing frames e t with
  | column ht =>
    cases h with
    | path hp => rw [Path.target?_hasType hframes hp ht]
  | query hprojection hattribute ih =>
    cases h with
    | @subquery _ _ _ _ x _ _ hbody hitem =>
      -- The one item of the nested query is the attribute.
      obtain ⟨g, ys, hframes', -, -, hxs, hselected⟩ := hbody.parts hframes
      have hitems : Projection.items [x.item] = .items [.expr _] := hselected.symm.trans hprojection
      rw [hitem] at hitems
      cases hitems
      cases hxs with
      | cons hx _ =>
        cases hx with
        | path hext hselected =>
          cases hselected with
          | field hp =>
            cases hitem
            cases hattribute with
            | column ht => rw [Path.target?_hasType hframes' (hext.target? hp) ht]
          | related | record => cases hitem
        | aggregate hplanned =>
          cases hitem
          cases hplanned <;> cases hattribute
        | operand _ _ hplanned =>
          cases hitem
          exact ih hframes' hplanned

/-- The operands that a planned clause compares are planned without conflict. -/
theorem Clause.PlannedAs.compares {clause : Clause} {p : Predicate}
    (h : clause.PlannedAs c parameters frames p) {left right : Operand} {op : Comparison}
    (hp : p.Compares left op right) :
    ∃ l lt r rt, Expr.PlannedAs c parameters frames l left lt ∧
      Expr.PlannedAs c parameters frames r right rt ∧ StaticType.conflict? op lt rt = none := by
  cases hp with
  | compare =>
    cases h with
    | compare hl hr hconflict => exact ⟨_, _, _, _, hl, hr, hconflict⟩
    | isNullRelation _ hnull =>
      obtain ⟨-, -, -, ⟨-, h⟩ | ⟨-, rows, -, h⟩⟩ := Catalog.relationIsNull_ok.mp hnull <;> cases h
  | inQuery =>
    cases h with
    | inSubquery ho hq hconflict => exact ⟨_, _, _, _, ho, hq, hconflict⟩
    | isNullRelation _ hnull =>
      obtain ⟨-, -, -, ⟨-, h⟩ | ⟨-, rows, -, h⟩⟩ := Catalog.relationIsNull_ok.mp hnull <;> cases h

theorem Plan.PlannedWithin.comparesNoCollections (h : q.PlannedWithin c parameters around) :
    q.ComparesNoCollections c around := by
  intro p hp left op right hcompares a b ha hb hcollection
  obtain ⟨frames, clause, hframes, hclause⟩ := h.of_mem_conditions hp
  obtain ⟨l, lt, r, rt, hl, hr, hconflict⟩ := hclause.compares hcompares
  rw [hl.type_of_isAttribute ha hframes, hr.type_of_isAttribute hb hframes] at hconflict
  exact (StaticType.conflict?_collection hcollection).mp hconflict

end Planned

/-! ## Refused comparisons -/

/-- The types in conflict where collections are compared. -/
theorem StaticType.conflict?_eq_some {op : Comparison} {a b : FieldType}
    (h : a.isArray = true ∨ b.isArray = true) (hrefused : ¬ (op.isOrdering = false ∧ a.Confused b)) :
    conflict? op (.field a) (.field b) =
      some (if op.isOrdering then ("orderable type", (if a.isOrderable then b else a).describe)
        else (a.describe, b.describe)) := by
  cases hop : op.isOrdering with
  | false =>
    have hab : a.comparableWith b = false := by
      rw [Bool.eq_false_iff, ne_eq, FieldType.comparableWith_collection h]
      exact fun hconfused => hrefused ⟨hop, hconfused⟩
    simp [conflict?, hop, hab]
  | true =>
    have horder := FieldType.not_isOrderable_of_collection h
    cases ha : a.isOrderable with
    | false => simp [conflict?, unorderable?, hop, ha]
    | true =>
      have hb : b.isOrderable = false := Bool.eq_false_iff.mpr fun hb => horder ⟨ha, hb⟩
      simp [conflict?, unorderable?, hop, ha, hb]

section Refused

variable {c : Catalog} {entity : String} {s s₁ s₂ : Scopes} {left right : Expr} {l r : Operand}
  {lt rt : StaticType}

theorem Planner.run_checkComparable {label : String} {op : Comparison} :
    (checkComparable label op lt rt).run s =
      (StaticType.conflict? op lt rt).elim (.ok ((), s))
        fun types => .error (.mismatch label types.1 types.2) := by
  rw [checkComparable]
  cases StaticType.conflict? op lt rt <;> rfl

/-- Once both sides are planned, a comparison is refused only for a conflict of their types. -/
theorem Clause.run_plan_compare (hl : (left.plan c entity).run s = .ok ((l, lt), s₁))
    (hr : (right.plan c entity).run s₁ = .ok ((r, rt), s₂)) (op : Comparison) :
    ((Clause.compare left op right).plan c entity).run s =
      (StaticType.conflict? op lt rt).elim (.ok (.compare l op r, s₂))
        fun types => .error (.mismatch left.label types.1 types.2) := by
  rw [Clause.plan, Planner.run_bind_of_ok hl, Planner.run_bind_of_ok hr, StateT.run_bind,
    Planner.run_checkComparable]
  cases StaticType.conflict? op lt rt <;> rfl

theorem Clause.run_plan_inSubquery {q : Plan}
    (hl : (left.plan c entity).run s = .ok ((l, lt), s₁))
    (hr : (right.plan c entity).run s₁ = .ok ((.query q, rt), s₂))
    (hsubquery : right.isSubquery = true) (negated : Bool) :
    ((Clause.inSubquery left right negated).plan c entity).run s =
      (StaticType.conflict? .eq lt rt).elim (.ok (.inQuery l q negated, s₂))
        fun types => .error (.mismatch left.label types.1 types.2) := by
  rw [Clause.plan, Planner.run_bind_of_ok hl]
  simp only [hsubquery, Bool.not_true, Bool.false_eq_true, if_false]
  rw [Planner.run_bind_of_ok hr, StateT.run_bind, Planner.run_checkComparable]
  cases StaticType.conflict? .eq lt rt <;> rfl

end Refused

/-! ## Whole bodies -/

/-- A planned query or change compares no two attributes of which one is a collection, at any depth, but
for a collection of strings tested for being equal to an enumeration. A clause that compares a
collection otherwise is refused once both sides are planned, with the types of the two. -/
theorem Body.collections_compared (c : Catalog) (b : Body) :
    (∀ planned, b.plan c = .ok planned → ∀ q around, planned.plan.Encloses q around →
      q.ComparesNoCollections c around) ∧
    (∀ parts, b.planChange c = .ok parts → ∀ q around,
      Plan.Encloses { Plan.all b.entity with filter := parts.filter } q around →
      q.ComparesNoCollections c around) ∧
    ∀ (entity : String) (left right : Expr) (s s₁ s₂ : Scopes) (l r : Operand) (lt rt : FieldType),
      (left.plan c entity).run s = .ok ((l, .field lt), s₁) →
      (right.plan c entity).run s₁ = .ok ((r, .field rt), s₂) →
      lt.isArray = true ∨ rt.isArray = true →
      (∀ op, (op.isOrdering = false ∧ lt.Confused rt →
          ((Clause.compare left op right).plan c entity).run s = .ok (.compare l op r, s₂)) ∧
        (¬ (op.isOrdering = false ∧ lt.Confused rt) →
          ((Clause.compare left op right).plan c entity).run s = .error
            (if op.isOrdering then
              .mismatch left.label "orderable type" (if lt.isOrderable then rt else lt).describe
            else .mismatch left.label lt.describe rt.describe))) ∧
      (∀ negated, right.isSubquery = true → ¬ lt.Confused rt →
        ((Clause.inSubquery left right negated).plan c entity).run s =
          .error (.mismatch left.label lt.describe rt.describe)) := by
  refine ⟨fun planned hplan q around hq => ?_, fun parts hplan q around hq => ?_, ?_⟩
  · exact ((plan_plannedWithin hplan).of_encloses hq).comparesNoCollections
  · obtain ⟨parameters, -, hwithin⟩ := planChange_plannedWithin hplan
    exact (hwithin.of_encloses hq).comparesNoCollections
  · -- A comparison of a collection is decided by the types of the two sides, once they are planned.
    intro entity left right s s₁ s₂ l r lt rt hl hr hcollection
    refine ⟨fun op => ⟨fun hpasses => ?_, fun hrefused => ?_⟩, fun negated hsubquery hrefused => ?_⟩
    · rw [Clause.run_plan_compare hl hr, (StaticType.conflict?_collection hcollection).mpr hpasses]
      rfl
    · rw [Clause.run_plan_compare hl hr, StaticType.conflict?_eq_some hcollection hrefused]
      cases op.isOrdering <;> rfl
    · cases right with
      | subquery body returns =>
        obtain ⟨q, -, rfl, -⟩ := Expr.run_plan_subquery_ok.mp hr
        rw [Clause.run_plan_inSubquery hl hr rfl,
          StaticType.conflict?_eq_some hcollection fun h => hrefused h.2]
        rfl
      | _ => cases hsubquery

/-- Numbers of an item cannot be compared with a number of it. -/
theorem Body.collections_compared_sample :
    (∃ planned, Sample.busyInBerlin.plan Sample.catalog = .ok planned ∧
      ∀ q ∈ planned.plan.queries, q.ComparesNoCollections Sample.catalog [planned.plan]) ∧
    (∃ parts, (ChangeStep.body "User" Sample.relogin).planChange Sample.catalog = .ok parts ∧
      Plan.ComparesNoCollections Sample.catalog []
        { Plan.all (ChangeStep.body "User" Sample.relogin).entity with filter := parts.filter }) ∧
    ((Clause.compare (.path ⟨1, "Item", .root, ["nums"]⟩) .eq
        (.path ⟨1, "Item", .root, ["small"]⟩)).plan Sample.catalog "Item").run ⟨[.new 1 "Item"], []⟩ =
      .error (.mismatch "Item.nums" "int32[]" "int32") := by
  obtain ⟨planned, hplanned⟩ := Sample.busyInBerlin_planned
  obtain ⟨parts, hparts⟩ := Sample.exists_ok
    (show ((ChangeStep.body "User" Sample.relogin).planChange Sample.catalog).toBool = true by
      decide +kernel)
  -- Both sides are planned in one scope.
  have hnums : ((Expr.path ⟨1, "Item", .root, ["nums"]⟩).plan Sample.catalog "Item").run
      ⟨[.new 1 "Item"], []⟩ =
        .ok ((.column ⟨0, 0, "nums"⟩, .field (.array .int32)), ⟨[.new 1 "Item"], []⟩) :=
    rfl
  have hsmall : ((Expr.path ⟨1, "Item", .root, ["small"]⟩).plan Sample.catalog "Item").run
      ⟨[.new 1 "Item"], []⟩ =
        .ok ((.column ⟨0, 0, "small"⟩, .field (.scalar .int32)), ⟨[.new 1 "Item"], []⟩) :=
    rfl
  obtain ⟨hquery, -, hrefused⟩ := collections_compared Sample.catalog Sample.busyInBerlin
  obtain ⟨-, hchange, -⟩ :=
    collections_compared Sample.catalog (ChangeStep.body "User" Sample.relogin)
  refine ⟨⟨planned, hplanned, fun q hq => hquery planned hplanned q _ (.step .self hq)⟩,
    ⟨parts, hparts, hchange parts hparts _ _ .self⟩, ?_⟩
  exact ((hrefused "Item" _ _ _ _ _ _ _ _ _ hnums hsmall (.inl rfl)).1 .eq).2
    fun hpasses => by cases hpasses.2

/-- Items whose tags are equal to their kind. The tags are a collection of strings and the kind is an
enumeration, and yet they are compared. -/
theorem Body.collection_compared :
    (Recorder.record "Item" fun item =>
        Recorder.clause item
          (.compare (.path (item.child "tags")) .eq (.path (item.child "kind")))).plan Sample.catalog =
      .ok ⟨{ Plan.all "Item" with
          filter := some (.compare (.column ⟨0, 0, "tags"⟩) .eq (.column ⟨0, 0, "kind"⟩)) },
        [.record "Item"], [.unknown]⟩ ∧
    Sample.catalog.attribute? "Item" "tags" = some (.field (.new "tags" (.array .string))) ∧
    Sample.catalog.attribute? "Item" "kind" =
      some (.field (.new "kind" (.enumeration "Kind" ["A", "B", "C"]))) :=
  ⟨rfl, rfl, rfl⟩

end EntityQuery
