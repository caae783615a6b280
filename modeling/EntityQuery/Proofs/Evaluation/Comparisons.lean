import EntityQuery.Proofs.Evaluation.Progress
import EntityQuery.Proofs.Evaluation.SortOrder
import EntityQuery.Proofs.Evaluation.Widening
import EntityQuery.Proofs.Planning.Nested

/-!
# Comparisons that ask for an order

An attribute is compared by order only if its type is orderable, and only with what has a comparable
type. Values of two such types always have an order, NaN and null apart. So wherever such a comparison
stands in a planned body, it is decided of every tuple on which both sides have a value other than NaN.
-/

namespace EntityQuery

/-! ## Values of comparable types -/

/-- Whether a value is a float that is no number. -/
def Value.isNaN : Value → Bool
  | float32 x => x.isNaN
  | float64 x => x.isNaN
  | _ => false

theorem Value.isNaN_ordinate {v : Value} {a : Ordinate} (h : v.ordinate? = some a) :
    a.isNaN = v.isNaN := by
  cases v <;> cases h
  case float32 x => exact Number.isNaN_widen x
  all_goals rfl

namespace ScalarType

variable {s s' : ScalarType} {v w : Value}

/-- Strings are comparable with strings alone. -/
theorem eq_string_iff (h : s.comparableWith s' = true) : s = .string ↔ s' = .string := by
  cases s <;> cases s' <;> first | (cases h; done) | decide

/-- Values of orderable types that can be compared have an order, unless one of them is a NaN. -/
theorem order_eq_none_iff (hs : s.isOrderable = true) (hs' : s'.isOrderable = true)
    (hss : s.comparableWith s' = true) (hv : s.accepts v = true) (hw : s'.accepts w = true) :
    v.order w = none ↔ v.isNaN = true ∨ w.isNaN = true := by
  by_cases hstring : s = .string
  · obtain rfl := (eq_string_iff hss).mp hstring
    subst hstring
    obtain ⟨t, rfl⟩ := Value.string_of_accepts hv
    obtain ⟨t', rfl⟩ := Value.string_of_accepts hw
    exact iff_of_false (Option.some_ne_none _) (not_or.mpr ⟨Bool.false_ne_true, Bool.false_ne_true⟩)
  · obtain ⟨a, x, ha, hx⟩ := Value.ordinate_of_accepts hs hstring hv
    obtain ⟨b, y, hb, hy⟩ :=
      Value.ordinate_of_accepts hs' (fun h => hstring ((eq_string_iff hss).mpr h)) hw
    rw [Value.order_eq_of_comparableWith hss hv hw ha hb, ← Value.isNaN_ordinate ha,
      ← Value.isNaN_ordinate hb]
    exact Ordinate.order_eq_none_iff (Value.inRange_of_ordinate? ha)
      (Value.inRange_of_ordinate? hb) hx hy

/-- What is identical to a value that a type accepts is accepted as well. -/
theorem accepts_of_identical (h : v.identical w = true) (hw : s.accepts w = true) :
    s.accepts v = true := by
  cases v <;> cases w <;> first
    | (cases h; done)
    | (cases s <;> first | rfl | cases hw)

end ScalarType

/-! ## Operands of comparable types -/

/-- An orderable attribute holds nulls and values of one orderable scalar type. -/
theorem FieldType.scalar_of_isOrderable {t : FieldType} (ht : t.isOrderable = true) :
    ∃ s : ScalarType, t.scalar? = some s ∧ s.isOrderable = true ∧
      ∀ v, v.isNull = false → t.accepts v = s.accepts v := by
  cases t with
  | scalar s => exact ⟨s, rfl, ht, fun v hv => if_neg (Bool.eq_false_iff.mp hv)⟩
  | optionalScalar s => exact ⟨s, rfl, ht, fun v hv => if_neg (Bool.eq_false_iff.mp hv)⟩
  | array | enumeration | optionalEnumeration => cases ht

theorem FieldType.comparableWith_scalars {t t' : FieldType} {s s' : ScalarType}
    (h : t.comparableWith t' = true) (hs : t.scalar? = some s) (hs' : t'.scalar? = some s') :
    s.comparableWith s' = true := by
  rw [comparableWith, hs, hs'] at h
  exact (Bool.and_eq_true_iff.mp h).2

/-- What an attribute is compared with by order has a value of a comparable type, or null. -/
theorem StaticType.Admits.comparable {t : FieldType} {right : StaticType} {op : Comparison}
    {v w : Value} (hop : op.isOrdering = true) (hconflict : conflict? op (.field t) right = none)
    (hv : (StaticType.field t).Admits v) (hw : right.Admits w) (hv' : v.isNull = false)
    (hw' : w.isNull = false) :
    ∃ s s' : ScalarType, s.isOrderable = true ∧ s'.isOrderable = true ∧
      s.comparableWith s' = true ∧ s.accepts v = true ∧ s'.accepts w = true := by
  replace hv : t.accepts v = true := hv.resolve_left fun h => by rw [h] at hv'; cases hv'
  replace hw := hw.resolve_left fun h => by rw [h] at hw'; cases hw'
  cases right with
  | field t' =>
    obtain ⟨horderable, hcomparable⟩ := conflict?_fields.mp hconflict
    obtain ⟨s, hs, hsorderable, haccepts⟩ := FieldType.scalar_of_isOrderable (horderable hop).1
    obtain ⟨s', hs', hsorderable', haccepts'⟩ :=
      FieldType.scalar_of_isOrderable (horderable hop).2
    exact ⟨s, s', hsorderable, hsorderable', FieldType.comparableWith_scalars hcomparable hs hs',
      (haccepts v hv').symm.trans hv, (haccepts' w hw').symm.trans hw⟩
  | value u =>
    obtain ⟨horderable, hu⟩ := conflict?_value.mp hconflict
    obtain ⟨s, hs, hsorderable, haccepts⟩ := FieldType.scalar_of_isOrderable (horderable hop)
    have hsame : s.comparableWith s = true := by cases s <;> rfl
    -- The value of a parameter is the one given here, or one that is identical to it.
    have hu' : u.isNull = false := by
      rw [Bool.eq_false_iff]
      intro hnull
      obtain rfl := Value.isNull_iff.mp hnull
      rcases hw with rfl | hid
      · cases hw'
      · rw [Value.identical_null hid] at hw'
        cases hw'
    have hu : s.accepts u = true :=
      (haccepts u hu').symm.trans (hu.resolve_left (Bool.eq_false_iff.mp hu'))
    refine ⟨s, s, hsorderable, hsorderable, hsame, (haccepts v hv').symm.trans hv, ?_⟩
    rcases hw with rfl | hid
    · exact hu
    · exact ScalarType.accepts_of_identical hid hu
  | unknown => exact hw.elim

/-- Values that have an order satisfy an operator or not. -/
theorem Comparison.truth_of_order {op : Comparison} {v w : Value} {o : Ordering}
    (hop : op.isOrdering = true) (hv : v.isNull = false) (hw : w.isNull = false)
    (h : v.order w = some o) : ∃ holds, op.truth v w = some holds := by
  cases op with
  | eq | ne => cases hop
  | lt | le | gt | ge =>
    rw [truth, hv, hw, h]
    exact ⟨_, rfl⟩

/-! ## Comparisons in planned queries -/

/-- A tuple of a query under its joins, before any filter. -/
def Plan.Binds (t : Tables) (q : Plan) (tuple : Tuple) : Prop :=
  ∃ tuples, t.bind q.entity q.joins = .ok tuples ∧ tuple ∈ tuples

/-- The comparisons of an attribute by order in a query within others are decided: on all tuples of
these queries where both sides have values other than null and NaN, they are true or false. -/
def Plan.DecidesOrder (s : Source) (around : List Plan) (q : Plan) : Prop :=
  ∀ column op right, .compare (.column column) op right ∈ q.conditions → op.isOrdering = true →
    ∀ tuple outer, List.Forall₂ (Plan.Binds s.tables) (q :: around) (tuple :: outer) →
    ∀ v w, column.value tuple outer = .ok v → right.value s tuple outer = .ok w →
      v.isNull = false → w.isNull = false → v.isNaN = false → w.isNaN = false →
      ∃ holds, (Predicate.compare (.column column) op right).truth s tuple outer =
        .ok (some holds)

section Decided

variable {c : Catalog} {parameters : List (String × Value)} {frames : List Frame}
  {around : List Plan} {q : Plan} {s : Source} {tuples : List Tuple}

/-- Tuples of queries fit the frames that these bind. -/
theorem Tuple.fitAll_of_binds (hconf : s.tables.Conforms c)
    (hframes : List.Forall₂ (fun f q => Plan.Mirrors c f q) frames around)
    (htuples : List.Forall₂ (Plan.Binds s.tables) around tuples) :
    Tuple.FitAll c s.tables frames tuples := by
  induction hframes generalizing tuples with
  | nil =>
    cases htuples
    exact .nil
  | cons hmirrors _ ih =>
    cases htuples with
    | cons htuple hrest =>
      obtain ⟨bound, hbind, hmem⟩ := htuple
      obtain ⟨fitting, hfitting, hfits⟩ := hconf.bind_fits hmirrors.sound
      rw [hmirrors.entity, hmirrors.joins, hfitting] at hbind
      cases hbind
      exact .cons (hfits _ hmem) (ih hrest)

/-- A comparison by order is decided where it is planned. -/
theorem Clause.PlannedAs.order_decided (hconf : s.tables.Conforms c) (hs : s.Provides parameters)
    {clause : Clause} {column : Column} {op : Comparison} {right : Operand} {tuple : Tuple}
    {outer : List Tuple} (hfit : Tuple.FitAll c s.tables frames (tuple :: outer))
    (h : clause.PlannedAs c parameters frames (.compare (.column column) op right))
    (hop : op.isOrdering = true) {v w : Value} (hv : column.value tuple outer = .ok v)
    (hw : right.value s tuple outer = .ok w) (hv' : v.isNull = false) (hw' : w.isNull = false)
    (hvnan : v.isNaN = false) (hwnan : w.isNaN = false) :
    ∃ holds, (Predicate.compare (.column column) op right).truth s tuple outer =
      .ok (some holds) := by
  cases h with
  | compare hleft hright hconflict =>
    -- Both sides have values of types that planning has found comparable.
    have hright := Expr.evaluates hconf hs _ hright hfit
    rw [hw] at hright
    cases hleft with
    | path htarget =>
      obtain ⟨v', hcolumn, hadmits⟩ := hfit.column hconf.typed htarget
      cases hcolumn.symm.trans hv
      obtain ⟨s₁, s₂, hs₁, hs₂, hcomparable, hv₁, hw₂⟩ :=
        hadmits.comparable hop hconflict hright hv' hw'
      -- Comparable values that are numbers have an order, and neither of them is NaN.
      have hordered : v.order w ≠ none := by
        rw [ne_eq, ScalarType.order_eq_none_iff hs₁ hs₂ hcomparable hv₁ hw₂, hvnan, hwnan]
        exact not_or.mpr ⟨Bool.false_ne_true, Bool.false_ne_true⟩
      obtain ⟨o, ho⟩ := Option.ne_none_iff_exists'.mp hordered
      obtain ⟨holds, htruth⟩ := Comparison.truth_of_order hop hv' hw' ho
      refine ⟨holds, ?_⟩
      rw [Predicate.truth, Operand.value, hv, hw, ← htruth]
      rfl
  | isNullRelation _ hnull =>
    -- What a missing record is planned as is no comparison.
    obtain ⟨-, -, -, ⟨-, h⟩ | ⟨-, rows, -, h⟩⟩ := Catalog.relationIsNull_ok.mp hnull <;> cases h

theorem Plan.PlannedWithin.decidesOrder (hconf : s.tables.Conforms c)
    (hs : s.Provides parameters) (h : q.PlannedWithin c parameters around) :
    q.DecidesOrder s around := by
  intro column op right hmem hop tuple outer htuples v w hv hw hv' hw' hvnan hwnan
  obtain ⟨frames, clause, hframes, hclause⟩ := h.of_mem_conditions hmem
  exact hclause.order_decided hconf hs (Tuple.fitAll_of_binds hconf hframes htuples) hop hv hw hv'
    hw' hvnan hwnan

end Decided

theorem Source.provides_of_prefix {t : Tables} {parameters more : List (String × Value)}
    {sorter : Sorter} (h : parameters <+: more) : Source.Provides ⟨t, more, sorter⟩ parameters := by
  obtain ⟨rest, rfl⟩ := h
  intro name v hv
  rw [List.lookup_append, hv]
  rfl

/-- A comparison of an attribute by order that is planned, in a query or a change and at any depth, is
true or false of every tuple on which both sides have values that are neither null nor NaN, with
whatever sorter. -/
theorem Body.orders_decided {c : Catalog} {t : Tables} (hconf : t.Conforms c) (sorter : Sorter)
    (b : Body) :
    (∀ planned, b.plan c = .ok planned → ∀ q around, planned.plan.Encloses q around →
      q.DecidesOrder ⟨t, planned.plan.parameters, sorter⟩ around) ∧
    ∀ parts, b.planChange c = .ok parts → ∀ q around,
      Plan.Encloses { Plan.all b.entity with filter := parts.filter } q around →
      q.DecidesOrder ⟨t, parts.parameters, sorter⟩ around := by
  constructor
  · intro planned hplan q around hq
    exact ((plan_plannedWithin hplan).of_encloses hq).decidesOrder hconf fun _ _ h => h
  · intro parts hplan q around hq
    obtain ⟨parameters, hprefix, hwithin⟩ := planChange_plannedWithin hplan
    exact (hwithin.of_encloses hq).decidesOrder hconf (Source.provides_of_prefix hprefix)

/-- The tasks above an importance, as they are looked for among the users at such a task. -/
def Sample.ambitiousOwners : Plan :=
  { Plan.all "Todo" with
    filter := some (.compare (.column ⟨0, 0, "importance"⟩) .gt (.parameter "floor"))
    projection := .items [.expr (.column ⟨0, 0, "user_id"⟩)] }

def Sample.ambitiousUsers : Plan :=
  { Plan.all "User" with
    joins := [⟨1, 0, "current_todo", "Todo", "current_todo_id", "id", .inner⟩]
    filter := some (.and (.inQuery (.column ⟨0, 0, "id"⟩) ambitiousOwners false)
      (.compare (.column ⟨0, 1, "importance"⟩) .gt (.parameter "floor")))
    parameters := [("floor", .int32 4)] }

theorem Sample.ambitious_plan :
    ambitious.plan catalog = .ok ⟨ambitiousUsers, [.record "User"], [.unknown]⟩ :=
  rfl

/-- The nested comparison is decided of each task beside each user. -/
theorem Body.orders_decided_sample :
    Sample.ambitiousUsers.Encloses Sample.ambitiousOwners [Sample.ambitiousUsers] ∧
    ∃ tuple outer,
      List.Forall₂ (Plan.Binds Sample.tables) [Sample.ambitiousOwners, Sample.ambitiousUsers]
        [tuple, outer] ∧
      ∃ holds, (Predicate.compare (.column ⟨0, 0, "importance"⟩) .gt (.parameter "floor")).truth
        ⟨Sample.tables, [("floor", .int32 4)], .insertion⟩ tuple [outer] = .ok (some holds) := by
  have hencloses : Sample.ambitiousUsers.Encloses Sample.ambitiousOwners [Sample.ambitiousUsers] :=
    .step .self List.mem_cons_self
  obtain ⟨tuples, htuples, h⟩ := Sample.exists_ok_and (x := Sample.tables.bind "Todo" [])
    (p := fun tuples => tuples.any fun tuple =>
      decide (((⟨0, 0, "importance"⟩ : Column).value tuple []).toOption = some (.int32 15)))
    (by decide +kernel)
  obtain ⟨bound, hbound, h'⟩ := Sample.exists_ok_and
    (x := Sample.tables.bind "User" Sample.ambitiousUsers.joins)
    (p := fun bound => !bound.isEmpty) (by decide +kernel)
  obtain ⟨tuple, htuple, himportance⟩ := List.any_eq_true.mp h
  obtain ⟨outer, houter⟩ := List.exists_mem_of_ne_nil bound (by simpa using h')
  have hbinds : List.Forall₂ (Plan.Binds Sample.tables)
      [Sample.ambitiousOwners, Sample.ambitiousUsers] [tuple, outer] :=
    .cons ⟨tuples, htuples, htuple⟩ (.cons ⟨bound, hbound, houter⟩ .nil)
  refine ⟨hencloses, tuple, outer, hbinds, ?_⟩
  -- A column of level 0 does not look at the tuples around.
  have hvalue : (⟨0, 0, "importance"⟩ : Column).value tuple [outer] = .ok (.int32 15) :=
    Sample.eq_ok (of_decide_eq_true himportance)
  exact (orders_decided Sample.tables_conforms .insertion Sample.ambitious).1 _ Sample.ambitious_plan _ _
    hencloses _ _ _ List.mem_cons_self rfl tuple [outer] hbinds _ _ hvalue
    (by rw [Operand.value]; rfl) rfl rfl rfl rfl

end EntityQuery
