import EntityQuery.Proofs.Evaluation.KeyOrder
import EntityQuery.Proofs.Evaluation.Membership
import EntityQuery.Proofs.Evaluation.Presence

/-!
# Equality of collections

Collections are equal if they are of one kind and have the same elements. An attribute whose elements
are 64-bit integers may also hold 32-bit integers, and both kinds are read alike; but a collection of
the one kind equals none of the other. All other collections without floats are equal just if they are
read as the same list, and so are collections of either kind among themselves.
-/

namespace EntityQuery

/-! ## Collections as they are read -/

/-- What a collection is read as, the type of its elements, and the kinds of values that an attribute
with such elements may hold. -/
inductive BaseType.Collects : BaseType → ScalarType → Value → Prop
  | bool (xs : List Bool) : Collects .boolArray .bool (.boolArray xs)
  | int32 (xs : List Int32) : Collects .int32Array .int32 (.int32Array xs)
  | int64 (xs : List Int64) : Collects .int64Array .int64 (.int64Array xs)
  /-- Narrower elements are widened when they are read. -/
  | widened (xs : List Int32) : Collects .int64Array .int64 (.int32Array xs)
  | float64 (xs : List Float) : Collects .float64Array .float64 (.float64Array xs)
  | string (xs : List String) : Collects .stringArray .string (.stringArray xs)

theorem BaseType.collects {t : BaseType} {s : ScalarType} {v : Value} (ht : t.shape = .array s)
    (hv : s.acceptsArray v = true) : t.Collects s v := by
  cases t with
  | boolArray | int32Array | int64Array | float64Array | stringArray =>
    cases ht
    cases v with
    | boolArray xs | int32Array xs | int64Array xs | float64Array xs | stringArray xs =>
      first | exact .bool xs | exact .int32 xs | exact .int64 xs | exact .widened xs |
        exact .float64 xs | exact .string xs | cases hv
    | _ => cases hv
  | _ => cases ht

namespace Value

/-- Whether a collection has floats as elements. An empty one has none. -/
def hasFloats (v : Value) : Bool :=
  (v.elements?.getD []).any holdsFloats

/-- Being of one kind, and being read as the same elements. -/
def SameElements (t : BaseType) (v w : Value) : Prop :=
  v.typeName = w.typeName ∧ ∃ xs, t.read? v = some xs ∧ t.read? w = some xs

theorem hasFloats_float64Array {xs : List Float} (h : (float64Array xs).hasFloats = false) :
    xs = [] := by
  cases xs with
  | nil => rfl
  | cons x xs => cases h

/-- Lists are equal if they are read as one and the same. -/
theorem beq_iff_read {α : Type} [BEq α] [LawfulBEq α] {xs ys : List α} :
    (xs == ys) = true ↔ ∃ zs, some xs = some zs ∧ some ys = some zs := by
  rw [beq_iff_eq]
  constructor
  · rintro rfl
    exact ⟨xs, rfl, rfl⟩
  · rintro ⟨zs, hxs, hys⟩
    rw [Option.some.inj hxs, Option.some.inj hys]

theorem toInt64_injective : Function.Injective Int32.toInt64 := by
  intro a b h
  rw [← Int32.toInt_inj, ← Int32.toInt_toInt64 a, ← Int32.toInt_toInt64 b, h]

section Reading

variable {t : BaseType} {s : ScalarType} {v w : Value}

/-- What an attribute holds can be read. -/
theorem exists_read_collection (hv : t.Collects s v) : ∃ xs, t.read? v = some xs := by
  cases hv <;> exact ⟨_, rfl⟩

/-- Only a collection of 64-bit integers comes in two kinds. -/
theorem widths_of_typeName_ne (hv : t.Collects s v) (hw : t.Collects s w)
    (hne : v.typeName ≠ w.typeName) :
    s = .int64 ∧ ((∃ xs ys, v = int32Array xs ∧ w = int64Array ys) ∨
      ∃ xs ys, v = int64Array xs ∧ w = int32Array ys) := by
  cases hv with
  | int64 xs =>
    cases hw with
    | int64 ys => exact absurd rfl hne
    | widened ys => exact ⟨rfl, .inr ⟨xs, ys, rfl, rfl⟩⟩
  | widened xs =>
    cases hw with
    | int64 ys => exact ⟨rfl, .inl ⟨xs, ys, rfl, rfl⟩⟩
    | widened ys => exact absurd rfl hne
  | bool | int32 | float64 | string =>
    cases hw
    exact absurd rfl hne

/-- Collections without floats are equal if they have the same elements in one kind. -/
theorem equal_iff_sameElements (hv : t.Collects s v) (hw : t.Collects s w)
    (hv' : v.hasFloats = false) (hw' : w.hasFloats = false) :
    v.equal w = true ↔ SameElements t v w := by
  by_cases hkind : v.typeName = w.typeName
  · rw [SameElements, and_iff_right hkind]
    cases hv with
    | bool xs | int32 xs | string xs =>
      cases hw
      exact beq_iff_read
    | int64 xs =>
      cases hw with
      | int64 ys => exact beq_iff_read
      | widened ys => exact absurd hkind (show "int64[]" ≠ "int32[]" by decide)
    | widened xs =>
      cases hw with
      | int64 ys => exact absurd hkind (show "int32[]" ≠ "int64[]" by decide)
      | widened ys =>
        -- Widening is injective, so equal lists are those that are read alike.
        show (xs == ys) = true ↔
          ∃ zs, some (xs.map Int32.toInt64) = some zs ∧ some (ys.map Int32.toInt64) = some zs
        rw [← beq_iff_read, beq_iff_eq, beq_iff_eq, toInt64_injective.list_map.eq_iff]
    | float64 xs =>
      cases hw with
      | float64 ys =>
        obtain rfl := hasFloats_float64Array hv'
        obtain rfl := hasFloats_float64Array hw'
        exact iff_of_true rfl ⟨[], rfl, rfl⟩
  · refine iff_of_false ?_ fun h => hkind h.1
    obtain ⟨-, ⟨xs, ys, rfl, rfl⟩ | ⟨xs, ys, rfl, rfl⟩⟩ := widths_of_typeName_ne hv hw hkind <;>
      exact Bool.false_ne_true

end Reading

end Value

/-! ## Conditions on collections -/

/-- That an attribute is equal to a literal, or to one of several. -/
inductive Clause.EqualsOneOf (p : Path) : List Value → Clause → Prop
  | eq {w : Value} : EqualsOneOf p [w] (.compare (.path p) .eq (.literal w))
  | inList {ws : List Value} : EqualsOneOf p ws (.inList (.path p) ws false)

theorem membership_isTrue_iff {v : Value} {ws : List Value} :
    membership v ws false = some true ↔ v.isNull = false ∧ ∃ w ∈ ws, w.equal v = true := by
  unfold membership
  cases v.isNull with
  | true => simp
  | false =>
    simp only [Bool.false_eq_true, if_false, true_and, Bool.not_false]
    rw [← List.any_eq_true]
    cases ws.any (·.equal v) <;> cases ws.any Value.isNull <;> decide

section Conditions

variable {c : Catalog} {parameters : List (String × Value)} {frames : List Frame} {p : Path}
  {ws : List Value} {clause : Clause} {condition : Predicate}

/-- Both conditions are memberships of the attribute in the literals, which its type accepts. -/
theorem Clause.EqualsOneOf.planned (hclause : EqualsOneOf p ws clause)
    (h : clause.PlannedAs c parameters frames condition) :
    ∃ column f, p.target? c frames = some (.field column f) ∧
      (∀ w ∈ ws, w.isNull = true ∨ f.type.accepts w = true) ∧
      ∀ s tuple outer, condition.truth s tuple outer =
        (do let v ← column.value tuple outer; .ok (membership v ws false)) := by
  cases hclause with
  | @eq w =>
    cases h with
    | compare hleft hright hconflict =>
      -- The comparison is planned only if the attribute accepts the literal.
      cases hleft with
      | path htarget =>
        cases hright
        refine ⟨_, _, htarget, fun w' hw' => ?_, fun s tuple outer => ?_⟩
        · obtain rfl := List.mem_singleton.mp hw'
          exact (StaticType.conflict?_value.mp hconflict).2
        · rw [Predicate.truth_compare_literal, Operand.value]
          simp only [membership_singleton]
  | inList =>
    cases h with
    | inList hoperand hall =>
      cases hoperand with
      | path htarget =>
        refine ⟨_, _, htarget, fun w hw => ?_, fun s tuple outer => ?_⟩
        · simpa using List.all_eq_true.mp hall w hw
        · rw [Predicate.truth, Operand.value]

theorem FieldType.acceptsArray_of_accepts {t : FieldType} {s : ScalarType} {v : Value}
    (ht : t = .array s) (h : t.accepts v = true) : s.acceptsArray v = true := by
  subst ht
  unfold accepts at h
  split at h
  · cases h
  · exact h

/-- Null is read as nothing. -/
theorem BaseType.read?_of_isNull {v : Value} (t : BaseType) (hv : v.isNull = true) :
    t.read? v = none := by
  obtain rfl := Value.isNull_iff.mp hv
  cases t <;> rfl

theorem BaseType.Collects.isNull_eq_false {t : BaseType} {s : ScalarType} {v : Value}
    (h : t.Collects s v) : v.isNull = false := by
  cases h <;> rfl

/-- A condition on a collection is true where the collection and one of the literals have the same
elements in one kind. It is not true where the attribute is absent, or of a null literal. -/
theorem Clause.EqualsOneOf.isTrue_iff {s : Source} {tuple : Tuple} {outer : List Tuple}
    {element : ScalarType} {t : BaseType} {column : Column} {f : Field}
    (hclause : EqualsOneOf p ws clause) (h : clause.PlannedAs c parameters frames condition)
    (hconf : s.tables.Conforms c) (hfits : Tuple.FitAll c s.tables frames (tuple :: outer))
    (htarget : p.target? c frames = some (.field column f)) (helement : f.type = .array element)
    (ht : t.shape = .array element) (hws : ∀ w ∈ ws, w.hasFloats = false) :
    ∃ v, column.value tuple outer = .ok v ∧ condition.Evaluates s tuple outer ∧
      (v.hasFloats = false →
        (condition.IsTrue s tuple outer ↔ ∃ w ∈ ws, Value.SameElements t v w)) := by
  -- The target and the column are those that the clause is planned with.
  obtain ⟨column', f', htarget', hall, htruth⟩ := hclause.planned h
  cases htarget.symm.trans htarget'
  obtain ⟨v, hv, hadmits⟩ := hfits.column hconf.typed htarget
  have htruth : condition.truth s tuple outer = .ok (membership v ws false) := by
    rw [htruth, hv]
    rfl
  refine ⟨v, hv, ⟨_, htruth⟩, fun hfloats => ?_⟩
  rw [Predicate.IsTrue, htruth, Except.ok.injEq, membership_isTrue_iff]
  rcases hadmits with rfl | haccepts
  · -- Null is read as no collection.
    refine iff_of_false (fun h => Bool.noConfusion h.1) ?_
    rintro ⟨w, -, -, xs, hnull, -⟩
    rw [BaseType.read?_of_isNull t rfl] at hnull
    cases hnull
  · -- A collection that is there can be read, and a literal has passed the check of the attribute.
    have hcollects := BaseType.collects ht (FieldType.acceptsArray_of_accepts helement haccepts)
    have hpresent := hcollects.isNull_eq_false
    rw [and_iff_right hpresent]
    refine exists_congr fun w => and_congr_right fun hw => ?_
    rw [Value.equal_comm]
    rcases hall w hw with hnull | hw'
    · refine iff_of_false ?_ ?_
      · rw [Value.equal_of_isNull hpresent hnull]
        exact Bool.false_ne_true
      · rintro ⟨-, xs, -, hread⟩
        rw [BaseType.read?_of_isNull t hnull] at hread
        cases hread
    · exact Value.equal_iff_sameElements hcollects
        (BaseType.collects ht (FieldType.acceptsArray_of_accepts helement hw')) hfloats (hws w hw)

open Classical in
/-- A condition on a collection keeps the tuples where the collection and one of the literals have the
same elements in one kind. -/
theorem Clause.EqualsOneOf.filterTuples_eq {s : Source} {outer tuples : List Tuple}
    {element : ScalarType} {t : BaseType} {column : Column} {f : Field}
    (hclause : EqualsOneOf p ws clause) (h : clause.PlannedAs c parameters frames condition)
    (hconf : s.tables.Conforms c)
    (hfits : ∀ tuple ∈ tuples, Tuple.FitAll c s.tables frames (tuple :: outer))
    (htarget : p.target? c frames = some (.field column f)) (helement : f.type = .array element)
    (ht : t.shape = .array element) (hws : ∀ w ∈ ws, w.hasFloats = false)
    (hfloats : ∀ tuple ∈ tuples, ∀ v, column.value tuple outer = .ok v → v.hasFloats = false) :
    filterTuples s outer tuples (some condition) = .ok (tuples.filter fun tuple =>
      ∃ v, column.value tuple outer = .ok v ∧ ∃ w ∈ ws, Value.SameElements t v w) := by
  rw [filterTuples]
  refine flatMapE_filter fun tuple htuple => ?_
  obtain ⟨v, hv, ⟨truth, htruth⟩, hiff⟩ :=
    hclause.isTrue_iff h hconf (hfits tuple htuple) htarget helement ht hws
  -- The condition passes what is read as one of the literals; the column has one value in a tuple.
  have hpass : truth = some true ↔ ∃ v, column.value tuple outer = .ok v ∧
      ∃ w ∈ ws, Value.SameElements t v w := by
    rw [Predicate.IsTrue, htruth, Except.ok.injEq] at hiff
    rw [hiff (hfloats tuple htuple v hv)]
    constructor
    · intro hsame
      exact ⟨v, hv, hsame⟩
    · rintro ⟨v', hv', hsame⟩
      rw [Except.ok.inj (hv.symm.trans hv')]
      exact hsame
  rw [htruth]
  show Except.ok (if truth = some true then _ else _) = _
  simp only [hpass, decide_eq_true_eq]

end Conditions

/-! ## Queries for collections -/

/-- What a body that only has a condition on a collection binds and is filtered by. -/
theorem Body.plan_equalsOneOf {c : Catalog} {t : Tables} {b : Body} {planned : PlannedQuery}
    {p : Path} {ws : List Value} {clause : Clause} (hconf : t.Conforms c)
    (h : b.plan c = .ok planned) (hclause : clause.EqualsOneOf p ws)
    (hb : b.statements = [.clause clause]) :
    ∃ g condition column f bound, b.frame? c (itemsRecords (b.selection.getD [])) = some g ∧
      planned.plan.filter = some condition ∧
      clause.PlannedAs c planned.plan.parameters [g] condition ∧
      p.target? c [g] = some (.field column f) ∧
      t.bind planned.plan.entity planned.plan.joins = .ok bound ∧
      ∀ tuple ∈ bound, Tuple.FitAll c t [g] [tuple] := by
  obtain ⟨q, selected, hplan, hplanned, -⟩ := Body.plan_plannedAs h
  rw [hplan]
  cases hplanned with
  | @intro _ _ _ e g ys _ orderBy he hg hys hxs hmix hkeys =>
    -- The body has one clause, planned in the frame of the whole body, which every bound tuple
    -- fits.
    have hbuilt := Body.frame?_built hg
    rw [hb] at hys
    cases hys with
    | @clause _ _ condition _ _ hcondition hrest =>
      cases hrest
      obtain ⟨bound, hbind, hfits⟩ := hconf.bind_fits (hbuilt.sound he)
      rw [hbuilt.entity_eq] at hbind
      obtain ⟨column, f, htarget, -⟩ := hclause.planned hcondition
      exact ⟨g, condition, column, f, bound, hg, rfl, hcondition, htarget, hbind,
        fun tuple htuple => .cons (hfits tuple htuple) .nil⟩

open Classical in
/-- Collections without floats that an attribute may hold can be read, and they are equal just if
they are read as the same elements and are of one kind; they are of different kinds only if one has
64-bit and the other 32-bit integers. Hence that an attribute is equal to a literal, or to one of
several, keeps the tuples where the collection is read as one of the literals and is of its kind, in
nested queries as well as in a whole one. -/
theorem Clause.collections_correct {u : BaseType} {element : ScalarType}
    (hu : u.shape = .array element) :
    (∀ {v w : Value}, (FieldType.array element).accepts v = true →
      (FieldType.array element).accepts w = true → v.hasFloats = false → w.hasFloats = false →
      (∃ xs, u.read? v = some xs) ∧ (∃ ys, u.read? w = some ys) ∧
        (v.equal w = true ↔ Value.SameElements u v w) ∧
        (v.typeName ≠ w.typeName → element = .int64 ∧
          ((∃ xs ys, v = .int32Array xs ∧ w = .int64Array ys) ∨
            ∃ xs ys, v = .int64Array xs ∧ w = .int32Array ys))) ∧
    (∀ {c : Catalog} {s : Source} {parameters : List (String × Value)} {frames : List Frame}
      {outer tuples : List Tuple} {p : Path} {ws : List Value} {clause : Clause}
      {condition : Predicate} {column : Column} {f : Field}, s.tables.Conforms c →
      clause.EqualsOneOf p ws → clause.PlannedAs c parameters frames condition →
      p.target? c frames = some (.field column f) → f.type = .array element →
      (∀ tuple ∈ tuples, Tuple.FitAll c s.tables frames (tuple :: outer)) →
      (∀ w ∈ ws, w.hasFloats = false) →
      (∀ tuple ∈ tuples, ∀ v, column.value tuple outer = .ok v → v.hasFloats = false) →
      filterTuples s outer tuples (some condition) = .ok (tuples.filter fun tuple =>
        ∃ v, column.value tuple outer = .ok v ∧ ∃ w ∈ ws, Value.SameElements u v w)) ∧
    ∀ {c : Catalog} {t : Tables} {b : Body} {planned : PlannedQuery} {p : Path} {ws : List Value}
      {clause : Clause}, t.Conforms c → b.plan c = .ok planned → clause.EqualsOneOf p ws →
      b.statements = [.clause clause] →
      ∃ g column f bound, b.frame? c (itemsRecords (b.selection.getD [])) = some g ∧
        p.target? c [g] = some (.field column f) ∧
        t.bind planned.plan.entity planned.plan.joins = .ok bound ∧
        (f.type = .array element → (∀ w ∈ ws, w.hasFloats = false) →
          (∀ tuple ∈ bound, ∀ v, column.value tuple [] = .ok v → v.hasFloats = false) →
          planned.plan.matching ⟨t, planned.plan.parameters, .insertion⟩ [] =
            .ok (bound.filter fun tuple => ∃ v, column.value tuple [] = .ok v ∧
              ∃ w ∈ ws, Value.SameElements u v w)) := by
  refine ⟨?_, ?_, ?_⟩
  · intro v w hv hw hv' hw'
    have hcollects := BaseType.collects hu (FieldType.acceptsArray_of_accepts rfl hv)
    have hcollects' := BaseType.collects hu (FieldType.acceptsArray_of_accepts rfl hw)
    exact ⟨Value.exists_read_collection hcollects, Value.exists_read_collection hcollects',
      Value.equal_iff_sameElements hcollects hcollects' hv' hw',
      Value.widths_of_typeName_ne hcollects hcollects'⟩
  · intro c s parameters frames outer tuples p ws clause condition column f hconf hclause hplanned
      htarget helement hfits hws hfloats
    exact hclause.filterTuples_eq hplanned hconf hfits htarget helement hu hws hfloats
  · intro c t b planned p ws clause hconf h hclause hb
    obtain ⟨g, condition, column, f, bound, hg, hfilter, hcondition, htarget, hbind, hfits⟩ :=
      Body.plan_equalsOneOf hconf h hclause hb
    refine ⟨g, column, f, bound, hg, htarget, hbind, fun helement hws hfloats => ?_⟩
    -- The filter of the plan is the condition of that one clause.
    rw [Plan.matching, hbind, hfilter]
    exact hclause.filterTuples_eq (s := ⟨t, planned.plan.parameters, .insertion⟩) hcondition hconf hfits htarget
      helement hu hws hfloats

/-- The users with no role, or with the one role of a user. -/
def Sample.plainUsers : Body :=
  Recorder.record "User" fun user =>
    Recorder.clause user (.inList (.path (user.child "roles"))
      [.stringArray [], .stringArray ["USER"]] false)

/-- The roles of users are strings. -/
theorem Sample.roles_target : (⟨1, "User", .root, ["roles"]⟩ : Path).target? Sample.catalog
    [.new 1 "User"] = some (.field ⟨0, 0, "roles"⟩ (.new "roles" (.array .string))) := by
  decide +kernel

theorem Sample.plainUsers_planned :
    ∃ planned bound, plainUsers.plan catalog = .ok planned ∧
      planned.plan.entity = "User" ∧ planned.plan.joins = [] ∧
      tables.bind "User" [] = .ok bound ∧
      ∀ tuple ∈ bound, ∀ v, (⟨0, 0, "roles"⟩ : Column).value tuple [] = .ok v →
        v.hasFloats = false := by
  obtain ⟨planned, h, hplanned⟩ := exists_ok_and (x := plainUsers.plan catalog)
    (p := fun planned => planned.plan.entity == "User" && planned.plan.joins == [])
    (by decide +kernel)
  obtain ⟨bound, hbind, hbound⟩ := exists_ok_and (x := tables.bind "User" [])
    (p := fun bound => bound.all fun tuple =>
      ((⟨0, 0, "roles"⟩ : Column).value tuple []).toOption.all fun v => !v.hasFloats)
    (by decide +kernel)
  simp only [Bool.and_eq_true, beq_iff_eq] at hplanned
  refine ⟨planned, bound, h, hplanned.1, hplanned.2, hbind, fun tuple htuple v hv => ?_⟩
  have hnone := List.all_eq_true.mp hbound tuple htuple
  rw [hv] at hnone
  exact Bool.not_eq_true' _ ▸ hnone

open Classical in
theorem Clause.collections_correct_sample :
    (Value.int32Array [1, 2]).equal (.int32Array [1, 2]) = true ∧
    (Value.int32Array [1, 2]).equal (.int64Array [1, 2]) = false ∧
    (∃ tuples, Sample.tables.bind "User" [] = .ok tuples ∧
      filterTuples ⟨Sample.tables, [], .insertion⟩ [] tuples
          (some (.compare (.column ⟨0, 0, "roles"⟩) .eq (.literal (.stringArray ["USER"])))) =
        .ok (tuples.filter fun tuple => ∃ v, (⟨0, 0, "roles"⟩ : Column).value tuple [] = .ok v ∧
          ∃ w ∈ [.stringArray ["USER"]], Value.SameElements .stringArray v w)) ∧
    ∃ (planned : PlannedQuery) (bound : List Tuple),
      Sample.plainUsers.plan Sample.catalog = .ok planned ∧
      planned.plan.matching ⟨Sample.tables, planned.plan.parameters, .insertion⟩ [] =
        .ok (bound.filter fun tuple => ∃ v, (⟨0, 0, "roles"⟩ : Column).value tuple [] = .ok v ∧
          ∃ w ∈ [.stringArray [], .stringArray ["USER"]],
            Value.SameElements .stringArray v w) := by
  obtain ⟨hvalues, -, -⟩ :=
    collections_correct (show BaseType.int64Array.shape = .array .int64 from rfl)
  obtain ⟨-, hconditions, hbodies⟩ :=
    collections_correct (show BaseType.stringArray.shape = .array .string from rfl)
  obtain ⟨planned, bound, h, hentity, hjoins, hbind, hfloats⟩ := Sample.plainUsers_planned
  obtain ⟨g, column, f, bound', hg, htarget, hbind', hmatching⟩ :=
    hbodies Sample.tables_conforms h .inList rfl
  -- The body joins nothing, so its frame is that of the root alone.
  have hframe : Sample.plainUsers.frame? Sample.catalog
      (itemsRecords (Sample.plainUsers.selection.getD [])) = some (.new 1 "User") := by
    decide +kernel
  cases hg.symm.trans hframe
  cases htarget.symm.trans Sample.roles_target
  rw [hentity, hjoins, hbind] at hbind'
  cases hbind'
  obtain ⟨e, he⟩ : ∃ e, Sample.catalog.entity? "User" = some e := by
    refine Option.isSome_iff_exists.mp ?_
    decide +kernel
  obtain ⟨tuples, htuples, hfits⟩ :=
    Sample.tables_conforms.bind_fits ((Body.frame?_built hframe).sound he)
  cases hbind.symm.trans htuples
  -- The same literal is equal to itself, and one of another width is not.
  obtain ⟨-, -, hsame, -⟩ :=
    hvalues (v := .int32Array [1, 2]) (w := .int32Array [1, 2]) rfl rfl rfl rfl
  obtain ⟨-, -, hwidths, -⟩ :=
    hvalues (v := .int32Array [1, 2]) (w := .int64Array [1, 2]) rfl rfl rfl rfl
  refine ⟨hsame.mpr ⟨rfl, [1, 2], rfl, rfl⟩, Bool.eq_false_iff.mpr fun hequal => ?_,
    ⟨bound, hbind, ?_⟩, planned, bound, h,
    hmatching rfl (by decide) hfloats⟩
  · exact absurd (hwidths.mp hequal).1 (show "int32[]" ≠ "int64[]" by decide)
  · have hplanned : Clause.PlannedAs Sample.catalog [] [.new 1 "User"]
        (.compare (.path ⟨1, "User", .root, ["roles"]⟩) .eq (.literal (.stringArray ["USER"]))) _ :=
      .compare (.path Sample.roles_target) .literal rfl
    exact hconditions Sample.tables_conforms .eq hplanned Sample.roles_target rfl
      (fun tuple htuple => .cons (hfits tuple htuple) .nil) (by decide) hfloats

/-- A collection of 32-bit integers may be stored where 64-bit integers are declared, and is read as
the collection of 64-bit integers that it is not equal to. -/
theorem Value.equal_widths_of_collections :
    (FieldType.array .int64).accepts (.int32Array [1]) = true ∧
      (FieldType.array .int64).accepts (.int64Array [1]) = true ∧
      (int32Array [1]).hasFloats = false ∧ (int64Array [1]).hasFloats = false ∧
      BaseType.int64Array.read? (.int32Array [1]) = some [1] ∧
      BaseType.int64Array.read? (.int64Array [1]) = some [1] ∧
      (int32Array [1]).equal (.int64Array [1]) = false := by
  decide +kernel

end EntityQuery
