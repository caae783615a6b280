import EntityQuery.Proofs.Evaluation.KeyOrder
import EntityQuery.Proofs.Meaning.Agreement
import EntityQuery.Proofs.Meaning.Congruence
import EntityQuery.Proofs.Meaning.Joining
import EntityQuery.Proofs.Planning.Parameters
import EntityQuery.Proofs.Statement.Grouping

/-!
# One more condition

A body may ask for one more condition on its root. It binds what it has been binding, and keeps of that the
tuples that it has been keeping and for which the condition is true.
-/

namespace EntityQuery

/-! ## Bodies with one more clause -/

namespace Statement

variable {α β : Type}

/-- Statements without the markers behind their last clause. -/
def trimmed (xs : List (Statement α)) : List (Statement α) :=
  xs.rdropWhile fun x => match x with
    | .or => true
    | .clause _ => false

theorem trimmed_append_or (xs : List (Statement α)) : trimmed (xs ++ [.or]) = trimmed xs :=
  List.rdropWhile_concat_pos _ _ _ rfl

theorem trimmed_append_clause (xs : List (Statement α)) (a : α) :
    trimmed (xs ++ [.clause a]) = xs ++ [.clause a] :=
  List.rdropWhile_concat_neg _ _ _ Bool.false_ne_true

theorem trimmed_flatMap {f : Statement α → List β} (hor : f .or = []) (xs : List (Statement α)) :
    (trimmed xs).flatMap f = xs.flatMap f := by
  induction xs using List.reverseRecOn with
  | nil => rfl
  | append_singleton xs x ih =>
    cases x with
    | or => rw [trimmed_append_or, ih, List.flatMap_append, List.flatMap_singleton, hor, List.append_nil]
    | clause a => rw [trimmed_append_clause]

end Statement

/-- A body with one more condition. A marker that waits for a clause would make it an alternative, and is
dropped. -/
def Body.withClause (b : Body) (x : Clause) : Body :=
  { b with statements := Statement.trimmed b.statements ++ [.clause x] }

theorem statementsMeaning_eq (c : Catalog) (s : Source) (xs : List (Statement Clause)) :
    statementsMeaning c s xs = xs.map (statementMeaning c s) := by
  induction xs with
  | nil => rfl
  | cons x xs ih => rw [statementsMeaning, ih, List.map_cons]

/-- The condition that the statements of a body make up. -/
def Body.condition (c : Catalog) (s : Source) (b : Body) : Option Condition :=
  Statement.combine .and .or (statementsMeaning c s b.statements)

theorem Statement.combine_trimmed (c : Catalog) (s : Source) (xs : List (Statement Clause)) :
    combine Condition.and Condition.or (statementsMeaning c s (trimmed xs)) =
      combine Condition.and Condition.or (statementsMeaning c s xs) := by
  induction xs using List.reverseRecOn with
  | nil => rfl
  | append_singleton xs x ih =>
    cases x with
    | or =>
      rw [trimmed_append_or, ih, statementsMeaning_eq, statementsMeaning_eq, List.map_append]
      exact (combine_append_or _ _ _).symm
    | clause a => rw [trimmed_append_clause]

theorem Statement.linkAfter_trimmed (c : Catalog) (s : Source) (xs : List (Statement Clause)) :
    linkAfter .and (statementsMeaning c s (trimmed xs)) = .and := by
  induction xs using List.reverseRecOn with
  | nil => rfl
  | append_singleton xs x ih =>
    cases x with
    | or => rw [trimmed_append_or, ih]
    | clause a =>
      rw [trimmed_append_clause, statementsMeaning_eq, List.map_append, linkAfter_append]
      rfl

/-- The root of a body as a path. -/
def Body.rootPath (b : Body) : Path :=
  ⟨b.scope, b.entity, .root, []⟩

section Clauses

variable {c : Catalog} {s : Source} {b : Body} {x : Clause} {env env' : Environment}

/-- What passes one more clause passes those before it, and the clause. -/
theorem Body.passes_withClause :
    Condition.Passes ((b.withClause x).condition c s) env ↔
      Condition.Passes (b.condition c s) env ∧ x.meaning c s env = .ok (some true) := by
  have hstatements : statementsMeaning c s (b.withClause x).statements =
      statementsMeaning c s (Statement.trimmed b.statements) ++ [.clause (x.meaning c s)] := by
    rw [statementsMeaning_eq, statementsMeaning_eq, withClause, List.map_append]
    rfl
  unfold condition Condition.Passes
  rw [hstatements, Statement.combine_append_clause, Statement.linkAfter_trimmed,
    Statement.combine_trimmed]
  cases Statement.combine Condition.and Condition.or (statementsMeaning c s b.statements) with
  | none => simp
  | some p => simpa [Statement.link] using Condition.and_eq_true

/-- The statements of a body are as true where its records are the same. -/
theorem Body.passes_same {items : List Path} (h : env.Same (b.records items) env') :
    Condition.Passes (b.condition c s) env ↔ Condition.Passes (b.condition c s) env' := by
  have hstatements : ∀ p ∈ statementsRecords b.statements, p.OnWayTo (b.records items) := by
    intro p hp
    rw [records_eq]
    exact .of_mem (List.mem_append_left _ (List.mem_append_left _ hp))
  have hs : s.Like Eq s := ⟨rfl, fun _ => .refl _⟩
  have hsame := combine_same
    (statementsMeaning_same (c := c) Value.congruence_eq hs b.statements hstatements)
  unfold condition
  generalize Statement.combine Condition.and Condition.or (statementsMeaning c s b.statements) = p
    at hsame
  cases hsame with
  | none => simp [Condition.Passes]
  | some hp => simp [Condition.Passes, hp env env' h]

theorem Layout.bindOwn_append (c : Catalog) (scope : Nat) (l : Layout) (ps qs : List Path) :
    l.bindOwn c scope (ps ++ qs) = (l.bindOwn c scope ps).bindOwn c scope qs := by
  induction ps generalizing l with
  | nil => rfl
  | cons p ps ih =>
    rw [List.cons_append, bindOwn, bindOwn]
    split
    · exact ih _
    · exact ih l

theorem Layout.bindOwn_rootPath (c : Catalog) (l : Layout) (b : Body) :
    l.bindOwn c b.scope [b.rootPath] = l := by
  rw [bindOwn, if_pos (show b.scope = b.rootPath.scope from rfl)]
  show l.bindFrom c .root [] = l
  rw [bindFrom]
  split
  · rfl
  · rfl

theorem Body.records_withClause (items : List Path) :
    (b.withClause x).records items = statementsRecords b.statements ++ (x.records ++ (items ++
      b.orderBy.flatMap OrderTerm.records)) := by
  rw [records_eq, withClause, statementsRecords_eq, statementsRecords_eq, List.flatMap_append,
    Statement.trimmed_flatMap (by rw [statementRecords])]
  simp [statementRecords]

/-- A clause on the root alone joins nothing. -/
theorem Body.layout_withClause (hx : x.records = [b.rootPath]) (items : List Path) :
    (b.withClause x).layout c items = b.layout c items := by
  show (b.declared c).bindOwn c b.scope ((b.withClause x).records items) =
    (b.declared c).bindOwn c b.scope (b.records items)
  rw [records_withClause, hx, records_eq, List.append_assoc, Layout.bindOwn_append,
    Layout.bindOwn_append _ _ _ [b.rootPath], Layout.bindOwn_rootPath, ← Layout.bindOwn_append]

theorem Body.parameters_withClause (hx : x.parameters = []) (items : List (String × Value)) :
    (b.withClause x).parameters items = b.parameters items := by
  rw [parameters_eq, parameters_eq, withClause, statementsParameters_eq, statementsParameters_eq,
    List.flatMap_append, Statement.trimmed_flatMap (by rw [statementParameters])]
  simp [statementParameters, hx]

end Clauses

/-! ## Tuples of planned bodies -/

/-- The environment that a tuple of a body makes up. -/
def Body.environment (c : Catalog) (b : Body) (items : List Path) (tuple : NamedTuple) : Environment :=
  [(b.scope, ⟨b.layout c items, tuple⟩)]

/-- The records that the selection of a body reads. -/
def Body.selectedRecords (b : Body) : List Path :=
  itemsRecords (b.selection.getD [])

/-- A body is planned, and its plan gives these tuples that match its filter. -/
def Body.Binds (c : Catalog) (t : Tables) (b : Body) (tuples : List Tuple) : Prop :=
  ∃ planned, b.plan c = .ok planned ∧
    planned.plan.matching ⟨t, planned.plan.parameters, .insertion⟩ [] = .ok tuples

/-- A record is at the root of one of the tuples. -/
def Record.OccursIn (root : Record) (tuples : List Tuple) : Prop :=
  ∃ tuple ∈ tuples, tuple[0]? = some (some root)

section Tuples

variable {c : Catalog} {t : Tables} {b : Body} {x : Clause} {planned : PlannedQuery}
  {tuples tested : List Tuple}

open Classical in
/-- The tuples that match are those that are bound by name and pass what the statements mean. -/
theorem Body.matching_aligns (hplan : b.plan c = .ok planned)
    (hmatching : planned.plan.matching ⟨t, planned.plan.parameters, .insertion⟩ [] = .ok tuples) :
    ∃ g named, b.frame? c b.selectedRecords = some g ∧
      (b.layout c b.selectedRecords).bind t = .ok named ∧
      List.Forall₂ (fun x tuple => Scene.Aligns ⟨b.layout c b.selectedRecords, x⟩ g tuple)
        (named.filter fun x => Condition.Passes (b.condition c ⟨t, planned.plan.parameters, .insertion⟩)
          (b.environment c b.selectedRecords x)) tuples := by
  obtain ⟨q, selected, hq, hplanned, -⟩ := Body.plan_plannedAs hplan
  rw [hq] at hmatching
  generalize planned.plan.parameters = parameters at hplanned hmatching ⊢
  obtain ⟨bound, hbound, hkept⟩ := bind_eq_ok.mp hmatching
  cases hplanned with
  | @intro _ _ _ _ g ys _ orderBy he hg hys hxs hmix hkeys =>
    have hbuilt := Body.frame?_built hg
    have hsound := hbuilt.sound he
    have hbind := ((Body.layout_names hg).bind (t := t) hsound).symm
    rw [hbuilt.entity_eq, show t.bind b.entity g.joins = .ok bound from hbound] at hbind
    obtain ⟨named, hnamed, hall⟩ := hbind.of_ok
    have haligned : AlignedAll c [g] [] (named.map (b.environment c b.selectedRecords)) bound := by
      unfold AlignedAll
      rw [List.forall₂_map_left_iff]
      refine hall.imp fun x tuple h => ?_
      rw [Body.environment, ← hbuilt.scope_eq]
      exact .cons hsound h .nil
    -- The filter keeps the same tuples on both sides.
    have hkeep := (haligned.keep (s := ⟨t, parameters, .insertion⟩) (Body.statements_agree ⟨rfl, fun _ _ h => h, rfl⟩ b)
      hys).symm
    rw [show filterTuples ⟨t, parameters, .insertion⟩ [] bound (Statement.combine .and .or ys) = .ok tuples from
      hkept] at hkeep
    obtain ⟨kept, hkept, haligned⟩ := hkeep.of_ok
    refine ⟨g, named, hg, hnamed, ?_⟩
    rw [Condition.keep_eq hkept, List.filter_map] at haligned
    refine (List.forall₂_map_left_iff.mp haligned).imp fun x tuple h => ?_
    rw [Body.environment, ← hbuilt.scope_eq] at h
    cases h with
    | cons _ haligns _ => exact haligns

/-- Bodies with the same parameters have plans with the same ones. -/
theorem Body.parameters_of_plan {b' : Body} {planned' : PlannedQuery} (h : b.plan c = .ok planned)
    (h' : b'.plan c = .ok planned')
    (heq : b.parameters (itemsParameters (b.selection.getD [])) =
      b'.parameters (itemsParameters (b'.selection.getD []))) :
    planned.plan.parameters = planned'.plan.parameters := by
  have hbound := plan_parameters h
  rw [heq, plan_parameters h'] at hbound
  exact (Option.some.inj hbound).symm

/-- A record at the root of a tuple by name, and of a tuple that belongs to it. -/
theorem Scene.Aligns.root {l : Layout} {g : Frame} {x : NamedTuple} {tuple : Tuple}
    (h : Scene.Aligns ⟨l, x⟩ g tuple) : tuple[0]? = some (NamedTuple.reading x .root) :=
  h.record (Layout.number?_root _)

open Classical in
/-- A body with a test of its root has the tuples of the body for which the test is true. -/
theorem Body.tested_named (hrecords : x.records = [b.rootPath])
    (hplan : (b.withClause x).plan c = .ok planned)
    (hmatching : planned.plan.matching ⟨t, planned.plan.parameters, .insertion⟩ [] = .ok tested) :
    ∃ named, (b.layout c b.selectedRecords).bind t = .ok named ∧ ∀ root,
      root.OccursIn tested ↔
        ∃ y ∈ named, NamedTuple.reading y .root = some root ∧
          Condition.Passes (b.condition c ⟨t, planned.plan.parameters, .insertion⟩)
            (b.environment c b.selectedRecords y) ∧
          x.meaning c ⟨t, planned.plan.parameters, .insertion⟩ (b.environment c b.selectedRecords y) =
            .ok (some true) := by
  obtain ⟨g, named, -, hnamed, hall⟩ := matching_aligns hplan hmatching
  -- A test of the root opens no further hop.
  have hlayout : (b.withClause x).layout c (b.withClause x).selectedRecords =
      b.layout c b.selectedRecords := layout_withClause hrecords _
  have henv : ∀ y, (b.withClause x).environment c (b.withClause x).selectedRecords y =
      b.environment c b.selectedRecords y := by
    intro y
    rw [environment, hlayout]
    rfl
  rw [hlayout] at hnamed
  simp only [henv, passes_withClause] at hall
  refine ⟨named, hnamed, fun root => ⟨?_, ?_⟩⟩
  · -- The passing tuples are aligned with the matched ones, one by one and in both directions.
    rintro ⟨tuple, htuple, hroot⟩
    obtain ⟨y, hy, haligns⟩ := forall₂_mem hall.flip htuple
    rw [List.mem_filter, decide_eq_true_iff] at hy
    rw [haligns.root] at hroot
    exact ⟨y, hy.1, Option.some.inj hroot, hy.2⟩
  · rintro ⟨y, hy, hroot, hpasses⟩
    obtain ⟨tuple, htuple, haligns⟩ :=
      forall₂_mem hall (List.mem_filter.mpr ⟨hy, decide_eq_true hpasses⟩)
    exact ⟨tuple, htuple, by rw [haligns.root, hroot]⟩

end Tuples

end EntityQuery
