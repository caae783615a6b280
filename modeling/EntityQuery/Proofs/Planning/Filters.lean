import EntityQuery.Proofs.Evaluation.Filtering
import EntityQuery.Proofs.Planning.Changes
import EntityQuery.Proofs.Sample
import Mathlib.Logic.Relation

/-!
# Filters of planned bodies

The filter of a planned query or change links the conditions that its clauses are planned as. Hence it
keeps what `Statement.Holds` says, and markers that link nothing do not show in it: a body without
them is planned in the very same way, errors included.
-/

namespace EntityQuery

/-! ## Redundant markers -/

namespace Statement

variable {α : Type} {xs ys : List (Statement α)}

/-- Statements with a marker that links nothing, and the same without it. -/
inductive Redundant : List (Statement α) → List (Statement α) → Prop
  | leading (xs : List (Statement α)) : Redundant (.or :: xs) xs
  | trailing (xs : List (Statement α)) : Redundant (xs ++ [.or]) xs
  | repeated (xs ys : List (Statement α)) :
      Redundant (xs ++ .or :: .or :: ys) (xs ++ .or :: ys)

/-- What links the first clause does not count. -/
theorem fold_tagFrom (and or : α → α → α) (next : Connective) (xs : List (Statement α)) :
    fold and or (tagFrom next xs) = combine and or xs := by
  cases xs with
  | nil => rfl
  | cons x xs =>
    cases x with
    | or => rfl
    | clause c => rfl

theorem Redundant.combine_eq (h : Redundant xs ys) (and or : α → α → α) :
    combine and or xs = combine and or ys := by
  cases h with
  | leading => exact fold_tagFrom and or .or ys
  | trailing => exact combine_append_or and or ys
  | repeated xs ys => simp only [combine, tag, tagFrom_append, tagFrom]

end Statement

section Planning

variable {c : Catalog} {entity : String}

/-- Steps that agree on an image of their results are followed alike by what depends on the image. -/
theorem Planner.bind_congr_of_map {α β γ : Type} {f : α → γ} {x y : Planner α}
    {k l : α → Planner β} (h : f <$> x = f <$> y) (hkl : ∀ a b, f a = f b → k a = l b) :
    x >>= k = y >>= l := by
  refine StateT.ext fun s => ?_
  -- What both steps end in agrees up to the image.
  have hs : (fun r => (f r.1, r.2)) <$> x.run s = (fun r => (f r.1, r.2)) <$> y.run s := by
    rw [← StateT.run_map, ← StateT.run_map, h]
  rw [StateT.run_bind, StateT.run_bind]
  cases hx : x.run s with
  | error e =>
    cases hy : y.run s with
    | error e' =>
      rw [hx, hy] at hs
      cases hs
      rfl
    | ok r =>
      rw [hx, hy] at hs
      cases hs
  | ok r =>
    cases hy : y.run s with
    | error e =>
      rw [hx, hy] at hs
      cases hs
    | ok r' =>
      rw [hx, hy] at hs
      obtain ⟨hf, hstate⟩ := Prod.mk.inj (Except.ok.inj hs)
      show (k r.1).run r.2 = (l r'.1).run r'.2
      rw [hkl _ _ hf, hstate]

/-- Statements are planned from left to right. -/
theorem planStatements_append (xs ys : List (Statement Clause)) :
    planStatements c entity (xs ++ ys) = do
      let ps ← planStatements c entity xs
      let qs ← planStatements c entity ys
      return ps ++ qs := by
  induction xs with
  | nil => simp [planStatements]
  | cons x xs ih => simp [planStatements, ih]

theorem planStatements_or_cons (xs : List (Statement Clause)) :
    planStatements c entity (.or :: xs) = (.or :: ·) <$> planStatements c entity xs := by
  simp [planStatements, planStatement]

/-- A redundant marker is planned to a redundant marker. -/
theorem planStatements_redundant {xs ys : List (Statement Clause)} (h : Statement.Redundant xs ys) :
    Statement.combine .and .or <$> planStatements c entity xs =
      Statement.combine .and .or <$> planStatements c entity ys := by
  have hcombine : ∀ {ps qs : List (Statement Predicate)}, Statement.Redundant ps qs →
      Statement.combine .and .or ps = Statement.combine .and .or qs :=
    fun h => h.combine_eq _ _
  cases h with
  | leading =>
    rw [planStatements_or_cons, Functor.map_map]
    simp only [hcombine (.leading _)]
  | trailing =>
    have hor : planStatements c entity [.or] = pure [.or] := by
      rw [planStatements_or_cons, planStatements, map_pure]
    rw [planStatements_append, hor]
    simp only [pure_bind, map_bind, map_pure, hcombine (.trailing _)]
    rw [bind_pure_comp]
  | repeated xs ys =>
    simp only [planStatements_append, planStatements_or_cons, map_bind, map_pure, bind_map_left,
      hcombine (.repeated _ _)]

/-- Mapping what a scope gives is mapping what the step in it gives. -/
theorem Planner.inScope_map {α β : Type} (frame : Frame) (f : α → β) (step : Planner α) :
    inScope frame (f <$> step) = (fun r => (f r.1, r.2)) <$> inScope frame step := by
  simp only [inScope, map_eq_pure_bind, bind_assoc, pure_bind]
  refine bind_congr fun _ => bind_congr fun a => bind_congr fun s => ?_
  split
  · rfl
  · simp only [bind_assoc, pure_bind]

/-- How a clause is planned at some point of planning. -/
def Clause.IsPlanned (c : Catalog) (entity : String) (clause : Clause) (p : Predicate) : Prop :=
  ∃ s s', (clause.plan c entity).run s = .ok (p, s')

theorem run_planStatements_rel {xs : List (Statement Clause)} {ys : List (Statement Predicate)}
    {s s' : Scopes} (h : (planStatements c entity xs).run s = .ok (ys, s')) :
    List.Forall₂ (Statement.Rel (Clause.IsPlanned c entity)) xs ys := by
  induction xs generalizing s ys with
  | nil =>
    obtain ⟨rfl, -⟩ := run_planStatements_nil_ok.mp h
    exact .nil
  | cons x xs ih =>
    cases x with
    | or =>
      obtain ⟨ys', hxs, rfl⟩ := run_planStatements_or_ok.mp h
      exact .cons .or (ih hxs)
    | clause clause =>
      obtain ⟨p, s₁, ys', hx, hxs, rfl⟩ := run_planStatements_clause_ok.mp h
      exact .cons (.clause ⟨s, s₁, hx⟩) (ih hxs)

end Planning

namespace Body

variable {c : Catalog} {b : Body} {xs ys : List (Statement Clause)}

theorem planScope_redundant (h : Statement.Redundant xs ys) (returns : Option Returned) :
    planScope c returns { b with statements := xs } =
      planScope c returns { b with statements := ys } := by
  obtain ⟨scope, entity, statements, joins, selection, orderBy, distinct, assignments⟩ := b
  have hplan : Statement.combine .and .or <$> planStatements c entity xs =
      Statement.combine .and .or <$> planStatements c entity ys := planStatements_redundant h
  rw [planScope, planScope]
  -- Only the condition that the statements make up is used behind them.
  refine bind_congr fun _ => congrArg (Planner.inScope _ · >>= _) (bind_congr fun _ => ?_)
  refine Planner.bind_congr_of_map hplan fun ps qs hpq => ?_
  simp only [hpq]

theorem changeFilter_redundant (h : Statement.Redundant xs ys) :
    Planner.changeFilter c { b with statements := xs } =
      Planner.changeFilter c { b with statements := ys } := by
  have hplan : Statement.combine .and .or <$> planStatements c b.entity xs =
      Statement.combine .and .or <$> planStatements c b.entity ys := planStatements_redundant h
  have hscope := congrArg (Planner.inScope (.new b.scope b.entity)) hplan
  rw [Planner.inScope_map, Planner.inScope_map] at hscope
  refine Planner.bind_congr_of_map hscope fun r r' hr => ?_
  obtain ⟨hcombine, hframe⟩ := Prod.mk.inj hr
  simp only [hcombine, hframe]

/-- Bodies that differ by redundant markers are planned alike, as queries and as changes. -/
theorem plan_redundant (h : Relation.EqvGen Statement.Redundant xs ys) :
    (∀ returns, planScope c returns { b with statements := xs } =
      planScope c returns { b with statements := ys }) ∧
    plan c { b with statements := xs } = plan c { b with statements := ys } ∧
    planChange c { b with statements := xs } = planChange c { b with statements := ys } := by
  induction h with
  | rel xs ys h =>
    refine ⟨planScope_redundant h, ?_, ?_⟩
    · rw [plan, plan, planScope_redundant h]
    · rw [planChange, planChange, changeFilter_redundant h]
  | refl xs => exact ⟨fun _ => rfl, rfl, rfl⟩
  | symm xs ys _ ih => exact ⟨fun r => (ih.1 r).symm, ih.2.1.symm, ih.2.2.symm⟩
  | trans xs ys zs _ _ ih ih' =>
    exact ⟨fun r => (ih.1 r).trans (ih'.1 r), ih.2.1.trans ih'.2.1, ih.2.2.trans ih'.2.2⟩

/-! ## Filters -/

/-- The filter that a body is planned to have: as a query, as a query nested in others, or as an
update or delete. -/
inductive HasFilter (c : Catalog) (b : Body) : Option Predicate → Prop
  | query {planned : PlannedQuery} : b.plan c = .ok planned → HasFilter c b planned.plan.filter
  | nested {returns : Option Returned} {s s' : Scopes} {q : PlannedQuery} :
      (b.planScope c returns).run s = .ok (q, s') → HasFilter c b q.plan.filter
  | change {parts : ChangeParts} : b.planChange c = .ok parts → HasFilter c b parts.filter

/-- A filter links the conditions that the clauses are planned as. -/
theorem HasFilter.exists_statements {filter : Option Predicate} (h : b.HasFilter c filter) :
    ∃ ps, List.Forall₂ (Statement.Rel (Clause.IsPlanned c b.entity)) b.statements ps ∧
      filter = Statement.combine .and .or ps := by
  -- A query is planned as a nested one in no scope.
  have hnested : ∀ {returns s s' q}, (b.planScope c returns).run s = .ok (q, s') →
      ∃ ps, List.Forall₂ (Statement.Rel (Clause.IsPlanned c b.entity)) b.statements ps ∧
        q.plan.filter = Statement.combine .and .or ps := by
    intro returns s s' q hrun
    obtain ⟨_, _, ps, _, _, _, _, _, _, _, _, hps, _, _, _, hplan, _⟩ := run_planScope_ok hrun
    refine ⟨ps, run_planStatements_rel hps, ?_⟩
    rw [hplan]
    rfl
  cases h with
  | query hplan =>
    obtain ⟨q, s, hrun, rfl⟩ := plan_ok.mp hplan
    obtain ⟨ps, hps, hcombine⟩ := hnested hrun
    exact ⟨ps, hps, hcombine⟩
  | nested hrun => exact hnested hrun
  | change hplan =>
    obtain ⟨_, _, _, _, _, hfilter, _⟩ := planChange_ok hplan
    obtain ⟨ps, g, hps, _, hcombine⟩ := Planner.run_changeFilter_ok.mp hfilter
    exact ⟨ps, run_planStatements_rel hps, hcombine⟩

open Classical in
/-- The filter of a body is true, where no planned clause fails, if and only if some clause that opens
a group is true with all later clauses that open none; without clauses it keeps every row. Markers
that lead, trail or repeat each other change nothing in any plan, and without markers exactly the rows
are kept of which all clauses are true. -/
theorem filter_correct (c : Catalog) (b : Body) :
    (∀ filter, b.HasFilter c filter → ∃ ps,
      List.Forall₂ (Statement.Rel (Clause.IsPlanned c b.entity)) b.statements ps ∧
      filter = Statement.combine .and .or ps ∧
      (∀ p s tuple outer, filter = some p →
        (∀ q, .clause q ∈ ps → q.Evaluates s tuple outer) →
        p.Evaluates s tuple outer ∧
          (p.IsTrue s tuple outer ↔ Statement.Holds (Predicate.IsTrue s tuple outer) ps)) ∧
      ∀ s outer tuples, (∀ tuple ∈ tuples, ∀ q, .clause q ∈ ps → q.Evaluates s tuple outer) →
        filterTuples s outer tuples filter = .ok (tuples.filter fun tuple =>
          Statement.Holds (Predicate.IsTrue s tuple outer) ps) ∧
        (.or ∉ b.statements → filterTuples s outer tuples filter = .ok (tuples.filter fun tuple =>
          ∀ q, .clause q ∈ ps → q.IsTrue s tuple outer))) ∧
    ∀ xs, Relation.EqvGen Statement.Redundant b.statements xs →
      (∀ returns, planScope c returns { b with statements := xs } = b.planScope c returns) ∧
      plan c { b with statements := xs } = b.plan c ∧
      planChange c { b with statements := xs } = b.planChange c := by
  refine ⟨fun filter hfilter => ?_, fun xs hxs => ?redundant⟩
  case redundant =>
    cases b
    exact plan_redundant hxs.symm
  obtain ⟨ps, hps, rfl⟩ := hfilter.exists_statements
  refine ⟨ps, hps, rfl, fun p s tuple outer hp hevaluates =>
    Predicate.combine_isTrue_iff hevaluates hp, fun s outer tuples hevaluates => ?_⟩
  have hkept := filterTuples_combine hevaluates
  refine ⟨hkept, fun hunmarked => ?_⟩
  -- Markers are planned to markers, so there is none among the conditions either.
  have hor : .or ∉ ps := by
    intro hmem
    obtain ⟨i, hi⟩ := List.mem_iff_getElem?.mp hmem
    obtain ⟨x, hx, hrel⟩ := forall₂_getElem? hps.flip hi
    cases hrel
    exact hunmarked (List.mem_of_getElem? hx)
  simpa only [Statement.holds_of_unmarked hor] using hkept

end Body

namespace Sample

/-- A condition that is unknown of every row. -/
def unknown : Clause := .compare (.literal .null) .eq (.literal (.int32 1))

/-- A condition that is true of every row. -/
def certain : Clause := .compare (.literal (.int32 0)) .lt (.literal (.int32 1))

/-- A condition that is true of two users, false of others, and unknown of one. -/
def sameLogin : Clause :=
  .compare (.path ⟨1, "User", .root, ["login"]⟩) .eq (.literal (.string "aaa"))

/-- The unknown condition and the certain one, or the same login. -/
def alternatives : Body :=
  { Body.empty 1 "User" with
    statements := [.clause unknown, .clause certain, .or, .clause sameLogin] }

/-- The same with markers that link nothing. -/
def markedAlternatives : Body :=
  { alternatives with statements :=
      [.or, .clause unknown, .clause certain, .or, .or, .clause sameLogin, .or] }

theorem markedAlternatives_plan :
    markedAlternatives.plan catalog = .ok ⟨{ Plan.all "User" with
      filter := some (.or
        (.and (.compare (.literal .null) .eq (.literal (.int32 1)))
          (.compare (.literal (.int32 0)) .lt (.literal (.int32 1))))
        (.compare (.column ⟨0, 0, "login"⟩) .eq (.literal (.string "aaa")))) },
      [.record "User"], [.unknown]⟩ :=
  rfl

def userTuples : List Tuple :=
  userRecords.map fun r => [some r]

end Sample

open Classical in
/-- Among markers of which all but one are redundant, an unknown condition and a certain one have the
same login as their alternative: of the five users the two with that login are kept. -/
theorem Body.filter_correct_sample :
    (∃ planned ps, Sample.markedAlternatives.plan Sample.catalog = .ok planned ∧
      planned.plan.filter = Statement.combine .and .or ps ∧
      filterTuples ⟨Sample.tables, [], .insertion⟩ [] Sample.userTuples planned.plan.filter =
        .ok [[Sample.userRecords[1]?], [Sample.userRecords[3]?]] ∧
      Sample.userTuples.filter (fun tuple =>
          Statement.Holds (Predicate.IsTrue ⟨Sample.tables, [], .insertion⟩ tuple []) ps) =
        [[Sample.userRecords[1]?], [Sample.userRecords[3]?]]) ∧
    Sample.alternatives.plan Sample.catalog = Sample.markedAlternatives.plan Sample.catalog := by
  obtain ⟨hfilter, hredundant⟩ := filter_correct Sample.catalog Sample.markedAlternatives
  have hplan := Sample.markedAlternatives_plan
  constructor
  · obtain ⟨ps, hps, hcombine, -, hkept⟩ := hfilter _ (.query hplan)
    -- The filter determines what the clauses are planned as.
    rcases hps with _ | ⟨⟨⟩, _ | ⟨⟨⟩, _ | ⟨⟨⟩, _ | ⟨⟨⟩, _ | ⟨⟨⟩, _ | ⟨⟨⟩, _ | ⟨⟨⟩, ⟨⟩⟩⟩⟩⟩⟩⟩⟩
    obtain ⟨⟨rfl, rfl⟩, rfl⟩ := Predicate.or.inj (Option.some.inj hcombine)
    have hfiltered : filterTuples ⟨Sample.tables, [], .insertion⟩ [] Sample.userTuples
        (some (.or (.and (.compare (.literal .null) .eq (.literal (.int32 1)))
          (.compare (.literal (.int32 0)) .lt (.literal (.int32 1))))
          (.compare (.column ⟨0, 0, "login"⟩) .eq (.literal (.string "aaa"))))) =
        .ok [[Sample.userRecords[1]?], [Sample.userRecords[3]?]] :=
      Sample.eq_ok (by decide +kernel)
    have hkept := hkept ⟨Sample.tables, [], .insertion⟩ [] Sample.userTuples ?evaluates
    · exact ⟨_, _, hplan, hcombine, hfiltered,
        Except.ok.inj (hkept.1.symm.trans hfiltered)⟩
    · intro tuple htuple q hq
      obtain ⟨r, -, rfl⟩ := List.mem_map.mp htuple
      simp only [List.mem_cons, reduceCtorEq, Statement.clause.injEq, List.not_mem_nil, or_false,
        false_or] at hq
      obtain rfl | rfl | rfl := hq
      · exact ⟨_, rfl⟩
      · exact ⟨_, rfl⟩
      · exact ⟨_, rfl⟩
  · exact (hredundant _ (.trans _ _ _ (.rel _ _ (.leading _)) (.trans _ _ _
      (.rel _ _ (.trailing [.clause Sample.unknown, .clause Sample.certain, .or, .or,
        .clause Sample.sameLogin]))
      (.rel _ _ (.repeated [.clause Sample.unknown, .clause Sample.certain]
        [.clause Sample.sameLogin]))))).2.1

end EntityQuery
