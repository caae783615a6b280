import EntityQuery.Proofs.Meaning.Agreement
import EntityQuery.Proofs.Meaning.Congruence
import EntityQuery.Proofs.Meaning.Joining
import EntityQuery.Proofs.Planning.Reordering
import EntityQuery.Proofs.Sample
import EntityQuery.Proofs.Statement.Grouping

/-!
# Bodies in another order

Without a marker the order of its clauses does not matter to a body. The implicit joins come in another
order and get other numbers, but the same records are bound together, the same clauses are read in them,
and all must be true.
-/

namespace EntityQuery

section Answers

variable {c : Catalog} {R : Value → Value → Prop} {s s' : Source}

/-- Tuples of reordered layouts with one reading make up scenes in which all paths lead to the same
records. -/
theorem Layout.Reordered.same {l l' : Layout} (h : l.Reordered c l') {tuple tuple' : NamedTuple}
    (htuple : NamedTuple.reading tuple = NamedTuple.reading tuple') (scope : Nat) (ps : List Path) :
    Environment.Same ps [(scope, ⟨l, tuple⟩)] [(scope, ⟨l', tuple'⟩)] := by
  have hrecord : ∀ a, Scene.record ⟨l, tuple⟩ a = Scene.record ⟨l', tuple'⟩ a := congrFun htuple
  refine ⟨fun _ => ?_, fun _ => ?_, hrecord .root⟩
  · unfold Environment.record
    rw [List.lookup_cons, List.lookup_cons]
    split
    · simp only [Option.bind_some, hrecord, h.follow]
    · rfl
  · unfold Environment.entity?
    rw [List.lookup_cons, List.lookup_cons]
    split
    · simp only [Option.bind_some, h.entity?_eq, h.follow]
    · rfl

/-- All clauses are true in an environment. -/
def AllTrue (c : Catalog) (s : Source) (xs : List (Statement Clause)) (env : Environment) : Prop :=
  ∀ clause, .clause clause ∈ xs → clause.meaning c s env = .ok (some true)

theorem mem_statementsMeaning {xs : List (Statement Clause)} {x : Statement Condition} :
    x ∈ statementsMeaning c s xs ↔ ∃ y ∈ xs, statementMeaning c s y = x := by
  induction xs with
  | nil => simp [statementsMeaning]
  | cons y xs ih => rw [statementsMeaning, List.mem_cons, ih]; simp [eq_comm]

open Classical in
/-- Without a marker the environments in which all clauses are true are kept. -/
theorem keep_unmarked {xs : List (Statement Clause)} {envs kept : List Environment}
    (hunmarked : .or ∉ xs)
    (h : Condition.keep (Statement.combine .and .or (statementsMeaning c s xs)) envs = .ok kept) :
    kept = envs.filter fun env => AllTrue c s xs env := by
  have hor : .or ∉ statementsMeaning c s xs := by
    intro hmem
    obtain ⟨y, hy, heq⟩ := mem_statementsMeaning.mp hmem
    cases y with
    | or => exact hunmarked hy
    | clause clause => cases heq
  -- The statements' meanings are those of the clauses, in the same order.
  have hclauses : ∀ env, AllTrue c s xs env ↔
      ∀ p, .clause p ∈ statementsMeaning c s xs → p env = .ok (some true) := by
    intro env
    constructor
    · intro hall p hp
      obtain ⟨y, hy, heq⟩ := mem_statementsMeaning.mp hp
      cases y with
      | or => cases heq
      | clause clause =>
        cases heq
        exact hall clause hy
    · intro hall clause hclause
      exact hall _ (mem_statementsMeaning.mpr ⟨_, hclause, rfl⟩)
  cases hcombine : Statement.combine Condition.and Condition.or (statementsMeaning c s xs) with
  | none =>
    rw [hcombine] at h
    cases h
    -- Without a condition there is no clause, so all are true.
    have hnone := (Statement.combine_eq_none_iff _ _).mp hcombine
    refine (List.filter_eq_self.mpr fun env _ => decide_eq_true ?_).symm
    exact (hclauses env).mpr fun p hp => absurd hp (hnone p)
  | some p =>
    have hp : ∀ env, p env = .ok (some true) ↔ AllTrue c s xs env := by
      intro env
      rw [hclauses]
      exact Statement.combine_iff_of_unmarked (T := fun p : Condition => p env = .ok (some true))
        (fun _ _ => Condition.and_eq_true) hor hcombine
    rw [hcombine] at h
    rw [keep_some h]
    simp only [hp]

/-- The order of the clauses does not matter to whether all of them are true. -/
theorem allTrue_congr (hR : Value.Congruence R) (hs : s.Like R s') {xs ys : List (Statement Clause)}
    (hperm : xs.Perm ys) {env env' : Environment} (henv : env.Same (statementsRecords xs) env') :
    AllTrue c s xs env ↔ AllTrue c s' ys env' := by
  have hclause : ∀ clause, .clause clause ∈ xs →
      clause.meaning c s env = clause.meaning c s' env' := by
    refine fun clause hclause => Clause.meaning_same hR hs clause (fun p hp => .of_mem ?_) _ _ henv
    rw [statementsRecords_eq]
    exact List.mem_flatMap.mpr ⟨_, hclause, hp⟩
  unfold AllTrue
  simp only [← hperm.mem_iff]
  exact forall₂_congr fun clause hmem => by rw [hclause clause hmem]

/-- Rows of matching environments match, if no item aggregates and no row is dropped. -/
theorem rowsOver_matched {items items' : List ItemMeaning} {ps : List Path}
    (hitems : List.Forall₂ (ItemMeaning.Like ps R) items items')
    (hagg : items.any ItemMeaning.isAggregate = false) {ts : List OrderTerm}
    {envs envs' : List Environment} (h : Matched (Environment.Same ps) envs envs') {rows rows' : List Row}
    (hrows : rowsOver items ts false envs = .ok rows)
    (hrows' : rowsOver items' ts false envs' = .ok rows') : Matched (Row.Like R) rows rows' := by
  have horder : ∀ envs : List Environment, (orderEnvironments ts envs).Perm envs := by
    intro envs
    have hsorted := (sortBy_perm (fun a b : List Value × Environment =>
      orderValues (ts.map OrderTerm.direction) a.1 b.1)
      (envs.map fun env => (ts.map fun t => t.value env, env))).map Prod.snd
    rw [List.map_map] at hsorted
    simpa [orderEnvironments, Function.comp_def] using hsorted
  -- The order of the rows is lost on both sides.
  have hsorted := (h.perm_left (horder envs).symm).perm_right (horder envs').symm
  unfold rowsOver at hrows hrows'
  rw [hagg] at hrows
  rw [← ItemMeaning.Like.isAggregate hitems, hagg] at hrows'
  obtain ⟨all, hall, hrows⟩ := bind_eq_ok.mp hrows
  obtain ⟨all', hall', hrows'⟩ := bind_eq_ok.mp hrows'
  cases hrows
  cases hrows'
  exact hsorted.mapM (fun env env' henv => rowIn_like hitems henv) hall hall'

/-- The answers to a body and to the same body with its clauses in another order have matching rows. -/
theorem Body.answer_perm (hR : Value.Congruence R) (hs : s.Like R s') {b : Body}
    {xs : List (Statement Clause)} (hunmarked : .or ∉ b.statements) (hperm : b.statements.Perm xs)
    (hdistinct : b.distinct = false)
    (hselection : ∀ e ∈ b.selection.getD [], ∀ f p, e ≠ .aggregate f p) {rows rows' : List Row}
    (h : b.answer c s = .ok rows)
    (h' : ({ b with statements := xs } : Body).answer c s' = .ok rows') :
    Matched (Row.Like R) rows rows' := by
  unfold answer at h h'
  rw [meaning_eq] at h h'
  obtain ⟨tuples, htuples, h⟩ := bind_eq_ok.mp h
  obtain ⟨kept, hkept, hrows⟩ := bind_eq_ok.mp h
  obtain ⟨tuples', htuples', h'⟩ := bind_eq_ok.mp h'
  obtain ⟨kept', hkept', hrows'⟩ := bind_eq_ok.mp h'
  -- The same scenes are bound in another order, and the same of them are kept.
  have hlayout := layout_perm c hperm (itemsRecords (b.selection.getD []))
  rw [← hs.tables] at htuples'
  have henvs := (hlayout.bind_perm htuples htuples').map
    (S := Environment.Same (b.records (itemsRecords (b.selection.getD []))))
    fun _ _ htuple => hlayout.same htuple b.scope _
  rw [records_eq] at henvs
  have hunmarked' : .or ∉ xs := fun hmem => hunmarked (hperm.mem_iff.mpr hmem)
  rw [keep_unmarked hunmarked hkept, hdistinct] at hrows
  rw [keep_unmarked hunmarked' hkept', hdistinct] at hrows'
  have hitems : List.Forall₂ (ItemMeaning.Like (statementsRecords b.statements ++
      itemsRecords (b.selection.getD []) ++ b.orderBy.flatMap OrderTerm.records) R)
      ((b.selection.getD []).map fun e => e.item c (e.meaning c s))
      ((b.selection.getD []).map fun e => e.item c (e.meaning c s')) := by
    rw [List.forall₂_map_left_iff, List.forall₂_map_right_iff]
    refine List.forall₂_same.mpr fun e he => ?_
    have hps : ∀ p ∈ e.selectedRecords e.records, p.OnWayTo (statementsRecords b.statements ++
        itemsRecords (b.selection.getD []) ++ b.orderBy.flatMap OrderTerm.records) :=
      fun p hp => .of_mem (List.mem_append_left _
        (List.mem_append_right _ (List.mem_flatMap.mpr ⟨e, he, hp⟩)))
    exact Expr.item_like hR e hps
      (Expr.meaning_like hR hs e fun p hp => (Expr.records_onWayTo hp).trans hps)
  have hagg : ((b.selection.getD []).map fun e => e.item c (e.meaning c s)).any
      ItemMeaning.isAggregate = false := by
    rw [List.any_eq_false]
    intro i hi
    obtain ⟨e, he, rfl⟩ := List.mem_map.mp hi
    cases e with
    | aggregate f p => exact absurd rfl (hselection _ he f p)
    | path | literal | parameter | subquery => exact Bool.false_ne_true
  refine rowsOver_matched hitems hagg (henvs.filter fun env env' henv => ?_) hrows hrows'
  refine decide_eq_decide.mpr (allTrue_congr hR hs hperm (henv.mono fun p hp => .of_mem ?_))
  exact List.mem_append_left _ (List.mem_append_left _ hp)

end Answers

/-! ## Plans -/

section Plans

variable {c : Catalog} {b : Body} {xs : List (Statement Clause)} {planned planned' : PlannedQuery}

/-- A name stands for the same value in both plans, or for identical ones. -/
theorem Body.parameter_perm (hperm : b.statements.Perm xs) (h : b.plan c = .ok planned)
    (h' : ({ b with statements := xs } : Body).plan c = .ok planned') (t : Tables) :
    Source.Like Value.Same ⟨t, planned.plan.parameters, .insertion⟩ ⟨t, planned'.plan.parameters, .insertion⟩ := by
  refine ⟨rfl, fun name => Source.parameter_like ?_⟩
  exact bindParameters?_perm_lookup (plan_parameters h) (plan_parameters h') (parameters_perm hperm _)

/-- A plan in one order makes a plan in the other. -/
theorem Body.planned_perm (hperm : b.statements.Perm xs) :
    (∃ planned, b.plan c = .ok planned) ↔
      ∃ planned, ({ b with statements := xs } : Body).plan c = .ok planned := by
  constructor
  · rintro ⟨planned, h⟩
    exact plan_perm hperm h
  · rintro ⟨planned, h⟩
    obtain ⟨scope, entity, statements, joins, selection, orderBy, distinct, assignments⟩ := b
    exact plan_perm hperm.symm h

/-- Without a marker the order of its clauses does not matter to a body. It has a plan in every order or
in none; and if no row is dropped and no item aggregates, what can be fetched in two orders are the same
rows, each as often. A cell with a parameter may differ by the sign of a zero, if the parameter is bound
to both zeros. -/
theorem Body.reorder_correct (c : Catalog) {b : Body} {xs : List (Statement Clause)}
    (hunmarked : .or ∉ b.statements) (hperm : b.statements.Perm xs) :
    ((∃ planned, b.plan c = .ok planned) ↔
      ∃ planned, ({ b with statements := xs } : Body).plan c = .ok planned) ∧
    (b.distinct = false → (∀ e ∈ b.selection.getD [], ∀ f p, e ≠ .aggregate f p) →
      ∀ (planned planned' : PlannedQuery) (t : Tables) (rows rows' : List Row),
        b.plan c = .ok planned → ({ b with statements := xs } : Body).plan c = .ok planned' →
        t.fetch planned.plan = .ok rows → t.fetch planned'.plan = .ok rows' →
        Matched (Row.Like Value.Same) rows rows' ∧
          ((∀ name, planned.plan.parameter? name = planned'.plan.parameter? name) →
            rows.Perm rows')) := by
  refine ⟨planned_perm hperm, ?_⟩
  intro hdistinct hselection planned planned' t rows rows' h h' hrows hrows'
  -- What a plan fetches is the answer to its body, which knows no slots.
  rw [fetch_eq_answer h] at hrows
  rw [fetch_eq_answer h'] at hrows'
  have hmatched : ∀ {R}, Value.Congruence R →
      Source.Like R ⟨t, planned.plan.parameters, .insertion⟩ ⟨t, planned'.plan.parameters, .insertion⟩ →
      Matched (Row.Like R) rows rows' := fun hR hlike =>
    answer_perm hR hlike hunmarked hperm hdistinct hselection hrows hrows'
  constructor
  · exact hmatched Value.congruence_same (parameter_perm hperm h h' t)
  · intro hparameters
    have hlike : Source.Like Eq ⟨t, planned.plan.parameters, .insertion⟩ ⟨t, planned'.plan.parameters, .insertion⟩ := by
      refine ⟨rfl, fun name => Source.parameter_like ?_⟩
      have hname : planned.plan.parameters.lookup name = planned'.plan.parameters.lookup name :=
        hparameters name
      rw [hname]
      cases planned'.plan.parameters.lookup name with
      | none => exact .none
      | some v => exact .some rfl
    exact (hmatched Value.congruence_eq hlike).perm_of_eq fun _ _ hrow => hrow.eq

namespace Sample

/-- The users in Berlin with a task above the importance of the one that they are at. -/
def aspiring : Body :=
  Recorder.record "User" fun user => do
    let owners ← Recorder.subquery "Todo" fun todo => do
      Recorder.clause todo (.compare (.path (todo.child "importance")) .gt
        (.path ((user.child "current_todo").child "importance")))
      Recorder.clause todo
        (.compare (.path (todo.child "importance")) .gt (.parameter "floor" (.int32 4)))
      return .path (todo.child "user_id")
    Recorder.clause user (.inSubquery (.path (user.child "id")) owners false)
    Recorder.clause user
      (.compare (.path ((user.child "address").child "city")) .eq (.literal (.string "Berlin")))
    Recorder.select user [.path (user.child "email"), .path (user.child "address")]

/-- The same with its clauses in the other order. -/
def aspiringReversed : Body :=
  { aspiring with statements := aspiring.statements.reverse }

theorem aspiring_planned : ∃ planned, aspiring.plan catalog = .ok planned :=
  exists_ok (by decide +kernel)

theorem aspiringReversed_planned : ∃ planned, aspiringReversed.plan catalog = .ok planned :=
  exists_ok (by decide +kernel)

theorem aspiring_fetched :
    ∃ planned planned' rows rows',
      aspiring.plan catalog = .ok planned ∧ aspiringReversed.plan catalog = .ok planned' ∧
      tables.fetch planned.plan = .ok rows ∧ tables.fetch planned'.plan = .ok rows' ∧
      planned.plan.joins ≠ planned'.plan.joins ∧ rows ≠ [] ∧
      planned.plan.parameters = planned'.plan.parameters := by
  obtain ⟨planned, h⟩ := aspiring_planned
  obtain ⟨planned', h'⟩ := aspiringReversed_planned
  have hplans : (aspiring.plan catalog).toOption.any (fun planned =>
      (aspiringReversed.plan catalog).toOption.any fun planned' =>
        decide (planned.plan.joins ≠ planned'.plan.joins) &&
          decide (planned.plan.parameters = planned'.plan.parameters) &&
          (tables.fetch planned.plan).toOption.any (!·.isEmpty) &&
          (tables.fetch planned'.plan).toBool) = true := by
    decide +kernel
  rw [h, h'] at hplans
  simp only [Except.toOption, Option.any_some, Bool.and_eq_true, decide_eq_true_eq] at hplans
  obtain ⟨⟨⟨hjoins, hparameters⟩, hsome⟩, hrows'⟩ := hplans
  obtain ⟨rows', hrows'⟩ := exists_ok hrows'
  cases hrows : tables.fetch planned.plan with
  | error e =>
    rw [hrows] at hsome
    cases hsome
  | ok rows =>
    rw [hrows] at hsome
    refine ⟨planned, planned', rows, rows', h, h', hrows, hrows', hjoins, ?_, hparameters⟩
    rintro rfl
    cases hsome

end Sample

/-- The address is joined before the task or after it, and the same user is found. -/
theorem Body.reorder_correct_sample :
    ∃ planned planned' rows rows',
      Sample.aspiring.plan Sample.catalog = .ok planned ∧
      Sample.aspiringReversed.plan Sample.catalog = .ok planned' ∧
      Sample.tables.fetch planned.plan = .ok rows ∧ Sample.tables.fetch planned'.plan = .ok rows' ∧
      planned.plan.joins ≠ planned'.plan.joins ∧ rows ≠ [] ∧ rows.Perm rows' := by
  have hunmarked : .or ∉ Sample.aspiring.statements := by
    obtain ⟨first, second, hclauses⟩ : ∃ first second,
        Sample.aspiring.statements = [.clause first, .clause second] := ⟨_, _, rfl⟩
    rw [hclauses]
    simp
  have hperm : Sample.aspiring.statements.Perm Sample.aspiring.statements.reverse :=
    (List.reverse_perm _).symm
  have hselection : ∀ e ∈ Sample.aspiring.selection.getD [], ∀ f p, e ≠ .aggregate f p := by
    intro e he f p
    have hpaths : Sample.aspiring.selection.getD [] =
      [.path ⟨1, "User", .root, ["email"]⟩, .path ⟨1, "User", .root, ["address"]⟩] := rfl
    rw [hpaths] at he
    rintro rfl
    simp at he
  obtain ⟨planned, planned', rows, rows', h, h', hrows, hrows', hjoins, hsome, hparameters⟩ :=
    Sample.aspiring_fetched
  obtain ⟨-, hcorrect⟩ := reorder_correct Sample.catalog hunmarked hperm
  have hrows_perm := (hcorrect rfl hselection planned planned' _ rows rows' h h' hrows hrows').2
    fun name => congrArg (List.lookup name) hparameters
  exact ⟨planned, planned', rows, rows', h, h', hrows, hrows', hjoins, hsome, hrows_perm⟩

end Plans

end EntityQuery
