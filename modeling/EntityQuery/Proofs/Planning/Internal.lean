import EntityQuery.Proofs.Planning.Changes
import EntityQuery.Proofs.Planning.Guarding
import EntityQuery.Proofs.Planning.SchemaOrder
import EntityQuery.Proofs.Sample

/-!
# Internal failures

Planning fails through the fault of the body only. The failures that do not blame it cannot happen, for
all bodies that can be recorded and over all schemas that are accepted, in whatever order these list
their fields and relations.
-/

namespace EntityQuery

/-! ## Bodies -/

/-- Paths are counted and bodies are in order, and these have roots that are known. -/
def Admitted (count : Nat → Nat) (roots : String → Prop) (xs : List Mention) : Prop :=
  ∀ x ∈ xs, x.Counted count ∧ ∀ b, x = .body b → roots b.entity

section Bodies

open Planner (Guarded)

variable {c : Catalog} {count : Nat → Nat} {roots : String → Prop}

namespace Admitted

variable {xs ys : List Mention} {p : Path}

theorem left (h : Admitted count roots (xs ++ ys)) : Admitted count roots xs :=
  fun x hx => h x (List.mem_append_left ys hx)

theorem right (h : Admitted count roots (xs ++ ys)) : Admitted count roots ys :=
  fun x hx => h x (List.mem_append_right xs hx)

theorem path (h : Admitted count roots [.path p]) : p.Counted count :=
  (h (.path p) List.mem_cons_self).1

theorem option {p : Option Path} (h : Admitted count roots (p.map Mention.path).toList) :
    ∀ q ∈ p, q.Counted count := by
  rintro q ⟨⟩
  exact h.path

end Admitted

theorem Expr.selectWith_guarded {e : Expr} (he : Admitted count roots e.mentions)
    {operand : Planner (Operand × StaticType)}
    (hoperand : Guarded count roots (fun _ => True) operand) :
    Guarded count roots (fun _ => True) (e.selectWith c operand) := by
  cases e with
  | path p =>
    rw [mentions] at he
    exact p.select_guarded he.path
  | aggregate f p =>
    rw [mentions] at he
    exact (f.plan_guarded he.option).bind fun _ _ => .pure trivial
  | literal | parameter | subquery => exact hoperand.bind fun _ _ => .pure trivial

theorem Expr.isNullWith_guarded {e : Expr} (he : Admitted count roots e.mentions)
    {operand : Planner (Operand × StaticType)}
    (hoperand : Guarded count roots (fun _ => True) operand) (negated : Bool) :
    Guarded count roots (fun _ => True) (e.isNullWith c operand negated) := by
  cases e with
  | path p =>
    rw [mentions] at he
    refine (p.resolve_guarded he.path).bind fun r hr => ?_
    cases r with
    | field => exact .pure trivial
    | relation level slot r => exact .lift (Relation.Of.relationIsNull hr p level slot negated)
    | record => exact .throw rfl
  | literal | parameter | subquery | aggregate =>
    exact hoperand.bind fun _ _ => .pure trivial

theorem Planner.orderTerm_guarded (entity : String) {t : OrderTerm}
    (ht : Admitted count roots t.mentions) :
    Guarded count roots (fun _ => True) (orderTerm c entity t) := by
  obtain ⟨e, direction⟩ := t
  rw [OrderTerm.mentions] at ht
  cases e with
  | path p =>
    rw [Expr.mentions] at ht
    refine (p.operand_guarded ht.path).bind fun r _ => ?_
    dsimp only
    split
    · exact .throw trivial
    · split
      · split
        · exact .pure trivial
        · exact .throw rfl
      · exact .throw rfl
  | literal | parameter | subquery | aggregate => exact .throw rfl

theorem run_orderBy_guarded (entity : String) {ts : List OrderTerm}
    (hts : Admitted count roots (orderByMentions ts)) :
    Guarded count roots (fun _ => True) (ts.mapM (Planner.orderTerm c entity)) := by
  refine Guarded.mapM fun t ht => Planner.orderTerm_guarded entity fun x hx => hts x ?_
  rw [orderByMentions_eq]
  exact List.mem_flatMap.mpr ⟨t, ht, hx⟩

/-- A scope is guarded if its statements, its items and its orderings are. -/
theorem Body.run_planScope_guarded {b : Body} (hb : b.Counted count) (hroot : roots b.entity)
    {returns : Option Returned}
    (hstatements : Guarded count roots (fun _ => True) (planStatements c b.entity b.statements))
    (hselection : Guarded count roots (fun _ => True)
      (planSelection c b.entity returns b.selection))
    (horderBy : Guarded count roots (fun _ => True)
      (b.orderBy.mapM (Planner.orderTerm c b.entity))) :
    Guarded count roots (fun _ => True) (b.planScope c returns) := by
  obtain ⟨scope, entity, statements, joins, selection, orderBy, distinct, assignments⟩ := b
  rw [planScope]
  refine (Guarded.lift (c.entity_blames hroot)).bind fun _ _ => ?_
  refine (Guarded.inScope_declared (P := fun _ => True) entity hb.length hb.parents ?_).bind
    fun _ _ => .pure trivial
  refine hstatements.bind fun _ _ => hselection.bind fun _ _ => ?_
  refine (Guarded.projection _ _ _).bind fun _ _ => ?_
  exact horderBy.bind fun _ _ => .pure trivial

mutual

theorem Expr.plan_guarded (e : Expr) (entity : String) (h : Admitted count roots e.mentions) :
    Guarded count roots (fun _ => True) (e.plan c entity) := by
  match e with
  | .path p =>
    rw [Expr.mentions] at h
    rw [Expr.plan]
    exact p.operand_guarded h.path
  | .literal v =>
    rw [Expr.plan]
    exact .pure trivial
  | .parameter name v =>
    rw [Expr.plan]
    exact (Guarded.bindParameter name v).bind fun _ _ => .pure trivial
  | .subquery body returns =>
    rw [Expr.mentions] at h
    rw [Expr.plan]
    have hitem : Guarded count roots (fun _ => True)
        (returns.selectWith c (returns.plan c body.entity)) :=
      Expr.selectWith_guarded h.right (Expr.plan_guarded returns body.entity h.right)
    refine (Body.planScope_guarded body h.left fun r hr => ?_).bind fun _ _ => .pure trivial
    obtain rfl := Option.mem_some_iff.mp hr
    exact hitem
  | .aggregate f p =>
    rw [Expr.plan]
    exact .throw rfl
termination_by structural e

theorem Clause.plan_guarded (clause : Clause) (entity : String)
    (h : Admitted count roots clause.mentions) :
    Guarded count roots (fun _ => True) (clause.plan c entity) := by
  match clause with
  | .compare left op right =>
    rw [Clause.mentions] at h
    rw [Clause.plan]
    refine (Expr.plan_guarded left entity h.left).bind fun _ _ => ?_
    refine (Expr.plan_guarded right entity h.right).bind fun _ _ => ?_
    exact (Guarded.checkComparable _ _ _ _).bind fun _ _ => .pure trivial
  | .like operand pattern negated =>
    rw [Clause.mentions] at h
    rw [Clause.plan]
    refine (Expr.plan_guarded operand entity h).bind fun _ _ => ?_
    exact (Guarded.checkText _ _).bind fun _ _ => .pure trivial
  | .inList operand vs negated =>
    rw [Clause.mentions] at h
    rw [Clause.plan]
    refine (Expr.plan_guarded operand entity h).bind fun _ _ => ?_
    exact (Guarded.checkCandidates _ _ _).bind fun _ _ => .pure trivial
  | .inSubquery operand subquery negated =>
    rw [Clause.mentions] at h
    rw [Clause.plan]
    refine (Expr.plan_guarded operand entity h.left).bind fun _ _ => ?_
    dsimp only
    split
    · exact .throw rfl
    · refine (Expr.plan_guarded subquery entity h.right).bind fun r _ => ?_
      split
      · exact (Guarded.checkComparable _ _ _ _).bind fun _ _ => .pure trivial
      · exact .throw rfl
  | .isNull operand negated =>
    rw [Clause.mentions] at h
    rw [Clause.plan]
    exact Expr.isNullWith_guarded h (Expr.plan_guarded operand entity h) negated
  | .isEmpty collection negated =>
    rw [Clause.mentions] at h
    rw [Clause.plan]
    exact (collection.collection_guarded h.path).bind fun _ _ => .pure trivial
  | .isMember value collection negated =>
    rw [Clause.mentions] at h
    rw [Clause.plan]
    refine (Expr.plan_guarded value entity h.left).bind fun _ _ => ?_
    refine (collection.collection_guarded h.right.path).bind fun _ _ => ?_
    exact (Guarded.checkElement _ _ _).bind fun _ _ => .pure trivial
termination_by structural clause

theorem planStatement_guarded (x : Statement Clause) (entity : String)
    (h : Admitted count roots (statementMentions x)) :
    Guarded count roots (fun _ => True) (planStatement c entity x) := by
  match x with
  | .or =>
    rw [planStatement]
    exact .pure trivial
  | .clause clause =>
    rw [statementMentions] at h
    rw [planStatement]
    exact (Clause.plan_guarded clause entity h).bind fun _ _ => .pure trivial
termination_by structural x

theorem planStatements_guarded (xs : List (Statement Clause)) (entity : String)
    (h : Admitted count roots (statementsMentions xs)) :
    Guarded count roots (fun _ => True) (planStatements c entity xs) := by
  match xs with
  | [] =>
    rw [planStatements]
    exact .pure trivial
  | x :: xs =>
    rw [statementsMentions] at h
    rw [planStatements]
    refine (planStatement_guarded x entity h.left).bind fun _ _ => ?_
    exact (planStatements_guarded xs entity h.right).bind fun _ _ => .pure trivial
termination_by structural xs

theorem planItems_guarded (es : List Expr) (entity : String)
    (h : Admitted count roots (exprsMentions es)) :
    Guarded count roots (fun _ => True) (planItems c entity es) := by
  match es with
  | [] =>
    rw [planItems]
    exact .pure trivial
  | e :: es =>
    rw [exprsMentions] at h
    rw [planItems]
    refine (Expr.selectWith_guarded h.left (Expr.plan_guarded e entity h.left)).bind fun _ _ => ?_
    exact (planItems_guarded es entity h.right).bind fun _ _ => .pure trivial
termination_by structural es

theorem planSelection_guarded (selection : Option (List Expr)) (entity : String)
    (h : Admitted count roots (selectionMentions selection)) {returns : Option Returned}
    (hreturns : ∀ r ∈ returns, Guarded count roots (fun _ => True) r.item) :
    Guarded count roots (fun _ => True) (planSelection c entity returns selection) := by
  match selection, returns, hreturns with
  | none, none, _ =>
    rw [planSelection]
    exact .pure trivial
  | none, some r, hreturns =>
    rw [planSelection]
    refine (hreturns r rfl).bind fun x _ => ?_
    exact (Guarded.checkReturned _ _ x).bind fun _ _ => .pure trivial
  | some es, none, _ =>
    rw [selectionMentions] at h
    rw [planSelection]
    exact (planItems_guarded es entity h).bind fun _ _ => .pure trivial
  | some es, some _, _ =>
    rw [planSelection]
    exact .throw rfl
termination_by structural selection

/-- A body is guarded, if what it returns is. -/
theorem Body.planScope_guarded (b : Body) (h : Admitted count roots b.mentions)
    {returns : Option Returned}
    (hreturns : ∀ r ∈ returns, Guarded count roots (fun _ => True) r.item) :
    Guarded count roots (fun _ => True) (b.planScope c returns) := by
  match b with
  | ⟨scope, entity, statements, joins, selection, orderBy, distinct, assignments⟩ =>
    rw [Body.mentions_eq] at h
    obtain ⟨hcounted, hroot⟩ := h _ List.mem_cons_self
    have hcontents : Admitted count roots _ := fun x hx => h x (List.mem_cons_of_mem _ hx)
    exact Body.run_planScope_guarded hcounted (hroot _ rfl)
      (planStatements_guarded statements entity hcontents.left)
      (planSelection_guarded selection entity hcontents.right.left hreturns)
      (run_orderBy_guarded entity hcontents.right.right.left)
termination_by structural b

end

theorem Planner.changeFilter_guarded {b : Body} (hjoins : b.joins = [])
    (h : Admitted count roots b.mentions) :
    Guarded count roots (fun _ => True) (changeFilter c b) := by
  rw [Body.mentions_eq] at h
  have hcontents : Admitted count roots b.contents := fun x hx => h x (List.mem_cons_of_mem _ hx)
  have hframe : (Frame.new b.scope b.entity).Complete count := by
    refine ⟨?_, fun slot hslot => absurd hslot List.not_mem_nil⟩
    have hlength := Body.Counted.length (h _ List.mem_cons_self).1
    rw [hjoins] at hlength
    exact hlength
  have hstatements : Guarded count roots (fun _ => True) (planStatements c b.entity b.statements) :=
    planStatements_guarded b.statements b.entity hcontents.left
  refine (Guarded.inScope (P := fun _ => True) fun s hs =>
    hstatements.run_cons hframe hs s.parameters).bind fun r _ => ?_
  obtain ⟨ys, g⟩ := r
  dsimp only
  split
  · exact .throw rfl
  · exact .pure trivial

theorem Planner.assignment_guarded (entity : Entity) (t : SetTerm) :
    Guarded count roots (fun _ => True) (assignment c entity t) := by
  have hvalue : ∀ place, Guarded count roots (fun _ => True) (assignedValue place t.expr) := by
    intro place
    cases t.expr with
    | literal v => exact .pure trivial
    | parameter name v => exact (Guarded.bindParameter name v).bind fun _ _ => .pure trivial
    | path | subquery | aggregate => exact .throw trivial
  unfold assignment
  dsimp only
  split
  · exact .throw rfl
  · exact .throw rfl
  · split
    · exact .throw rfl
    · refine (hvalue _).bind fun v _ => ?_
      split
      · exact .pure trivial
      · exact .throw trivial

theorem Body.plan_blames {b : Body} (h : Admitted count roots b.mentions) :
    Ends (QueryError.Blames roots) (fun _ => True) (b.plan c) := by
  have hplan : Guarded count roots (fun _ => True) (b.planScope c none) :=
    planScope_guarded b h fun r hr => by cases hr
  have hrun := hplan ⟨[], []⟩ fun f hf => absurd hf List.not_mem_nil
  unfold plan
  generalize (b.planScope c none).run ⟨[], []⟩ = outcome at hrun ⊢
  cases outcome with
  | error e => exact hrun
  | ok r => exact trivial

theorem Body.changeSteps_guarded (entity : Entity) {b : Body} (hjoins : b.joins = [])
    (h : Admitted count roots b.mentions) :
    Guarded count roots (fun _ => True) (b.changeSteps c entity) := by
  refine (Planner.changeFilter_guarded hjoins h).bind fun _ _ => ?_
  refine (Guarded.mapM fun t _ => Planner.assignment_guarded entity t).bind fun _ _ => ?_
  exact .pure trivial

theorem Body.planChange_blames {b : Body} (h : Admitted count roots b.mentions) :
    Ends (QueryError.Blames roots) (fun _ => True) (b.planChange c) := by
  -- The change mentions itself, so its entity is a root.
  have hroot : roots b.entity := by
    rw [mentions_eq] at h
    exact (h _ List.mem_cons_self).2 b rfl
  have hblames := c.entity_blames hroot
  cases hentity : c.entity b.entity with
  | error e =>
    rw [hentity] at hblames
    rw [planChange, hentity]
    exact hblames
  | ok entity =>
    cases hjoins : b.joins with
    | cons d ds =>
      rw [planChange, hentity, hjoins]
      exact rfl
    | nil =>
      -- No scope is open before the steps.
      have hrun := changeSteps_guarded (c := c) entity hjoins h ⟨[], []⟩
        fun f hf => absurd hf List.not_mem_nil
      rw [planChange_steps hentity hjoins]
      generalize (b.changeSteps c entity).run ⟨[], []⟩ = outcome at hrun
      cases outcome with
      | error e => exact hrun
      | ok r => exact trivial

/-- What a declared body fails with is its own fault. -/
theorem Body.Declared.not_internal {b : Body} (h : b.Declared) {e : QueryError}
    (he : b.plan c = .error e ∨ b.planChange c = .error e) : ¬ e.Internal b := by
  obtain ⟨count, hcount⟩ := h
  have hadmitted : Admitted count (fun name => ∃ b', Mention.body b' ∈ b.mentions ∧ b'.entity = name)
      b.mentions := by
    refine fun x hx => ⟨hcount x hx, ?_⟩
    rintro b' rfl
    exact ⟨b', hx, rfl⟩
  refine QueryError.Blames.not_internal ?_
  rcases he with he | he
  · have hplan := plan_blames (c := c) hadmitted
    rw [he] at hplan
    exact hplan
  · have hplan := planChange_blames (c := c) hadmitted
    rw [he] at hplan
    exact hplan

end Bodies

/-! ## Failures that do not happen -/

/-- A catalog is never the reason why a recorded body cannot be planned. Over any schema that is
accepted, whatever has been recorded at a workbench fails as a query or as a change only through its own
fault: not for an invalid schema, not for an unknown entity unless it is the root of the body or of a
query nested in it, and not with one of the planner's own messages on a scope or a join. And a schema
with fields and relations in another order is accepted if and only if it is, and then any body is
planned to the same, or fails in the same way. -/
theorem Workbench.internal_unreachable :
    (∀ (w : Workbench) (b : Body) (s : Schema) (c : Catalog) (e : QueryError), w.Reachable →
      b ∈ w.finished → Catalog.ofSchema s = .ok c →
      b.plan c = .error e ∨ b.planChange c = .error e → ¬ e.Internal b) ∧
    ∀ s s' : Schema, s.Reordered s' →
      ((∃ c, Catalog.ofSchema s = .ok c) ↔ ∃ c', Catalog.ofSchema s' = .ok c') ∧
      ∀ c c' : Catalog, Catalog.ofSchema s = .ok c → Catalog.ofSchema s' = .ok c' →
        ∀ b : Body, b.plan c' = b.plan c ∧ b.planChange c' = b.planChange c := by
  refine ⟨fun w b s c e hw hb _ he => (hw.declared hb).not_internal he, fun s s' h => ⟨?_, ?_⟩⟩
  · rw [Catalog.ofSchema_isOk, Catalog.ofSchema_isOk]
    exact ⟨h.fault?, h.symm.fault?⟩
  · intro c c' hc hc' b
    obtain rfl := Catalog.ofSchema_ok.mp hc
    obtain rfl := Catalog.ofSchema_ok.mp hc'
    exact ⟨b.plan_reordered h, b.planChange_reordered h⟩

/-! ## A body that fails -/

namespace Sample

/-- A query on users that uses an expression of a nested query twice: within that query, and out of its
scope. -/
def leaking : Body :=
  Recorder.record "User" fun user => do
    let task ← Recorder.join user "current_todo" "Todo" false .left
    let importance := Expr.path (task.child "importance")
    let (other, todo) ← Recorder.inScope "Todo" fun todo =>
      return Expr.path (todo.child "importance")
    Recorder.clause user (.inSubquery importance (.subquery todo other) false)
    Recorder.clause user (.compare importance .lt other)

theorem leaking_recorded : ∃ w : Workbench, w.Reachable ∧ leaking ∈ w.finished := by
  have user := Relation.ReflTransGen.single (Workbench.Step.begin .start "User")
  have task := user.tail (.join "current_todo" "Todo" false .left
    (Recording.gives_root List.mem_cons_self "User" []))
  have todo := task.tail (.begin _ "Todo")
  have other := todo.tail (.make (.path
    (Recording.gives_root List.mem_cons_self "Todo" ["importance"])))
  have nested := other.tail (.subquery rfl List.mem_cons_self)
  have importance := nested.tail (.make (.path
    (Recording.gives_join (i := 0) List.mem_cons_self (by decide) "Todo" ["importance"])))
  have within := importance.tail (.record (Recording.gives_root List.mem_cons_self "User" [])
    (.clause (.inSubquery false List.mem_cons_self
      (List.mem_cons_of_mem _ List.mem_cons_self))))
  have outside := within.tail (.record (Recording.gives_root List.mem_cons_self "User" [])
    (.clause (.compare .lt List.mem_cons_self
      (List.mem_cons_of_mem _ (List.mem_cons_of_mem _ List.mem_cons_self)))))
  exact ⟨_, outside.tail (.finish rfl), List.mem_cons_self⟩

theorem leaking_fails :
    leaking.plan catalog = .error (.path "Todo" "Todo.importance" .outOfScope) :=
  rfl

end Sample

/-- A schema with its relations, and the fields of its entities, from the last to the first. -/
def Schema.reversed (s : Schema) : Schema where
  version := s.version
  entities := s.entities.map fun x => (x.1, { x.2 with fields := x.2.fields.reverse })
  relations := s.relations.reverse

theorem Schema.reordered_reversed (s : Schema) : s.Reordered s.reversed where
  version := rfl
  entities := by
    refine List.forall₂_map_right_iff.mpr (List.forall₂_same.mpr fun x _ => ⟨rfl, rfl, rfl, ?_⟩)
    exact (List.reverse_perm _).symm
  relations := (List.reverse_perm _).symm

/-- A body that fails for a path that is out of scope, and another that is planned over the sample
schema in reverse. -/
theorem Workbench.internal_unreachable_sample :
    (∃ w : Workbench, w.Reachable ∧ Sample.leaking ∈ w.finished) ∧
    Catalog.ofSchema Sample.schema = .ok Sample.catalog ∧
    Sample.leaking.plan Sample.catalog =
      .error (.path "Todo" "Todo.importance" .outOfScope) ∧
    ¬ (QueryError.path "Todo" "Todo.importance" .outOfScope).Internal Sample.leaking ∧
    Sample.schema.Reordered Sample.schema.reversed ∧
    ∃ c' planned, Catalog.ofSchema Sample.schema.reversed = .ok c' ∧
      Sample.busyInBerlin.plan Sample.catalog = .ok planned ∧
      Sample.busyInBerlin.plan c' = .ok planned := by
  obtain ⟨hfails, horder⟩ := internal_unreachable
  obtain ⟨w, hw, hb⟩ := Sample.leaking_recorded
  have hcatalog : Catalog.ofSchema Sample.schema = .ok Sample.catalog := Catalog.ofSchema_ok.mpr rfl
  have hreversed := Sample.schema.reordered_reversed
  -- Both orders of the schema are accepted, and plan alike.
  obtain ⟨haccepted, hsame⟩ := horder _ _ hreversed
  obtain ⟨c', hc'⟩ := haccepted.mp ⟨_, hcatalog⟩
  obtain ⟨planned, hplan⟩ := Sample.busyInBerlin_planned
  refine ⟨⟨w, hw, hb⟩, hcatalog, Sample.leaking_fails,
    hfails w Sample.leaking Sample.schema Sample.catalog _ hw hb hcatalog (.inl Sample.leaking_fails),
    hreversed, c', planned, hc', hplan, ?_⟩
  rw [(hsame _ c' hcatalog hc' Sample.busyInBerlin).1]
  exact hplan

end EntityQuery
