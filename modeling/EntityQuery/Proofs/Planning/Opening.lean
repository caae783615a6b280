import EntityQuery.Proofs.Evaluation.Outcomes
import EntityQuery.Proofs.Planning.Planned

/-!
# Records that are opened

A record is opened in frames when its origin is bound there and, where its path begins with a relation,
so is the target of that relation. All records that a planned body reads are opened: a path from a join
that is not declared, or along a to-many relation that is not joined, has no plan.
-/

namespace EntityQuery

/-- The origin of a record is bound, and so is the target of the relation that its path begins with. -/
def Path.OpenedIn (c : Catalog) (frames : List Frame) (p : Path) : Prop :=
  ∃ level f slot entity, Frame.locate? p.scope frames = some (level, f) ∧
    f.slotOf? p.origin = some slot ∧ f.entityOf? slot = some entity ∧
    ∀ name r, p.hops.head? = some name → c.attribute? entity name = some (.relation r) →
      ∃ next, f.joinAlong? slot name = some next

section Paths

variable {c : Catalog} {frames frames' : List Frame} {p : Path} {g : Frame}

namespace Path.OpenedIn

/-- What is bound later opens no record anew and closes none. -/
theorem extend (h : p.OpenedIn c frames) (hext : Frame.ExtendAll frames frames') :
    p.OpenedIn c frames' := by
  obtain ⟨level, f, slot, entity, hf, hslot, hentity, hhead⟩ := h
  obtain ⟨f', hf', hff'⟩ := hext.locate? hf
  refine ⟨level, f', slot, entity, hf', by rw [← hff'.slotOf?, hslot], hff'.entityOf? hentity, ?_⟩
  intro name r hname hr
  obtain ⟨next, hnext⟩ := hhead name r hname hr
  exact ⟨next, hff'.joinAlong? hnext⟩

/-- A record of a scope further out is opened there. -/
theorem outer (h : p.OpenedIn c (g :: frames)) (hscope : p.scope ≠ g.scope) :
    p.OpenedIn c frames := by
  obtain ⟨level, f, slot, entity, hf, hrest⟩ := h
  unfold Frame.locate? at hf
  rw [if_neg fun heq => hscope heq.symm] at hf
  obtain ⟨⟨i, f'⟩, hf', heq⟩ := Option.map_eq_some_iff.mp hf
  cases heq
  exact ⟨i, f, slot, entity, hf', hrest⟩

end Path.OpenedIn

/-- A path of several hops follows its first hop along a join. -/
theorem Frame.trace?_cons_cons {f : Frame} {level slot : Nat} {entity name next : String}
    {rest : List String} {r : Resolved}
    (h : f.trace? c level slot entity (name :: next :: rest) = some r) :
    ∃ slot', f.joinAlong? slot name = some slot' := by
  unfold trace? at h
  split at h
  · rename_i r' hname
    split at h
    · rename_i slot' hslot'
      rw [(Schema.relation?_name (Catalog.attribute?_relation hname)).2] at hslot'
      exact ⟨slot', hslot'⟩
    · cases h
  · cases h

/-- The record that holds what a path leads to is opened. -/
theorem Path.holder_openedIn {r : Resolved} (h : p.target? c frames = some r) :
    p.holder.OpenedIn c frames := by
  obtain ⟨f, slot, entity, hf, hslot, hentity, htrace⟩ := target?_eq_some h
  refine ⟨r.level, f, slot, entity, hf, hslot, hentity, fun name r' hname _ => ?_⟩
  -- The hops of the holder are followed by at least one more name.
  cases hhops : p.hops with
  | nil => simp [holder, hhops] at hname
  | cons first rest =>
    cases rest with
    | nil => simp [holder, hhops] at hname
    | cons next rest =>
      obtain rfl : first = name := by simpa [holder, hhops] using hname
      rw [hhops] at htrace
      exact Frame.trace?_cons_cons htrace

/-- A selected record is opened, and so is the one that holds a selected field. -/
theorem Path.SelectedIn.openedIn {x : SelectedItem} (h : p.SelectedIn c frames x) :
    p.OpenedIn c frames := by
  -- The targets differ in what a path of a single name ends in.
  have hopened : ∀ r, p.target? c frames = some r →
      (∀ f slot entity name relation, Frame.locate? p.scope frames = some (r.level, f) →
        f.trace? c r.level slot entity [name] = some r →
        c.attribute? entity name = some (.relation relation) →
        ∃ next, f.joinAlong? slot name = some next) → p.OpenedIn c frames := by
    intro r hr hsingle
    obtain ⟨f, slot, entity, hf, hslot, hentity, htrace⟩ := target?_eq_some hr
    refine ⟨r.level, f, slot, entity, hf, hslot, hentity, fun name relation hname hrelation => ?_⟩
    cases hhops : p.hops with
    | nil => simp [hhops] at hname
    | cons first rest =>
      obtain rfl : first = name := by simpa [hhops] using hname
      rw [hhops] at htrace
      cases rest with
      | nil => exact hsingle f slot entity first relation hf htrace hrelation
      | cons next rest => exact Frame.trace?_cons_cons htrace
  cases h with
  | field htarget =>
    refine hopened _ htarget fun f slot entity name relation _ htrace hrelation => ?_
    simp [Frame.trace?, hrelation] at htrace
  | @related parent slot r f htarget hmany hf hjoin =>
    refine hopened _ htarget fun f' slot' entity name relation hf' htrace hrelation => ?_
    simp only [Frame.trace?, hrelation, Option.some.injEq, Resolved.relation.injEq] at htrace
    obtain ⟨-, rfl, rfl⟩ := htrace
    obtain rfl := Option.some.inj (hf.symm.trans (Frame.locate?_getElem? hf'))
    rw [(Schema.relation?_name (Catalog.attribute?_relation hrelation)).2] at hjoin
    exact ⟨slot, hjoin⟩
  | record htarget =>
    refine hopened _ htarget fun f slot entity name relation _ htrace hrelation => ?_
    simp [Frame.trace?, hrelation] at htrace

theorem Path.CollectedAs.holder_openedIn {rows : Collection} {element : FieldType}
    (h : p.CollectedAs c frames rows element) : p.holder.OpenedIn c frames := by
  cases h with
  | stored htarget | related htarget => exact Path.holder_openedIn htarget

end Paths

/-! ## Planned bodies -/

section Planned

variable {c : Catalog} {parameters : List (String × Value)} {frames : List Frame} {q : Path}

theorem OrderTerm.openedIn {ts : List OrderTerm} {keys : List SortKey}
    (h : List.Forall₂ (OrderTerm.PlannedAs c frames) ts keys)
    (hq : q ∈ ts.flatMap OrderTerm.records) : q.OpenedIn c frames := by
  obtain ⟨t, ht, hq⟩ := List.mem_flatMap.mp hq
  obtain ⟨i, hi⟩ := List.mem_iff_getElem?.mp ht
  obtain ⟨key, -, p, column, f, hp, htarget, -⟩ := forall₂_getElem? h hi
  rw [records, hp, List.mem_singleton] at hq
  subst hq
  exact Path.holder_openedIn htarget

theorem Expr.SelectedAs.openedIn {e : Expr} {x : SelectedItem}
    (h : e.SelectedAs c parameters frames x)
    (he : ∀ {o : Operand} {t : StaticType}, e.PlannedAs c parameters frames o t →
      ∀ q ∈ e.records, q.OpenedIn c frames) (hq : q ∈ e.selectedRecords e.records) :
    q.OpenedIn c frames := by
  cases h with
  | path hext hselected =>
    rw [selectedRecords, List.mem_singleton] at hq
    subst hq
    -- The path was selected in an earlier frame.
    exact hselected.openedIn.extend hext
  | aggregate hplanned =>
    cases hplanned with
    | rows => cases hq
    | column htarget _ =>
      rw [selectedRecords, List.mem_singleton] at hq
      subst hq
      exact Path.holder_openedIn htarget
  | operand hpath hagg hplanned =>
    cases e with
    | path p => exact absurd rfl (hpath p)
    | aggregate f p => exact absurd rfl (hagg f p)
    | literal | parameter | subquery => exact he hplanned q hq

theorem ItemsPlannedAs.openedIn {es : List Expr} {selected : List SelectedItem}
    (h : ItemsPlannedAs c parameters frames es selected)
    (hes : ∀ e ∈ es, ∀ {o : Operand} {t : StaticType}, e.PlannedAs c parameters frames o t →
      ∀ q ∈ e.records, q.OpenedIn c frames) (hq : q ∈ itemsRecords es) : q.OpenedIn c frames := by
  induction es generalizing selected with
  | nil => cases hq
  | cons e es ih =>
    cases h with
    | cons hx hxs =>
      rw [itemsRecords, List.flatMap_cons, List.mem_append] at hq
      rcases hq with hq | hq
      · exact hx.openedIn (hes e List.mem_cons_self) hq
      · exact ih hxs (fun e he => hes e (List.mem_cons_of_mem _ he)) hq

/-- All records that a planned body reads are opened in its frame and those around it, if its parts open
theirs. -/
theorem Body.PlannedAs.openedIn {es : List Expr} {b : Body} {plan : Plan}
    {selected : List SelectedItem} (h : b.PlannedAs c parameters frames es plan selected)
    (hstatements : ∀ {frames : List Frame} {ys : List (Statement Predicate)},
      StatementsPlannedAs c parameters frames b.statements ys →
      ∀ q ∈ statementsRecords b.statements, q.OpenedIn c frames)
    (hes : ∀ e ∈ es, ∀ {frames : List Frame} {o : Operand} {t : StaticType},
      e.PlannedAs c parameters frames o t → ∀ q ∈ e.records, q.OpenedIn c frames) :
    ∃ g, b.frame? c (itemsRecords es) = some g ∧
      ∀ q ∈ b.records (itemsRecords es), q.OpenedIn c (g :: frames) := by
  cases h with
  | @intro _ _ _ _ g _ _ _ _ hg hys hxs _ hkeys =>
    refine ⟨g, hg, fun q hq => ?_⟩
    rw [Body.records_eq, List.mem_append, List.mem_append] at hq
    rcases hq with (hq | hq) | hq
    · exact hstatements hys q hq
    · exact hxs.openedIn (fun e he => hes e he) hq
    · exact OrderTerm.openedIn hkeys hq

mutual

theorem Expr.PlannedAs.openedIn {frames : List Frame} (e : Expr) {o : Operand} {t : StaticType}
    (h : e.PlannedAs c parameters frames o t) : ∀ q ∈ e.records, q.OpenedIn c frames := by
  intro q hq
  match e with
  | .path p =>
    rw [Expr.records, List.mem_singleton] at hq
    subst hq
    cases h with
    | path htarget => exact Path.holder_openedIn htarget
  | .literal v =>
    rw [Expr.records] at hq
    cases hq
  | .parameter name v =>
    rw [Expr.records] at hq
    cases hq
  | .subquery body returns =>
    cases h with
    | subquery _ hbody _ =>
      obtain ⟨g, hg, hopened⟩ := hbody.openedIn (Body.statements_openedIn body) fun e he => by
        rw [List.mem_singleton.mp he]
        exact Expr.PlannedAs.openedIn returns
      rw [Expr.records, Path.leaving, List.mem_filter, ← itemsRecords_singleton] at hq
      -- What leaves the nested scope has been opened around it.
      refine (hopened q hq.1).outer ?_
      rw [(Body.frame?_built hg).scope_eq]
      exact bne_iff_ne.mp hq.2
  | .aggregate f p => cases h
termination_by structural e

theorem Clause.PlannedAs.openedIn {frames : List Frame} (clause : Clause) {p : Predicate}
    (h : clause.PlannedAs c parameters frames p) : ∀ q ∈ clause.records, q.OpenedIn c frames := by
  intro q hq
  match clause with
  | .compare left op right =>
    rw [Clause.records, List.mem_append] at hq
    cases h with
    | compare hleft hright _ =>
      rcases hq with hq | hq
      · exact Expr.PlannedAs.openedIn left hleft q hq
      · exact Expr.PlannedAs.openedIn right hright q hq
  | .like operand pattern negated =>
    rw [Clause.records] at hq
    cases h with
    | like ho _ => exact Expr.PlannedAs.openedIn operand ho q hq
  | .inList operand values negated =>
    rw [Clause.records] at hq
    cases h with
    | inList ho _ => exact Expr.PlannedAs.openedIn operand ho q hq
  | .inSubquery operand subquery negated =>
    rw [Clause.records, List.mem_append] at hq
    cases h with
    | inSubquery ho hsubquery _ =>
      rcases hq with hq | hq
      · exact Expr.PlannedAs.openedIn operand ho q hq
      · exact Expr.PlannedAs.openedIn subquery hsubquery q hq
  | .isNull operand negated =>
    rw [Clause.records] at hq
    cases h with
    | isNull ho => exact Expr.PlannedAs.openedIn operand ho q hq
    | isNullRelation htarget _ =>
      rw [Expr.records, List.mem_singleton] at hq
      subst hq
      exact Path.holder_openedIn htarget
  | .isEmpty collection negated =>
    rw [Clause.records, List.mem_singleton] at hq
    subst hq
    cases h with
    | isEmpty hcollected => exact hcollected.holder_openedIn
  | .isMember value collection negated =>
    rw [Clause.records, List.mem_append, List.mem_singleton] at hq
    cases h with
    | isMember hv hcollected _ =>
      rcases hq with hq | rfl
      · exact Expr.PlannedAs.openedIn value hv q hq
      · exact hcollected.holder_openedIn
termination_by structural clause

theorem StatementsPlannedAs.openedIn {frames : List Frame} (xs : List (Statement Clause))
    {ys : List (Statement Predicate)} (h : StatementsPlannedAs c parameters frames xs ys) :
    ∀ q ∈ statementsRecords xs, q.OpenedIn c frames := by
  intro q hq
  match xs with
  | [] =>
    rw [statementsRecords] at hq
    cases hq
  | .or :: xs =>
    rw [statementsRecords, statementRecords, List.nil_append] at hq
    cases h with
    | or hxs => exact StatementsPlannedAs.openedIn xs hxs q hq
  | .clause x :: xs =>
    rw [statementsRecords, statementRecords, List.mem_append] at hq
    cases h with
    | clause hx hxs =>
      rcases hq with hq | hq
      · exact Clause.PlannedAs.openedIn x hx q hq
      · exact StatementsPlannedAs.openedIn xs hxs q hq
termination_by structural xs

theorem Body.statements_openedIn (b : Body) {frames : List Frame} {ys : List (Statement Predicate)}
    (h : StatementsPlannedAs c parameters frames b.statements ys) :
    ∀ q ∈ statementsRecords b.statements, q.OpenedIn c frames := by
  match b with
  | ⟨scope, entity, statements, joins, selection, orderBy, distinct, assignments⟩ =>
    exact StatementsPlannedAs.openedIn statements h
termination_by structural b

end

/-- All records that a body with a plan reads are opened in its frame. -/
theorem Body.plan_openedIn {b : Body} {planned : PlannedQuery} (h : b.plan c = .ok planned) :
    ∃ g, b.frame? c (itemsRecords (b.selection.getD [])) = some g ∧
      ∀ q ∈ b.records (itemsRecords (b.selection.getD [])), q.OpenedIn c [g] := by
  obtain ⟨plan, selected, -, hplanned, -⟩ := Body.plan_plannedAs h
  exact hplanned.openedIn (StatementsPlannedAs.openedIn _) fun e _ => Expr.PlannedAs.openedIn e

end Planned

end EntityQuery
