import EntityQuery.Proofs.Planning.Planned

/-!
# Paths and the scopes around them

A path can be read where its scope is open: in the body of that scope, and in the bodies nested in it.
A body that has a plan uses no path anywhere else.
-/

namespace EntityQuery

/-! ## Scoped bodies -/

mutual

/-- All paths of a body belong to its own scope or to one of the scopes around it. -/
def Body.Scoped (scopes : List Nat) (b : Body) : Prop :=
  match b with
  | ⟨scope, _, statements, _, selection, orderBy, _, _⟩ =>
    StatementsScoped (scope :: scopes) statements ∧ SelectionScoped (scope :: scopes) selection ∧
      OrderScoped (scope :: scopes) orderBy
termination_by structural b

def StatementsScoped (scopes : List Nat) (xs : List (Statement Clause)) : Prop :=
  match xs with
  | [] => True
  | x :: xs => StatementScoped scopes x ∧ StatementsScoped scopes xs
termination_by structural xs

def StatementScoped (scopes : List Nat) (x : Statement Clause) : Prop :=
  match x with
  | .or => True
  | .clause clause => clause.Scoped scopes
termination_by structural x

def SelectionScoped (scopes : List Nat) (selection : Option (List Expr)) : Prop :=
  match selection with
  | none => True
  | some es => ItemsScoped scopes es
termination_by structural selection

def ItemsScoped (scopes : List Nat) (es : List Expr) : Prop :=
  match es with
  | [] => True
  | e :: es => e.Scoped scopes ∧ ItemsScoped scopes es
termination_by structural es

def OrderScoped (scopes : List Nat) (ts : List OrderTerm) : Prop :=
  match ts with
  | [] => True
  | t :: ts => t.Scoped scopes ∧ OrderScoped scopes ts
termination_by structural ts

def OrderTerm.Scoped (scopes : List Nat) (t : OrderTerm) : Prop :=
  match t with
  | ⟨e, _⟩ => e.Scoped scopes
termination_by structural t

/-- All paths of a condition belong to the scopes around it, or to those of the bodies in it. -/
def Clause.Scoped (scopes : List Nat) (clause : Clause) : Prop :=
  match clause with
  | .compare left _ right => left.Scoped scopes ∧ right.Scoped scopes
  | .like operand .. => operand.Scoped scopes
  | .inList operand .. => operand.Scoped scopes
  | .inSubquery operand subquery _ => operand.Scoped scopes ∧ subquery.Scoped scopes
  | .isNull operand _ => operand.Scoped scopes
  | .isEmpty collection _ => collection.scope ∈ scopes
  | .isMember value collection _ => value.Scoped scopes ∧ collection.scope ∈ scopes
termination_by structural clause

/-- All paths of an expression belong to the scopes around it, or to those of the bodies in it. -/
def Expr.Scoped (scopes : List Nat) (e : Expr) : Prop :=
  match e with
  | .path p => p.scope ∈ scopes
  | .literal _ => True
  | .parameter .. => True
  | .subquery body returns => body.Scoped scopes ∧ returns.Scoped (body.scope :: scopes)
  | .aggregate _ p => ∀ q ∈ p, q.scope ∈ scopes
termination_by structural e

end

/-! ## Planned bodies are scoped -/

section Planned

variable {c : Catalog} {parameters : List (String × Value)} {frames : List Frame}

theorem Frame.ExtendAll.scopes_eq {earlier : List Frame} (h : ExtendAll earlier frames) :
    earlier.map Frame.scope = frames.map Frame.scope := by
  induction h with
  | nil => rfl
  | cons h _ ih => rw [List.map_cons, List.map_cons, h.scope, ih]

/-- A path that leads anywhere belongs to one of the open scopes. -/
theorem Path.scope_mem_of_target? {p : Path} {r : Resolved} (h : p.target? c frames = some r) :
    p.scope ∈ frames.map Frame.scope := by
  obtain ⟨f, _, _, hf, -⟩ := Path.target?_eq_some h
  clear h
  generalize r.level = level at hf
  induction frames generalizing level with
  | nil => cases hf
  | cons g frames ih =>
    unfold Frame.locate? at hf
    split at hf
    · rename_i hscope
      exact List.mem_cons.mpr (.inl hscope.symm)
    · obtain ⟨⟨i, f'⟩, hf', -⟩ := Option.map_eq_some_iff.mp hf
      exact List.mem_cons_of_mem _ (ih i (by grind))

theorem Path.SelectedIn.scope_mem {p : Path} {x : SelectedItem} (h : p.SelectedIn c frames x) :
    p.scope ∈ frames.map Frame.scope := by
  cases h with
  | field htarget | related htarget | record htarget => exact scope_mem_of_target? htarget

theorem Path.CollectedAs.scope_mem {p : Path} {rows : Collection} {element : FieldType}
    (h : p.CollectedAs c frames rows element) : p.scope ∈ frames.map Frame.scope := by
  cases h with
  | stored htarget | related htarget => exact scope_mem_of_target? htarget

theorem OrderScoped.of_plannedAs {ts : List OrderTerm} {keys : List SortKey}
    (h : List.Forall₂ (OrderTerm.PlannedAs c frames) ts keys) :
    OrderScoped (frames.map Frame.scope) ts := by
  induction h with
  | nil => exact trivial
  | @cons t _ _ _ hkey _ ih =>
    obtain ⟨p, column, f, hp, htarget, -⟩ := hkey
    obtain ⟨e, direction⟩ := t
    obtain rfl : e = .path p := hp
    exact ⟨Path.scope_mem_of_target? htarget, ih⟩

theorem Expr.SelectedAs.scoped {e : Expr} {x : SelectedItem}
    (h : e.SelectedAs c parameters frames x)
    (he : ∀ {o : Operand} {t : StaticType}, e.PlannedAs c parameters frames o t →
      e.Scoped (frames.map Frame.scope)) : e.Scoped (frames.map Frame.scope) := by
  cases h with
  | path hext hselected =>
    rw [Expr.Scoped, ← hext.scopes_eq]
    exact hselected.scope_mem
  | aggregate hplanned =>
    cases hplanned with
    | rows =>
      intro q hq
      cases hq
    | column htarget _ =>
      intro q hq
      cases hq
      exact Path.scope_mem_of_target? htarget
  | operand _ _ hplanned => exact he hplanned

theorem Body.PlannedAs.scoped {es : List Expr} {b : Body} {q : Plan}
    {selected : List SelectedItem} (h : b.PlannedAs c parameters frames es q selected)
    (hstatements : ∀ {frames : List Frame} {ys : List (Statement Predicate)},
      StatementsPlannedAs c parameters frames b.statements ys →
      StatementsScoped (frames.map Frame.scope) b.statements)
    (hes : ∀ {frames : List Frame}, ItemsPlannedAs c parameters frames es selected →
      ItemsScoped (frames.map Frame.scope) es) :
    StatementsScoped (b.scope :: frames.map Frame.scope) b.statements ∧
      ItemsScoped (b.scope :: frames.map Frame.scope) es ∧
      OrderScoped (b.scope :: frames.map Frame.scope) b.orderBy := by
  cases h with
  | @intro _ _ _ _ g _ _ _ _ hg hys hxs _ hkeys =>
    have hscope : (g :: frames).map Frame.scope = b.scope :: frames.map Frame.scope := by
      rw [List.map_cons, (Body.frame?_built hg).scope_eq]
    rw [← hscope]
    exact ⟨hstatements hys, hes hxs, .of_plannedAs hkeys⟩

mutual

theorem Expr.PlannedAs.scoped {frames : List Frame} (e : Expr) {o : Operand} {t : StaticType}
    (h : e.PlannedAs c parameters frames o t) : e.Scoped (frames.map Frame.scope) := by
  match e with
  | .path p =>
    cases h with
    | path htarget => exact Path.scope_mem_of_target? htarget
  | .literal v => exact trivial
  | .parameter name v => exact trivial
  | .subquery body returns =>
    cases h with
    | subquery hnone hbody _ =>
      obtain ⟨hstatements, hitems, horder⟩ := hbody.scoped (Body.statements_scoped body)
        (fun h => by
          cases h with
          | cons hx _ => exact ⟨hx.scoped (Expr.PlannedAs.scoped returns), trivial⟩)
      refine ⟨?_, hitems.1⟩
      obtain ⟨scope, entity, statements, joins, selection, orderBy, distinct, assignments⟩ := body
      obtain rfl : selection = none := hnone
      exact ⟨hstatements, trivial, horder⟩
  | .aggregate f p => cases h
termination_by structural e

theorem Clause.PlannedAs.scoped {frames : List Frame} (clause : Clause) {p : Predicate}
    (h : clause.PlannedAs c parameters frames p) : clause.Scoped (frames.map Frame.scope) := by
  match clause with
  | .compare left op right =>
    cases h with
    | compare hleft hright _ =>
      exact ⟨Expr.PlannedAs.scoped left hleft, Expr.PlannedAs.scoped right hright⟩
  | .like operand pattern negated =>
    cases h with
    | like ho _ => exact Expr.PlannedAs.scoped operand ho
  | .inList operand values negated =>
    cases h with
    | inList ho _ => exact Expr.PlannedAs.scoped operand ho
  | .inSubquery operand subquery negated =>
    cases h with
    | inSubquery ho hq _ =>
      exact ⟨Expr.PlannedAs.scoped operand ho, Expr.PlannedAs.scoped subquery hq⟩
  | .isNull operand negated =>
    cases h with
    | isNull ho => exact Expr.PlannedAs.scoped operand ho
    | isNullRelation htarget _ => exact Path.scope_mem_of_target? htarget
  | .isEmpty collection negated =>
    cases h with
    | isEmpty hcollected => exact hcollected.scope_mem
  | .isMember value collection negated =>
    cases h with
    | isMember hv hcollected _ =>
      exact ⟨Expr.PlannedAs.scoped value hv, hcollected.scope_mem⟩
termination_by structural clause

theorem StatementsPlannedAs.scoped {frames : List Frame} (xs : List (Statement Clause))
    {ys : List (Statement Predicate)} (h : StatementsPlannedAs c parameters frames xs ys) :
    StatementsScoped (frames.map Frame.scope) xs := by
  match xs with
  | [] => exact trivial
  | .or :: xs =>
    cases h with
    | or hxs => exact ⟨trivial, StatementsPlannedAs.scoped xs hxs⟩
  | .clause x :: xs =>
    cases h with
    | clause hx hxs => exact ⟨Clause.PlannedAs.scoped x hx, StatementsPlannedAs.scoped xs hxs⟩
termination_by structural xs

theorem Body.statements_scoped (b : Body) {frames : List Frame} {ys : List (Statement Predicate)}
    (h : StatementsPlannedAs c parameters frames b.statements ys) :
    StatementsScoped (frames.map Frame.scope) b.statements := by
  match b with
  | ⟨scope, entity, statements, joins, selection, orderBy, distinct, assignments⟩ =>
    exact StatementsPlannedAs.scoped statements h
termination_by structural b

end

theorem ItemsPlannedAs.scoped {es : List Expr} {selected : List SelectedItem}
    (h : ItemsPlannedAs c parameters frames es selected) :
    ItemsScoped (frames.map Frame.scope) es := by
  induction es generalizing selected with
  | nil => exact trivial
  | cons e es ih =>
    cases h with
    | cons hx hxs => exact ⟨hx.scoped (Expr.PlannedAs.scoped e), ih hxs⟩

/-- A body that has a plan is scoped. -/
theorem Body.scoped_of_plan {b : Body} {planned : PlannedQuery} (h : b.plan c = .ok planned) :
    b.Scoped [] := by
  obtain ⟨q, selected, -, hplanned, -⟩ := Body.plan_plannedAs h
  obtain ⟨hstatements, hitems, horder⟩ :=
    hplanned.scoped (StatementsPlannedAs.scoped _) ItemsPlannedAs.scoped
  obtain ⟨scope, entity, statements, joins, selection, orderBy, distinct, assignments⟩ := b
  refine ⟨hstatements, ?_, horder⟩
  cases selection with
  | none => exact trivial
  | some es => exact hitems

end Planned

end EntityQuery
