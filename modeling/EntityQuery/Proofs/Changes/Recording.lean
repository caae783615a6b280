import EntityQuery.Body.Recorder

/-!
# Recorded changes

An update or delete is recorded by clauses, markers and assignments in any order. The clauses and the
markers end up in the order in which they came, and each field with its last assignment.
-/

namespace EntityQuery

/-! ## Assigned fields -/

namespace Body

/-- What is assigned to a field. -/
def assigned? (field : String) (terms : List SetTerm) : Option Expr :=
  (terms.find? (·.field == field)).map SetTerm.expr

variable {field : String} {e : Expr} {terms : List SetTerm}

theorem assigned?_assignTerm_self : assigned? field (assignTerm field e terms) = some e := by
  induction terms with
  | nil => simp [assignTerm, assigned?]
  | cons t terms ih =>
    unfold assignTerm
    by_cases ht : t.field = field
    · simp [ht, assigned?]
    · have hne : (t.field == field) = false := beq_false_of_ne ht
      rw [if_neg ht, assigned?, List.find?_cons, hne]
      exact ih

theorem assigned?_assignTerm_of_ne {other : String} (h : field ≠ other) :
    assigned? other (assignTerm field e terms) = assigned? other terms := by
  have hne : (field == other) = false := beq_false_of_ne h
  induction terms with
  | nil => simp [assignTerm, assigned?, hne]
  | cons t terms ih =>
    unfold assignTerm
    by_cases ht : t.field = field
    · rw [if_pos ht, assigned?, assigned?, List.find?_cons, List.find?_cons, ht]
      simp only [hne]
    · rw [if_neg ht, assigned?, assigned?, List.find?_cons, List.find?_cons]
      cases t.field == other with
      | true => rfl
      | false => exact ih

theorem mem_fields_assignTerm {name : String}
    (h : name ∈ (assignTerm field e terms).map SetTerm.field) :
    name = field ∨ name ∈ terms.map SetTerm.field := by
  induction terms with
  | nil =>
    rw [assignTerm, List.map_singleton, List.mem_singleton] at h
    exact .inl h
  | cons t terms ih =>
    unfold assignTerm at h
    split at h
    · rcases List.mem_cons.mp h with h | h
      · exact .inl h
      · exact .inr (List.mem_cons_of_mem _ h)
    · rcases List.mem_cons.mp h with h | h
      · exact .inr (List.mem_cons.mpr (.inl h))
      · exact (ih h).imp_right (List.mem_cons_of_mem _)

/-- Assigning never lets a field occur twice. -/
theorem nodup_assignTerm (h : (terms.map SetTerm.field).Nodup) :
    ((assignTerm field e terms).map SetTerm.field).Nodup := by
  induction terms with
  | nil => exact List.nodup_cons.mpr ⟨List.not_mem_nil, List.nodup_nil⟩
  | cons t terms ih =>
    rw [List.map_cons, List.nodup_cons] at h
    unfold assignTerm
    by_cases ht : t.field = field
    · rw [if_pos ht, List.map_cons, List.nodup_cons]
      exact ⟨ht ▸ h.1, h.2⟩
    · rw [if_neg ht, List.map_cons, List.nodup_cons]
      refine ⟨fun hmem => ?_, ih h.2⟩
      rcases mem_fields_assignTerm hmem with hmem | hmem
      · exact ht hmem
      · exact h.1 hmem

end Body

/-! ## Steps -/

/-- A body is recorded in a scope of its own, which is closed behind it. -/
theorem Recorder.run_inScope {entity : String} {steps : Path → Recorder α} {s : Recording} {a : α}
    {n : Nat} {b : Body} {bodies : List Body}
    (h : (steps ⟨s.nextScope, entity, .root, []⟩).run
      ⟨s.nextScope + 1, .empty s.nextScope entity :: s.bodies⟩ = (a, ⟨n, b :: bodies⟩)) :
    (inScope entity steps).run s = ((a, b), ⟨n, bodies⟩) := by
  simp only [inScope, StateT.run_bind, StateT.run_get, StateT.run_set, pure_bind, h]
  rfl

/-- A step of recording an update or delete. -/
inductive ChangeStep where
  | clause (c : Clause)
  /-- Links the next clause by OR. -/
  | or
  | assign (field : String) (e : Expr)

namespace ChangeStep

/-- Record a step on a root. -/
def record (root : Path) : ChangeStep → Recorder Unit
  | clause c => Recorder.clause root c
  | or => Recorder.or root
  | assign field e => Recorder.assign root field e

/-- The body that steps record on an entity. -/
def body (entity : String) (steps : List ChangeStep) : Body :=
  Recorder.record entity fun root => steps.forM (record root)

def isAssign : ChangeStep → Bool
  | assign .. => true
  | _ => false

/-- The entry that a step adds to the statements of a body. -/
def statement? : ChangeStep → Option (Statement Clause)
  | clause c => some (.clause c)
  | or => some .or
  | assign .. => none

/-- The assignments after steps. -/
def terms (ts : List SetTerm) : List ChangeStep → List SetTerm
  | [] => ts
  | assign field e :: steps => terms (Body.assignTerm field e ts) steps
  | _ :: steps => terms ts steps

/-- What steps assign to a field last. -/
def last? (field : String) : List ChangeStep → Option Expr
  | [] => none
  | assign name e :: steps => (last? field steps).or (if name = field then some e else none)
  | _ :: steps => last? field steps

/-- A body after steps on it. -/
def extend (steps : List ChangeStep) (b : Body) : Body :=
  { b with
    statements := b.statements ++ steps.filterMap statement?
    assignments := terms b.assignments steps }

theorem extend_nil (b : Body) : extend [] b = b := by
  obtain ⟨scope, entity, statements, joins, selection, orderBy, distinct, assignments⟩ := b
  rw [extend, List.filterMap_nil, List.append_nil]
  rfl

theorem extend_cons (step : ChangeStep) (steps : List ChangeStep) (b : Body) :
    extend (step :: steps) b = extend steps (extend [step] b) := by
  cases step with
  | clause | or | assign => simp [extend, List.filterMap_cons, statement?, terms]

theorem run_record (root : Path) (step : ChangeStep) (s : Recording) :
    (record root step).run s =
      ((), { s with bodies := s.bodies.map fun b =>
        if b.scope = root.scope then extend [step] b else b }) := by
  cases step with
  | clause c => exact rfl
  | or => exact rfl
  | assign field e =>
    have hextend : ∀ b : Body, extend [assign field e] b =
        { b with assignments := Body.assignTerm field e b.assignments } := by
      intro b
      rw [extend, List.filterMap_cons_none rfl, List.filterMap_nil, List.append_nil]
      rfl
    simp only [hextend]
    rfl

/-- Steps act on the body of their root, wherever it stands among the open ones. -/
theorem run_forM_record (root : Path) (steps : List ChangeStep) (s : Recording) :
    (steps.forM (record root)).run s =
      ((), { s with bodies := s.bodies.map fun b =>
        if b.scope = root.scope then extend steps b else b }) := by
  induction steps generalizing s with
  | nil =>
    have hsame : (s.bodies.map fun b => if b.scope = root.scope then extend [] b else b) =
        s.bodies := by
      simp [extend_nil]
    rw [hsame]
    rfl
  | cons step steps ih =>
    have hthen : ((step :: steps).forM (record root)).run s =
        (steps.forM (record root)).run ((record root step).run s).2 := rfl
    rw [hthen, run_record, ih, List.map_map]
    congr 4
    funext b
    -- A step keeps the scope of a body, so the steps behind it act on the same one.
    by_cases hb : b.scope = root.scope
    · simp only [Function.comp_apply, if_pos hb]
      rw [if_pos (show (extend [step] b).scope = root.scope from hb), ← extend_cons]
    · simp only [Function.comp_apply, if_neg hb]

/-- Recorded steps give a body with nothing but statements and assignments. -/
theorem body_eq (entity : String) (steps : List ChangeStep) :
    body entity steps = { Body.empty 1 entity with
      statements := steps.filterMap statement?
      assignments := terms [] steps } := by
  have hrun : (steps.forM (record ⟨1, entity, .root, []⟩)).run ⟨2, [.empty 1 entity]⟩ =
      ((), ⟨2, [extend steps (.empty 1 entity)]⟩) := run_forM_record ..
  have hscope : (Recorder.inScope entity fun root => steps.forM (record root)).run ⟨1, []⟩ =
      (((), extend steps (.empty 1 entity)), ⟨2, []⟩) := Recorder.run_inScope hrun
  rw [body, Recorder.record, hscope]
  rfl

theorem body_entity (entity : String) (steps : List ChangeStep) :
    (body entity steps).entity = entity := by
  rw [body_eq]
  rfl

theorem body_assignments (entity : String) (steps : List ChangeStep) :
    (body entity steps).assignments = terms [] steps := by
  rw [body_eq]

/-- Assignments leave no trace in the statements. -/
theorem filterMap_filter (steps : List ChangeStep) :
    (steps.filter fun x => !x.isAssign).filterMap statement? = steps.filterMap statement? := by
  rw [List.filterMap_filter]
  congr 1
  funext step
  cases step with
  | clause | or | assign => rfl

theorem terms_filter (ts : List SetTerm) (steps : List ChangeStep) :
    terms ts (steps.filter fun x => !x.isAssign) = ts := by
  induction steps with
  | nil => rfl
  | cons step steps ih =>
    cases step with
    | clause | or | assign => exact ih

/-! ## Last assignments -/

theorem assigned?_terms (field : String) (ts : List SetTerm) (steps : List ChangeStep) :
    Body.assigned? field (terms ts steps) = (last? field steps).or (Body.assigned? field ts) := by
  induction steps generalizing ts with
  | nil => rfl
  | cons step steps ih =>
    cases step with
    | clause | or => exact ih ts
    | assign name e =>
      rw [terms, ih, last?]
      by_cases h : name = field
      · subst h
        rw [if_pos rfl, Body.assigned?_assignTerm_self]
        cases last? name steps <;> rfl
      · rw [if_neg h, Body.assigned?_assignTerm_of_ne h, Option.or_none]

theorem nodup_terms {ts : List SetTerm} (h : (ts.map SetTerm.field).Nodup)
    (steps : List ChangeStep) : ((terms ts steps).map SetTerm.field).Nodup := by
  induction steps generalizing ts with
  | nil => exact h
  | cons step steps ih =>
    cases step with
    | clause | or => exact ih h
    | assign field e => exact ih (Body.nodup_assignTerm h)

theorem last?_isSome {field : String} {e : Expr} {steps : List ChangeStep}
    (h : assign field e ∈ steps) : (last? field steps).isSome := by
  induction steps with
  | nil => cases h
  | cons step steps ih =>
    rcases List.mem_cons.mp h with rfl | hmem
    · simp [last?]
    · cases step with
      | clause | or => exact ih hmem
      | assign name e' => simp [last?, ih hmem]

end ChangeStep

end EntityQuery
