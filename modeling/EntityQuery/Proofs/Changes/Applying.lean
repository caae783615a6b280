import EntityQuery.Proofs.Evaluation.Outcomes
import EntityQuery.Proofs.Store

/-!
# What changes do to tables

A change walks over positions: it assigns at each one, or leaves out the records there. Here this is
compared with what it is for: the records on which the filter is true are mapped, or dropped, and
nothing else is touched.
-/

namespace EntityQuery

/-! ## Assigned records -/

namespace Record

variable {r : Record} {name : String}

theorem get?_set_self (r : Record) (name : String) (v : Value) :
    (r.set name v).get? name = some v := by
  unfold get? set
  generalize r.fields = fields
  induction fields with
  | nil => simp [replace]
  | cons x fields ih =>
    obtain ⟨n, w⟩ := x
    unfold replace
    by_cases hn : n = name
    · simp [hn]
    · have hne : (name == n) = false := beq_false_of_ne fun h => hn h.symm
      rw [if_neg hn, List.lookup_cons, hne]
      exact ih

theorem get?_set_of_ne {field : String} (v : Value) (h : field ≠ name) :
    (r.set field v).get? name = r.get? name := by
  have hne : (name == field) = false := beq_false_of_ne fun h' => h h'.symm
  unfold get? set
  generalize r.fields = fields
  induction fields with
  | nil => simp [replace, Ne.symm h]
  | cons x fields ih =>
    obtain ⟨n, w⟩ := x
    unfold replace
    by_cases hn : n = field
    · subst hn
      rw [if_pos rfl, List.lookup_cons, List.lookup_cons, hne]
    · rw [if_neg hn, List.lookup_cons, List.lookup_cons, ih]

theorem get?_assign_of_ne {assignments : List Assignment} (h : ∀ a ∈ assignments, a.field ≠ name) :
    (r.assign assignments).get? name = r.get? name := by
  induction assignments generalizing r with
  | nil => rfl
  | cons a assignments ih =>
    have hrest : ((r.set a.field a.value).assign assignments).get? name =
        (r.set a.field a.value).get? name := ih fun b hb => h b (List.mem_cons_of_mem _ hb)
    exact hrest.trans (get?_set_of_ne a.value (h a List.mem_cons_self))

/-- Where no field is assigned twice, an assigned field holds its value. -/
theorem get?_assign_of_mem {assignments : List Assignment} {a : Assignment}
    (hnodup : (assignments.map Assignment.field).Nodup) (ha : a ∈ assignments) :
    (r.assign assignments).get? a.field = some a.value := by
  induction assignments generalizing r with
  | nil => cases ha
  | cons b assignments ih =>
    rw [List.map_cons, List.nodup_cons] at hnodup
    rcases List.mem_cons.mp ha with rfl | ha
    · have hkept : ((r.set a.field a.value).assign assignments).get? a.field =
          (r.set a.field a.value).get? a.field :=
        get?_assign_of_ne fun b hb h => hnodup.1 (h ▸ List.mem_map_of_mem hb)
      exact hkept.trans (get?_set_self r a.field a.value)
    · exact ih hnodup.2 ha

end Record

/-! ## Replaced tables -/

namespace Tables

variable {t : Tables} {entity : String} {records : List Record}

theorem table?_setTable_self {old : List Record} (h : t.table? entity = some old) :
    (t.setTable entity records).table? entity = some records := by
  unfold table? setTable at *
  generalize t.entries = entries at *
  induction entries with
  | nil => cases h
  | cons x entries ih =>
    obtain ⟨name, old'⟩ := x
    unfold put
    by_cases hname : name = entity
    · simp [hname]
    · have hne : (entity == name) = false := beq_false_of_ne fun h => hname h.symm
      rw [List.lookup_cons, hne] at h
      rw [if_neg hname, List.lookup_cons, hne]
      exact ih h

theorem table?_setTable_of_ne {name : String} (h : name ≠ entity) :
    (t.setTable entity records).table? name = t.table? name := by
  have hne : (name == entity) = false := beq_false_of_ne h
  unfold table? setTable
  generalize t.entries = entries
  induction entries with
  | nil => rfl
  | cons x entries ih =>
    obtain ⟨n, old⟩ := x
    unfold put
    by_cases hn : n = entity
    · subst hn
      rw [if_pos rfl, List.lookup_cons, List.lookup_cons, hne]
    · rw [if_neg hn, List.lookup_cons, List.lookup_cons, ih]

theorem names_setTable (t : Tables) (entity : String) (records : List Record) :
    (t.setTable entity records).entries.map Prod.fst = t.entries.map Prod.fst := by
  unfold setTable
  generalize t.entries = entries
  induction entries with
  | nil => rfl
  | cons x entries ih =>
    obtain ⟨n, old⟩ := x
    unfold put
    by_cases hn : n = entity
    · rw [if_pos hn]
      rfl
    · rw [if_neg hn, List.map_cons, List.map_cons, ih]

theorem table_ok : t.table entity = .ok records ↔ t.table? entity = some records := by
  unfold table
  cases t.table? entity with
  | none => simp
  | some records' => simp

end Tables

/-! ## Positions -/

namespace Change

variable {c : Change} {t : Tables} {s : Source} {records : List Record} {i : Nat}
  {positions : List Nat}

/-- Only the filter decides. -/
theorem selects_congr {c c' : Change} {s s' : Source} {r : Record} (hfilter : c.filter = c'.filter)
    (h : ∀ p, c.filter = some p → p.matches s r = p.matches s' r) :
    c.selects s r = c'.selects s' r := by
  unfold selects
  rw [← hfilter]
  cases hp : c.filter with
  | none => rfl
  | some p => exact h p hp

/-- Whether the filter of a change is true of a record over given tables. -/
def concerns (c : Change) (t : Tables) (r : Record) : Bool :=
  match c.filter with
  | none => true
  | some p =>
    match p.truth ⟨t, c.parameters, .insertion⟩ [some r] [] with
    | .ok truth => truth = some true
    | .error _ => false

theorem selects_ok {r : Record} {selected : Bool}
    (h : c.selects ⟨t, c.parameters, .insertion⟩ r = .ok selected) : c.concerns t r = selected := by
  unfold selects at h
  unfold concerns
  cases hfilter : c.filter with
  | none =>
    rw [hfilter] at h
    exact Except.ok.inj h
  | some p =>
    rw [hfilter] at h
    obtain ⟨truth, htruth, h⟩ := bind_eq_ok.mp h
    simp only [htruth]
    exact Except.ok.inj h

theorem positions_cons_ok {r : Record} :
    c.positions s i (r :: records) = .ok positions ↔
      ∃ selected rest, c.selects s r = .ok selected ∧ c.positions s (i + 1) records = .ok rest ∧
        positions = if selected then i :: rest else rest := by
  rw [Change.positions]
  cases c.selects s r with
  | error e => simp [bind, Except.bind]
  | ok selected =>
    cases c.positions s (i + 1) records with
    | error e => simp [bind, Except.bind]
    | ok rest => simp [bind, Except.bind, eq_comm]

theorem positions_selects (h : c.positions s i records = .ok positions) :
    ∀ r ∈ records, ∃ selected, c.selects s r = .ok selected := by
  induction records generalizing i positions with
  | nil =>
    intro r hr
    cases hr
  | cons r records ih =>
    obtain ⟨selected, rest, hr, hrest, -⟩ := positions_cons_ok.mp h
    intro r' hr'
    rcases List.mem_cons.mp hr' with rfl | hr'
    · exact ⟨selected, hr⟩
    · exact ih hrest r' hr'

/-- No position comes before the first record. -/
theorem le_of_mem_positions (h : c.positions s i records = .ok positions) :
    ∀ k ∈ positions, i ≤ k := by
  induction records generalizing i positions with
  | nil =>
    cases h
    intro k hk
    cases hk
  | cons r records ih =>
    obtain ⟨selected, rest, -, hrest, rfl⟩ := positions_cons_ok.mp h
    intro k hk
    cases selected with
    | false =>
      have := ih hrest k hk
      omega
    | true =>
      rcases List.mem_cons.mp hk with rfl | hk
      · exact Nat.le_refl _
      · have := ih hrest k hk
        omega

section Walks

variable (h : c.positions ⟨t, c.parameters, .insertion⟩ i records = .ok positions)
include h

theorem length_positions : positions.length = (records.filter (c.concerns t)).length := by
  induction records generalizing i positions with
  | nil =>
    cases h
    rfl
  | cons r records ih =>
    obtain ⟨selected, rest, hr, hrest, rfl⟩ := positions_cons_ok.mp h
    rw [List.filter_cons, selects_ok hr]
    cases selected with
    | false => exact ih hrest
    | true => exact congrArg (· + 1) (ih hrest)

/-- Assigning at the positions changes the records concerned, each in its place. The records before
the first position are those that the walk has passed. -/
theorem assignAt_positions (assignments : List Assignment) {passed : List Record}
    (hpassed : passed.length = i) :
    assignAt assignments positions (passed ++ records) =
      passed ++ records.map fun r => if c.concerns t r then r.assign assignments else r := by
  induction records generalizing i positions passed with
  | nil =>
    cases h
    rfl
  | cons r records ih =>
    obtain ⟨selected, rest, hr, hrest, rfl⟩ := positions_cons_ok.mp h
    -- One record further; it is passed as the walk leaves it.
    have hnext : ∀ r' : Record, assignAt assignments rest (passed ++ r' :: records) =
        passed ++ r' :: records.map fun r => if c.concerns t r then r.assign assignments else r := by
      intro r'
      have hlength : (passed ++ [r']).length = i + 1 := by
        rw [List.length_append, hpassed, List.length_singleton]
      have hwalk := ih hrest hlength
      rw [List.append_assoc, List.append_assoc] at hwalk
      exact hwalk
    rw [List.map_cons, selects_ok hr]
    cases selected with
    | false => exact hnext r
    | true =>
      have hmodify : (passed ++ r :: records).modify i (·.assign assignments) =
          passed ++ r.assign assignments :: records := by
        rw [← hpassed, List.modify_eq_take_cons_drop (by simp)]
        simp
      have hfold : assignAt assignments (i :: rest) (passed ++ r :: records) =
          assignAt assignments rest ((passed ++ r :: records).modify i (·.assign assignments)) := rfl
      rw [if_pos rfl, if_pos rfl, hfold, hmodify]
      exact hnext _

/-- What is retained are the records not concerned, in their order. -/
theorem retain_positions : retain i positions records = records.filter fun r => !c.concerns t r := by
  induction records generalizing i positions with
  | nil => rfl
  | cons r records ih =>
    obtain ⟨selected, rest, hr, hrest, rfl⟩ := positions_cons_ok.mp h
    unfold retain
    rw [List.filter_cons, selects_ok hr]
    cases selected with
    | false =>
      -- The positions that are left lie behind this record.
      have hhead : rest.head? ≠ some i := by
        intro hhead
        have := le_of_mem_positions hrest i (List.mem_of_head? hhead)
        omega
      simp only [Bool.false_eq_true, if_false, hhead, Bool.not_false, if_true]
      rw [ih hrest]
    | true =>
      simp only [if_true, List.head?_cons, List.tail_cons, Bool.not_true, Bool.false_eq_true,
        if_false]
      exact ih hrest

end Walks

/-! ## Performed changes -/

/-- The records that a change leaves of a table, given which of them it concerns. -/
def leaves (concerned : Record → Bool) (records : List Record) : Change → List Record
  | update _ assignments .. => records.map fun r => if concerned r then r.assign assignments else r
  | delete .. => records.filter fun r => !concerned r

theorem recordsAfter_positions (h : c.positions ⟨t, c.parameters, .insertion⟩ 0 records = .ok positions) :
    c.recordsAfter positions records = c.leaves (c.concerns t) records := by
  cases c with
  | update entity assignments filter parameters =>
    exact assignAt_positions h assignments List.length_nil
  | delete entity filter parameters => exact retain_positions h

/-- A change that has been performed on tables: it concerned so many records, those on which its filter
was true before, and left the others and all other tables as they were. -/
structure Performed (c : Change) (t : Tables) (affected : Nat) (t' : Tables) : Prop where
  table : ∃ records, t.table? c.entity = some records ∧
    affected = (records.filter (c.concerns t)).length ∧
    t'.table? c.entity = some (c.leaves (c.concerns t) records)
  others : ∀ name, name ≠ c.entity → t'.table? name = t.table? name
  names : t'.entries.map Prod.fst = t.entries.map Prod.fst

theorem apply_ok {affected : Nat} {t' : Tables} (h : t.apply c = .ok (affected, t')) :
    ∃ records positions, t.table? c.entity = some records ∧
      c.positions ⟨t, c.parameters, .insertion⟩ 0 records = .ok positions ∧ affected = positions.length ∧
      t' = t.setTable c.entity (c.recordsAfter positions records) := by
  obtain ⟨records, htable, h⟩ := bind_eq_ok.mp h
  obtain ⟨positions, hpositions, h⟩ := bind_eq_ok.mp h
  cases h
  exact ⟨records, positions, Tables.table_ok.mp htable, hpositions, rfl, rfl⟩

theorem apply_performed {affected : Nat} {t' : Tables} (h : t.apply c = .ok (affected, t')) :
    c.Performed t affected t' := by
  obtain ⟨records, positions, htable, hpositions, rfl, rfl⟩ := apply_ok h
  refine ⟨⟨records, htable, length_positions hpositions, ?_⟩,
    fun name hname => Tables.table?_setTable_of_ne hname, Tables.names_setTable ..⟩
  rw [Tables.table?_setTable_self htable, recordsAfter_positions hpositions]

end Change

/-- The store in memory performs a change, or fails and stays as it is. -/
theorem Store.memory_execute (c : Change) (t : Tables) :
    (∃ err, (Store.memory.execute c).run t = (.error err, t)) ∨
      ∃ affected t', (Store.memory.execute c).run t = (.ok affected, t') ∧
        c.Performed t affected t' := by
  cases h : t.apply c with
  | error err => exact .inl ⟨err, memory_execute_error h⟩
  | ok r =>
    obtain ⟨affected, t'⟩ := r
    exact .inr ⟨affected, t', memory_execute_ok h, Change.apply_performed h⟩

end EntityQuery
