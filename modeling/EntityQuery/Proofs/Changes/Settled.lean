import EntityQuery.Proofs.Changes.Counting
import EntityQuery.Proofs.Evaluation.Reads
import EntityQuery.Proofs.Sample
import EntityQuery.Proofs.Store

/-!
# Changes made again

A change alters the table of one entity. If its filter reads the tables of other entities only, then it
is as true afterwards of a record that stayed as it was before. So nothing is left for a deletion that
is repeated, and an update that is repeated assigns what its records hold already.
-/

namespace EntityQuery

/-! ## Records assigned again -/

namespace Record

variable {r : Record} {name other : String} {v w : Value}

/-- A value that a record holds already changes nothing. -/
theorem set_of_get? (h : r.get? name = some v) : r.set name v = r := by
  have hfields : replace name v r.fields = r.fields := by
    unfold get? at h
    generalize r.fields = fields at h
    induction fields with
    | nil => cases h
    | cons x fields ih =>
      obtain ⟨n, old⟩ := x
      unfold replace
      by_cases hn : n = name
      · subst hn
        rw [List.lookup_cons_self] at h
        rw [if_pos rfl, Option.some.inj h]
      · have hne : (name == n) = false := beq_false_of_ne fun h' => hn h'.symm
        rw [List.lookup_cons, hne] at h
        rw [if_neg hn, ih h]
  rw [set, hfields]

/-- The later of two values under one name counts. -/
theorem set_set_self : (r.set name v).set name w = r.set name w := by
  have hfields : ∀ fields : List (String × Value),
      replace name w (replace name v fields) = replace name w fields := by
    intro fields
    induction fields with
    | nil => simp [replace]
    | cons x fields ih =>
      by_cases hn : x.1 = name
      · simp [replace, hn]
      · simp [replace, hn, ih]
  show Record.mk r.entity (replace name w (replace name v r.fields)) = _
  rw [hfields]
  rfl

/-- Values under two names are stored in either order, if the record has the first name. Otherwise
both names might be new, and then the order of the fields would tell. -/
theorem set_comm (hne : name ≠ other) {old : Value} (hold : r.get? name = some old) :
    (r.set name v).set other w = (r.set other w).set name v := by
  have hfields : replace other w (replace name v r.fields) =
      replace name v (replace other w r.fields) := by
    unfold get? at hold
    -- Up to the first name the fields are passed over, or one of the second name is replaced on the
    -- way.
    generalize r.fields = fields at hold
    induction fields with
    | nil => cases hold
    | cons x fields ih =>
      obtain ⟨n, u⟩ := x
      by_cases hn : n = name
      · subst hn
        simp [replace, hne]
      · have hlookup : (name == n) = false := beq_false_of_ne fun h' => hn h'.symm
        rw [List.lookup_cons, hlookup] at hold
        by_cases hm : n = other
        · subst hm
          simp [replace, hn]
        · simp [replace, hn, hm, ih hold]
  show Record.mk r.entity (replace other w (replace name v r.fields)) = _
  rw [hfields]
  rfl

/-- A field that a record has is kept by assignments. -/
theorem exists_get?_assign (h : r.get? name = some v) (assignments : List Assignment) :
    ∃ w, (r.assign assignments).get? name = some w := by
  induction assignments generalizing r v with
  | nil => exact ⟨v, h⟩
  | cons a assignments ih =>
    by_cases ha : a.field = name
    · subst ha
      exact ih (get?_set_self r a.field a.value)
    · exact ih ((get?_set_of_ne a.value ha).trans h)

/-- What is assigned later does not have to be stored before. -/
theorem assign_set {assignments : List Assignment} {old : Value} (hold : r.get? name = some old)
    (hname : name ∈ assignments.map Assignment.field) :
    (r.set name v).assign assignments = r.assign assignments := by
  induction assignments generalizing r old with
  | nil => cases hname
  | cons a assignments ih =>
    show ((r.set name v).set a.field a.value).assign assignments =
      (r.set a.field a.value).assign assignments
    by_cases ha : a.field = name
    · rw [ha, set_set_self]
    · have hrest : name ∈ assignments.map Assignment.field :=
        (List.mem_cons.mp hname).resolve_left fun h => ha h.symm
      have hkept : (r.set a.field a.value).get? name = some old :=
        (get?_set_of_ne a.value ha).trans hold
      rw [set_comm (Ne.symm ha) hold]
      exact ih hkept hrest

/-- A record holds what it is assigned, even where a field is assigned several times. -/
theorem assign_assign (r : Record) (assignments : List Assignment) :
    (r.assign assignments).assign assignments = r.assign assignments := by
  induction assignments generalizing r with
  | nil => rfl
  | cons a assignments ih =>
    have hagain : ((r.set a.field a.value).assign assignments).assign assignments =
        (r.set a.field a.value).assign assignments := ih _
    show (((r.set a.field a.value).assign assignments).set a.field a.value).assign assignments =
      (r.set a.field a.value).assign assignments
    by_cases ha : a.field ∈ assignments.map Assignment.field
    · obtain ⟨old, hold⟩ := exists_get?_assign (get?_set_self r a.field a.value) assignments
      rw [assign_set hold ha, hagain]
    · have hkept : ((r.set a.field a.value).assign assignments).get? a.field = some a.value :=
        (get?_assign_of_ne fun b hb h => ha (List.mem_map.mpr ⟨b, hb, h⟩)).trans
          (get?_set_self r a.field a.value)
      rw [set_of_get? hkept, hagain]

end Record

/-! ## Tables replaced again -/

namespace Tables

variable {t : Tables} {entity : String} {records : List Record}

/-- A table that is there already changes nothing. -/
theorem setTable_of_table? (h : t.table? entity = some records) : t.setTable entity records = t := by
  have hentries : put entity records t.entries = t.entries := by
    unfold table? at h
    generalize t.entries = entries at h
    induction entries with
    | nil => cases h
    | cons x entries ih =>
      obtain ⟨name, old⟩ := x
      unfold put
      by_cases hname : name = entity
      · subst hname
        rw [List.lookup_cons_self] at h
        rw [if_pos rfl, Option.some.inj h]
      · have hne : (entity == name) = false := beq_false_of_ne fun h' => hname h'.symm
        rw [List.lookup_cons, hne] at h
        rw [if_neg hname, ih h]
  rw [setTable, hentries]

end Tables

/-! ## Changes that do not read what they alter -/

namespace Change

variable {c : Change} {s : Source} {t t' : Tables} {records : List Record}

theorem exists_positions (h : ∀ r ∈ records, ∃ selected, c.selects s r = .ok selected) (i : Nat) :
    ∃ positions, c.positions s i records = .ok positions := by
  induction records generalizing i with
  | nil => exact ⟨[], rfl⟩
  | cons r records ih =>
    obtain ⟨selected, hr⟩ := h r List.mem_cons_self
    obtain ⟨rest, hrest⟩ := ih (fun r' hr' => h r' (List.mem_cons_of_mem r hr')) (i + 1)
    exact ⟨_, positions_cons_ok.mpr ⟨selected, rest, hr, hrest, rfl⟩⟩

section Unread

variable (hread : c.entity ∉ filterReads c.filter)
  (hothers : ∀ name, name ≠ c.entity → t'.table? name = t.table? name)
include hread hothers

/-- The filter is as true of a record as it was before. -/
theorem truth_unread {p : Predicate} (hp : c.filter = some p) (r : Record) :
    p.truth ⟨t', c.parameters, .insertion⟩ [some r] [] = p.truth ⟨t, c.parameters, .insertion⟩ [some r] [] := by
  rw [hp, filterReads] at hread
  have hagree : Source.AgreeOn p.reads ⟨t', c.parameters, .insertion⟩ ⟨t, c.parameters, .insertion⟩ := by
    refine ⟨rfl, fun name hname => hothers name ?_⟩
    rintro rfl
    exact hread hname
  exact Predicate.truth_agree p hagree [some r] [] fun r' _ => Plan.sortsAlike_of_eq rfl

theorem selects_unread (r : Record) :
    c.selects ⟨t', c.parameters, .insertion⟩ r = c.selects ⟨t, c.parameters, .insertion⟩ r := by
  refine selects_congr rfl fun p hp => ?_
  rw [Predicate.matches, Predicate.matches, truth_unread hread hothers hp r]

theorem concerns_unread (r : Record) : c.concerns t' r = c.concerns t r := by
  unfold concerns
  cases hp : c.filter with
  | none => rfl
  | some p => simp only [truth_unread hread hothers hp r]

end Unread

section Again

variable {entity : String} {filter : Option Predicate} {parameters : List (String × Value)}
  (hread : entity ∉ filterReads filter)
include hread

/-- No record that a deletion has left passes its filter, so nothing is left for it to delete. -/
theorem delete_again {affected : Nat}
    (h : t.apply (.delete entity filter parameters) = .ok (affected, t')) :
    t'.count { Plan.all entity with filter, parameters } = .ok 0 ∧
      t'.apply (.delete entity filter parameters) = .ok (0, t') := by
  let c : Change := .delete entity filter parameters
  have hread : c.entity ∉ filterReads c.filter := hread
  obtain ⟨records, positions, htable, hpositions, -, ht'⟩ := apply_ok h
  have hothers : ∀ name, name ≠ c.entity → t'.table? name = t.table? name :=
    (apply_performed h).others
  -- What is left are the records that were not concerned, and the filter sees them as before.
  let left := records.filter fun r => !c.concerns t r
  have htable' : t'.table? entity = some left := by
    rw [ht', recordsAfter_positions hpositions]
    exact Tables.table?_setTable_self htable
  have hselects : ∀ r ∈ left, ∃ selected, c.selects ⟨t', c.parameters, .insertion⟩ r = .ok selected := by
    intro r hr
    rw [selects_unread hread hothers]
    exact positions_selects hpositions r (List.mem_of_mem_filter hr)
  have hnone : left.filter (c.concerns t') = [] := by
    rw [List.filter_eq_nil_iff]
    intro r hr hconcerned
    rw [concerns_unread hread hothers] at hconcerned
    have hleft := (List.mem_filter.mp hr).2
    rw [hconcerned] at hleft
    cases hleft
  constructor
  · have hcount := count_eq htable' hselects
    rw [hnone] at hcount
    exact hcount
  · obtain ⟨positions', hpositions'⟩ := exists_positions hselects 0
    -- No position is found, so no record is taken away.
    have hlength : positions'.length = 0 := by rw [length_positions hpositions', hnone]; rfl
    have hall : c.leaves (c.concerns t') left = left := by
      refine List.filter_eq_self.mpr fun r hr => ?_
      rw [concerns_unread hread hothers]
      exact (List.mem_filter.mp hr).2
    have hsame : t'.setTable entity (c.recordsAfter positions' left) = t' := by
      rw [recordsAfter_positions hpositions', hall, Tables.setTable_of_table? htable']
    refine bind_eq_ok.mpr ⟨left, Tables.table_ok.mpr htable', ?_⟩
    refine bind_eq_ok.mpr ⟨positions', hpositions', ?_⟩
    show Except.ok (positions'.length, t'.setTable entity (c.recordsAfter positions' left)) = _
    rw [hlength, hsame]

/-- What an update has assigned it assigns again, and it reaches no other record. -/
theorem update_again {assignments : List Assignment} {affected affected' : Nat} {t'' : Tables}
    (h : t.apply (.update entity assignments filter parameters) = .ok (affected, t'))
    (h' : t'.apply (.update entity assignments filter parameters) = .ok (affected', t'')) :
    t'' = t' := by
  let c : Change := .update entity assignments filter parameters
  have hread : c.entity ∉ filterReads c.filter := hread
  obtain ⟨records, positions, htable, hpositions, -, ht'⟩ := apply_ok h
  obtain ⟨updated, positions', hupdated, hpositions', -, ht''⟩ := apply_ok h'
  have hothers : ∀ name, name ≠ c.entity → t'.table? name = t.table? name :=
    (apply_performed h).others
  have htable' : t'.table? entity = some (c.leaves (c.concerns t) records) := by
    rw [ht', recordsAfter_positions hpositions]
    exact Tables.table?_setTable_self htable
  obtain rfl : c.leaves (c.concerns t) records = updated :=
    Option.some.inj (htable'.symm.trans hupdated)
  have hagain : c.leaves (c.concerns t') (c.leaves (c.concerns t) records) =
      c.leaves (c.concerns t) records := by
    show ((records.map _).map _) = records.map _
    rw [List.map_map]
    refine List.map_congr_left fun r _ => ?_
    have hstays : c.concerns t' r = c.concerns t r := concerns_unread hread hothers r
    cases hconcerned : c.concerns t r with
    | true =>
      -- Whether it still passes or not, it holds what it is assigned.
      have hheld : (r.assign assignments).assign assignments = r.assign assignments :=
        r.assign_assign assignments
      simp only [Function.comp_apply, hconcerned, if_true, hheld, ite_self]
    | false =>
      rw [hconcerned] at hstays
      simp only [Function.comp_apply, hconcerned, hstays, Bool.false_eq_true, if_false]
  rw [ht'', recordsAfter_positions hpositions', hagain]
  exact Tables.setTable_of_table? htable'

end Again

/-- A change whose filter reads the tables of other entities only is settled by being made once. After
a deletion no record passes its filter, and the deletion concerns none when it is made again. An update
that is made again leaves the tables as they are, whether or not the assigned records still pass its
filter. -/
theorem repeated_correct (entity : String) (filter : Option Predicate)
    (parameters : List (String × Value)) (hread : entity ∉ filterReads filter) (t : Tables) :
    (∀ affected t',
      (Store.memory.execute (.delete entity filter parameters)).run t = (.ok affected, t') →
        (Store.memory.count { Plan.all entity with filter, parameters }).run t' = (.ok 0, t') ∧
        (Store.memory.execute (.delete entity filter parameters)).run t' = (.ok 0, t')) ∧
    ∀ assignments answer once,
      (Store.memory.execute (.update entity assignments filter parameters)).run t = (answer, once) →
        ∃ answer', (Store.memory.execute (.update entity assignments filter parameters)).run once =
          (answer', once) := by
  constructor
  · intro affected t' h
    have happly := Store.run_execute_ok.mp (Store.run_lift_ok.mpr h)
    obtain ⟨hcount, hagain⟩ := delete_again hread happly
    refine ⟨?_, Store.memory_execute_ok hagain⟩
    show (t'.count _, t') = _
    rw [hcount]
  · intro assignments answer once h
    cases happly : t.apply (.update entity assignments filter parameters) with
    | error err =>
      -- The update has failed and has left the tables; so it does again.
      have hfailed := Store.memory_execute_error happly
      obtain rfl : t = once := congrArg Prod.snd (hfailed.symm.trans h)
      exact ⟨.error err, hfailed⟩
    | ok r =>
      have hmade := Store.memory_execute_ok happly
      obtain rfl : r.2 = once := congrArg Prod.snd (hmade.symm.trans h)
      cases hagain : r.2.apply (.update entity assignments filter parameters) with
      | error err => exact ⟨.error err, Store.memory_execute_error hagain⟩
      | ok r' =>
        have hsame : r'.2 = r.2 := update_again hread happly hagain
        have hmade' := Store.memory_execute_ok hagain
        rw [hsame] at hmade'
        exact ⟨.ok r'.1, hmade'⟩

end Change

/-- The users with tasks get an identity that has no such tasks, and a login in two steps. -/
def Sample.renumbered : List Assignment :=
  [⟨"id", .int64 42⟩, ⟨"login", .string "first"⟩, ⟨"login", .string "last"⟩]

/-- The users deleted are gone, and those renumbered no longer pass the filter. -/
theorem Change.repeated_correct_other_entity :
    "User" ∉ filterReads (some Sample.diligent) ∧
      (∃ t', (Store.memory.execute (.delete "User" (some Sample.diligent)
          [("floor", .int32 4)])).run Sample.tables = (.ok 2, t') ∧
        (Store.memory.count { Plan.all "User" with
          filter := some Sample.diligent, parameters := [("floor", .int32 4)] }).run t' =
            (.ok 0, t') ∧
        (Store.memory.execute (.delete "User" (some Sample.diligent)
          [("floor", .int32 4)])).run t' = (.ok 0, t')) ∧
      ∃ once, (Store.memory.execute (.update "User" Sample.renumbered (some Sample.diligent)
          [("floor", .int32 4)])).run Sample.tables = (.ok 2, once) ∧
        ∃ answer, (Store.memory.execute (.update "User" Sample.renumbered (some Sample.diligent)
          [("floor", .int32 4)])).run once = (answer, once) := by
  have hread : "User" ∉ filterReads (some Sample.diligent) := by decide +kernel
  have hdelete := Sample.run_eq_ok (a := 2) (r := (Store.memory.execute
    (.delete "User" (some Sample.diligent) [("floor", .int32 4)])).run Sample.tables)
    (by decide +kernel)
  have hupdate := Sample.run_eq_ok (a := 2) (r := (Store.memory.execute
    (.update "User" Sample.renumbered (some Sample.diligent) [("floor", .int32 4)])).run
      Sample.tables) (by decide +kernel)
  obtain ⟨hcount, hagain⟩ :=
    (repeated_correct "User" (some Sample.diligent) [("floor", .int32 4)] hread
      Sample.tables).1 _ _ hdelete
  have hsame :=
    (repeated_correct "User" (some Sample.diligent) [("floor", .int32 4)] hread
      Sample.tables).2 _ _ _ hupdate
  exact ⟨hread, ⟨_, hdelete, hcount, hagain⟩, _, hupdate, hsame⟩

end EntityQuery
