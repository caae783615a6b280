import EntityQuery.Proofs.Changes.Applying
import EntityQuery.Proofs.Conformance
import EntityQuery.Proofs.Planning.Changes
import Mathlib.Data.List.Nodup

/-!
# Changes keep types

An assignment is planned only if the field that it names accepts its value. Fields of an entity have
names of their own, so what is assigned to one of them is read as no other, and records that hold
values of the declared types hold such values after a change.
-/

namespace EntityQuery

/-! ## Typed assignments -/

/-- An assignment to a field of an entity, of a value that the field accepts. -/
def Assignment.Typed (e : Entity) (a : Assignment) : Prop :=
  ∃ f ∈ e.fields, f.name = a.field ∧ f.type.accepts a.value = true

/-- A change that assigns values of the right types. -/
def Change.Typed (c : Catalog) : Change → Prop
  | .update entity assignments .. =>
    ∀ e, c.entity? entity = some e → ∀ a ∈ assignments, a.Typed e
  | .delete .. => True

namespace Record.Conforms

variable {e : Entity} {r : Record} {a : Assignment}

/-- A typed assignment reaches one field, and that accepts the value. -/
theorem set (hnames : (e.fields.map Field.name).Nodup) (h : r.Conforms e) (ha : a.Typed e) :
    (r.set a.field a.value).Conforms e := by
  obtain ⟨f, hf, hname, haccepts⟩ := ha
  intro g hg
  by_cases hfield : g.name = a.field
  · have hsame : g = f := List.inj_on_of_nodup_map hnames hg hf (hfield.trans hname.symm)
    refine ⟨a.value, ?_, hsame ▸ haccepts⟩
    rw [hfield]
    exact get?_set_self r a.field a.value
  · obtain ⟨v, hv, hgv⟩ := h g hg
    refine ⟨v, ?_, hgv⟩
    rw [get?_set_of_ne a.value fun h => hfield h.symm]
    exact hv

theorem assign (hnames : (e.fields.map Field.name).Nodup) (h : r.Conforms e)
    {assignments : List Assignment} (hall : ∀ a ∈ assignments, a.Typed e) :
    (r.assign assignments).Conforms e := by
  induction assignments generalizing r with
  | nil => exact h
  | cons a assignments ih =>
    have hset : (r.set a.field a.value).Conforms e := h.set hnames (hall a List.mem_cons_self)
    exact ih hset fun b hb => hall b (List.mem_cons_of_mem _ hb)

end Record.Conforms

/-! ## Typed changes -/

namespace Change

variable {cat : Catalog} {c : Change} {t t' : Tables} {affected : Nat}

/-- Of a table of conforming records a typed change leaves conforming ones. -/
theorem leaves_conforms {e : Entity} (he : cat.entity? c.entity = some e) (hc : c.Typed cat)
    {concerned : Record → Bool} {records : List Record} (h : ∀ r ∈ records, r.Conforms e) :
    ∀ r ∈ c.leaves concerned records, r.Conforms e := by
  have hnames := (Catalog.entity?_named he).2
  intro r hr
  cases c with
  | update entity assignments filter parameters =>
    obtain ⟨r₀, hr₀, rfl⟩ := List.mem_map.mp hr
    have hconforms : r₀.Conforms e := h r₀ hr₀
    by_cases hconcerned : concerned r₀ = true
    · rw [if_pos hconcerned]
      exact hconforms.assign hnames (hc e he)
    · rw [if_neg hconcerned]
      exact hconforms
  | delete entity filter parameters => exact h r (List.mem_filter.mp hr).1

/-- Typed tables are typed after a typed change. -/
theorem Performed.typed (h : c.Performed t affected t') (hc : c.Typed cat) (ht : t.Typed cat) :
    t'.Typed cat := by
  intro name e he r hr
  by_cases hname : name = c.entity
  · subst hname
    obtain ⟨records, htable, -, htable'⟩ := h.table
    have hbefore : ∀ r ∈ records, r.Conforms e := by
      have hrecords : t.records c.entity = records := by simp [Tables.records, htable]
      exact hrecords ▸ ht c.entity e he
    have hafter : t'.records c.entity = c.leaves (c.concerns t) records := by
      simp [Tables.records, htable']
    exact leaves_conforms he hc hbefore r (hafter ▸ hr)
  · have hsame : t'.records name = t.records name := by
      simp only [Tables.records, h.others name hname]
    exact ht name e he r (hsame ▸ hr)

/-- A change makes no table and takes none away. -/
theorem Performed.isSome_table? (h : c.Performed t affected t') (name : String) :
    (t'.table? name).isSome = (t.table? name).isSome := by
  by_cases hname : name = c.entity
  · obtain ⟨records, htable, -, htable'⟩ := h.table
    rw [hname, htable, htable']
    rfl
  · rw [h.others name hname]

theorem Performed.conforms (h : c.Performed t affected t') (hc : c.Typed cat)
    (ht : t.Conforms cat) : t'.Conforms cat := by
  obtain ⟨htyped, htables⟩ := Tables.conforms_iff.mp ht
  refine Tables.conforms_iff.mpr ⟨h.typed hc htyped, fun name e he => ?_⟩
  rw [h.isSome_table? name]
  exact htables name e he

end Change

/-! ## Planned changes -/

section Planned

variable {c : Catalog} {s s' : Scopes}

/-- What an assignment of a known entity is planned as is typed. -/
theorem Planner.run_assignment_typed {e : Entity} (he : c.entity? e.name = some e) {t : SetTerm}
    {a : Assignment} (h : (assignment c e t).run s = .ok (a, s')) : a.Typed e := by
  unfold assignment at h
  simp only at h
  split at h
  · exact (run_failPath_ok.mp h).elim
  · exact (run_failPath_ok.mp h).elim
  · rename_i f hf
    split at h
    · exact (run_failPath_ok.mp h).elim
    · obtain ⟨v, s₁, -, h⟩ := run_bind_ok.mp h
      split at h
      · rename_i haccepts
        obtain ⟨rfl, rfl⟩ := run_pure_ok.mp h
        obtain ⟨e', he', hfield⟩ := Catalog.attribute?_field hf
        have hsame : e' = e := Option.some.inj (he'.symm.trans he)
        subst hsame
        exact ⟨f, (Entity.field?_mem hfield).1, rfl, haccepts⟩
      · exact (run_failMismatch_ok.mp h).elim

theorem Planner.run_assignments_typed {e : Entity} (he : c.entity? e.name = some e)
    {ts : List SetTerm} {assignments : List Assignment}
    (h : (ts.mapM (assignment c e)).run s = .ok (assignments, s')) :
    ∀ a ∈ assignments, a.Typed e := by
  induction ts generalizing s assignments with
  | nil =>
    rw [List.mapM_nil] at h
    obtain ⟨rfl, rfl⟩ := run_pure_ok.mp h
    simp
  | cons t ts ih =>
    rw [List.mapM_cons] at h
    obtain ⟨a, s₁, ha, h⟩ := run_bind_ok.mp h
    obtain ⟨rest, s₂, hrest, h⟩ := run_bind_ok.mp h
    obtain ⟨rfl, rfl⟩ := run_pure_ok.mp h
    exact List.forall_mem_cons.mpr ⟨run_assignment_typed he ha, ih hrest⟩

/-- A planned update assigns values of the types that the catalog declares. -/
theorem Body.planChange_typed {b : Body} {parts : ChangeParts} (h : b.planChange c = .ok parts) :
    (Change.update b.entity parts.assignments parts.filter parts.parameters).Typed c := by
  obtain ⟨e, s, s', he, -, -, hassignments, -⟩ := Body.planChange_ok h
  have hname : e.name = b.entity := (Catalog.entity?_named he).1
  intro e' he'
  have hsame : e' = e := Option.some.inj (he'.symm.trans he)
  subst hsame
  exact Planner.run_assignments_typed (hname ▸ he) hassignments

end Planned

end EntityQuery
