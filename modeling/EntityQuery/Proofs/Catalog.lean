import EntityQuery.Catalog

/-!
# What a catalog guarantees

A schema without faults connects known entities through known fields, so whatever an attribute path
meets in a catalog exists there. What stands under a name is one thing.
-/

namespace EntityQuery

namespace Schema

theorem relation?_name {s : Schema} {entity name : String} {r : Relation}
    (h : s.relation? entity name = some r) : r.fromEntity = entity ∧ r.name = name := by
  have hr := List.find?_some h
  simpa using hr

theorem relation?_mem {s : Schema} {entity name : String} {r : Relation}
    (h : s.relation? entity name = some r) : r ∈ s.relations :=
  List.mem_of_find?_eq_some h

/-- Without a duplicate, names are all different, and from those seen before. -/
theorem firstDuplicate?_eq_none {seen names : List String}
    (h : firstDuplicate? seen names = none) : names.Nodup ∧ ∀ name ∈ names, name ∉ seen := by
  induction names generalizing seen with
  | nil => simp
  | cons name names ih =>
    rw [firstDuplicate?] at h
    split at h
    · cases h
    · rename_i hseen
      obtain ⟨hnodup, hrest⟩ := ih h
      have hname : name ∉ names := fun hmem => hrest name hmem List.mem_cons_self
      refine ⟨List.nodup_cons.mpr ⟨hname, hnodup⟩, ?_⟩
      intro other hother
      rcases List.mem_cons.mp hother with rfl | hother
      · simpa using hseen
      · exact fun hmem => hrest other hother (List.mem_cons_of_mem _ hmem)

/-- An entity without faults stands under its own name, and no two of its fields and relations share
one. -/
theorem entityFault?_eq_none {s : Schema} {key : String} {e : Entity}
    (h : s.entityFault? key e = none) : key = e.name ∧
      (e.fields.map Field.name ++ (s.relationsFrom e.name).map Relation.name).Nodup := by
  unfold entityFault? at h
  split at h
  · cases h
  · rename_i hkey
    split at h
    · cases h
    · have hnames := (firstDuplicate?_eq_none (Option.map_eq_none_iff.mp h)).1
      exact ⟨Decidable.not_not.mp hkey, hnames⟩

/-- Both ends of a relation without faults are known entities with the fields that it joins. -/
theorem relationFault?_eq_none {s : Schema} {r : Relation} (h : s.relationFault? r = none) :
    ∃ owner target, s.entity? r.fromEntity = some owner ∧ s.entity? r.toEntity = some target ∧
      (owner.field? r.fromField).isSome ∧ (target.field? r.toField).isSome := by
  unfold relationFault? at h
  cases hfrom : s.entity? r.fromEntity with
  | none => simp [hfrom] at h
  | some owner =>
    cases hto : s.entity? r.toEntity with
    | none => simp [hfrom, hto] at h
    | some target =>
      -- Of the two checks that are left, a relation without faults passes both.
      simp only [hfrom, hto] at h
      split at h
      · cases h
      · rename_i hfield
        split at h
        · cases h
        · rename_i hfield'
          refine ⟨owner, target, rfl, rfl, ?_, ?_⟩
          · simpa [Option.isSome_iff_ne_none] using hfield
          · simpa [Option.isSome_iff_ne_none] using hfield'

end Schema

namespace Catalog

variable {c : Catalog} {entity name : String}

theorem relationFault?_eq_none {r : Relation} (hr : r ∈ c.schema.relations) :
    c.schema.relationFault? r = none := by
  have h := c.faultless
  rw [Schema.fault?, Option.orElse_eq_orElse, Option.orElse_eq_or, Option.or_eq_none_iff] at h
  exact List.findSome?_eq_none_iff.mp h.2 r hr

theorem entityFault?_eq_none {key : String} {e : Entity} (he : (key, e) ∈ c.schema.entities) :
    c.schema.entityFault? key e = none := by
  have h := c.faultless
  rw [Schema.fault?, Option.orElse_eq_orElse, Option.orElse_eq_or, Option.or_eq_none_iff] at h
  exact List.findSome?_eq_none_iff.mp h.1 (key, e) he

/-- An entity is known under its own name, and its fields and relations have names of their own. -/
theorem entity?_names {e : Entity} (h : c.entity? name = some e) : e.name = name ∧
    (e.fields.map Field.name ++ (c.schema.relationsFrom name).map Relation.name).Nodup := by
  obtain ⟨before, after, hentities, -⟩ := List.lookup_eq_some_iff.mp h
  have he : (name, e) ∈ c.schema.entities := by
    rw [hentities]
    simp
  obtain ⟨rfl, hnames⟩ := Schema.entityFault?_eq_none (c.entityFault?_eq_none he)
  exact ⟨rfl, hnames⟩

theorem entity?_named {e : Entity} (h : c.entity? name = some e) :
    e.name = name ∧ (e.fields.map Field.name).Nodup :=
  ⟨(entity?_names h).1, (List.nodup_append.mp (entity?_names h).2).1⟩

/-- The owner of a relation is a known entity. -/
theorem relation?_owner {r : Relation} (h : c.relation? entity name = some r) :
    ∃ owner, c.entity? entity = some owner := by
  obtain ⟨owner, _, howner, _⟩ :=
    Schema.relationFault?_eq_none (c.relationFault?_eq_none (Schema.relation?_mem h))
  exact ⟨owner, (Schema.relation?_name h).1 ▸ howner⟩

/-- The target of a relation is a known entity. -/
theorem relation?_target {r : Relation} (h : c.relation? entity name = some r) :
    ∃ target, c.entity? r.toEntity = some target := by
  obtain ⟨_, target, _, htarget, _⟩ :=
    Schema.relationFault?_eq_none (c.relationFault?_eq_none (Schema.relation?_mem h))
  exact ⟨target, htarget⟩

theorem attribute?_relation {r : Relation} (h : c.attribute? entity name = some (.relation r)) :
    c.relation? entity name = some r := by
  unfold attribute? at h
  obtain ⟨e, _, h⟩ := Option.bind_eq_some_iff.mp h
  split at h
  · simp at h
  · obtain ⟨r', hr, heq⟩ := Option.map_eq_some_iff.mp h
    cases heq
    exact hr

theorem attribute?_field {f : Field} (h : c.attribute? entity name = some (.field f)) :
    ∃ e, c.entity? entity = some e ∧ e.field? name = some f := by
  unfold attribute? at h
  obtain ⟨e, he, h⟩ := Option.bind_eq_some_iff.mp h
  split at h
  · rename_i f' hf
    cases h
    exact ⟨e, he, hf⟩
  · simp at h

end Catalog

theorem Entity.field?_mem {e : Entity} {name : String} {f : Field} (h : e.field? name = some f) :
    f ∈ e.fields ∧ f.name = name := by
  refine ⟨List.mem_of_find?_eq_some h, ?_⟩
  have := List.find?_some h
  simpa using this

/-- No field hides a relation. -/
theorem Catalog.attribute?_of_relation? {c : Catalog} {entity name : String} {r : Relation}
    (h : c.relation? entity name = some r) : c.attribute? entity name = some (.relation r) := by
  obtain ⟨hentity, hname⟩ := Schema.relation?_name h
  obtain ⟨owner, _, howner, -⟩ :=
    Schema.relationFault?_eq_none (c.relationFault?_eq_none (Schema.relation?_mem h))
  rw [hentity] at howner
  have hr : r.name ∈ (c.schema.relationsFrom entity).map Relation.name := by
    refine List.mem_map_of_mem (List.mem_filter.mpr ⟨Schema.relation?_mem h, ?_⟩)
    simp [hentity]
  have hfield : owner.field? name = none := by
    cases hf : owner.field? name with
    | none => rfl
    | some f =>
      obtain ⟨hmem, rfl⟩ := Entity.field?_mem hf
      have hdisjoint := (List.nodup_append.mp (c.entity?_names howner).2).2.2
      exact absurd hname.symm (hdisjoint _ (List.mem_map_of_mem hmem) _ hr)
  have howner' : c.entity? entity = some owner := howner
  rw [attribute?, howner', Option.bind_some, hfield, h]
  rfl

end EntityQuery
