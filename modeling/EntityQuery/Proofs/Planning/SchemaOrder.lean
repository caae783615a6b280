import EntityQuery.Proofs.Planning.Renaming
import Mathlib.Data.List.Forall2
import Mathlib.Data.List.Nodup

/-!
# The order of a schema

Fields of an entity and relations are listed in an order that means nothing. A schema in another order
has faults if and only if it has, and as names are unique in a catalog, what is found under a name does
not depend on what stands before it.
-/

namespace EntityQuery

/-! ## Other orders -/

/-- An entity with its fields in another order. -/
structure Entity.Reordered (e e' : Entity) : Prop where
  name : e'.name = e.name
  identityField : e'.identityField = e.identityField
  fields : e.fields.Perm e'.fields

/-- A schema with its relations, and the fields of its entities, in another order. -/
structure Schema.Reordered (s s' : Schema) : Prop where
  version : s'.version = s.version
  entities : List.Forall₂ (fun x y => y.1 = x.1 ∧ x.2.Reordered y.2) s.entities s'.entities
  relations : s.relations.Perm s'.relations

theorem Entity.Reordered.symm {e e' : Entity} (h : e.Reordered e') : e'.Reordered e :=
  ⟨h.name.symm, h.identityField.symm, h.fields.symm⟩

/-- Where one element at most passes a test, it is found in any order. -/
theorem find?_eq_of_perm {α : Type} {p : α → Bool} {xs ys : List α} (h : xs.Perm ys)
    (hunique : ∀ x ∈ xs, ∀ y ∈ xs, p x = true → p y = true → x = y) :
    ys.find? p = xs.find? p := by
  cases hx : xs.find? p with
  | none =>
    rw [List.find?_eq_none] at hx ⊢
    exact fun y hy => hx y (h.mem_iff.mpr hy)
  | some x =>
    have hmem := List.mem_of_find?_eq_some hx
    have hpx := List.find?_some hx
    cases hy : ys.find? p with
    | none => exact absurd hpx (List.find?_eq_none.mp hy x (h.mem_iff.mp hmem))
    | some y =>
      have hmem' := h.mem_iff.mpr (List.mem_of_find?_eq_some hy)
      rw [hunique x hmem y hmem' hpx (List.find?_some hy)]

namespace Entity

variable {e e' : Entity}

theorem field?_isSome {name : String} :
    (e.field? name).isSome = true ↔ ∃ f ∈ e.fields, f.name = name := by
  rw [field?, List.find?_isSome]
  simp only [beq_iff_eq]

theorem Reordered.field?_isSome (h : e.Reordered e') {name : String}
    (hf : (e.field? name).isSome = true) : (e'.field? name).isSome = true := by
  obtain ⟨f, hmem, hname⟩ := Entity.field?_isSome.mp hf
  exact Entity.field?_isSome.mpr ⟨f, h.fields.mem_iff.mp hmem, hname⟩

/-- A name is that of one field, so it finds the same field in any order. -/
theorem Reordered.agrees (h : e.Reordered e') (hnames : (e.fields.map Field.name).Nodup) :
    e.Agrees e' where
  name := h.name
  identityField := h.identityField
  field? name := by
    refine find?_eq_of_perm h.fields fun x hx y hy hxname hyname => ?_
    refine List.inj_on_of_nodup_map hnames hx hy ?_
    rw [beq_iff_eq.mp hxname, beq_iff_eq.mp hyname]

end Entity

/-! ## Faults -/

namespace Schema

variable {s s' : Schema}

theorem firstDuplicate?_of_nodup {seen names : List String} (h : names.Nodup)
    (hseen : ∀ name ∈ names, name ∉ seen) : firstDuplicate? seen names = none := by
  induction names generalizing seen with
  | nil => rfl
  | cons name names ih =>
    have hname : name ∉ seen := hseen name List.mem_cons_self
    obtain ⟨hnew, hnames⟩ := List.nodup_cons.mp h
    rw [firstDuplicate?, if_neg (by simpa using hname)]
    refine ih hnames fun other hother => ?_
    rw [List.mem_cons]
    rintro (rfl | hmem)
    · exact hnew hother
    · exact hseen other (List.mem_cons_of_mem _ hother) hmem

/-- An entity has no fault if it stands under its own name, declares its identity, and names its fields
and relations apart. -/
theorem entityFault?_eq_none_iff {key : String} {e : Entity} :
    s.entityFault? key e = none ↔ key = e.name ∧ e.identity?.isSome = true ∧
      (e.fields.map Field.name ++ (s.relationsFrom e.name).map Relation.name).Nodup := by
  constructor
  · intro h
    refine ⟨(entityFault?_eq_none h).1, ?_, (entityFault?_eq_none h).2⟩
    unfold entityFault? at h
    split at h
    · cases h
    · split at h
      · cases h
      · rename_i hidentity
        exact Option.isSome_iff_ne_none.mpr fun hnone => hidentity (by rw [hnone]; rfl)
  · rintro ⟨hkey, hidentity, hnames⟩
    rw [Option.isSome_iff_ne_none] at hidentity
    unfold entityFault?
    rw [if_neg (not_not.mpr hkey), if_neg (by simpa using hidentity)]
    dsimp only
    rw [firstDuplicate?_of_nodup hnames fun _ _ => List.not_mem_nil, Option.map_none]

/-- A relation has no fault if both ends of it are known entities with the fields that it joins. -/
theorem relationFault?_eq_none_iff {r : Relation} :
    s.relationFault? r = none ↔ ∃ owner target, s.entity? r.fromEntity = some owner ∧
      s.entity? r.toEntity = some target ∧ (owner.field? r.fromField).isSome = true ∧
      (target.field? r.toField).isSome = true := by
  refine ⟨relationFault?_eq_none, ?_⟩
  rintro ⟨owner, target, howner, htarget, hfrom, hto⟩
  rw [Option.isSome_iff_ne_none] at hfrom hto
  unfold relationFault?
  rw [howner, htarget]
  dsimp only
  rw [if_neg (by simpa using hfrom), if_neg (by simpa using hto)]

theorem fault?_eq_none_iff : s.fault? = none ↔
    (∀ x ∈ s.entities, s.entityFault? x.1 x.2 = none) ∧
      ∀ r ∈ s.relations, s.relationFault? r = none := by
  rw [fault?, Option.orElse_eq_orElse, Option.orElse_eq_or, Option.or_eq_none_iff,
    List.findSome?_eq_none_iff, List.findSome?_eq_none_iff]

namespace Reordered

theorem symm (h : s.Reordered s') : s'.Reordered s where
  version := h.version.symm
  entities := (List.Forall₂.imp (fun _ _ hxy => ⟨hxy.1.symm, hxy.2.symm⟩) h.entities).flip
  relations := h.relations.symm

/-- A name is that of the same entity, with its fields in another order. -/
theorem entity? (h : s.Reordered s') (name : String) :
    Option.Rel Entity.Reordered (s.entity? name) (s'.entity? name) := by
  have hentities := h.entities
  unfold Schema.entity?
  generalize s.entities = xs at hentities
  generalize s'.entities = ys at hentities
  induction hentities with
  | nil => exact .none
  | @cons x y xs ys hxy _ ih =>
    obtain ⟨key, e⟩ := x
    obtain ⟨key', e'⟩ := y
    obtain ⟨hkey, he⟩ := hxy
    obtain rfl : key' = key := hkey
    rw [List.lookup_cons, List.lookup_cons]
    cases name == key' with
    | true => exact .some he
    | false => exact ih

theorem entity?_some (h : s.Reordered s') {name : String} {e : Entity}
    (he : s.entity? name = some e) : ∃ e', s'.entity? name = some e' ∧ e.Reordered e' := by
  have hrel := h.entity? name
  rw [he] at hrel
  generalize s'.entity? name = found at hrel
  cases hrel with
  | some hee' => exact ⟨_, rfl, hee'⟩

theorem entityFault? (h : s.Reordered s') {key : String} {e e' : Entity} (he : e.Reordered e')
    (hfault : s.entityFault? key e = none) : s'.entityFault? key e' = none := by
  obtain ⟨hkey, hidentity, hnames⟩ := entityFault?_eq_none_iff.mp hfault
  refine entityFault?_eq_none_iff.mpr ⟨hkey.trans he.name.symm, ?_, ?_⟩
  · rw [Entity.identity?, he.identityField]
    exact he.field?_isSome hidentity
  · refine (List.Perm.nodup_iff ?_).mp hnames
    rw [he.name]
    exact (he.fields.map _).append ((h.relations.filter _).map _)

theorem relationFault? (h : s.Reordered s') {r : Relation} (hfault : s.relationFault? r = none) :
    s'.relationFault? r = none := by
  obtain ⟨owner, target, howner, htarget, hfrom, hto⟩ := relationFault?_eq_none_iff.mp hfault
  obtain ⟨owner', howner', hownerFields⟩ := h.entity?_some howner
  obtain ⟨target', htarget', htargetFields⟩ := h.entity?_some htarget
  exact relationFault?_eq_none_iff.mpr ⟨owner', target', howner', htarget',
    hownerFields.field?_isSome hfrom, htargetFields.field?_isSome hto⟩

/-- Another order brings about no fault. -/
theorem fault? (h : s.Reordered s') (hs : s.fault? = none) : s'.fault? = none := by
  obtain ⟨hentities, hrelations⟩ := fault?_eq_none_iff.mp hs
  refine fault?_eq_none_iff.mpr ⟨fun y hy => ?_, fun r hr => ?_⟩
  · obtain ⟨x, hx, hkey, he⟩ := forall₂_mem h.entities.flip hy
    rw [hkey]
    exact h.entityFault? he (hentities x hx)
  · exact h.relationFault? (hrelations r (h.relations.mem_iff.mpr hr))

end Reordered

end Schema

/-! ## Catalogs -/

namespace Catalog

theorem ofSchema_ok {s : Schema} {c : Catalog} : ofSchema s = .ok c ↔ c.schema = s := by
  constructor
  · intro h
    unfold ofSchema at h
    split at h
    · cases h
    · cases h
      rfl
  · rintro rfl
    unfold ofSchema
    split
    · rename_i fault hfault
      rw [c.faultless] at hfault
      cases hfault
    · rfl

theorem ofSchema_isOk {s : Schema} : (∃ c, ofSchema s = .ok c) ↔ s.fault? = none := by
  constructor
  · rintro ⟨c, hc⟩
    rw [← ofSchema_ok.mp hc]
    exact c.faultless
  · intro h
    exact ⟨⟨s, h⟩, ofSchema_ok.mpr rfl⟩

/-- An entity has one relation of a name. -/
theorem relation_unique {c : Catalog} {r r' : Relation} (hr : r ∈ c.schema.relations)
    (hr' : r' ∈ c.schema.relations) (hentity : r.fromEntity = r'.fromEntity)
    (hname : r.name = r'.name) : r = r' := by
  obtain ⟨owner, _, howner, -⟩ := Schema.relationFault?_eq_none (c.relationFault?_eq_none hr)
  have hnodup := (List.nodup_append.mp (c.entity?_names howner).2).2.1
  refine List.inj_on_of_nodup_map hnodup (List.mem_filter.mpr ⟨hr, ?_⟩)
    (List.mem_filter.mpr ⟨hr', ?_⟩) hname
  · exact beq_self_eq_true _
  · rw [hentity]
    exact beq_self_eq_true _

/-- Catalogs of one schema in two orders give the same answers. -/
theorem agrees_of_reordered {c c' : Catalog} (h : c.schema.Reordered c'.schema) : c.Agrees c' where
  entity? name := by
    have hrel := h.entity? name
    unfold Catalog.entity?
    cases hfound : c.schema.entity? name with
    | none =>
      rw [hfound] at hrel
      generalize c'.schema.entity? name = found' at hrel
      cases hrel
      exact .none
    | some e =>
      obtain ⟨e', hfound', he⟩ := h.entity?_some hfound
      rw [hfound']
      exact .some (he.agrees (entity?_named hfound).2)
  relation? entity name := by
    refine find?_eq_of_perm h.relations fun r hr r' hr' htest htest' => ?_
    rw [Bool.and_eq_true, beq_iff_eq, beq_iff_eq] at htest htest'
    exact relation_unique hr hr' (htest.1.trans htest'.1.symm) (htest.2.trans htest'.2.symm)

end Catalog

theorem Body.plan_reordered {c c' : Catalog} (h : c.schema.Reordered c'.schema) (b : Body) :
    b.plan c' = b.plan c := by
  have hplan := plan_mirrored (Catalog.agrees_of_reordered h) Function.injective_id b
  rwa [rename_id] at hplan

theorem Body.planChange_reordered {c c' : Catalog} (h : c.schema.Reordered c'.schema) (b : Body) :
    b.planChange c' = b.planChange c := by
  have hplan := planChange_mirrored (Catalog.agrees_of_reordered h) Function.injective_id b
  rwa [rename_id] at hplan

end EntityQuery
