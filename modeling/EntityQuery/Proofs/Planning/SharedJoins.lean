import EntityQuery.Proofs.Evaluation.Outcomes
import EntityQuery.Proofs.Planning.Binding

/-!
# Shared joins

The joins of a planned query are the declared ones, in their order, and then inner joins along to-one
relations that some path takes. A join is added only where there is none along its relation from its
parent, so all paths that take a relation from one slot get to one slot: that of the first declared
join along it, if there is one.
-/

namespace EntityQuery

/-! ## Joins of a plan -/

/-- The slot where paths start. The declared joins have the first slots. -/
def Origin.slot : Origin → Nat
  | root => 0
  | join index => index + 1

/-- The join that a declaration asks for. -/
structure JoinDeclaration.IsMetBy (d : JoinDeclaration) (j : Join) : Prop where
  parent : j.parent = d.parent.slot
  relation : j.relation = d.relation
  entity : j.entity = d.entity
  kind : j.kind = d.kind

/-- The slot of the first join along a relation from a slot. -/
def Plan.joinAlong? (q : Plan) (parent : Nat) (relation : String) : Option Nat :=
  (q.joins.find? fun j => j.parent == parent && j.relation == relation).map Join.slot

/-- The joins of a query with declarations. -/
structure Plan.SharesJoins (c : Catalog) (ds : List JoinDeclaration) (q : Plan) : Prop where
  numbered : ∀ (k : Nat) (j : Join), q.joins[k]? = some j → j.slot = k + 1
  /-- The declared joins come first, in order. -/
  declared : List.Forall₂ JoinDeclaration.IsMetBy ds (q.joins.take ds.length)
  /-- All others are inner joins along relations to one record. -/
  further : ∀ j ∈ q.joins.drop ds.length, j.kind = .inner ∧
    ∃ owner r, q.entityOf? j.parent = some owner ∧ c.relation? owner j.relation = some r ∧
      r.isToMany = false
  /-- No join but a declared one is along the same relation as an earlier one. -/
  once : ∀ (i k : Nat) (a b : Join), i < k → ds.length ≤ k → q.joins[i]? = some a →
    q.joins[k]? = some b → a.parent = b.parent → a.relation ≠ b.relation
  /-- The first declared join along a relation is the one that is used. -/
  first : ∀ (k : Nat) (d : JoinDeclaration), ds[k]? = some d →
    (∀ i d', i < k → ds[i]? = some d' → d'.parent = d.parent → d'.relation ≠ d.relation) →
    q.joinAlong? d.parent.slot d.relation = some (k + 1)

/-! ## Joins of a frame -/

namespace Frame.Built

variable {c : Catalog} {scope : Nat} {entity : String} {ds : List JoinDeclaration} {f : Frame}

/-- The root and the declared joins have the slots where their paths start. -/
theorem slotOf?_eq (h : Built c scope entity ds f) {origin : Origin} {slot : Nat}
    (hslot : f.slotOf? origin = some slot) : slot = origin.slot := by
  cases origin with
  | root => exact (Option.some.inj hslot).symm
  | join index =>
    rw [slotOf?, h.declared_eq, List.getElem?_map, Option.map_eq_some_iff] at hslot
    obtain ⟨i, hi, rfl⟩ := hslot
    obtain ⟨hlt, rfl⟩ := List.getElem?_eq_some_iff.mp hi
    rw [List.getElem_range]
    rfl

theorem declared_first (h : Built c scope entity ds f) :
    List.Forall₂ JoinDeclaration.IsMetBy ds (f.joins.take ds.length) := by
  induction h with
  | new => exact .nil
  | @declare ds f d parent owner r h hlength hparent howner hr hentity hmany ih =>
    rw [← hlength, List.take_length] at ih
    rw [← length_declare hlength parent r d.kind, List.take_length]
    exact List.rel_append ih
      (.cons ⟨h.slotOf?_eq hparent, (Schema.relation?_name hr).2, hentity, rfl⟩ .nil)
  | hop h _ _ _ _ ih =>
    show List.Forall₂ _ _ ((_ ++ [_]).take _)
    rw [List.take_append_of_le_length h.length_le]
    exact ih

theorem further_inner (h : Built c scope entity ds f) : ∀ j ∈ f.joins.drop ds.length,
    j.kind = .inner ∧ ∃ owner r, f.entityOf? j.parent = some owner ∧
      c.relation? owner j.relation = some r ∧ r.isToMany = false := by
  induction h with
  | new => simp [Frame.new]
  | @declare ds f d parent owner r _ hlength =>
    rw [← length_declare hlength parent r d.kind, List.drop_length]
    intro j hj
    cases hj
  | @hop ds f parent owner r h howner hr hjoin hmany ih =>
    intro j hj
    have hext := Extends.pushJoin f parent r .inner
    change j ∈ (f.joins ++ [_]).drop ds.length at hj
    rw [List.drop_append_of_le_length h.length_le] at hj
    rcases List.mem_append.mp hj with hj | hj
    · obtain ⟨hinner, owner', r', howner', hr', hone⟩ := ih j hj
      exact ⟨hinner, owner', r', hext.entityOf? howner', hr', hone⟩
    · obtain rfl := List.mem_singleton.mp hj
      exact ⟨rfl, owner, r, hext.entityOf? howner, hr, hmany⟩

/-- A join that is not declared is added where there is none along its relation. -/
theorem joined_once (h : Built c scope entity ds f) {i k : Nat} {a b : Join} (hik : i < k)
    (hk : ds.length ≤ k) (ha : f.joins[i]? = some a) (hb : f.joins[k]? = some b)
    (hparent : a.parent = b.parent) : a.relation ≠ b.relation := by
  induction h with
  | new => cases hb
  | @declare ds f d parent owner r _ hlength =>
    obtain ⟨hlt, -⟩ := List.getElem?_eq_some_iff.mp hb
    rw [length_declare (d := d) hlength] at hlt
    omega
  | @hop ds f parent owner r h howner hr hjoin hmany ih =>
    obtain ⟨hlt, -⟩ := List.getElem?_eq_some_iff.mp hb
    rw [length_pushJoin] at hlt
    change (f.joins ++ [_])[i]? = some a at ha
    change (f.joins ++ [_])[k]? = some b at hb
    rw [List.getElem?_append_left (by omega)] at ha
    -- The later join is an old one, or the one that is pushed.
    obtain hold | rfl := Nat.lt_or_eq_of_le (Nat.le_of_lt_succ hlt)
    · rw [List.getElem?_append_left hold] at hb
      exact ih hk ha hb
    · rw [List.getElem?_concat_length] at hb
      obtain rfl := Option.some.inj hb
      intro hrelation
      -- It is pushed because no join goes along its relation, and an earlier one would.
      have hnone := List.find?_eq_none.mp (Option.map_eq_none_iff.mp hjoin) a
        (List.mem_of_getElem? ha)
      simp only [hparent, hrelation, BEq.rfl, Bool.and_self, not_true_eq_false] at hnone

end Frame.Built

theorem Origin.slot_inj {a b : Origin} (h : a.slot = b.slot) : a = b := by
  cases a <;> cases b
  · rfl
  · cases h
  · cases h
  · rw [Nat.succ.inj h]

/-- The joins of a frame are those of its plan. -/
theorem Frame.Built.sharesJoins {c : Catalog} {scope : Nat} {entity : String}
    {ds : List JoinDeclaration} {f : Frame} (h : Built c scope entity ds f) {q : Plan}
    (hentity : q.entity = f.entity) (hjoins : q.joins = f.joins) : q.SharesJoins c ds where
  numbered k j hj := by
    rw [hjoins] at hj
    exact (h.ordered k j hj).1
  declared := by
    rw [hjoins]
    exact h.declared_first
  further j hj := by
    rw [hjoins] at hj
    obtain ⟨hinner, owner, r, howner, hr, hone⟩ := h.further_inner j hj
    refine ⟨hinner, owner, r, ?_, hr, hone⟩
    rw [Plan.entityOf?, Plan.join?, hentity, hjoins]
    exact howner
  once i k a b hik hk ha hb := by
    rw [hjoins] at ha hb
    exact h.joined_once hik hk ha hb
  first k d hd hfirst := by
    -- The declared joins are the first of the frame, in their order.
    have hmet : ∀ {i : Nat} {d : JoinDeclaration}, ds[i]? = some d →
        ∃ j, f.joins[i]? = some j ∧ d.IsMetBy j := by
      intro i d hd
      obtain ⟨j, hj, hmet⟩ := forall₂_getElem? h.declared_first hd
      rw [List.getElem?_take_of_lt (List.getElem?_eq_some_iff.mp hd).1] at hj
      exact ⟨j, hj, hmet⟩
    obtain ⟨j, hj, hparent, hrelation, -, -⟩ := hmet hd
    obtain ⟨hk, rfl⟩ := List.getElem?_eq_some_iff.mp hj
    -- No earlier join has the same parent and relation, or its declaration would have.
    have hfound : f.joins.find? (fun j => j.parent == d.parent.slot && j.relation == d.relation) =
        some f.joins[k] := by
      refine List.find?_eq_some_iff_getElem.mpr ⟨by simp [hparent, hrelation], k, hk, rfl, ?_⟩
      intro i hi
      have hids : i < ds.length := by
        have := (List.getElem?_eq_some_iff.mp hd).1
        omega
      obtain ⟨j', hj', hparent', hrelation', -, -⟩ := hmet (List.getElem?_eq_getElem hids)
      obtain ⟨_, rfl⟩ := List.getElem?_eq_some_iff.mp hj'
      have hother := hfirst i ds[i] hi (List.getElem?_eq_getElem hids)
      simp only [Bool.not_eq_true', Bool.and_eq_false_imp, beq_iff_eq, beq_eq_false_iff_ne]
      intro hsame
      rw [hrelation']
      exact hother (Origin.slot_inj (hparent'.symm.trans hsame))
    rw [Plan.joinAlong?, hjoins, hfound, Option.map_some, (h.ordered k _ hj).1]

end EntityQuery
