import EntityQuery.Proofs.Evaluation.Ordering
import EntityQuery.Proofs.Evaluation.Sorting

/-!
# Sorting tuples by keys

Tuples whose keys can be read are sorted as they are ordered by the values of their keys. If each key is
a total preorder on them, so are all of them together.
-/

namespace EntityQuery

variable {S : Tuple → Prop} {keys : List SortKey} {tuples outer : List Tuple}

/-- The value of a key of a tuple. -/
def SortKey.read (outer : List Tuple) (key : SortKey) (tuple : Tuple) : Value :=
  (key.column.value tuple outer).toOption.getD .null

/-- Tuples whose keys can be read, with values of which something holds. -/
def SortKey.Reads (outer : List Tuple) (P : Value → Prop) (key : SortKey) (tuples : List Tuple) :
    Prop :=
  ∀ tuple ∈ tuples, ∃ v, key.column.value tuple outer = .ok v ∧ P v

theorem SortKey.Reads.value_eq {P : Value → Prop} {key : SortKey} (h : key.Reads outer P tuples)
    {tuple : Tuple} (htuple : tuple ∈ tuples) :
    key.column.value tuple outer = .ok (key.read outer tuple) := by
  obtain ⟨v, hv, -⟩ := h tuple htuple
  rw [read, hv]
  rfl

theorem SortKey.Reads.read {P : Value → Prop} {key : SortKey} (h : key.Reads outer P tuples)
    {tuple : Tuple} (htuple : tuple ∈ tuples) : P (key.read outer tuple) := by
  obtain ⟨v, hv, hP⟩ := h tuple htuple
  rw [SortKey.read, hv]
  exact hP

/-- The order of two tuples by the values of their keys. -/
def orderTuples (keys : List SortKey) (outer : List Tuple) (a b : Tuple) : Ordering :=
  orderKeys keys (keys.map (·.read outer a)) (keys.map (·.read outer b))

theorem orderTuples_cons (key : SortKey) (keys : List SortKey) (outer : List Tuple) (a b : Tuple) :
    orderTuples (key :: keys) outer a b =
      (key.direction.order (key.read outer a) (key.read outer b)).then
        (orderTuples keys outer a b) :=
  rfl

section Sorting

variable {sorter : Sorter}
  (hread : ∀ key ∈ keys, ∀ tuple ∈ tuples,
    key.column.value tuple outer = .ok (key.read outer tuple))

/-- A tuple beside the values of its keys. -/
def keyed (keys : List SortKey) (outer : List Tuple) (tuple : Tuple) : List Value × Tuple :=
  (keys.map (·.read outer tuple), tuple)

include hread in
/-- Tuples whose keys can be read are arranged beside their values. -/
theorem sortTuples_keyed :
    sortTuples sorter keys tuples outer = sorter.arrange keys (tuples.map (keyed keys outer)) := by
  have hkeyed : tuples.mapM (fun tuple => do
      let values ← keys.mapM fun key => key.column.value tuple outer
      .ok (values, tuple)) = (.ok (tuples.map (keyed keys outer)) : Except StoreError _) := by
    refine mapM_eq_map fun tuple htuple => ?_
    refine bind_eq_ok.mpr ⟨keys.map (·.read outer tuple), ?_, rfl⟩
    exact mapM_eq_map fun key hkey => hread key hkey tuple htuple
  rw [sortTuples, hkeyed]
  rfl

/-- Sorting does not see which values stand beside the tuples, only how they are ordered. -/
theorem sortBy_keyed (keys : List SortKey) (outer tuples : List Tuple) :
    (sortBy (fun a b => orderKeys keys a.1 b.1) (tuples.map (keyed keys outer))).map Prod.snd =
      sortBy (orderTuples keys outer) tuples := by
  have hsorted : List.Forall₂ (fun kv tuple => kv = keyed keys outer tuple)
      (sortBy (fun a b => orderKeys keys a.1 b.1) (tuples.map (keyed keys outer)))
      (sortBy (orderTuples keys outer) tuples) := by
    refine sortBy_forall₂ _ _ ?_ ?_
    · rintro _ _ a b rfl rfl
      rfl
    · rw [List.forall₂_map_left_iff, List.forall₂_same]
      exact fun _ _ => rfl
  rw [← List.forall₂_eq_eq_eq, List.forall₂_map_left_iff]
  exact hsorted.imp fun kv tuple hkv => by rw [hkv]; rfl

include hread in
theorem sortTuples_of_isTotal (h : sorter.IsTotal) :
    ∃ sorted, sortTuples sorter keys tuples outer = .ok sorted := by
  obtain ⟨sorted, hsorted⟩ :=
    h (fun a b => orderKeys keys a.1 b.1) (tuples.map (keyed keys outer))
  exact ⟨sorted.map Prod.snd, by rw [sortTuples_keyed hread, Sorter.arrange, hsorted]⟩

include hread in
/-- Under a total preorder every sorter arranges tuples as insertion does. -/
theorem sortTuples_eq (h : TotalPreorderOn (· ∈ tuples) (orderTuples keys outer)) :
    sortTuples sorter keys tuples outer = .ok (sortBy (orderTuples keys outer) tuples) := by
  have hkeyed : TotalPreorderOn (· ∈ tuples.map (keyed keys outer))
      fun a b => orderKeys keys a.1 b.1 := by
    constructor
    case swap =>
      intro _ _ ha hb
      obtain ⟨a, ha', rfl⟩ := List.mem_map.mp ha
      obtain ⟨b, hb', rfl⟩ := List.mem_map.mp hb
      exact h.swap ha' hb'
    case trans =>
      intro _ _ _ ha hb hc
      obtain ⟨a, ha', rfl⟩ := List.mem_map.mp ha
      obtain ⟨b, hb', rfl⟩ := List.mem_map.mp hb
      obtain ⟨c, hc', rfl⟩ := List.mem_map.mp hc
      exact h.trans ha' hb' hc'
  rw [sortTuples_keyed hread, Sorter.arrange, sorter.stable hkeyed, ← sortBy_keyed]

end Sorting

/-- Without keys nothing is sorted. -/
theorem sortTuples_nil (sorter : Sorter) (tuples : List Tuple) (outer : List Tuple) :
    sortTuples sorter [] tuples outer = .ok tuples := by
  have hlevel : ∀ a b, orderTuples [] outer a b = .eq := fun _ _ => rfl
  rw [sortTuples_eq (by simp) ⟨fun _ _ => rfl, fun _ _ _ _ _ => rfl⟩, sortBy_eq_self hlevel]

/-- A total preorder stays one in either direction. -/
theorem SortKey.totalPreorderOn {key : SortKey}
    (h : TotalPreorderOn S fun a b => (key.read outer a).sortOrder (key.read outer b)) :
    TotalPreorderOn S fun a b => key.direction.order (key.read outer a) (key.read outer b) := by
  obtain ⟨column, direction⟩ := key
  cases direction with
  | asc => exact h
  | desc => exact h.reverse

/-- Keys that are total preorders are one together. -/
theorem orderTuples_totalPreorderOn
    (h : ∀ key ∈ keys, TotalPreorderOn S fun a b =>
      (key.read outer a).sortOrder (key.read outer b)) :
    TotalPreorderOn S (orderTuples keys outer) := by
  induction keys with
  | nil => exact ⟨fun _ _ => rfl, fun _ _ _ _ _ => rfl⟩
  | cons key keys ih =>
    have hkey := SortKey.totalPreorderOn (h key List.mem_cons_self)
    exact hkey.andThen (ih fun key' hkey' => h key' (List.mem_cons_of_mem _ hkey'))

/-- The tuples of a plan: bound, and not yet ordered. -/
def Plan.matching (s : Source) (outer : List Tuple) (q : Plan) : Except StoreError (List Tuple) := do
  let bound ← s.tables.bind q.entity q.joins
  filterTuples s outer bound q.filter

end EntityQuery
