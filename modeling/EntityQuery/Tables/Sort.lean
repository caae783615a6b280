import EntityQuery.Tables.Tuple

/-!
# Ordering tuples

Tuples are ordered by a list of keys, the first that tells two tuples apart deciding. The order need not
be a total preorder, as values of several kinds may stand in one field. Where it is one, there is one
stable arrangement of the tuples, and every sorter finds it; elsewhere a sorter may arrange them as it
likes, or give up.
-/

namespace EntityQuery

/-! ## Stable sorting -/

/-- Insert behind all that it does not go before. The list is given last element first. -/
def insertLast (order : α → α → Ordering) (x : α) : List α → List α
  | [] => [x]
  | y :: ys => if order x y = .lt then y :: insertLast order x ys else x :: y :: ys

/-- Sort by inserting one element after the other. -/
def sortBy (order : α → α → Ordering) (xs : List α) : List α :=
  (xs.foldl (fun sorted x => insertLast order x sorted) []).reverse

theorem insertLast_perm {order : α → α → Ordering} (x : α) (xs : List α) :
    (insertLast order x xs).Perm (x :: xs) := by
  induction xs with
  | nil => exact .refl _
  | cons y ys ih =>
    unfold insertLast
    split
    · exact (ih.cons y).trans (.swap x y ys)
    · exact .refl _

/-- Sorting reorders. -/
theorem sortBy_perm (order : α → α → Ordering) (xs : List α) : (sortBy order xs).Perm xs := by
  -- On the items to be inserted, for whatever has been inserted before them.
  have hfold : ∀ sorted : List α,
      (xs.foldl (fun sorted x => insertLast order x sorted) sorted).Perm (xs.reverse ++ sorted) := by
    induction xs with
    | nil => exact fun sorted => .refl _
    | cons x xs ih =>
      intro sorted
      refine (ih (insertLast order x sorted)).trans ?_
      rw [List.reverse_cons, List.append_assoc]
      exact (insertLast_perm x sorted).append_left xs.reverse
  refine (List.reverse_perm _).trans ?_
  have := hfold []
  rw [List.append_nil] at this
  exact this.trans (List.reverse_perm xs)

/-! ## Sorters -/

/-- An order that is a total preorder on some elements. -/
structure TotalPreorderOn (S : α → Prop) (order : α → α → Ordering) : Prop where
  swap {a b : α} : S a → S b → order b a = (order a b).swap
  trans {a b c : α} : S a → S b → S c → (order a b).isLE = true → (order b c).isLE = true →
    (order a c).isLE = true

/-- A way to sort tuples that stand beside the values of their keys. -/
structure Sorter where
  /-- The tuples in order, if the sorter does not give up. -/
  sort : (List Value × Tuple → List Value × Tuple → Ordering) → List (List Value × Tuple) →
    Option (List (List Value × Tuple))
  /-- It loses no tuple and adds none. -/
  perm {order : List Value × Tuple → List Value × Tuple → Ordering}
    {keyed sorted : List (List Value × Tuple)} : sort order keyed = some sorted → sorted.Perm keyed
  /-- It sorts stably under a total preorder. -/
  stable {order : List Value × Tuple → List Value × Tuple → Ordering}
    {keyed : List (List Value × Tuple)} : TotalPreorderOn (· ∈ keyed) order →
      sort order keyed = some (sortBy order keyed)

/-- A sorter that never gives up. -/
def Sorter.IsTotal (sorter : Sorter) : Prop :=
  ∀ order keyed, ∃ sorted, sorter.sort order keyed = some sorted

/-- Sorting by insertion. -/
def Sorter.insertion : Sorter where
  sort order keyed := some (sortBy order keyed)
  perm h := Option.some.inj h ▸ sortBy_perm ..
  stable _ := rfl

theorem Sorter.insertion_isTotal : insertion.IsTotal :=
  fun _ _ => ⟨_, rfl⟩

instance : Inhabited Sorter := ⟨.insertion⟩

/-! ## Keys -/

/-- The order of two values under a direction: null first when ascending. -/
def Direction.order : Direction → Value → Value → Ordering
  | asc, a, b => a.sortOrder b
  | desc, a, b => (a.sortOrder b).swap

/-- The order of two lists of key values. -/
def orderKeys : List SortKey → List Value → List Value → Ordering
  | key :: keys, a :: as, b :: bs => (key.direction.order a b).then (orderKeys keys as bs)
  | _, _, _ => .eq

/-- Tuples in the order of the key values that they stand beside. -/
def Sorter.arrange (sorter : Sorter) (keys : List SortKey) (keyed : List (List Value × Tuple)) :
    Except StoreError (List Tuple) :=
  match sorter.sort (fun a b => orderKeys keys a.1 b.1) keyed with
  | some sorted => .ok (sorted.map Prod.snd)
  | none => .error (.evaluation .unsorted)

/-- Order tuples by keys, whose values are all read first. -/
def sortTuples (sorter : Sorter) (keys : List SortKey) (tuples : List Tuple) (outer : List Tuple) :
    Except StoreError (List Tuple) := do
  let keyed ← tuples.mapM fun tuple => do
    let values ← keys.mapM fun key => key.column.value tuple outer
    .ok (values, tuple)
  sorter.arrange keys keyed

end EntityQuery
