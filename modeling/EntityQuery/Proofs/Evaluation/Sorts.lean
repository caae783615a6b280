import EntityQuery.Proofs.Evaluation.KeyOrder

/-!
# What a query sorts

Evaluating a query sorts its own tuples and, for each tuple that it binds, those of the queries in it.
Where each of these sorts is by keys that are a total preorder, all sorters do the same.
-/

namespace EntityQuery

/-! ## Queries in a plan -/

def Operand.query? : Operand → Option Plan
  | query q => some q
  | _ => none

def Item.query? : Item → Option Plan
  | expr operand => operand.query?
  | record _ => none

/-- The queries that stand in a condition, but not those within them. -/
def Predicate.queries : Predicate → List Plan
  | compare left _ right => left.query?.toList ++ right.query?.toList
  | like operand .. | inList operand .. | isNull operand _ => operand.query?.toList
  | inQuery operand q _ => operand.query?.toList ++ [q]
  | isEmpty .. => []
  | isMember value .. => value.query?.toList
  | and left right | or left right => left.queries ++ right.queries

def Projection.queries : Projection → List Plan
  | root => []
  | items xs => xs.filterMap Item.query?

/-- The queries that stand in a query itself. -/
def Plan.queries (q : Plan) : List Plan :=
  q.filter.toList.flatMap Predicate.queries ++ q.projection.queries

/-! ## Sorts -/

/-- What is sorted in evaluating a query, by which keys and in which outer tuples: its own tuples unless
it aggregates, and what the queries in it sort, for any tuple that it binds. -/
inductive Plan.Sorts (s : Source) :
    Plan → List Tuple → List SortKey → List Tuple → List Tuple → Prop
  | own {q : Plan} {outer tuples : List Tuple} : q.projection.isAggregate = false →
      q.matching s outer = .ok tuples → Sorts s q outer q.orderBy tuples outer
  | nested {q r : Plan} {outer bound tuples around : List Tuple} {tuple : Tuple}
      {keys : List SortKey} : s.tables.bind q.entity q.joins = .ok bound → tuple ∈ bound →
      r ∈ q.queries → Sorts s r (tuple :: outer) keys tuples around →
      Sorts s q outer keys tuples around

/-- Each sort in evaluating a query is by keys that are a total preorder on what is sorted. -/
def Plan.SortsPreordered (s : Source) (outer : List Tuple) (q : Plan) : Prop :=
  ∀ keys tuples around, q.Sorts s outer keys tuples around →
    TotalPreorderOn (· ∈ tuples) (orderTuples keys around)

/-- The sorters of two sources do the same in evaluating a query in the first. -/
def Plan.SortsAlike (s s' : Source) (outer : List Tuple) (q : Plan) : Prop :=
  ∀ keys tuples around, q.Sorts s outer keys tuples around →
    sortTuples s.sorter keys tuples around = sortTuples s'.sorter keys tuples around

section Sorts

variable {s s' : Source} {q r : Plan} {outer : List Tuple}

theorem Plan.SortsAlike.nested (h : q.SortsAlike s s' outer) {bound : List Tuple} {tuple : Tuple}
    (hbound : s.tables.bind q.entity q.joins = .ok bound) (htuple : tuple ∈ bound)
    (hr : r ∈ q.queries) : r.SortsAlike s s' (tuple :: outer) :=
  fun keys tuples around hsorts => h keys tuples around (.nested hbound htuple hr hsorts)

/-- What a query sorts is preordered if all that it binds is, and what the queries in it sort. -/
theorem Plan.sortsPreordered
    (hown : ∀ bound, s.tables.bind q.entity q.joins = .ok bound →
      TotalPreorderOn (· ∈ bound) (orderTuples q.orderBy outer))
    (hnested : ∀ r ∈ q.queries, ∀ tuple, r.SortsPreordered s (tuple :: outer)) :
    q.SortsPreordered s outer := by
  intro keys tuples around hsorts
  cases hsorts with
  | own _ hmatching =>
    obtain ⟨bound, hbound, hkept⟩ := bind_eq_ok.mp hmatching
    exact (hown bound hbound).comap id fun tuple htuple => mem_of_filterTuples hkept htuple
  | nested _ _ hr hsorts => exact hnested _ hr _ keys tuples around hsorts

/-- Without keys nothing is told apart. -/
theorem Plan.sortsPreordered_of_unordered (hkeys : q.orderBy = []) (hqueries : q.queries = []) :
    q.SortsPreordered s outer := by
  refine sortsPreordered (fun bound _ => ?_) ?_
  · rw [hkeys]
    exact ⟨fun _ _ => rfl, fun _ _ _ _ _ => rfl⟩
  · rw [hqueries]
    simp

theorem Plan.sortsAlike_of_eq (h : s.sorter = s'.sorter) : q.SortsAlike s s' outer :=
  fun keys tuples around _ => by rw [h]

/-- Under a total preorder all sorters do the same, be it that they fail on a key. -/
theorem sortTuples_sorter {sorter sorter' : Sorter} {keys : List SortKey} {tuples : List Tuple}
    (h : TotalPreorderOn (· ∈ tuples) (orderTuples keys outer)) :
    sortTuples sorter keys tuples outer = sortTuples sorter' keys tuples outer := by
  rw [sortTuples, sortTuples]
  refine bind_congr_ok rfl fun keyed hkeyed => ?_
  -- Where the keys have been read, each has the value that it is compared by.
  have hread : ∀ key ∈ keys, ∀ tuple ∈ tuples,
      key.column.value tuple outer = .ok (key.read outer tuple) := by
    intro key hkey tuple htuple
    obtain ⟨beside, -, hbeside⟩ := forall₂_mem (mapM_eq_ok.mp hkeyed) htuple
    obtain ⟨values, hvalues, -⟩ := bind_eq_ok.mp hbeside
    obtain ⟨v, -, hv⟩ := forall₂_mem (mapM_eq_ok.mp hvalues) hkey
    rw [hv, SortKey.read, hv]
    rfl
  -- So what either sorter arranges is the one stable order of the keys.
  have hsorted : ∀ sorter'' : Sorter, sorter''.arrange keys keyed =
      .ok (sortBy (orderTuples keys outer) tuples) := by
    intro sorter''
    have h' : sortTuples sorter'' keys tuples outer = .ok (sortBy (orderTuples keys outer) tuples) :=
      sortTuples_eq hread h
    rw [sortTuples, hkeyed] at h'
    exact h'
  rw [hsorted, hsorted]

theorem Plan.SortsPreordered.alike (h : q.SortsPreordered s outer) : q.SortsAlike s s' outer :=
  fun keys tuples around hsorts => sortTuples_sorter (h keys tuples around hsorts)

end Sorts

end EntityQuery
