import EntityQuery.Proofs.Evaluation.Sorts

/-!
# The tables that a query reads

A query reads the tables of the entities that it binds, those of the related rows that it tests, and
those that the queries in it read. No other table makes a difference to its rows, nor to the failure
that there may be in place of them; nor does another sorter, if it sorts what the query sorts alike.
-/

namespace EntityQuery

/-! ## What is read -/

/-- The entities whose tables a collection is read from. -/
def Collection.reads : Collection → List String
  | related rows => [rows.entity]
  | stored _ => []

mutual

/-- The entities whose tables a query reads. -/
def Plan.reads (q : Plan) : List String :=
  match q with
  | ⟨entity, joins, filter, projection, _, _, _, _⟩ =>
    entity :: joins.map Join.entity ++ (filterReads filter ++ projection.reads)
termination_by structural q

/-- Those that a filter reads besides the rows that it is asked of. -/
def filterReads (filter : Option Predicate) : List String :=
  match filter with
  | none => []
  | some p => p.reads
termination_by structural filter

def Projection.reads (projection : Projection) : List String :=
  match projection with
  | .root => []
  | .items xs => itemsReads xs
termination_by structural projection

def itemsReads (xs : List Item) : List String :=
  match xs with
  | [] => []
  | x :: xs => x.reads ++ itemsReads xs
termination_by structural xs

def Item.reads (x : Item) : List String :=
  match x with
  | .record _ => []
  | .expr operand => operand.reads
termination_by structural x

/-- Only a nested query reads tables. -/
def Operand.reads (o : Operand) : List String :=
  match o with
  | .column _ => []
  | .literal _ => []
  | .parameter _ => []
  | .query q => q.reads
  | .aggregate .. => []
termination_by structural o

def Predicate.reads (p : Predicate) : List String :=
  match p with
  | .compare left _ right => left.reads ++ right.reads
  | .like operand .. => operand.reads
  | .inList operand .. => operand.reads
  | .inQuery operand q _ => operand.reads ++ q.reads
  | .isNull operand _ => operand.reads
  | .isEmpty collection _ => collection.reads
  | .isMember value collection _ => value.reads ++ collection.reads
  | .and left right => left.reads ++ right.reads
  | .or left right => left.reads ++ right.reads
termination_by structural p

end

/-! ## Sources that agree -/

/-- Sources with the same parameters, and the same tables of some entities. -/
structure Source.AgreeOn (names : List String) (s s' : Source) : Prop where
  parameters : s.parameters = s'.parameters
  table? : ∀ name ∈ names, s.tables.table? name = s'.tables.table? name

namespace Source.AgreeOn

variable {s s' : Source} {names more : List String}

theorem mono (h : AgreeOn more s s') (hsub : names ⊆ more) : AgreeOn names s s' :=
  ⟨h.parameters, fun name hname => h.table? name (hsub hname)⟩

theorem left (h : AgreeOn (names ++ more) s s') : AgreeOn names s s' :=
  h.mono (List.subset_append_left names more)

theorem right (h : AgreeOn (names ++ more) s s') : AgreeOn more s s' :=
  h.mono (List.subset_append_right names more)

theorem table (h : AgreeOn names s s') {name : String} (hname : name ∈ names) :
    s.tables.table name = s'.tables.table name := by
  rw [Tables.table, Tables.table, h.table? name hname]

theorem parameter (h : AgreeOn names s s') (name : String) : s.parameter name = s'.parameter name := by
  rw [Source.parameter, Source.parameter, h.parameters]

/-! ## Binding -/

theorem joinAll {joins : List Join} (h : AgreeOn (joins.map Join.entity) s s')
    (tuples : List Tuple) : s.tables.joinAll joins tuples = s'.tables.joinAll joins tuples := by
  induction joins generalizing tuples with
  | nil => rfl
  | cons j joins ih =>
    have htargets : s.tables.table j.entity = s'.tables.table j.entity :=
      h.table List.mem_cons_self
    have hrest : AgreeOn (joins.map Join.entity) s s' := h.mono (List.subset_cons_self _ _)
    simp only [Tables.joinAll, Join.apply, htargets, ih hrest]

theorem bind {entity : String} {joins : List Join}
    (h : AgreeOn (entity :: joins.map Join.entity) s s') :
    s.tables.bind entity joins = s'.tables.bind entity joins := by
  have hroot : s.tables.table entity = s'.tables.table entity := h.table List.mem_cons_self
  have hjoins : AgreeOn (joins.map Join.entity) s s' := h.mono (List.subset_cons_self _ _)
  simp only [Tables.bind, hroot, hjoins.joinAll]

/-! ## Collections -/

theorem elements {c : Collection} (h : AgreeOn c.reads s s') (tuple : Tuple) (outer : List Tuple) :
    s.elements c tuple outer = s'.elements c tuple outer := by
  cases c with
  | related r =>
    have htargets : s.tables.table r.entity = s'.tables.table r.entity :=
      h.table List.mem_cons_self
    simp only [Source.elements, Source.relatedIdentities, htargets]
  | stored column => rfl

end Source.AgreeOn

/-! ## Evaluation -/

section Evaluation

variable {s s' : Source}

mutual

/-- The rows of a query depend on the tables that it reads and on what sorters do to what it sorts. -/
theorem Plan.rows_agree (q : Plan) (h : s.AgreeOn q.reads s') (outer : List Tuple)
    (hsorts : q.SortsAlike s s' outer) : q.rows s outer = q.rows s' outer := by
  match q with
  | ⟨entity, joins, filter, projection, distinct, orderBy, window, parameters⟩ =>
    rw [Plan.reads] at h
    rw [Plan.rows, Plan.rows]
    refine bind_congr_ok h.left.bind fun bound hbound => ?_
    refine bind_congr_ok (filterTuples_agree filter h.right.left outer bound
      fun tuple htuple r hr => hsorts.nested hbound htuple (List.mem_append_left _ hr))
      fun kept hkept => ?_
    split
    · rfl
    · rename_i hagg
      have hmatching : Plan.matching s outer
          ⟨entity, joins, filter, projection, distinct, orderBy, window, parameters⟩ = .ok kept :=
        bind_eq_ok.mpr ⟨bound, hbound, hkept⟩
      refine bind_congr_ok (hsorts _ _ _ (.own (Bool.eq_false_iff.mpr hagg) hmatching))
        fun sorted hsorted => ?_
      -- What is sorted has been bound, so the queries among the items are evaluated for it.
      refine bind_congr_ok (mapM_congr fun tuple htuple => ?_) fun rows _ => rfl
      have hbound' := mem_of_filterTuples hkept ((sortTuples_perm hsorted).mem_iff.mp htuple)
      exact Projection.row_agree projection h.right.right tuple outer
        fun r hr => hsorts.nested hbound hbound' (List.mem_append_right _ hr)
termination_by structural q

theorem filterTuples_agree (filter : Option Predicate) (h : s.AgreeOn (filterReads filter) s')
    (outer tuples : List Tuple)
    (hsorts : ∀ tuple ∈ tuples, ∀ r ∈ filter.toList.flatMap Predicate.queries,
      r.SortsAlike s s' (tuple :: outer)) :
    filterTuples s outer tuples filter = filterTuples s' outer tuples filter := by
  match filter with
  | none => rw [filterTuples, filterTuples]
  | some p =>
    rw [filterReads] at h
    rw [filterTuples, filterTuples]
    refine flatMapE_congr fun tuple htuple => ?_
    rw [Predicate.truth_agree p h tuple outer fun r hr =>
      hsorts tuple htuple r (List.mem_flatMap.mpr ⟨p, List.mem_singleton_self p, hr⟩)]
termination_by structural filter

theorem Projection.row_agree (projection : Projection) (h : s.AgreeOn projection.reads s')
    (tuple : Tuple) (outer : List Tuple)
    (hsorts : ∀ r ∈ projection.queries, r.SortsAlike s s' (tuple :: outer)) :
    projection.row s tuple outer = projection.row s' tuple outer := by
  match projection with
  | .root => rw [Projection.row, Projection.row]
  | .items xs =>
    rw [Projection.reads] at h
    rw [Projection.row, Projection.row, itemCells_agree xs h tuple outer fun x hx r hr =>
      hsorts r (List.mem_filterMap.mpr ⟨x, hx, hr⟩)]
termination_by structural projection

theorem itemCells_agree (xs : List Item) (h : s.AgreeOn (itemsReads xs) s') (tuple : Tuple)
    (outer : List Tuple)
    (hsorts : ∀ x ∈ xs, ∀ r ∈ x.query?, r.SortsAlike s s' (tuple :: outer)) :
    itemCells s tuple outer xs = itemCells s' tuple outer xs := by
  match xs with
  | [] => rw [itemCells, itemCells]
  | x :: xs =>
    rw [itemsReads] at h
    rw [itemCells, itemCells,
      Item.cell_agree x h.left tuple outer (hsorts x List.mem_cons_self),
      itemCells_agree xs h.right tuple outer fun x' hx' => hsorts x' (List.mem_cons_of_mem _ hx')]
termination_by structural xs

theorem Item.cell_agree (x : Item) (h : s.AgreeOn x.reads s') (tuple : Tuple)
    (outer : List Tuple) (hsorts : ∀ r ∈ x.query?, r.SortsAlike s s' (tuple :: outer)) :
    x.cell s tuple outer = x.cell s' tuple outer := by
  match x with
  | .record slot => rw [Item.cell, Item.cell]
  | .expr operand =>
    rw [Item.reads] at h
    rw [Item.cell, Item.cell, Operand.value_agree operand h tuple outer hsorts]
termination_by structural x

theorem Operand.value_agree (o : Operand) (h : s.AgreeOn o.reads s') (tuple : Tuple)
    (outer : List Tuple) (hsorts : ∀ r ∈ o.query?, r.SortsAlike s s' (tuple :: outer)) :
    o.value s tuple outer = o.value s' tuple outer := by
  match o with
  | .column c => rw [Operand.value, Operand.value]
  | .literal v => rw [Operand.value, Operand.value]
  | .parameter name => rw [Operand.value, Operand.value, h.parameter]
  | .query q =>
    rw [Operand.reads] at h
    rw [Operand.value, Operand.value, Plan.rows_agree q h (tuple :: outer) (hsorts q rfl)]
  | .aggregate f column => rw [Operand.value, Operand.value]
termination_by structural o

/-- The truth of a condition depends on the row and on the tables that it reads. -/
theorem Predicate.truth_agree (p : Predicate) (h : s.AgreeOn p.reads s') (tuple : Tuple)
    (outer : List Tuple) (hsorts : ∀ r ∈ p.queries, r.SortsAlike s s' (tuple :: outer)) :
    p.truth s tuple outer = p.truth s' tuple outer := by
  match p with
  | .compare left op right =>
    rw [Predicate.reads] at h
    -- What is read is read by both sides, and so are the sorts in both.
    rw [Predicate.truth, Predicate.truth,
      Operand.value_agree left h.left tuple outer fun r hr =>
        hsorts r (List.mem_append_left _ (Option.mem_toList.mpr hr)),
      Operand.value_agree right h.right tuple outer fun r hr =>
        hsorts r (List.mem_append_right _ (Option.mem_toList.mpr hr))]
  | .like operand pattern negated =>
    rw [Predicate.reads] at h
    rw [Predicate.truth, Predicate.truth, Operand.value_agree operand h tuple outer fun r hr =>
      hsorts r (Option.mem_toList.mpr hr)]
  | .inList operand values negated =>
    rw [Predicate.reads] at h
    rw [Predicate.truth, Predicate.truth, Operand.value_agree operand h tuple outer fun r hr =>
      hsorts r (Option.mem_toList.mpr hr)]
  | .inQuery operand q negated =>
    rw [Predicate.reads] at h
    rw [Predicate.truth, Predicate.truth,
      Operand.value_agree operand h.left tuple outer fun r hr =>
        hsorts r (List.mem_append_left _ (Option.mem_toList.mpr hr)),
      Plan.rows_agree q h.right (tuple :: outer)
        (hsorts q (List.mem_append_right _ (List.mem_singleton_self q)))]
  | .isNull operand negated =>
    rw [Predicate.reads] at h
    rw [Predicate.truth, Predicate.truth, Operand.value_agree operand h tuple outer fun r hr =>
      hsorts r (Option.mem_toList.mpr hr)]
  | .isEmpty collection negated =>
    rw [Predicate.reads] at h
    rw [Predicate.truth, Predicate.truth, h.elements tuple outer]
  | .isMember value collection negated =>
    rw [Predicate.reads] at h
    rw [Predicate.truth, Predicate.truth,
      Operand.value_agree value h.left tuple outer fun r hr =>
        hsorts r (Option.mem_toList.mpr hr),
      h.right.elements tuple outer]
  | .and left right =>
    rw [Predicate.reads] at h
    rw [Predicate.truth, Predicate.truth,
      Predicate.truth_agree left h.left tuple outer fun r hr =>
        hsorts r (List.mem_append_left _ hr),
      Predicate.truth_agree right h.right tuple outer fun r hr =>
        hsorts r (List.mem_append_right _ hr)]
  | .or left right =>
    rw [Predicate.reads] at h
    rw [Predicate.truth, Predicate.truth,
      Predicate.truth_agree left h.left tuple outer fun r hr =>
        hsorts r (List.mem_append_left _ hr),
      Predicate.truth_agree right h.right tuple outer fun r hr =>
        hsorts r (List.mem_append_right _ hr)]
termination_by structural p

end

/-- If each sort is by keys that are a total preorder, the sorter makes no difference. -/
theorem Tables.fetchBy_eq_fetch {t : Tables} {q : Plan} {sorter : Sorter}
    (h : q.SortsPreordered ⟨t, q.parameters, sorter⟩ []) : t.fetchBy sorter q = t.fetch q :=
  have hagree : Source.AgreeOn q.reads ⟨t, q.parameters, sorter⟩ ⟨t, q.parameters, .insertion⟩ :=
    ⟨rfl, fun _ _ => rfl⟩
  q.rows_agree hagree [] h.alike

end Evaluation

end EntityQuery
