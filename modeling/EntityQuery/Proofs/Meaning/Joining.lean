import EntityQuery.Proofs.Evaluation.Matching
import EntityQuery.Proofs.Meaning.Growth
import Mathlib.Data.Multiset.Bind

/-!
# Joining in another order

A binding extends each tuple by the records that match at its parent. Two bindings of different places
may change places if neither starts from the other, so all orders in which parents are bound first give
the same tuples, each as often.
-/

namespace EntityQuery

/-! ## Readings of tuples -/

/-- What stands at each place. -/
abbrev Reading := Place → Option Record

/-- The reading of a tuple: nothing where nothing is bound. -/
def NamedTuple.reading (tuple : NamedTuple) : Reading := fun a =>
  (tuple.lookup a).join

theorem NamedTuple.reading_append {tuple : NamedTuple} {a : Place}
    (ha : a ∉ tuple.map Prod.fst) (o : Option Record) :
    NamedTuple.reading (tuple ++ [(a, o)]) = Function.update (NamedTuple.reading tuple) a o := by
  funext b
  change ((tuple ++ [(a, o)]).lookup b).join = _
  rw [List.lookup_append]
  by_cases hb : b = a
  · subst hb
    have hnone : tuple.lookup b = none := by
      rw [List.lookup_eq_none_iff]
      intro x hx
      have hne : b ≠ x.1 := fun heq => ha (heq ▸ List.mem_map_of_mem hx)
      simpa using hne
    rw [hnone, Option.none_or, List.lookup_cons_self, Function.update_self]
    rfl
  · rw [List.lookup_cons, beq_eq_false_iff_ne.mpr hb, List.lookup_nil, Option.or_none,
      Function.update_of_ne hb]
    rfl

/-! ## Steps -/

namespace Binding

variable {t : Tables} {x y : Binding}

/-- The records that a binding gives at its place for the record at its parent. -/
def choices (t : Tables) (x : Binding) (parent : Option Record) : List (Option Record) :=
  match t.table x.relation.toEntity with
  | .error _ => []
  | .ok targets =>
    match related (fieldValue parent x.relation.fromField) x.relation.toField targets, x.kind with
    | [], .inner => []
    | [], .left => [none]
    | records, _ => records.map some

theorem extend_eq {targets : List Record} (h : t.table x.relation.toEntity = .ok targets)
    (tuple : NamedTuple) : x.extend targets tuple =
      (x.choices t (NamedTuple.reading tuple x.parent)).map fun o => tuple ++ [(x.place, o)] := by
  simp only [extend, choices, h, NamedTuple.reading]
  generalize related (fieldValue (tuple.lookup x.parent).join x.relation.fromField)
    x.relation.toField targets = records
  cases records with
  | nil =>
    cases x.kind with
    | inner => rfl
    | left => rfl
  | cons r rs =>
    simp only [List.map_map]
    rfl

/-- Extend readings by a binding. -/
def step (t : Tables) (x : Binding) (m : Multiset Reading) : Multiset Reading :=
  m.bind fun f => (Multiset.ofList (x.choices t (f x.parent))).map (Function.update f x.place)

/-- Bindings of which neither starts from the other may change places. -/
theorem step_comm (hplace : x.place ≠ y.place) (hxy : x.place ≠ y.parent)
    (hyx : y.place ≠ x.parent) (m : Multiset Reading) :
    x.step t (y.step t m) = y.step t (x.step t m) := by
  unfold step
  rw [Multiset.bind_assoc, Multiset.bind_assoc]
  refine Multiset.bind_congr fun f _ => ?_
  rw [Multiset.bind_map, Multiset.bind_map]
  simp only [Function.update_of_ne hxy.symm, Function.update_of_ne hyx.symm]
  rw [Multiset.bind_map_comm]
  refine Multiset.bind_congr fun o _ => Multiset.map_congr rfl fun o' _ => ?_
  exact Function.update_comm hplace.symm o' o f

end Binding

/-- Extend readings by bindings one after the other. -/
def stepAll (t : Tables) (xs : List Binding) (m : Multiset Reading) : Multiset Reading :=
  xs.foldl (fun m x => x.step t m) m

theorem stepAll_cons (t : Tables) (x : Binding) (xs : List Binding) (m : Multiset Reading) :
    stepAll t (x :: xs) m = stepAll t xs (x.step t m) :=
  rfl

/-! ## Chains in another order -/

section Order

variable {t : Tables} {known : Set Place} {x : Binding} {xs ys zs : List Binding}

/-- A binding whose parent is known may come first. -/
theorem Chained.front (h : Chained known (xs ++ x :: ys)) (hx : x.parent ∈ known) :
    Chained known (x :: (xs ++ ys)) ∧
      ∀ m, stepAll t (xs ++ x :: ys) m = stepAll t (x :: (xs ++ ys)) m := by
  induction xs generalizing known with
  | nil => exact ⟨h, fun m => rfl⟩
  | cons y xs ih =>
    obtain ⟨hparent, hplace, hxs⟩ := h
    -- No place is bound twice.
    have hnew : x.place ∉ insert y.place known := hxs.fresh (List.mem_append_right _ List.mem_cons_self)
    rw [Set.mem_insert_iff, not_or] at hnew
    obtain ⟨⟨-, -, hrest⟩, hsteps⟩ := ih hxs (Set.mem_insert_of_mem y.place hx)
    rw [Set.insert_comm] at hrest
    constructor
    · refine ⟨hx, hnew.2, Set.mem_insert_of_mem x.place hparent, ?_, hrest⟩
      rw [Set.mem_insert_iff, not_or]
      exact ⟨fun heq => hnew.1 heq.symm, hplace⟩
    · intro m
      -- Neither of the two hops leaves from where the other ends, so they commute.
      have hxy : x.place ≠ y.parent := fun heq => hnew.2 (heq ▸ hparent)
      have hyx : y.place ≠ x.parent := fun heq => hplace (heq ▸ hx)
      rw [List.cons_append, List.cons_append, stepAll_cons, hsteps, stepAll_cons, stepAll_cons,
        stepAll_cons, Binding.step_comm hnew.1 hxy hyx]

/-- Chains of the same bindings extend readings alike. -/
theorem stepAll_perm (hxs : Chained known xs) (hys : Chained known ys) (hperm : xs.Perm ys)
    (m : Multiset Reading) : stepAll t xs m = stepAll t ys m := by
  induction xs generalizing known ys m with
  | nil => rw [hperm.nil_eq]
  | cons x xs ih =>
    -- The other chain binds this place later, and may bind it first.
    obtain ⟨before, after, rfl⟩ := List.append_of_mem (hperm.mem_iff.mp List.mem_cons_self)
    obtain ⟨hfront, hsteps⟩ := hys.front (t := t) hxs.1
    have hrest : xs.Perm (before ++ after) :=
      (List.perm_cons x).mp (hperm.trans List.perm_middle)
    rw [hsteps, stepAll_cons, stepAll_cons, ih hxs.2.2 hfront.2.2 hrest]

/-- The readings of the tuples that bindings give. -/
theorem bindAll_readings {tuples bound : List NamedTuple} (hchained : Chained known xs)
    (hknown : ∀ tuple ∈ tuples, ∀ a, a ∈ tuple.map Prod.fst → a ∈ known)
    (h : bindAll t xs tuples = .ok bound) :
    Multiset.ofList (bound.map NamedTuple.reading) =
      stepAll t xs (Multiset.ofList (tuples.map NamedTuple.reading)) := by
  induction xs generalizing known tuples with
  | nil =>
    cases h
    rfl
  | cons x xs ih =>
    obtain ⟨-, hplace, hxs⟩ := hchained
    obtain ⟨targets, htargets, h⟩ := bind_eq_ok.mp h
    rw [ih hxs ?_ h, stepAll_cons]
    · congr 1
      -- The tuples are extended one by one, as their readings are.
      have hextend : ∀ tuple ∈ tuples, (x.extend targets tuple).map NamedTuple.reading =
          (x.choices t (NamedTuple.reading tuple x.parent)).map
            (Function.update (NamedTuple.reading tuple) x.place) := by
        intro tuple htuple
        rw [Binding.extend_eq htargets, List.map_map]
        refine List.map_congr_left fun o _ => ?_
        exact NamedTuple.reading_append (fun hmem => hplace (hknown tuple htuple _ hmem)) o
      rw [List.map_flatMap, Binding.step, ← Multiset.map_coe, Multiset.bind_map,
        ← Multiset.coe_bind]
      refine Multiset.bind_congr fun tuple htuple => ?_
      rw [hextend tuple htuple, Multiset.map_coe]
    · intro tuple htuple a ha
      obtain ⟨earlier, hearlier, htuple⟩ := List.mem_flatMap.mp htuple
      rw [Binding.extend_eq htargets] at htuple
      obtain ⟨o, -, rfl⟩ := List.mem_map.mp htuple
      rw [List.map_append, List.mem_append] at ha
      rcases ha with ha | ha
      · exact Set.mem_insert_of_mem x.place (hknown earlier hearlier a ha)
      · obtain rfl : a = x.place := by simpa using ha
        exact Set.mem_insert x.place known

/-- Steps change nothing at known places. -/
theorem stepAll_known {m : Multiset Reading} {f : Reading} (hxs : Chained known xs)
    (hf : f ∈ stepAll t xs m) : ∃ g ∈ m, ∀ a ∈ known, f a = g a := by
  induction xs generalizing known m with
  | nil => exact ⟨f, hf, fun _ _ => rfl⟩
  | cons x xs ih =>
    obtain ⟨-, hplace, hxs⟩ := hxs
    rw [stepAll_cons] at hf
    obtain ⟨g, hg, hfg⟩ := ih hxs hf
    obtain ⟨g₀, hg₀, hg⟩ := Multiset.mem_bind.mp hg
    obtain ⟨o, -, rfl⟩ := Multiset.mem_map.mp hg
    refine ⟨g₀, hg₀, fun a ha => ?_⟩
    have hne : a ≠ x.place := fun heq => hplace (heq ▸ ha)
    rw [hfg a (Set.mem_insert_of_mem x.place ha), Function.update_of_ne hne]

/-- Every place has a record that its binding gives for the one at its parent. -/
theorem stepAll_choices {m : Multiset Reading} {f : Reading} (hxs : Chained known xs) (hx : x ∈ xs)
    (hf : f ∈ stepAll t xs m) : f x.place ∈ x.choices t (f x.parent) := by
  induction xs generalizing known m with
  | nil => cases hx
  | cons y xs ih =>
    obtain ⟨hparent, hplace, hxs⟩ := hxs
    rw [stepAll_cons] at hf
    rcases List.mem_cons.mp hx with rfl | hx
    · -- What comes later leaves the place and its parent as they are.
      obtain ⟨g, hg, hfg⟩ := stepAll_known hxs hf
      obtain ⟨g₀, -, hg⟩ := Multiset.mem_bind.mp hg
      obtain ⟨o, ho, rfl⟩ := Multiset.mem_map.mp hg
      have hne : x.parent ≠ x.place := fun heq => hplace (heq ▸ hparent)
      rw [hfg _ (Set.mem_insert x.place known), hfg _ (Set.mem_insert_of_mem x.place hparent),
        Function.update_self, Function.update_of_ne hne]
      exact Multiset.mem_coe.mp ho
    · exact ih hxs hx hf

end Order

/-! ## Layouts -/

theorem Tables.records_of_table {t : Tables} {entity : String} {records : List Record}
    (h : t.table entity = .ok records) : t.records entity = records := by
  unfold table at h
  split at h
  · rename_i found hfound
    rw [Tables.records, hfound]
    exact Except.ok.inj h
  · cases h

/-- The reading of a record at the root, where nothing else is bound. -/
def rootReading (r : Record) : Reading :=
  NamedTuple.reading [(.root, some r)]

section Layouts

variable {c : Catalog} {l l' : Layout} {t : Tables} {tuples tuples' : List NamedTuple}
  {tuple : NamedTuple}

/-- The tuples of a sound layout have the readings that its bindings give for the records at its root. -/
theorem Layout.Sound.bind_readings (h : l.Sound c) (hl : l.bind t = .ok tuples) :
    ∃ records, t.table l.entity = .ok records ∧
      Multiset.ofList (tuples.map NamedTuple.reading) =
        stepAll t l.bindings (Multiset.ofList (records.map rootReading)) := by
  obtain ⟨records, hrecords, hbind⟩ := bind_eq_ok.mp hl
  have hknown : ∀ tuple ∈ records.map fun r => [(Place.root, some r)],
      ∀ a, a ∈ tuple.map Prod.fst → a ∈ ({.root} : Set Place) := by
    intro tuple htuple a ha
    obtain ⟨r, -, rfl⟩ := List.mem_map.mp htuple
    simpa using ha
  refine ⟨records, hrecords, ?_⟩
  rw [bindAll_readings h.chained hknown hbind, List.map_map]
  rfl

/-- The tuples have records of the table at their roots. -/
theorem Layout.Sound.bind_root (h : l.Sound c) (hl : l.bind t = .ok tuples) (htuple : tuple ∈ tuples) :
    ∃ r ∈ t.records l.entity, NamedTuple.reading tuple .root = some r := by
  obtain ⟨records, hrecords, hreadings⟩ := h.bind_readings hl
  have hmem : NamedTuple.reading tuple ∈ Multiset.ofList (tuples.map NamedTuple.reading) :=
    Multiset.mem_coe.mpr (List.mem_map_of_mem htuple)
  rw [hreadings] at hmem
  obtain ⟨f, hf, heq⟩ := stepAll_known h.chained hmem
  obtain ⟨r, hr, rfl⟩ := List.mem_map.mp (Multiset.mem_coe.mp hf)
  exact ⟨r, Tables.records_of_table hrecords ▸ hr, heq .root rfl⟩

/-- The tuples have at each place a record that its binding gives. -/
theorem Layout.Sound.bind_choices {x : Binding} (h : l.Sound c) (hl : l.bind t = .ok tuples)
    (hx : x ∈ l.bindings) (htuple : tuple ∈ tuples) :
    NamedTuple.reading tuple x.place ∈ x.choices t (NamedTuple.reading tuple x.parent) := by
  obtain ⟨records, -, hreadings⟩ := h.bind_readings hl
  have hmem : NamedTuple.reading tuple ∈ Multiset.ofList (tuples.map NamedTuple.reading) :=
    Multiset.mem_coe.mpr (List.mem_map_of_mem htuple)
  rw [hreadings] at hmem
  exact stepAll_choices h.chained hx hmem

/-- Reordered layouts bind tuples with the same readings, each as often. -/
theorem Layout.Reordered.bind_perm (h : l.Reordered c l') (hl : l.bind t = .ok tuples)
    (hl' : l'.bind t = .ok tuples') :
    Matched (fun a b => NamedTuple.reading a = NamedTuple.reading b) tuples tuples' := by
  obtain ⟨records, hrecords, hreadings⟩ := h.left.bind_readings hl
  obtain ⟨records', hrecords', hreadings'⟩ := h.right.bind_readings hl'
  rw [← h.entity, hrecords] at hrecords'
  cases hrecords'
  refine .of_map (Multiset.coe_eq_coe.mp ?_)
  rw [hreadings, hreadings']
  exact stepAll_perm h.left.chained h.right.chained h.bindings _

end Layouts

end EntityQuery
