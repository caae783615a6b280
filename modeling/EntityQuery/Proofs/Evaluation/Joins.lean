import EntityQuery.Proofs.Evaluation.Outcomes
import EntityQuery.Proofs.Sample
import Mathlib.Data.List.Induction

/-!
# Tuples under joins

A tuple under joins comes from a choice of one table position for each slot. `Choice.Fits` says which
choices there are, slot by slot and without evaluation; `Tables.bind_correct` that the tuples are
those of all fitting choices, each once and in the order of their positions.
-/

namespace EntityQuery

/-! ## What may stand in a slot -/

namespace Join

/-- Whether a record of the joined table goes with what is in the parent slot: a record whose key is
not null and equals the field on the other side. -/
def Relates (j : Join) (parent : Option Record) (r : Record) : Prop :=
  ∃ owner key v, parent = some owner ∧ owner.get? j.parentField = some key ∧ key.isNull = false ∧
    r.get? j.entityField = some v ∧ v.equal key = true

/-- What may stand in the slot of a join: the position of a related record, and nothing at all only
under an outer join that finds no related record. -/
inductive Admits (j : Join) (targets : List Record) (parent : Option Record) : Option Nat → Prop
  | found {i : Nat} {r : Record} :
      targets[i]? = some r → j.Relates parent r → Admits j targets parent (some i)
  | absent : j.kind = .left → (∀ r ∈ targets, ¬ j.Relates parent r) → Admits j targets parent none

end Join

/-- A table position for each slot, or none where the slot is absent. -/
abbrev Choice := List (Option Nat)

namespace Tables

/-- The record at a position in the table of an entity. -/
def recordAt (t : Tables) (entity : String) (position : Option Nat) : Option Record :=
  position.bind fun i => (t.records entity)[i]?

/-- The tuple that a choice gives for the entities of the slots. -/
def tupleAt (t : Tables) (entities : List String) (choice : Choice) : Tuple :=
  entities.zipWith t.recordAt choice

end Tables

/-- A choice of a root record, and for each join of what may stand in its slot. -/
structure Choice.Fits (t : Tables) (entity : String) (joins : List Join) (choice : Choice) : Prop where
  length : choice.length = joins.length + 1
  root : ∃ i < (t.records entity).length, choice[0]? = some (some i)
  joined : ∀ (k : Nat) (j : Join), joins[k]? = some j → ∃ position, choice[k + 1]? = some position ∧
    j.Admits (t.records j.entity)
      (t.tupleAt (entity :: joins.map Join.entity) choice)[j.parent]?.join position

/-! ## Positions that a join finds -/

namespace Join

variable {j : Join} {targets : List Record} {parent : Option Record} {position : Option Nat}

/-- `Relates`, decided. -/
def relates (j : Join) (parent : Option Record) (r : Record) : Bool :=
  !(fieldValue parent j.parentField).isNull &&
    (r.get? j.entityField).any (·.equal (fieldValue parent j.parentField))

theorem relates_iff {r : Record} : j.relates parent r = true ↔ j.Relates parent r := by
  unfold relates Relates
  rw [Bool.and_eq_true, Bool.not_eq_true', Option.any_eq_true]
  cases parent with
  | none => simp [fieldValue, Value.isNull]
  | some owner =>
    cases hkey : owner.get? j.parentField with
    | none => simp [fieldValue, hkey, Value.isNull]
    | some key => simp [fieldValue, hkey]

/-- The positions that a join puts in its slot, in order. -/
def positions (j : Join) (targets : List Record) (parent : Option Record) : List (Option Nat) :=
  match targets.zipIdx.filter fun x => j.relates parent x.1, j.kind with
  | [], .inner => []
  | [], .left => [none]
  | found, _ => found.map fun x => some x.2

/-- A tuple is extended by the record at each position that its join finds. -/
theorem extend_eq_positions {tuple : Tuple} :
    j.extend targets tuple = (j.positions targets tuple[j.parent]?.join).map fun position =>
      tuple ++ [position.bind fun i => targets[i]?] := by
  -- The records that match are those found, with their positions left out.
  have hmatching : j.matching targets tuple =
      (targets.zipIdx.filter fun x => j.relates tuple[j.parent]?.join x.1).map Prod.fst := by
    have hfilter := List.filter_map (p := j.relates tuple[j.parent]?.join) (f := Prod.fst)
      (l := targets.zipIdx)
    rw [List.zipIdx_map_fst] at hfilter
    refine Eq.trans ?_ hfilter
    unfold matching related relates
    cases (fieldValue tuple[j.parent]?.join j.parentField).isNull <;> simp
  -- At each found position stands the record that was found.
  have hmem : ∀ x ∈ targets.zipIdx.filter fun x => j.relates tuple[j.parent]?.join x.1,
      targets[x.2]? = some x.1 :=
    fun x hx => List.mem_zipIdx_iff_getElem?.mp (List.mem_filter.mp hx).1
  unfold extend positions
  rw [hmatching]
  generalize targets.zipIdx.filter (fun x => j.relates tuple[j.parent]?.join x.1) = found at hmem
  cases found with
  | nil => cases j.kind <;> rfl
  | cons x rest =>
    rw [List.map_cons]
    show List.map _ (x.1 :: rest.map Prod.fst) = _
    rw [← List.map_cons, List.map_map, List.map_map]
    refine List.map_congr_left fun y hy => ?_
    show tuple ++ [some y.1] = tuple ++ [targets[y.2]?]
    rw [hmem y hy]

theorem mem_positions : position ∈ j.positions targets parent ↔ j.Admits targets parent position := by
  have hmem : ∀ x, x ∈ targets.zipIdx.filter (fun x => j.relates parent x.1) ↔
      targets[x.2]? = some x.1 ∧ j.Relates parent x.1 := by
    intro x
    rw [List.mem_filter, List.mem_zipIdx_iff_getElem?, relates_iff]
  unfold positions
  generalize targets.zipIdx.filter (fun x => j.relates parent x.1) = found at hmem
  cases found with
  | nil =>
    have hnone : ∀ r ∈ targets, ¬ j.Relates parent r := by
      intro r hr hrelates
      obtain ⟨i, hi⟩ := List.mem_iff_getElem?.mp hr
      exact List.not_mem_nil ((hmem (r, i)).mpr ⟨hi, hrelates⟩)
    cases hkind : j.kind with
    | inner =>
      refine iff_of_false List.not_mem_nil fun h => ?_
      cases h with
      | found hi hrelates => exact hnone _ (List.mem_of_getElem? hi) hrelates
      | absent hleft _ => cases hkind.symm.trans hleft
    | left =>
      rw [List.mem_singleton]
      constructor
      · rintro rfl
        exact .absent hkind hnone
      · intro h
        cases h with
        | found hi hrelates => exact absurd hrelates (hnone _ (List.mem_of_getElem? hi))
        | absent _ _ => rfl
  | cons x rest =>
    show position ∈ (x :: rest).map (fun x => some x.2) ↔ _
    rw [List.mem_map]
    constructor
    · rintro ⟨y, hy, rfl⟩
      obtain ⟨hi, hrelates⟩ := (hmem y).mp hy
      exact .found hi hrelates
    · intro h
      cases h with
      | @found i r hi hrelates => exact ⟨(r, i), (hmem (r, i)).mpr ⟨hi, hrelates⟩, rfl⟩
      | absent _ hnone =>
        -- A record that is found is related.
        obtain ⟨hi, hrelates⟩ := (hmem x).mp List.mem_cons_self
        exact absurd hrelates (hnone _ (List.mem_of_getElem? hi))

theorem positions_pairwise : (j.positions targets parent).Pairwise (· < ·) := by
  have hsorted : (targets.zipIdx.filter fun x => j.relates parent x.1).Pairwise
      fun x y => x.2 < y.2 := by
    refine List.Pairwise.filter _ ?_
    have hindex := List.pairwise_lt_range' (s := 0) (n := targets.length)
    rwa [← List.zipIdx_map_snd, List.pairwise_map] at hindex
  unfold positions
  generalize targets.zipIdx.filter (fun x => j.relates parent x.1) = found at hsorted
  cases found with
  | nil =>
    cases j.kind with
    | inner => exact .nil
    | left => exact List.pairwise_singleton _ _
  | cons x rest =>
    show ((x :: rest).map fun x => some x.2).Pairwise (· < ·)
    rw [List.pairwise_map]
    exact hsorted.imp fun h => Option.some_lt_some.mpr h

/-- A slot under an outer join is never without a choice. -/
theorem exists_admits (hkind : j.kind = .left) (targets : List Record) (parent : Option Record) :
    ∃ position, j.Admits targets parent position := by
  by_cases hnone : ∀ r ∈ targets, ¬ j.Relates parent r
  · exact ⟨none, .absent hkind hnone⟩
  · push Not at hnone
    obtain ⟨r, hr, hrelates⟩ := hnone
    obtain ⟨i, hi⟩ := List.mem_iff_getElem?.mp hr
    exact ⟨some i, .found hi hrelates⟩

end Join

/-! ## One join more -/

section Snoc

variable {t : Tables} {entity : String} {joins : List Join} {j : Join} {choice : Choice}
  {position : Option Nat}

/-- The joins have the slots 1, 2, … in order, each behind its parent. -/
def Numbered (joins : List Join) : Prop :=
  ∀ (k : Nat) (j : Join), joins[k]? = some j → j.slot = k + 1 ∧ j.parent ≤ k

theorem Numbered.init (h : Numbered (joins ++ [j])) : Numbered joins := fun k i hi =>
  h k i (by rw [List.getElem?_append_left (List.getElem?_eq_some_iff.mp hi).1, hi])

theorem Numbered.last (h : Numbered (joins ++ [j])) :
    j.slot = joins.length + 1 ∧ j.parent ≤ joins.length :=
  h joins.length j List.getElem?_concat_length

theorem Tables.length_tupleAt (h : choice.length = joins.length + 1) :
    (t.tupleAt (entity :: joins.map Join.entity) choice).length = joins.length + 1 := by
  rw [tupleAt, List.length_zipWith, List.length_cons, List.length_map, h, Nat.min_self]

theorem Tables.tupleAt_append (h : choice.length = joins.length + 1) :
    t.tupleAt (entity :: (joins ++ [j]).map Join.entity) (choice ++ [position]) =
      t.tupleAt (entity :: joins.map Join.entity) choice ++ [t.recordAt j.entity position] := by
  rw [tupleAt, List.map_append, ← List.cons_append, List.zipWith_append]
  · rfl
  · rw [List.length_cons, List.length_map, h]

theorem Choice.fits_append (hnumbered : Numbered (joins ++ [j])) :
    Fits t entity (joins ++ [j]) (choice ++ [position]) ↔
      Fits t entity joins choice ∧ j.Admits (t.records j.entity)
        (t.tupleAt (entity :: joins.map Join.entity) choice)[j.parent]?.join position := by
  have hlast := hnumbered.last.2
  -- What stands in the slots before does not change.
  have hparent : choice.length = joins.length + 1 → ∀ p ≤ joins.length,
      (t.tupleAt (entity :: (joins ++ [j]).map Join.entity) (choice ++ [position]))[p]? =
        (t.tupleAt (entity :: joins.map Join.entity) choice)[p]? := by
    intro hlength p hp
    rw [Tables.tupleAt_append hlength, List.getElem?_append_left]
    rw [Tables.length_tupleAt hlength]
    omega
  constructor
  · intro h
    have hlength : choice.length = joins.length + 1 := by simpa using h.length
    refine ⟨⟨hlength, ?_, fun k i hi => ?_⟩, ?_⟩
    · obtain ⟨i, hi, hroot⟩ := h.root
      exact ⟨i, hi, by rwa [List.getElem?_append_left (by omega)] at hroot⟩
    · have hk := (List.getElem?_eq_some_iff.mp hi).1
      have hi' : (joins ++ [j])[k]? = some i := by rw [List.getElem?_append_left hk, hi]
      obtain ⟨p, hp, hadmits⟩ := h.joined k i hi'
      rw [List.getElem?_append_left (by omega)] at hp
      have hbehind := (hnumbered k i hi').2
      rw [hparent hlength _ (by omega)] at hadmits
      exact ⟨p, hp, hadmits⟩
    · obtain ⟨p, hp, hadmits⟩ := h.joined joins.length j List.getElem?_concat_length
      rw [← hlength, List.getElem?_concat_length] at hp
      cases hp
      rwa [hparent hlength _ hlast] at hadmits
  · rintro ⟨h, hadmits⟩
    refine ⟨by simp [h.length], ?_, fun k i hi => ?_⟩
    · obtain ⟨i, hi, hroot⟩ := h.root
      exact ⟨i, hi, by rw [List.getElem?_append_left (by rw [h.length]; omega), hroot]⟩
    · have hbehind := (hnumbered k i hi).2
      rw [List.getElem?_append] at hi
      split at hi
      · rename_i hk
        obtain ⟨p, hp, hi⟩ := h.joined k i hi
        rw [hparent h.length _ (by omega)]
        exact ⟨p, by rw [List.getElem?_append_left (by rw [h.length]; omega), hp], hi⟩
      · rename_i hk
        rw [List.getElem?_singleton] at hi
        split at hi
        · obtain rfl : k = joins.length := by omega
          cases hi
          rw [hparent h.length _ hlast]
          exact ⟨position, by rw [← h.length, List.getElem?_concat_length], hadmits⟩
        · cases hi

/-- A choice for more joins is one for the joins before, and a position. -/
theorem Choice.Fits.exists_append (h : Fits t entity (joins ++ [j]) choice) :
    ∃ before position, choice = before ++ [position] := by
  rcases List.eq_nil_or_concat choice with rfl | ⟨before, position, rfl⟩
  · cases h.length
  · exact ⟨before, position, List.concat_eq_append⟩

theorem Tables.joinAll_append (xs ys : List Join) (tuples : List Tuple) :
    t.joinAll (xs ++ ys) tuples = t.joinAll xs tuples >>= t.joinAll ys := by
  induction xs generalizing tuples with
  | nil => rfl
  | cons x xs ih =>
    rw [List.cons_append, joinAll, joinAll, bind_assoc]
    exact bind_congr fun tuples => ih tuples

theorem Tables.bind_append (joins : List Join) (j : Join) :
    t.bind entity (joins ++ [j]) = t.bind entity joins >>= j.apply t := by
  rw [bind, bind, bind_assoc]
  refine bind_congr fun records => ?_
  rw [joinAll_append]
  refine bind_congr fun tuples => ?_
  show (j.apply t tuples >>= pure) = _
  rw [bind_pure]

theorem Tables.table_eq_records (h : (t.table? entity).isSome) :
    t.table entity = .ok (t.records entity) := by
  obtain ⟨records, hrecords⟩ := Option.isSome_iff_exists.mp h
  rw [table, Tables.records, hrecords]
  rfl

end Snoc

/-! ## Order of choices -/

/-- Lists of one length keep their order when they go on in any way. -/
theorem append_lt_append {α : Type} [LT α] {xs ys xs' ys' : List α} (hlength : xs.length = ys.length)
    (h : xs < ys) : xs ++ xs' < ys ++ ys' := by
  induction xs generalizing ys with
  | nil =>
    obtain rfl := List.length_eq_zero_iff.mp hlength.symm
    exact absurd h (List.not_lt_nil _)
  | cons x xs ih =>
    cases ys with
    | nil => cases hlength
    | cons y ys =>
      rw [List.cons_append, List.cons_append, List.cons_lt_cons_iff]
      rcases List.cons_lt_cons_iff.mp h with hxy | ⟨rfl, hrest⟩
      · exact .inl hxy
      · exact .inr ⟨rfl, ih (Nat.succ.inj hlength) hrest⟩

theorem Choice.asymm : Std.Asymm (α := Option Nat) (· < ·) where
  asymm a b h h' := by
    cases a <;> cases b <;> simp_all
    omega

/-- Choices in order are determined by what they are. -/
theorem Choice.eq_of_mem_iff {xs ys : List Choice} (hxs : xs.Pairwise (· < ·))
    (hys : ys.Pairwise (· < ·)) (h : ∀ choice, choice ∈ xs ↔ choice ∈ ys) : xs = ys := by
  have hasymm := Choice.asymm
  have hnodup : ∀ {zs : List Choice}, zs.Pairwise (· < ·) → zs.Nodup := by
    intro zs hzs
    refine List.Pairwise.imp ?_ hzs
    rintro choice _ hlt rfl
    exact List.lt_asymm hlt hlt
  refine List.Perm.eq_of_pairwise (fun a b _ _ hab hba => absurd hba (List.lt_asymm hab)) hxs hys ?_
  exact (List.perm_ext_iff_of_nodup (hnodup hxs) (hnodup hys)).mpr h

/-! ## Tuples of choices -/

section Bind

variable {t : Tables} {entity : String} {joins : List Join}

/-- A choice of one record has no join to fit. -/
theorem Choice.fits_nil {choice : Choice} :
    Fits t entity [] choice ↔ ∃ i < (t.records entity).length, choice = [some i] := by
  constructor
  · rintro ⟨hlength, ⟨i, hi, hchoice⟩, -⟩
    obtain ⟨p, rfl⟩ := List.length_eq_one_iff.mp hlength
    exact ⟨i, hi, by rw [← Option.some.inj hchoice]⟩
  · rintro ⟨i, hi, rfl⟩
    exact ⟨rfl, ⟨i, hi, rfl⟩, fun k j hj => by cases hj⟩

theorem Tables.bind_nil (hroot : (t.table? entity).isSome) :
    t.bind entity [] =
      .ok ((List.range (t.records entity).length).map fun i => t.tupleAt [entity] [some i]) := by
  rw [bind, table_eq_records hroot]
  refine congrArg Except.ok ?_
  refine List.ext_getElem (by simp) fun i hi hi' => ?_
  rw [List.length_map] at hi
  simp [tupleAt, recordAt, hi]

/-- A choice with each of the positions that a join finds for it. -/
def Choice.extend (t : Tables) (entity : String) (joins : List Join) (j : Join) (choice : Choice) :
    List Choice :=
  let parent := (t.tupleAt (entity :: joins.map Join.entity) choice)[j.parent]?.join
  (j.positions (t.records j.entity) parent).map fun position => choice ++ [position]

/-- The choices that fit one join more extend those that fit. -/
theorem Choice.fits_append_iff {choices : List Choice} {choice : Choice} {j : Join}
    (hnumbered : Numbered (joins ++ [j]))
    (hfits : ∀ choice, choice ∈ choices ↔ Fits t entity joins choice) :
    choice ∈ choices.flatMap (extend t entity joins j) ↔ Fits t entity (joins ++ [j]) choice := by
  simp only [extend, List.mem_flatMap, List.mem_map]
  constructor
  · rintro ⟨before, hbefore, p, hp, rfl⟩
    exact (fits_append hnumbered).mpr ⟨(hfits before).mp hbefore, Join.mem_positions.mp hp⟩
  · intro h
    obtain ⟨before, p, rfl⟩ := h.exists_append
    obtain ⟨hbefore, hp⟩ := (fits_append hnumbered).mp h
    exact ⟨before, (hfits before).mpr hbefore, p, Join.mem_positions.mpr hp, rfl⟩

/-- Choices of one length keep their order when they are extended. -/
theorem Choice.extend_pairwise {choices : List Choice} {j : Join} {n : Nat}
    (hlength : ∀ choice ∈ choices, choice.length = n) (hsorted : choices.Pairwise (· < ·)) :
    (choices.flatMap (extend t entity joins j)).Pairwise (· < ·) := by
  rw [List.pairwise_flatMap]
  refine ⟨fun choice _ => ?_, hsorted.imp_of_mem fun {a b} ha hb hab x hx y hy => ?_⟩
  · rw [extend, List.pairwise_map]
    refine Join.positions_pairwise.imp fun h => ?_
    exact List.append_left_lt (List.cons_lt_cons_iff.mpr (.inl h))
  · obtain ⟨p, -, rfl⟩ := List.mem_map.mp hx
    obtain ⟨q, -, rfl⟩ := List.mem_map.mp hy
    exact append_lt_append ((hlength a ha).trans (hlength b hb).symm) hab

/-- A join extends the tuples of choices to those of the extended choices. -/
theorem Join.apply_choices {choices : List Choice} {j : Join}
    (hslot : j.slot = joins.length + 1) (htarget : (t.table? j.entity).isSome)
    (hlength : ∀ choice ∈ choices, choice.length = joins.length + 1) :
    j.apply t (choices.map (t.tupleAt (entity :: joins.map Join.entity))) =
      .ok ((choices.flatMap (Choice.extend t entity joins j)).map
        (t.tupleAt (entity :: (joins ++ [j]).map Join.entity))) := by
  have happly : j.apply t (choices.map (t.tupleAt (entity :: joins.map Join.entity))) =
      .ok ((choices.map (t.tupleAt (entity :: joins.map Join.entity))).flatMap
        (j.extend (t.records j.entity))) := by
    rw [apply, Tables.table_eq_records htarget]
    refine flatMapE_ok fun tuple htuple => ?_
    obtain ⟨choice, hchoice, rfl⟩ := List.mem_map.mp htuple
    rw [if_pos ((Tables.length_tupleAt (hlength choice hchoice)).trans hslot.symm)]
  refine happly.trans (congrArg Except.ok ?_)
  rw [List.flatMap_map, List.map_flatMap]
  refine List.flatMap_congr fun choice hchoice => ?_
  rw [extend_eq_positions, Choice.extend, List.map_map]
  refine List.map_congr_left fun p _ => ?_
  exact (Tables.tupleAt_append (hlength choice hchoice)).symm

/-- The tuples of an entity under joins are those of the fitting choices, in order. -/
theorem Tables.bind_choices (hnumbered : Numbered joins) (hroot : (t.table? entity).isSome)
    (htables : ∀ j ∈ joins, (t.table? j.entity).isSome) :
    ∃ choices : List Choice,
      t.bind entity joins = .ok (choices.map (t.tupleAt (entity :: joins.map Join.entity))) ∧
      (∀ choice, choice ∈ choices ↔ Choice.Fits t entity joins choice) ∧
      choices.Pairwise (· < ·) := by
  induction joins using List.reverseRecOn with
  | nil =>
    refine ⟨(List.range (t.records entity).length).map fun i => [some i], ?_, fun choice => ?_, ?_⟩
    · rw [bind_nil hroot, List.map_map]
      rfl
    · simp only [Choice.fits_nil, List.mem_map, List.mem_range, eq_comm]
    · rw [List.pairwise_map]
      refine List.pairwise_lt_range.imp fun h => ?_
      exact List.cons_lt_cons_iff.mpr (.inl (Option.some_lt_some.mpr h))
  | append_singleton joins j ih =>
    obtain ⟨choices, hbind, hfits, hsorted⟩ := ih hnumbered.init fun i hi =>
      htables i (List.mem_append_left _ hi)
    -- Each choice for the joins before is extended by what the last join finds for it.
    have htarget := htables j (List.mem_append_right _ (List.mem_singleton_self j))
    have hlength : ∀ choice ∈ choices, choice.length = joins.length + 1 :=
      fun choice hchoice => ((hfits choice).mp hchoice).length
    refine ⟨choices.flatMap (Choice.extend t entity joins j), ?_, fun choice => ?_, ?_⟩
    · rw [bind_append, hbind]
      exact Join.apply_choices hnumbered.last.1 htarget hlength
    · exact Choice.fits_append_iff hnumbered hfits
    · exact Choice.extend_pairwise hlength hsorted

theorem Tables.tupleAt_getElem? {choice : Choice} {k : Nat} {j : Join} {position : Option Nat}
    (hj : joins[k]? = some j) (hposition : choice[k + 1]? = some position) :
    (t.tupleAt (entity :: joins.map Join.entity) choice)[k + 1]? =
      some (t.recordAt j.entity position) := by
  rw [tupleAt, List.getElem?_zipWith, hposition, List.getElem?_cons_succ, List.getElem?_map, hj]
  rfl

/-- A slot of a fitting choice is absent in its tuple only if it is in the choice. -/
theorem Choice.Fits.isSome_tupleAt {choice : Choice} (h : Fits t entity joins choice) {k : Nat}
    {j : Join} (hj : joins[k]? = some j) :
    (t.tupleAt (entity :: joins.map Join.entity) choice)[k + 1]?.join.isSome =
      choice[k + 1]?.join.isSome := by
  obtain ⟨position, hposition, hadmits⟩ := h.joined k j hj
  rw [Tables.tupleAt_getElem? hj hposition, hposition]
  cases hadmits with
  | found hi _ => simp [Tables.recordAt, hi]
  | absent _ _ => rfl

/-- A join that drops what it cannot join. -/
def Join.inner (j : Join) : Join :=
  { j with kind := .inner }

/-- As an inner join, a join admits the same records, but not their absence. -/
theorem Join.inner_admits {j : Join} {targets : List Record} {parent : Option Record}
    {position : Option Nat} :
    j.inner.Admits targets parent position ↔
      j.Admits targets parent position ∧ position.isSome = true := by
  constructor
  · intro h
    cases h with
    | found hi hrelates => exact ⟨.found hi hrelates, rfl⟩
    | absent hleft _ => cases hleft
  · rintro ⟨h, hsome⟩
    cases h with
    | found hi hrelates => exact .found hi hrelates
    | absent _ _ => cases hsome

theorem map_entity_set_inner {k : Nat} {j : Join} (hj : joins[k]? = some j) :
    (joins.set k j.inner).map Join.entity = joins.map Join.entity := by
  have hk := (List.getElem?_eq_some_iff.mp hj).1
  refine List.ext_getElem? fun i => ?_
  rw [List.getElem?_map, List.getElem?_map]
  by_cases hik : i = k
  · subst hik
    rw [List.getElem?_set_self hk, hj]
    rfl
  · rw [List.getElem?_set_ne (Ne.symm hik)]

theorem Choice.fits_set_inner {choice : Choice} {k : Nat} {j : Join} (hj : joins[k]? = some j) :
    Fits t entity (joins.set k j.inner) choice ↔
      Fits t entity joins choice ∧ choice[k + 1]?.join.isSome = true := by
  have hk := (List.getElem?_eq_some_iff.mp hj).1
  have hentities := map_entity_set_inner hj
  constructor
  · intro h
    obtain ⟨position, hposition, hadmits⟩ := h.joined k j.inner (List.getElem?_set_self hk)
    rw [hentities, Join.inner_admits] at hadmits
    refine ⟨⟨by simpa using h.length, h.root, fun i i' hi => ?_⟩, ?_⟩
    · -- The join that has become an inner one admits what it admitted before; the others are the
      -- same.
      by_cases hik : i = k
      · subst hik
        cases hj.symm.trans hi
        exact ⟨position, hposition, hadmits.1⟩
      · have := h.joined i i' (by rwa [List.getElem?_set_ne (Ne.symm hik)])
        rwa [hentities] at this
    · rw [hposition]
      exact hadmits.2
  · rintro ⟨h, hsome⟩
    refine ⟨by simpa using h.length, h.root, fun i i' hi => ?_⟩
    rw [hentities]
    by_cases hik : i = k
    · subst hik
      rw [List.getElem?_set_self hk] at hi
      cases hi
      obtain ⟨position, hposition, hadmits⟩ := h.joined i j hj
      rw [hposition] at hsome
      exact ⟨position, hposition, Join.inner_admits.mpr ⟨hadmits, hsome⟩⟩
    · rw [List.getElem?_set_ne (Ne.symm hik)] at hi
      exact h.joined i i' hi

/-- Under outer joins alone every root record has a fitting choice. -/
theorem Choice.exists_fits (hnumbered : Numbered joins) (hkind : ∀ j ∈ joins, j.kind = .left)
    {i : Nat} (hi : i < (t.records entity).length) :
    ∃ choice, Fits t entity joins choice ∧ choice.head? = some (some i) := by
  induction joins using List.reverseRecOn with
  | nil => exact ⟨[some i], ⟨rfl, ⟨i, hi, rfl⟩, fun k j hj => by cases hj⟩, rfl⟩
  | append_singleton joins j ih =>
    obtain ⟨choice, hfits, hhead⟩ := ih hnumbered.init fun j' hj' =>
      hkind j' (List.mem_append_left _ hj')
    obtain ⟨position, hposition⟩ := Join.exists_admits
      (hkind j (List.mem_append_right _ (List.mem_singleton_self j))) (t.records j.entity)
      (t.tupleAt (entity :: joins.map Join.entity) choice)[j.parent]?.join
    refine ⟨choice ++ [position], (Choice.fits_append hnumbered).mpr ⟨hfits, hposition⟩, ?_⟩
    rw [List.head?_append, hhead]
    rfl

/-- Numbered joins of tables bind the tuples of all fitting choices, each choice once and in
lexicographic order. Making an outer join an inner one drops the tuples that lack its slot and no
other, and outer joins alone keep every root record. -/
theorem Tables.bind_correct (hnumbered : Numbered joins) (hroot : (t.table? entity).isSome)
    (htables : ∀ j ∈ joins, (t.table? j.entity).isSome) :
    ∃ choices : List Choice, ∃ tuples : List Tuple, t.bind entity joins = .ok tuples ∧
      tuples = choices.map (t.tupleAt (entity :: joins.map Join.entity)) ∧
      (∀ choice, choice ∈ choices ↔ Choice.Fits t entity joins choice) ∧
      choices.Pairwise (· < ·) ∧
      (∀ (k : Nat) (j : Join), joins[k]? = some j → j.kind = .left →
        t.bind entity (joins.set k { j with kind := .inner }) =
          .ok (tuples.filter fun tuple => tuple[k + 1]?.join.isSome)) ∧
      ((∀ j ∈ joins, j.kind = .left) → ∀ i < (t.records entity).length,
        ∃ choice ∈ choices, choice.head? = some (some i)) := by
  obtain ⟨choices, hbind, hfits, hsorted⟩ := bind_choices hnumbered hroot htables
  refine ⟨choices, _, hbind, rfl, hfits, hsorted, fun k j hj _ => ?_, fun hkind i hi => ?_⟩
  · have hk := (List.getElem?_eq_some_iff.mp hj).1
    have hnumbered' : Numbered (joins.set k j.inner) := by
      intro i i' hi
      by_cases hik : i = k
      · subst hik
        rw [List.getElem?_set_self hk] at hi
        cases hi
        exact hnumbered i j hj
      · rw [List.getElem?_set_ne (Ne.symm hik)] at hi
        exact hnumbered i i' hi
    have htables' : ∀ i ∈ joins.set k j.inner, (t.table? i.entity).isSome := by
      intro i hi
      rcases List.mem_or_eq_of_mem_set hi with hi | rfl
      · exact htables i hi
      · exact htables j (List.mem_of_getElem? hj)
    obtain ⟨choices', hbind', hfits', hsorted'⟩ := bind_choices hnumbered' hroot htables'
    -- Both lists of choices are in order, so it is enough that they have the same members.
    have hchoices : choices' = choices.filter fun choice => choice[k + 1]?.join.isSome := by
      refine Choice.eq_of_mem_iff hsorted' (hsorted.filter _) fun choice => ?_
      rw [hfits', Choice.fits_set_inner hj, List.mem_filter, hfits]
    refine hbind'.trans (congrArg Except.ok ?_)
    rw [map_entity_set_inner hj, hchoices, List.filter_map]
    refine congrArg _ (List.filter_congr fun choice hchoice => ?_)
    exact (((hfits choice).mp hchoice).isSome_tupleAt hj).symm
  · obtain ⟨choice, hchoice, hhead⟩ := Choice.exists_fits hnumbered hkind hi
    exact ⟨choice, (hfits choice).mpr hchoice, hhead⟩

/-- The join of the addresses of owners, kept where there is none. -/
def Sample.addressJoin : Join := ⟨2, 1, "address", "Address", "address_id", "id", .left⟩

/-- Tasks with their owners and the addresses of these: no task is lost, and an inner join of the
addresses drops the tasks without one. -/
theorem Tables.bind_correct_sample :
    ∃ choices : List Choice, ∃ tuples : List Tuple,
      Sample.tables.bind "Todo" [Sample.ownerJoin, Sample.addressJoin] = .ok tuples ∧
      (∀ choice, choice ∈ choices ↔
        Choice.Fits Sample.tables "Todo" [Sample.ownerJoin, Sample.addressJoin] choice) ∧
      Sample.tables.bind "Todo" [Sample.ownerJoin, { Sample.addressJoin with kind := .inner }] =
        .ok (tuples.filter fun tuple => tuple[2]?.join.isSome) ∧
      ∀ i < 6, ∃ choice ∈ choices, choice.head? = some (some i) := by
  have hnumbered : Numbered [Sample.ownerJoin, Sample.addressJoin] := by
    intro k j hj
    match k, hj with
    | 0, rfl => decide
    | 1, rfl => decide
  obtain ⟨choices, tuples, hbind, -, hfits, -, hinner, hleft⟩ := bind_correct hnumbered
    (show (Sample.tables.table? "Todo").isSome by decide +kernel) (by decide +kernel)
  have htasks : (Sample.tables.records "Todo").length = 6 := by decide +kernel
  exact ⟨choices, tuples, hbind, hfits, hinner 1 Sample.addressJoin rfl rfl,
    htasks ▸ hleft (by decide)⟩

end Bind

end EntityQuery
