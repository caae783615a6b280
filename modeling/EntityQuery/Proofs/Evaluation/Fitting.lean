import EntityQuery.Proofs.Conformance
import EntityQuery.Proofs.Planning.Planned

/-!
# Tuples that fit their frames

At run time a tuple stands where a frame stood at planning time: it has a record or an absence for
each slot of the frame, and the record comes from the table of the entity that the frame names. So a
column that was resolved in a frame can be read from the tuple, and has a value of its type.
-/

namespace EntityQuery

/-! ## Fitting -/

/-- The records of a tuple come from the tables of the entities in their slots. -/
def Tuple.HoldsFrom (t : Tables) (f : Frame) (tuple : Tuple) : Prop :=
  ∀ slot entity r, f.entityOf? slot = some entity → tuple[slot]? = some (some r) →
    r ∈ t.records entity

/-- A tuple with a record or an absence for each slot of a frame. -/
structure Tuple.Fits (c : Catalog) (t : Tables) (f : Frame) (tuple : Tuple) : Prop where
  frame : f.Sound c
  length : tuple.length = f.joins.length + 1
  holds : tuple.HoldsFrom t f

/-- Tuples that fit frames one by one. -/
abbrev Tuple.FitAll (c : Catalog) (t : Tables) (frames : List Frame) (tuples : List Tuple) : Prop :=
  List.Forall₂ (Tuple.Fits c t) frames tuples

namespace Tuple.FitAll

variable {c : Catalog} {t : Tables} {frames : List Frame} {tuple : Tuple} {outer : List Tuple}

/-- A bound slot can be read, and its record is one of the entity. -/
theorem record (h : FitAll c t frames (tuple :: outer)) {level slot : Nat} {f : Frame}
    {entity : String} (hf : frames[level]? = some f) (hslot : f.entityOf? slot = some entity) :
    ∃ o, tuple.record outer level slot = .ok o ∧ ∀ r, o = some r → r ∈ t.records entity := by
  obtain ⟨inner, hinner, hfits⟩ := forall₂_getElem? h hf
  have hlt : slot < inner.length := by
    have := hfits.frame.ordered.slot_le hslot
    have := hfits.length
    omega
  refine ⟨inner[slot], ?_, fun r hr => ?_⟩
  · simp only [Tuple.record, hinner, List.getElem?_eq_getElem hlt]
  · exact hfits.holds slot entity r hslot (by rw [List.getElem?_eq_getElem hlt, hr])

/-- Where a path leads can be read. -/
theorem target? (h : FitAll c t frames (tuple :: outer)) {p : Path} {r : Resolved}
    (hr : p.target? c frames = some r) : ∃ f, frames[r.level]? = some f ∧ r.BoundIn c f := by
  obtain ⟨f, slot, entity, hf, -, hentity, htrace⟩ := Path.target?_eq_some hr
  have hf := Frame.locate?_getElem? hf
  obtain ⟨inner, -, hfits⟩ := forall₂_getElem? h hf
  exact ⟨f, hf, hfits.frame.trace?_boundIn hentity htrace⟩

/-- A column is read from a record of the entity that declares its field, or from an absence. -/
theorem column_record (h : FitAll c t frames (tuple :: outer)) {p : Path} {column : Column}
    {field : Field} (hp : p.target? c frames = some (.field column field)) :
    ∃ owner o, tuple.record outer column.level column.slot = .ok o ∧
      column.value tuple outer = .ok (fieldValue o field.name) ∧
      c.attribute? owner field.name = some (.field field) ∧
      ∀ r, o = some r → r ∈ t.records owner := by
  obtain ⟨f, hf, owner, howner, hattribute, hname⟩ := h.target? hp
  have hlevel : frames[column.level]? = some f := hf
  obtain ⟨o, ho, hrecords⟩ := h.record hlevel howner
  refine ⟨owner, o, ho, ?_, hattribute, hrecords⟩
  rw [Column.value, ho, ← hname]
  rfl

/-- A column has a value of its type. -/
theorem column (h : FitAll c t frames (tuple :: outer)) (htyped : t.Typed c) {p : Path}
    {column : Column} {field : Field} (hp : p.target? c frames = some (.field column field)) :
    ∃ v, column.value tuple outer = .ok v ∧ (StaticType.field field.type).Admits v := by
  obtain ⟨owner, o, -, hv, hattribute, hrecords⟩ := h.column_record hp
  refine ⟨_, hv, ?_⟩
  cases o with
  | none => exact .inl rfl
  | some r => exact .inr (htyped.field hattribute (hrecords r rfl))

end Tuple.FitAll

/-! ## Binding -/

theorem mem_of_mem_related {key : Value} {field : String} {targets : List Record} {r : Record}
    (h : r ∈ related key field targets) : r ∈ targets := by
  unfold related at h
  split at h
  · cases h
  · exact (List.mem_filter.mp h).1

/-- A join appends one slot, whose record is a target. -/
theorem Join.mem_extend {j : Join} {targets : List Record} {tuple tuple' : Tuple}
    (h : tuple' ∈ j.extend targets tuple) :
    ∃ o, tuple' = tuple ++ [o] ∧ ∀ r, o = some r → r ∈ targets := by
  unfold extend at h
  split at h
  · cases h
  · obtain rfl := List.mem_singleton.mp h
    exact ⟨none, rfl, by simp⟩
  · obtain ⟨r, hr, rfl⟩ := List.mem_map.mp h
    refine ⟨some r, rfl, fun r' hr' => ?_⟩
    cases hr'
    exact mem_of_mem_related hr

namespace Tables

variable {c : Catalog} {t : Tables} {f : Frame}

/-- The joins of a frame can be applied in order to tuples that have the slots before them, if the tables
that they lead to are there. -/
theorem joinAll_fits (hf : f.Sound c) {joins : List Join}
    (htables : ∀ j ∈ joins, t.table j.entity = .ok (t.records j.entity)) {i : Nat}
    {tuples : List Tuple} (hjoins : f.joins.drop i = joins)
    (htuples : ∀ tuple ∈ tuples, tuple.length = i + 1 ∧ tuple.HoldsFrom t f)
    (hi : i ≤ f.joins.length) :
    ∃ tuples', t.joinAll joins tuples = .ok tuples' ∧
      ∀ tuple ∈ tuples', tuple.Fits c t f := by
  -- On the joins that are left; the tuples have the slots of those before.
  induction joins generalizing i tuples with
  | nil =>
    have := List.drop_eq_nil_iff.mp hjoins
    refine ⟨tuples, rfl, fun tuple htuple => ⟨hf, ?_, (htuples tuple htuple).2⟩⟩
    have := (htuples tuple htuple).1
    omega
  | cons j joins ih =>
    have hj : f.joins[i]? = some j := by
      rw [← List.head?_drop, hjoins]
      rfl
    obtain ⟨hslot, hentity⟩ := hf.entityOf?_slot hj
    have hrest : f.joins.drop (i + 1) = joins := by
      rw [← List.tail_drop, hjoins]
      rfl
    have happly : j.apply t tuples =
        .ok (tuples.flatMap (j.extend (t.records j.entity))) := by
      rw [Join.apply, htables j List.mem_cons_self]
      refine flatMapE_ok fun tuple htuple => ?_
      rw [if_pos (by rw [(htuples tuple htuple).1, hslot])]
    have htuples' : ∀ tuple ∈ tuples.flatMap (j.extend (t.records j.entity)),
        tuple.length = i + 1 + 1 ∧ tuple.HoldsFrom t f := by
      intro tuple' htuple'
      obtain ⟨tuple, htuple, hmem⟩ := List.mem_flatMap.mp htuple'
      obtain ⟨o, rfl, ho⟩ := Join.mem_extend hmem
      obtain ⟨hlength, hholds⟩ := htuples tuple htuple
      refine ⟨by simp [hlength], fun slot entity r hslot' hr => ?_⟩
      -- A slot is one of those before, or the one of this join.
      rw [List.getElem?_append] at hr
      split at hr
      · exact hholds slot entity r hslot' hr
      · rw [List.getElem?_singleton] at hr
        split at hr
        · obtain rfl : slot = j.slot := by omega
          rw [hentity] at hslot'
          cases hslot'
          exact ho r (Option.some.inj hr)
        · cases hr
    obtain ⟨tuples', hall, hfits⟩ := ih (fun k hk => htables k (List.mem_cons_of_mem j hk)) hrest
      htuples' (List.getElem?_eq_some_iff.mp hj).1
    refine ⟨tuples', ?_, hfits⟩
    simp only [Tables.joinAll, happly]
    exact hall

theorem exists_bind_fits (hf : f.Sound c) (htable : t.table f.entity = .ok (t.records f.entity))
    (htables : ∀ j ∈ f.joins, t.table j.entity = .ok (t.records j.entity)) :
    ∃ tuples, t.bind f.entity f.joins = .ok tuples ∧ ∀ tuple ∈ tuples, tuple.Fits c t f := by
  have hroot : ∀ tuple ∈ (t.records f.entity).map fun r => [some r],
      tuple.length = 0 + 1 ∧ Tuple.HoldsFrom t f tuple := by
    intro tuple htuple
    obtain ⟨r, hr, rfl⟩ := List.mem_map.mp htuple
    refine ⟨rfl, fun slot entity r' hslot hr' => ?_⟩
    cases slot with
    | zero =>
      cases hslot
      cases hr'
      exact hr
    | succ i => cases hr'
  obtain ⟨tuples, hall, hfits⟩ := joinAll_fits hf htables rfl hroot (Nat.zero_le _)
  refine ⟨tuples, ?_, hfits⟩
  simp only [Tables.bind, htable]
  exact hall

/-- The entity of a frame can be bound under its joins in tables that conform, and gives tuples that
fit. -/
theorem Conforms.bind_fits (hconf : t.Conforms c) (hf : f.Sound c) :
    ∃ tuples, t.bind f.entity f.joins = .ok tuples ∧ ∀ tuple ∈ tuples, tuple.Fits c t f := by
  obtain ⟨e, he⟩ := hf.root
  refine exists_bind_fits hf (hconf.table he) fun j hj => ?_
  obtain ⟨i, hi⟩ := List.mem_iff_getElem?.mp hj
  obtain ⟨e, he⟩ := hf.known (hf.entityOf?_slot hi).2
  exact hconf.table he

theorem table_records_of_ok {entity : String} {records : List Record}
    (h : t.table entity = .ok records) : t.table entity = .ok (t.records entity) := by
  unfold table at h
  split at h
  case h_1 records' hrecords => simp only [table, Tables.records, hrecords, Option.getD_some]
  case h_2 => cases h

/-- Joins that have been applied have led to tables. -/
theorem tables_of_joinAll {joins : List Join} {tuples bound : List Tuple}
    (h : t.joinAll joins tuples = .ok bound) :
    ∀ j ∈ joins, t.table j.entity = .ok (t.records j.entity) := by
  induction joins generalizing tuples with
  | nil => simp
  | cons j joins ih =>
    obtain ⟨joined, hjoined, h⟩ := bind_eq_ok.mp h
    obtain ⟨targets, htargets, -⟩ := bind_eq_ok.mp hjoined
    exact List.forall_mem_cons.mpr ⟨table_records_of_ok htargets, ih h⟩

/-- What has been bound for a frame fits it. -/
theorem bind_fits (hf : f.Sound c) {bound : List Tuple}
    (h : t.bind f.entity f.joins = .ok bound) : ∀ tuple ∈ bound, tuple.Fits c t f := by
  obtain ⟨records, hrecords, hjoins⟩ := bind_eq_ok.mp h
  obtain ⟨fitting, hfitting, hfits⟩ :=
    exists_bind_fits hf (table_records_of_ok hrecords) (tables_of_joinAll hjoins)
  obtain rfl := Except.ok.inj (h.symm.trans hfitting)
  exact hfits

end Tables

end EntityQuery
