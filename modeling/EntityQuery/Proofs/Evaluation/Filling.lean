import EntityQuery.Proofs.Evaluation.Fitting

/-!
# Slots that are always filled

A slot in which no outer join stands has a record in every tuple: where a join that is not outer finds
none, the tuple is dropped. So a column of such a slot has a value of the type of its field in every
tuple, and not null where the type has no null.
-/

namespace EntityQuery

/-! ## Slots that no tuple lacks -/

/-- No outer join among some stands in a slot. -/
def Join.Fills (joins : List Join) (slot : Nat) : Prop :=
  ∀ j ∈ joins, j.slot = slot → j.kind = .inner

instance (joins : List Join) (slot : Nat) : Decidable (Join.Fills joins slot) :=
  inferInstanceAs (Decidable (∀ j ∈ joins, j.slot = slot → j.kind = .inner))

namespace Frame

variable {c : Catalog} {f g : Frame} {slot : Nat}

/-- The slots of outer joins are optional. -/
theorem mem_optionalSlots {j : Join} (hj : j ∈ f.joins) (hleft : j.kind = .left) :
    j.slot ∈ f.optionalSlots := by
  -- A slot that has been found optional stays so.
  have hfold : ∀ (joins : List Join) (slots : List Nat), j.slot ∈ slots ∨ j ∈ joins →
      j.slot ∈ joins.foldl (fun slots j =>
        if j.kind = .left ∨ j.parent ∈ slots then j.slot :: slots else slots) slots := by
    intro joins
    induction joins with
    | nil =>
      rintro slots (h | h)
      · exact h
      · cases h
    | cons k joins ih =>
      intro slots h
      rw [List.foldl_cons]
      refine ih _ ?_
      rcases h with h | h
      · left
        split
        · exact List.mem_cons_of_mem _ h
        · exact h
      · rcases List.mem_cons.mp h with rfl | h
        · left
          rw [if_pos (.inl hleft)]
          exact List.mem_cons_self
        · exact .inr h
  exact hfold f.joins [] (.inr hj)

theorem fills_of_not_optional (h : f.optionalSlots.contains slot = false) :
    Join.Fills f.joins slot := by
  intro j hj hslot
  cases hkind : j.kind with
  | inner => rfl
  | left =>
    have hmem : slot ∈ f.optionalSlots := hslot ▸ mem_optionalSlots hj hkind
    rw [List.contains_iff_mem.mpr hmem] at h
    cases h

namespace Extends

theorem ordered (h : f.Extends g) (hg : g.Ordered) : f.Ordered := by
  intro i j hj
  obtain ⟨more, hmore⟩ := h.joins
  refine hg i j ?_
  rw [← hmore, List.getElem?_append_left (List.getElem?_eq_some_iff.mp hj).1]
  exact hj

/-- What is joined later stands in other slots. -/
theorem fills (h : f.Extends g) (hg : g.Ordered) (hslot : slot ≤ f.joins.length)
    (hfills : Join.Fills f.joins slot) : Join.Fills g.joins slot := by
  intro j hj hjslot
  obtain ⟨i, hi⟩ := List.mem_iff_getElem?.mp hj
  have hi' : i + 1 = slot := (hg i j hi).1.symm.trans hjslot
  obtain ⟨more, hmore⟩ := h.joins
  rw [← hmore, List.getElem?_append_left (by omega)] at hi
  exact hfills j (List.mem_of_getElem? hi) hjslot

/-- A slot is bound to the same entity as before. -/
theorem entityOf?_of_le (h : f.Extends g) (hg : g.Ordered) (hslot : slot ≤ f.joins.length) :
    f.entityOf? slot = g.entityOf? slot := by
  cases slot with
  | zero => exact congrArg some h.entity
  | succ i =>
    obtain ⟨more, hmore⟩ := h.joins
    rw [(h.ordered hg).entityOf?_succ, hg.entityOf?_succ, ← hmore,
      List.getElem?_append_left hslot]

theorem sound (h : f.Extends g) (hg : g.Sound c) : f.Sound c := by
  have hord := h.ordered hg.ordered
  refine ⟨hord, fun j hj => ?_, ?_⟩
  · obtain ⟨i, hi⟩ := List.mem_iff_getElem?.mp hj
    obtain ⟨owner, r, howner, hr⟩ := hg.relational j (h.joins.subset hj)
    -- The parent stands before the join.
    have hparent : j.parent ≤ f.joins.length := by
      have hle := (hord i j hi).2
      have hlt := (List.getElem?_eq_some_iff.mp hi).1
      omega
    exact ⟨owner, r, (h.entityOf?_of_le hg.ordered hparent).trans howner, hr⟩
  · obtain ⟨e, he⟩ := hg.root
    exact ⟨e, h.entity ▸ he⟩

end Extends

end Frame

/-! ## Bound tuples -/

/-- A tuple with a record in every slot that is always filled. -/
def Tuple.Filled (joins : List Join) (tuple : Tuple) : Prop :=
  ∀ slot, Join.Fills joins slot → tuple[slot]? ≠ some none

/-- An inner join appends a record. -/
theorem Join.mem_extend_inner {j : Join} (hj : j.kind = .inner) {targets : List Record}
    {tuple tuple' : Tuple} (h : tuple' ∈ j.extend targets tuple) :
    ∃ r, tuple' = tuple ++ [some r] := by
  unfold extend at h
  split at h
  · cases h
  · rename_i hkind
    rw [hj] at hkind
    cases hkind
  · obtain ⟨r, -, rfl⟩ := List.mem_map.mp h
    exact ⟨r, rfl⟩

namespace Tables

variable {t : Tables} {all joins : List Join} {tuples bound : List Tuple}

/-- One join keeps tuples filled. -/
theorem apply_filled {j : Join} (hj : j ∈ all) (htuples : ∀ tuple ∈ tuples, tuple.Filled all)
    (h : j.apply t tuples = .ok bound) : ∀ tuple ∈ bound, tuple.Filled all := by
  intro tuple' htuple'
  obtain ⟨targets, -, h⟩ := bind_eq_ok.mp h
  obtain ⟨tuple, htuple, extended, hextended, hmem⟩ := mem_of_flatMapE h htuple'
  split at hextended
  · rename_i hlength
    obtain rfl := Except.ok.inj hextended
    intro slot hfills
    -- The slot was there before, or it is the one that the join adds.
    rcases Nat.lt_or_ge slot tuple.length with hlt | hge
    · obtain ⟨o, rfl, -⟩ := Join.mem_extend hmem
      rw [List.getElem?_append_left hlt]
      exact htuples tuple htuple slot hfills
    · intro hnone
      have hslot : j.slot = slot := by
        obtain ⟨o, rfl, -⟩ := Join.mem_extend hmem
        have hlt := (List.getElem?_eq_some_iff.mp hnone).1
        rw [List.length_append, List.length_singleton] at hlt
        omega
      -- An inner join puts a record there.
      obtain ⟨r, rfl⟩ := Join.mem_extend_inner (hfills j hj hslot) hmem
      rw [← hslot, ← hlength, List.getElem?_concat_length] at hnone
      cases hnone
  · cases hextended

theorem joinAll_filled (hjoins : ∀ j ∈ joins, j ∈ all)
    (htuples : ∀ tuple ∈ tuples, tuple.Filled all) (h : t.joinAll joins tuples = .ok bound) :
    ∀ tuple ∈ bound, tuple.Filled all := by
  induction joins generalizing tuples with
  | nil =>
    obtain rfl := Except.ok.inj h
    exact htuples
  | cons j joins ih =>
    obtain ⟨joined, hj, h⟩ := bind_eq_ok.mp h
    have hjoined := apply_filled (hjoins j List.mem_cons_self) htuples hj
    exact ih (fun k hk => hjoins k (List.mem_cons_of_mem j hk)) hjoined h

/-- Every tuple that is bound has the records that no tuple lacks. -/
theorem bind_filled {entity : String} (h : t.bind entity joins = .ok bound) :
    ∀ tuple ∈ bound, tuple.Filled joins := by
  obtain ⟨records, -, h⟩ := bind_eq_ok.mp h
  refine joinAll_filled (fun j hj => hj) (fun tuple htuple slot _ => ?_) h
  obtain ⟨r, -, rfl⟩ := List.mem_map.mp htuple
  cases slot with
  | zero => simp
  | succ i => simp

end Tables

/-- A tuple that fits a frame and has the records that no tuple of the frame lacks. -/
structure Tuple.BoundBy (c : Catalog) (t : Tables) (f : Frame) (tuple : Tuple) : Prop where
  fits : tuple.Fits c t f
  filled : tuple.Filled f.joins

namespace Tuple.BoundBy

variable {c : Catalog} {t : Tables} {frames : List Frame} {tuple : Tuple} {outer : List Tuple}

theorem fitAll {tuples : List Tuple} (h : List.Forall₂ (BoundBy c t) frames tuples) :
    FitAll c t frames tuples :=
  h.imp fun _ _ h => h.fits

/-- What is read from a slot that is always filled is a record. -/
theorem record (h : List.Forall₂ (BoundBy c t) frames (tuple :: outer)) {level slot : Nat}
    {f : Frame} (hf : frames[level]? = some f) (hfills : Join.Fills f.joins slot)
    {o : Option Record} (ho : tuple.record outer level slot = .ok o) : ∃ r, o = some r := by
  obtain ⟨inner, hinner, hbound⟩ := forall₂_getElem? h hf
  unfold Tuple.record at ho
  rw [hinner] at ho
  cases hslot : inner[slot]? with
  | none => simp [hslot] at ho
  | some o' =>
    simp only [hslot, Except.ok.injEq] at ho
    subst ho
    cases o' with
    | none => exact absurd hslot (hbound.filled slot hfills)
    | some r => exact ⟨r, rfl⟩

/-- A column of a slot that is always filled has a value of the type of its field. -/
theorem column (h : List.Forall₂ (BoundBy c t) frames (tuple :: outer)) (htyped : t.Typed c)
    {p : Path} {column : Column} {field : Field}
    (hp : p.target? c frames = some (.field column field)) {f : Frame}
    (hf : frames[column.level]? = some f) (hfills : Join.Fills f.joins column.slot) {v : Value}
    (hv : column.value tuple outer = .ok v) : field.type.accepts v = true := by
  obtain ⟨owner, o, ho, hvalue, hattribute, hrecords⟩ := (fitAll h).column_record hp
  obtain ⟨r, rfl⟩ := record h hf hfills ho
  obtain rfl := Except.ok.inj (hv.symm.trans hvalue)
  exact htyped.field hattribute (hrecords r rfl)

end Tuple.BoundBy

end EntityQuery
