import EntityQuery.Proofs.Evaluation.Outcomes

/-!
# Stable sorting

Under an order that is a total preorder on its elements, a list has one rearrangement that is ascending
and leaves elements of one level in the order in which they were. Sorting gives that one.
-/

namespace EntityQuery

variable {S : α → Prop} {order : α → α → Ordering} {a b c x : α} {xs ys zs : List α}

/-! ## Total preorders -/

namespace TotalPreorderOn

/-- The order of the elements on which it is a total preorder. -/
theorem transCmp (h : TotalPreorderOn S order) :
    Std.TransCmp fun a b : Subtype S => order a b where
  eq_swap {a b} := h.swap b.2 a.2
  isLE_trans {a b c} := h.trans a.2 b.2 c.2

theorem of_transCmp (h : Std.TransCmp fun a b : Subtype S => order a b) :
    TotalPreorderOn S order where
  swap {a b} ha hb := h.eq_swap (a := ⟨b, hb⟩) (b := ⟨a, ha⟩)
  trans {a b c} ha hb hc := h.isLE_trans (a := ⟨a, ha⟩) (b := ⟨b, hb⟩) (c := ⟨c, hc⟩)

/-- Elements may be ordered by what belongs to them. -/
theorem comap {β : Type*} {T : β → Prop} (h : TotalPreorderOn S order) (f : β → α)
    (hf : ∀ b, T b → S (f b)) : TotalPreorderOn T fun a b => order (f a) (f b) where
  swap ha hb := h.swap (hf _ ha) (hf _ hb)
  trans ha hb hc := h.trans (hf _ ha) (hf _ hb) (hf _ hc)

theorem refl (h : TotalPreorderOn S order) (ha : S a) : order a a = .eq :=
  have := h.transCmp
  @Std.ReflCmp.compare_self _ (fun a b : Subtype S => order a b) _ ⟨a, ha⟩

theorem isLE_of_ne_lt (h : TotalPreorderOn S order) (ha : S a) (hb : S b) (hab : order a b ≠ .lt) :
    (order b a).isLE = true := by
  rw [h.swap ha hb, Ordering.isLE_swap, Ordering.isGE_iff_ne_lt]
  exact hab

theorem antisymm (h : TotalPreorderOn S order) (ha : S a) (hb : S b)
    (hab : (order a b).isLE = true) (hba : (order b a).isLE = true) : order a b = .eq :=
  have := h.transCmp
  @Std.OrientedCmp.isLE_antisymm _ (fun a b : Subtype S => order a b) _ ⟨a, ha⟩ ⟨b, hb⟩ hab hba

/-- An element is not on the level of one that comes after it. -/
theorem ne_eq_of_lt (h : TotalPreorderOn S order) (ha : S a) (hb : S b) (hc : S c)
    (hab : order a b = .eq) (hbc : order b c = .lt) : order a c ≠ .eq := by
  have := h.transCmp
  have hac : order a c = .lt :=
    @Std.TransCmp.lt_of_eq_of_lt _ (fun a b : Subtype S => order a b) _ ⟨a, ha⟩ ⟨b, hb⟩ ⟨c, hc⟩
      hab hbc
  rw [hac]
  exact nofun

theorem reverse (h : TotalPreorderOn S order) : TotalPreorderOn S fun a b => (order a b).swap where
  swap ha hb := congrArg Ordering.swap (h.swap ha hb)
  trans ha hb hc hab hbc := by
    rw [← h.swap ha hb] at hab
    rw [← h.swap hb hc] at hbc
    rw [← h.swap ha hc]
    exact h.trans hc hb ha hbc hab

/-- Elements that one order does not tell apart may be ordered by another. -/
theorem andThen {order' : α → α → Ordering} (h : TotalPreorderOn S order)
    (h' : TotalPreorderOn S order') :
    TotalPreorderOn S fun a b => (order a b).then (order' a b) :=
  have := h.transCmp
  have := h'.transCmp
  of_transCmp (inferInstanceAs (Std.TransCmp (compareLex (fun a b : Subtype S => order a b)
    fun a b => order' a b)))

end TotalPreorderOn

/-! ## Stable rearrangements -/

/-- A rearrangement in ascending order that leaves elements of one level as they were. -/
structure StableSort (order : α → α → Ordering) (xs ys : List α) : Prop where
  perm : ys.Perm xs
  ascending : ys.Pairwise fun a b => (order a b).isLE = true
  stable : ∀ a ∈ xs, ys.filter (order a · == .eq) = xs.filter (order a · == .eq)

/-- Ascending lists that agree level by level are the same. -/
theorem eq_of_ascending (h : TotalPreorderOn S order) (hys : ∀ y ∈ ys, S y)
    (hperm : ys.Perm zs) (hascending : ys.Pairwise fun a b => (order a b).isLE = true)
    (hascending' : zs.Pairwise fun a b => (order a b).isLE = true)
    (hlevels : ∀ a ∈ ys, ys.filter (order a · == .eq) = zs.filter (order a · == .eq)) :
    ys = zs := by
  induction ys generalizing zs with
  | nil => exact hperm.nil_eq
  | cons y ys ih =>
    cases zs with
    | nil => exact absurd hperm.length_eq (by simp)
    | cons z zs =>
      obtain ⟨hy, hys'⟩ := List.pairwise_cons.mp hascending
      obtain ⟨hz, hzs'⟩ := List.pairwise_cons.mp hascending'
      have hyS := hys y List.mem_cons_self
      have hzS := hys z (hperm.mem_iff.mpr List.mem_cons_self)
      have hyz : (order y z).isLE = true := by
        rcases List.mem_cons.mp (hperm.mem_iff.mpr (List.mem_cons_self : z ∈ z :: zs)) with rfl | hmem
        · rw [h.refl hzS]
          rfl
        · exact hy z hmem
      have hzy : (order z y).isLE = true := by
        rcases List.mem_cons.mp (hperm.mem_iff.mp (List.mem_cons_self : y ∈ y :: ys)) with rfl | hmem
        · rw [h.refl hyS]
          rfl
        · exact hz y hmem
      -- The first elements are of one level, and the first of that level in either list.
      have heq : y = z := by
        have hlevel := hlevels y List.mem_cons_self
        rw [List.filter_cons_of_pos (by simp [h.refl hyS]),
          List.filter_cons_of_pos (by simp [h.antisymm hyS hzS hyz hzy])] at hlevel
        exact (List.cons.inj hlevel).1
      subst heq
      refine congrArg _ (ih (fun y' hy' => hys y' (List.mem_cons_of_mem _ hy')) hperm.cons_inv hys'
        hzs' fun a ha => ?_)
      have hlevel := hlevels a (List.mem_cons_of_mem _ ha)
      rw [List.filter_cons, List.filter_cons] at hlevel
      split at hlevel
      · exact (List.cons.inj hlevel).2
      · exact hlevel

theorem StableSort.unique (h : TotalPreorderOn (· ∈ xs) order) (hys : StableSort order xs ys)
    (hzs : StableSort order xs zs) : ys = zs := by
  refine eq_of_ascending h (fun y hy => hys.perm.mem_iff.mp hy) (hys.perm.trans hzs.perm.symm)
    hys.ascending hzs.ascending fun a ha => ?_
  have hmem := hys.perm.mem_iff.mp ha
  rw [hys.stable a hmem, hzs.stable a hmem]

/-! ## Sorting by insertion -/

theorem mem_insertLast : a ∈ insertLast order x ys ↔ a = x ∨ a ∈ ys := by
  rw [(insertLast_perm x ys).mem_iff, List.mem_cons]

/-- Insertion keeps a list that is given last element first ascending. -/
theorem insertLast_ascending (h : TotalPreorderOn S order) (hx : S x) (hys : ∀ y ∈ ys, S y)
    (hascending : ys.Pairwise fun b a => (order a b).isLE = true) :
    (insertLast order x ys).Pairwise fun b a => (order a b).isLE = true := by
  induction ys with
  | nil => exact List.pairwise_singleton ..
  | cons y ys ih =>
    obtain ⟨hy, hrest⟩ := List.pairwise_cons.mp hascending
    have hyS := hys y List.mem_cons_self
    have hysS : ∀ z ∈ ys, S z := fun z hz => hys z (List.mem_cons_of_mem _ hz)
    rw [insertLast]
    split
    · next hlt =>
      refine List.pairwise_cons.mpr ⟨fun z hz => ?_, ih hysS hrest⟩
      rcases mem_insertLast.mp hz with rfl | hz
      · rw [hlt]
        rfl
      · exact hy z hz
    · next hlt =>
      -- It stops at the first one that it does not come before.
      have hle := h.isLE_of_ne_lt hx hyS hlt
      refine List.pairwise_cons.mpr ⟨fun z hz => ?_, hascending⟩
      rcases List.mem_cons.mp hz with rfl | hz
      · exact hle
      · exact h.trans (hysS z hz) hyS hx (hy z hz) hle

/-- Insertion puts an element behind all others of its level. -/
theorem filter_insertLast (h : TotalPreorderOn S order) (ha : S a) (hx : S x)
    (hys : ∀ y ∈ ys, S y) : (insertLast order x ys).filter (order a · == .eq) =
      (x :: ys).filter (order a · == .eq) := by
  induction ys with
  | nil => rfl
  | cons y ys ih =>
    have hyS := hys y List.mem_cons_self
    rw [insertLast]
    split
    · next hlt =>
      have hrest := ih fun z hz => hys z (List.mem_cons_of_mem _ hz)
      -- The element passes another one, which is then not of its level.
      by_cases hax : order a x = .eq
      · have hay : ¬ (order a y == .eq) = true :=
          fun hay => h.ne_eq_of_lt ha hx hyS hax hlt (eq_of_beq hay)
        rw [List.filter_cons, if_neg hay, hrest]
        simp only [List.filter_cons, if_neg hay]
      · have hax' : ¬ (order a x == .eq) = true := fun hbeq => hax (eq_of_beq hbeq)
        rw [List.filter_cons, hrest]
        simp only [List.filter_cons, if_neg hax']
    · rfl

/-- What has been inserted is ascending, last element first, and in each level it is what was given,
last element first. -/
theorem foldl_insertLast (h : TotalPreorderOn S order) (hxs : ∀ x ∈ xs, S x) (hys : ∀ y ∈ ys, S y)
    (hascending : ys.Pairwise fun b a => (order a b).isLE = true) :
    ((xs.foldl (fun sorted x => insertLast order x sorted) ys).Pairwise
      fun b a => (order a b).isLE = true) ∧
    ∀ a, S a → (xs.foldl (fun sorted x => insertLast order x sorted) ys).filter
      (order a · == .eq) = (xs.reverse ++ ys).filter (order a · == .eq) := by
  -- Over what is still to be inserted; that the list so far is ascending is the invariant.
  induction xs generalizing ys with
  | nil => exact ⟨hascending, fun _ _ => rfl⟩
  | cons x xs ih =>
    have hx := hxs x List.mem_cons_self
    have hinserted : ∀ y ∈ insertLast order x ys, S y := by
      intro y hy
      rcases mem_insertLast.mp hy with rfl | hy
      · exact hx
      · exact hys y hy
    obtain ⟨hsorted, hlevels⟩ := ih (fun y hy => hxs y (List.mem_cons_of_mem _ hy)) hinserted
      (insertLast_ascending h hx hys hascending)
    refine ⟨hsorted, fun a ha => ?_⟩
    rw [List.foldl_cons, hlevels a ha, List.filter_append, filter_insertLast h ha hx hys,
      ← List.filter_append, List.reverse_cons, List.append_assoc, List.singleton_append]

theorem sortBy_stableSort (h : TotalPreorderOn (· ∈ xs) order) :
    StableSort order xs (sortBy order xs) := by
  have hnil : ∀ y ∈ ([] : List α), y ∈ xs := by simp
  obtain ⟨hsorted, hlevels⟩ := foldl_insertLast h (fun _ hx => hx) hnil .nil
  refine ⟨sortBy_perm order xs, List.pairwise_reverse.mpr hsorted, fun a ha => ?_⟩
  rw [sortBy, List.filter_reverse, hlevels a ha, List.append_nil, List.filter_reverse,
    List.reverse_reverse]

/-- Sorting gives the stable rearrangement. -/
theorem stableSort_iff (h : TotalPreorderOn (· ∈ xs) order) :
    StableSort order xs ys ↔ ys = sortBy order xs := by
  constructor
  · exact fun hys => hys.unique h (sortBy_stableSort h)
  · rintro rfl
    exact sortBy_stableSort h

/-- Where all are on one level, sorting changes nothing. -/
theorem sortBy_eq_self (horder : ∀ a b, order a b = .eq) : sortBy order xs = xs := by
  have h : TotalPreorderOn (· ∈ xs) order := by
    constructor <;> simp [horder]
  refine ((stableSort_iff h).mp ⟨.refl _, ?_, fun _ _ => rfl⟩).symm
  exact List.pairwise_of_forall fun a b => by rw [horder]; rfl

end EntityQuery
