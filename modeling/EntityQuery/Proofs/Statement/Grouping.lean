import EntityQuery.Proofs.Statement
import Mathlib.Data.List.Induction

/-!
# Groups of clauses

Markers divide the clauses of a body into groups, each of them a run of clauses without a marker in
between. Linking from left to right does not make the groups alternatives of each other: a clause that
opens a group throws in a new alternative, and every later clause that opens none narrows all the
alternatives before it. `Statement.Holds` says so by positions, without any linking, and
`Statement.combine_iff_holds` that it is what linking amounts to.
-/

namespace EntityQuery.Statement

variable {α : Type} {T : α → Prop} {xs ys : List (Statement α)} {c d : α} {i : Nat}

/-! ## Positions -/

/-- No clause stands before a position. -/
def IsFirst (xs : List (Statement α)) (i : Nat) : Prop :=
  ∀ k c, k < i → xs[k]? ≠ some (.clause c)

/-- A marker stands before a position, and behind it no clause up to there. -/
def IsMarked (xs : List (Statement α)) (i : Nat) : Prop :=
  ∃ k < i, xs[k]? = some .or ∧ ∀ m c, k < m → m < i → xs[m]? ≠ some (.clause c)

/-- At a position a true clause opens a group, and every later clause that opens none is true too. -/
def IsTrueFrom (T : α → Prop) (xs : List (Statement α)) (i : Nat) : Prop :=
  ∃ c, xs[i]? = some (.clause c) ∧ (IsFirst xs i ∨ IsMarked xs i) ∧ T c ∧
    ∀ j d, i < j → xs[j]? = some (.clause d) → ¬ IsMarked xs j → T d

/-- What statements say: they are true from some group on. Without clauses nothing is said. -/
def Holds (T : α → Prop) (xs : List (Statement α)) : Prop :=
  (∀ c, .clause c ∉ xs) ∨ ∃ i, IsTrueFrom T xs i

/-! What stands behind a position does not count for it. -/

theorem isFirst_append (hi : i ≤ xs.length) : IsFirst (xs ++ ys) i ↔ IsFirst xs i := by
  have hget : ∀ k, k < i → (xs ++ ys)[k]? = xs[k]? :=
    fun k hk => List.getElem?_append_left (by omega)
  constructor
  · intro h k c hk
    rw [← hget k hk]
    exact h k c hk
  · intro h k c hk
    rw [hget k hk]
    exact h k c hk

theorem isMarked_append (hi : i ≤ xs.length) : IsMarked (xs ++ ys) i ↔ IsMarked xs i := by
  have hget : ∀ k, k < i → (xs ++ ys)[k]? = xs[k]? :=
    fun k hk => List.getElem?_append_left (by omega)
  constructor
  · rintro ⟨k, hk, hor, hbehind⟩
    refine ⟨k, hk, by rw [← hget k hk]; exact hor, fun m c hkm hmi => ?_⟩
    rw [← hget m hmi]
    exact hbehind m c hkm hmi
  · rintro ⟨k, hk, hor, hbehind⟩
    refine ⟨k, hk, by rw [hget k hk]; exact hor, fun m c hkm hmi => ?_⟩
    rw [hget m hmi]
    exact hbehind m c hkm hmi

theorem isFirst_length : IsFirst xs xs.length ↔ ∀ c, .clause c ∉ xs := by
  constructor
  · intro h c hc
    obtain ⟨k, hk⟩ := List.mem_iff_getElem?.mp hc
    exact h k c (List.getElem?_eq_some_iff.mp hk).1 hk
  · intro h k c _ hk
    exact h c (List.mem_of_getElem? hk)

/-! ## Linking one more statement -/

/-- What links a clause behind statements, given what links one before them. -/
def linkAfter (next : Connective) : List (Statement α) → Connective
  | [] => next
  | or :: rest => linkAfter .or rest
  | clause _ :: rest => linkAfter .and rest

theorem tagFrom_append (next : Connective) (xs ys : List (Statement α)) :
    tagFrom next (xs ++ ys) = tagFrom next xs ++ tagFrom (linkAfter next xs) ys := by
  induction xs generalizing next with
  | nil => rfl
  | cons x xs ih =>
    cases x with
    | or => exact ih .or
    | clause c => exact congrArg _ (ih .and)

theorem linkAfter_append (next : Connective) (xs ys : List (Statement α)) :
    linkAfter next (xs ++ ys) = linkAfter (linkAfter next xs) ys := by
  induction xs generalizing next with
  | nil => rfl
  | cons x xs ih =>
    cases x with
    | or => exact ih .or
    | clause c => exact ih .and

/-- A clause is linked by OR if and only if it is marked. -/
theorem linkAfter_eq_or_iff : linkAfter .and xs = .or ↔ IsMarked xs xs.length := by
  induction xs using List.reverseRecOn with
  | nil =>
    constructor
    · intro h
      cases h
    · rintro ⟨k, hk, -⟩
      exact absurd hk (Nat.not_lt_zero k)
  | append_singleton xs x ih =>
    rw [linkAfter_append, List.length_append, List.length_singleton]
    have hlast : (xs ++ [x])[xs.length]? = some x := List.getElem?_concat_length
    cases x with
    | or =>
      refine iff_of_true rfl ⟨xs.length, Nat.lt_succ_self _, hlast, fun m c hm hm' => ?_⟩
      omega
    | clause c =>
      -- The clause itself stands behind every marker.
      refine iff_of_false (by rw [linkAfter, linkAfter]; decide) ?_
      rintro ⟨k, hk, hor, hbehind⟩
      by_cases hkx : k = xs.length
      · subst hkx
        rw [hlast] at hor
        cases hor
      · exact hbehind xs.length c (by omega) (Nat.lt_succ_self _) hlast

section Combine

variable (and or : α → α → α)

/-- A marker behind all clauses links nothing. -/
theorem combine_append_or (xs : List (Statement α)) :
    combine and or (xs ++ [.or]) = combine and or xs := by
  rw [combine, combine, tag, tag, tagFrom_append, tagFrom, tagFrom, List.append_nil]

/-- One more clause is linked to all before it. -/
theorem combine_append_clause (xs : List (Statement α)) (c : α) :
    combine and or (xs ++ [.clause c]) =
      some (match combine and or xs with
        | none => c
        | some p => link and or p (linkAfter .and xs, c)) := by
  rw [combine, combine, tag, tag, tagFrom_append, tagFrom, tagFrom]
  cases tagFrom .and xs with
  | nil => rfl
  | cons x rest =>
    simp only [List.cons_append, fold, List.foldl_append, List.foldl_cons, List.foldl_nil]

theorem combine_eq_none_iff : combine and or xs = none ↔ ∀ c, .clause c ∉ xs := by
  induction xs using List.reverseRecOn with
  | nil => exact iff_of_true rfl fun c => List.not_mem_nil
  | append_singleton xs x ih =>
    cases x with
    | or =>
      rw [combine_append_or, ih]
      simp
    | clause c =>
      rw [combine_append_clause]
      refine iff_of_false (by simp) fun h => h c ?_
      exact List.mem_append_right _ (List.mem_singleton_self _)

end Combine

/-! ## What one more statement says -/

/-- A clause of the longer list is the last one, or stands at the same position in the shorter one. -/
theorem getElem?_append_clause :
    (xs ++ [.clause c])[i]? = some (.clause d) ↔
      (i = xs.length ∧ d = c) ∨ (i < xs.length ∧ xs[i]? = some (.clause d)) := by
  rcases Nat.lt_trichotomy i xs.length with h | rfl | h
  · rw [List.getElem?_append_left h]
    constructor
    · exact fun hi => .inr ⟨h, hi⟩
    · rintro (⟨rfl, -⟩ | ⟨-, hi⟩)
      · exact absurd h (Nat.lt_irrefl _)
      · exact hi
  · rw [List.getElem?_concat_length]
    simp [eq_comm]
  · rw [List.getElem?_eq_none (by simp; omega)]
    constructor
    · intro hi
      cases hi
    · rintro (⟨rfl, -⟩ | ⟨hlt, -⟩)
      · exact absurd h (Nat.lt_irrefl _)
      · omega

/-- The last clause opens a group if it is the first one or marked; nothing comes after it. -/
theorem isTrueFrom_length :
    IsTrueFrom T (xs ++ [.clause c]) xs.length ↔
      ((∀ d, .clause d ∉ xs) ∨ IsMarked xs xs.length) ∧ T c := by
  unfold IsTrueFrom
  rw [isFirst_append (Nat.le_refl _), isMarked_append (Nat.le_refl _), isFirst_length]
  constructor
  · rintro ⟨d, hd, hopens, htrue, -⟩
    rcases getElem?_append_clause.mp hd with ⟨-, rfl⟩ | ⟨hlt, -⟩
    · exact ⟨hopens, htrue⟩
    · exact absurd hlt (Nat.lt_irrefl _)
  · rintro ⟨hopens, htrue⟩
    refine ⟨c, List.getElem?_concat_length, hopens, htrue, fun j e hj he _ => ?_⟩
    rcases getElem?_append_clause.mp he with ⟨rfl, -⟩ | ⟨hlt, -⟩
    · exact absurd hj (Nat.lt_irrefl _)
    · omega

/-- The last clause narrows what is true from an earlier group on, unless it is marked. -/
theorem isTrueFrom_append_clause (hi : i < xs.length) :
    IsTrueFrom T (xs ++ [.clause c]) i ↔
      IsTrueFrom T xs i ∧ (IsMarked xs xs.length ∨ T c) := by
  unfold IsTrueFrom
  rw [isFirst_append (Nat.le_of_lt hi), isMarked_append (Nat.le_of_lt hi),
    List.getElem?_append_left hi]
  constructor
  · rintro ⟨d, hd, hopens, htrue, hlater⟩
    refine ⟨⟨d, hd, hopens, htrue, fun j e hij he hnot => ?_⟩, ?_⟩
    · have hj := (List.getElem?_eq_some_iff.mp he).1
      -- A clause that is later in the first statements is so in all of them.
      refine hlater j e hij (getElem?_append_clause.mpr (.inr ⟨hj, he⟩)) ?_
      rwa [isMarked_append (Nat.le_of_lt hj)]
    · by_cases hmarked : IsMarked xs xs.length
      · exact .inl hmarked
      · refine .inr (hlater xs.length c hi List.getElem?_concat_length ?_)
        rwa [isMarked_append (Nat.le_refl _)]
  · rintro ⟨⟨d, hd, hopens, htrue, hlater⟩, hlast⟩
    refine ⟨d, hd, hopens, htrue, fun j e hij he hnot => ?_⟩
    -- A later clause is the last one, or one of the first statements.
    rcases getElem?_append_clause.mp he with ⟨rfl, rfl⟩ | ⟨hj, he⟩
    · rw [isMarked_append (Nat.le_refl _)] at hnot
      exact hlast.resolve_left hnot
    · rw [isMarked_append (Nat.le_of_lt hj)] at hnot
      exact hlater j e hij he hnot

/-- One more clause is a new alternative if it opens a group, and narrows what is there if not. -/
theorem holds_append_clause :
    Holds T (xs ++ [.clause c]) ↔
      (((∀ d, .clause d ∉ xs) ∨ IsMarked xs xs.length) ∧ T c) ∨
        ((∃ i, IsTrueFrom T xs i) ∧ (IsMarked xs xs.length ∨ T c)) := by
  have hsome : ¬ ∀ d, .clause d ∉ xs ++ [.clause c] := fun h =>
    h c (List.mem_append_right _ (List.mem_singleton_self _))
  rw [Holds, or_iff_right hsome, ← isTrueFrom_length]
  constructor
  · rintro ⟨i, h⟩
    obtain ⟨d, hd, -⟩ := id h
    rcases getElem?_append_clause.mp hd with ⟨rfl, -⟩ | ⟨hi, -⟩
    · exact .inl h
    · obtain ⟨hbefore, hlast⟩ := (isTrueFrom_append_clause hi).mp h
      exact .inr ⟨⟨i, hbefore⟩, hlast⟩
  · rintro (h | ⟨⟨i, h⟩, hlast⟩)
    · exact ⟨xs.length, h⟩
    · obtain ⟨d, hd, -⟩ := id h
      have hi := (List.getElem?_eq_some_iff.mp hd).1
      exact ⟨i, (isTrueFrom_append_clause hi).mpr ⟨h, hlast⟩⟩

/-- A marker behind all clauses says nothing. -/
theorem holds_append_or : Holds T (xs ++ [.or]) ↔ Holds T xs := by
  have hget : ∀ (k : Nat) (d : α), (xs ++ [or])[k]? = some (clause d) ↔ xs[k]? = some (clause d) := by
    intro k d
    by_cases hk : k < xs.length
    · rw [List.getElem?_append_left hk]
    · rw [List.getElem?_append_right (by omega), List.getElem?_eq_none (l := xs) (by omega)]
      simp [List.getElem?_singleton]
  have hle : ∀ {k d}, xs[k]? = some (.clause d) → k ≤ xs.length := fun h =>
    Nat.le_of_lt (List.getElem?_eq_some_iff.mp h).1
  have htrue : ∀ i, IsTrueFrom T (xs ++ [.or]) i ↔ IsTrueFrom T xs i := by
    intro i
    simp only [IsTrueFrom, hget]
    refine exists_congr fun d => and_congr_right fun hd => ?_
    rw [isFirst_append (hle hd), isMarked_append (hle hd)]
    refine and_congr_right fun _ => and_congr_right fun _ => ?_
    refine forall₂_congr fun j e => forall_congr' fun _ => forall_congr' fun he => ?_
    rw [isMarked_append (hle he)]
  simp [Holds, htrue]

/-! ## Linked statements -/

/-- If AND is true of two clauses and OR of one of them, then linked statements are true exactly
when they hold. Both may ask for a property of clauses that they keep. -/
theorem combine_iff_holds {P : α → Prop} {and or : α → α → α}
    (hand : ∀ a b, P a → P b → P (and a b) ∧ (T (and a b) ↔ T a ∧ T b))
    (hor : ∀ a b, P a → P b → P (or a b) ∧ (T (or a b) ↔ T a ∨ T b))
    (hclauses : ∀ c, .clause c ∈ xs → P c) {p : α} (h : combine and or xs = some p) :
    P p ∧ (T p ↔ Holds T xs) := by
  induction xs using List.reverseRecOn generalizing p with
  | nil => cases h
  | append_singleton xs x ih =>
    have ih := fun {p : α} => ih (p := p) fun c hc => hclauses c (List.mem_append_left _ hc)
    cases x with
    | or =>
      rw [combine_append_or] at h
      rw [holds_append_or]
      exact ih h
    | clause c =>
      have hc : P c := hclauses c (List.mem_append_right _ (List.mem_singleton_self _))
      rw [combine_append_clause] at h
      rw [holds_append_clause, ← linkAfter_eq_or_iff]
      cases hcombine : combine and or xs with
      | none =>
        -- The first clause stands alone.
        have hnone := (combine_eq_none_iff and or).mp hcombine
        have hfrom : ¬ ∃ i, IsTrueFrom T xs i := by
          rintro ⟨i, d, hd, -⟩
          exact hnone d (List.mem_of_getElem? hd)
        rw [hcombine] at h
        cases h
        exact ⟨hc, by simp only [hnone, hfrom, false_and, or_false, true_or, implies_true,
          not_false_eq_true, true_and]⟩
      | some q =>
        rw [hcombine] at h
        cases h
        obtain ⟨hq, hT⟩ := ih hcombine
        have hsome : ¬ ∀ d, .clause d ∉ xs := by
          rw [← combine_eq_none_iff and or, hcombine]
          simp
        rw [Holds, or_iff_right hsome] at hT
        rw [← hT, or_iff_right hsome]
        cases hlink : linkAfter .and xs with
        | and =>
          have hlinked := hand q c hq hc
          simpa [link] using hlinked
        | or =>
          have hlinked := hor q c hq hc
          simpa [link, or_comm] using hlinked

/-- Clauses without a marker hold if all of them are true. -/
theorem holds_of_unmarked (h : .or ∉ xs) : Holds T xs ↔ ∀ c, .clause c ∈ xs → T c := by
  have hunmarked : ∀ i, ¬ IsMarked xs i := by
    rintro i ⟨k, -, hk, -⟩
    exact h (List.mem_of_getElem? hk)
  constructor
  · rintro (hnone | ⟨i, c, hc, hopens, htrue, hlater⟩) d hd
    · exact absurd hd (hnone d)
    · -- The only group is opened by the first clause, and all others are later ones.
      obtain ⟨j, hj⟩ := List.mem_iff_getElem?.mp hd
      have hfirst := hopens.resolve_right (hunmarked i)
      rcases Nat.lt_trichotomy j i with hlt | rfl | hlt
      · exact absurd hj (hfirst j d hlt)
      · cases hc.symm.trans hj
        exact htrue
      · exact hlater j d hlt hj (hunmarked j)
  · intro hall
    cases xs with
    | nil => exact .inl fun c => List.not_mem_nil
    | cons x xs =>
      cases x with
      | or => exact absurd List.mem_cons_self h
      | clause c =>
        -- The first clause opens the one group, which all others narrow.
        refine .inr ⟨0, c, rfl, .inl fun k d hk => absurd hk (Nat.not_lt_zero k), ?_, ?_⟩
        · exact hall c List.mem_cons_self
        · exact fun j d _ hj _ => hall d (List.mem_of_getElem? hj)

/-- What is true of a conjunction only if it is of both sides is true of linked clauses without a
marker only if it is of all of them. -/
theorem combine_iff_of_unmarked {and or : α → α → α} (hand : ∀ a b, T (and a b) ↔ T a ∧ T b)
    (hunmarked : .or ∉ xs) {p : α} (h : combine and or xs = some p) :
    T p ↔ ∀ c, .clause c ∈ xs → T c := by
  induction xs using List.reverseRecOn generalizing p with
  | nil => cases h
  | append_singleton xs x ih =>
    rw [List.mem_append, not_or, List.mem_singleton] at hunmarked
    cases x with
    | or => exact absurd rfl hunmarked.2
    | clause c =>
      -- Without a marker every clause is linked by a conjunction.
      have hlink : linkAfter .and xs = .and := by
        cases hlink : linkAfter .and xs with
        | and => rfl
        | or =>
          obtain ⟨k, -, hk, -⟩ := linkAfter_eq_or_iff.mp hlink
          exact absurd (List.mem_of_getElem? hk) hunmarked.1
      rw [combine_append_clause, hlink] at h
      cases h
      simp only [List.mem_append, List.mem_singleton, Statement.clause.injEq, or_imp, forall_and,
        forall_eq]
      cases hcombine : combine and or xs with
      | none =>
        have hnone := (combine_eq_none_iff and or).mp hcombine
        exact (and_iff_right fun d hd => absurd hd (hnone d)).symm
      | some q =>
        rw [← ih hunmarked.1 hcombine]
        exact hand q c

end EntityQuery.Statement
