import EntityQuery.Proofs.Evaluation.Filling
import EntityQuery.Proofs.Evaluation.Filtering
import EntityQuery.Proofs.Sample

/-!
# Dual conditions

The dual of a condition has each test negated, each comparison turned round, and alternatives where
there were requirements. It is true where the condition is false, false where it is true and unknown
where it is unknown, and it fails where the condition fails: an `and` and its dual pass over their right
sides for the same rows. So no row passes a filter and its dual.
-/

namespace EntityQuery

/-! ## Duals -/

/-- The operator that is false of two values where another is true. -/
def Comparison.dual : Comparison → Comparison
  | eq => ne
  | ne => eq
  | lt => ge
  | ge => lt
  | gt => le
  | le => gt

/-- The dual of a condition. Nested queries and operands stay as they are. -/
def Predicate.dual : Predicate → Predicate
  | compare left op right => compare left op.dual right
  | like operand pattern negated => like operand pattern !negated
  | inList operand values negated => inList operand values !negated
  | inQuery operand plan negated => inQuery operand plan !negated
  | isNull operand negated => isNull operand !negated
  | isEmpty collection negated => isEmpty collection !negated
  | isMember value collection negated => isMember value collection !negated
  | and left right => or left.dual right.dual
  | or left right => and left.dual right.dual

namespace Truth

/-- The negation of a truth value; what is unknown stays so. -/
def not : Truth → Truth :=
  Option.map Bool.not

theorem not_and (a b : Truth) : (a.and b).not = a.not.or b.not := by
  rcases a with _ | _ | _ <;> rcases b with _ | _ | _ <;> rfl

theorem not_or (a b : Truth) : (a.or b).not = a.not.and b.not := by
  rcases a with _ | _ | _ <;> rcases b with _ | _ | _ <;> rfl

theorem not_eq_some (a : Truth) (b : Bool) : a.not = some b ↔ a = some !b := by
  rcases a with _ | _ | _ <;> cases b <;> decide

end Truth

/-! ## Single tests -/

/-- Values without an order satisfy neither an operator nor its dual. -/
theorem Comparison.truth_dual (op : Comparison) (a b : Value) :
    op.dual.truth a b = (op.truth a b).not := by
  unfold truth
  split
  · rfl
  · generalize a.equal b = e
    generalize a.order b = o
    cases op with
    | eq | ne => cases e <;> rfl
    | lt | le | gt | ge => rcases o with _ | _ | _ | _ <;> rfl

/-- A value that is not found is unknown either way if it might be a candidate that is null. -/
theorem membership_not (v : Value) (candidates : List Value) (negated : Bool) :
    membership v candidates (!negated) = (membership v candidates negated).not := by
  unfold membership
  split
  · rfl
  · split
    · rfl
    · split <;> rfl

theorem some_bne_not (a negated : Bool) :
    (some (a != !negated) : Truth) = Truth.not (some (a != negated)) := by
  cases a <;> cases negated <;> rfl

/-! ## Conditions -/

/-- Steps that only differ in what they end with fail alike. -/
theorem bind_map {x : Except ε α} {f g : α → Except ε β} {negate : β → β}
    (h : ∀ a, g a = (f a).map negate) : (x >>= g) = (x >>= f).map negate := by
  cases x with
  | error e => rfl
  | ok a => exact h a

/-- A connective looks at its right side unless the left one decides, and its dual does so for the same
left sides. -/
theorem connect_not (decides : Bool) {f g : Truth → Truth → Truth}
    (h : ∀ a b, (f a b).not = g a.not b.not) (x y : Except StoreError Truth) :
    (do
      let a ← x.map Truth.not
      if a = some !decides then .ok a
      else do
        let b ← y.map Truth.not
        .ok (g a b)) =
    (do
      let a ← x
      if a = some decides then .ok a
      else do
        let b ← y
        .ok (f a b)).map Truth.not := by
  cases x with
  | error e => rfl
  | ok a =>
    show (if a.not = some !decides then _ else _) = Except.map _ (if a = some decides then _ else _)
    -- Where the left side decides, its dual does too, and neither looks further.
    by_cases hstop : a = some decides
    · subst hstop
      rw [if_pos rfl]
      exact if_pos rfl
    · have hstop' : ¬ a.not = some !decides := by
        rw [Truth.not_eq_some, Bool.not_not]
        exact hstop
      rw [if_neg hstop, if_neg hstop']
      cases y with
      | error e => rfl
      | ok b => exact congrArg Except.ok (h a b).symm

/-- The dual of a condition has its negated truth value, or fails like it. -/
theorem Predicate.truth_dual (s : Source) (tuple : Tuple) (outer : List Tuple) (p : Predicate) :
    p.dual.truth s tuple outer = (p.truth s tuple outer).map Truth.not := by
  match p with
  | .compare left op right =>
    rw [dual, truth, truth]
    refine bind_map fun a => bind_map fun b => ?_
    exact congrArg Except.ok (op.truth_dual a b)
  | .like operand pattern negated =>
    rw [dual, truth, truth]
    refine bind_map fun v => ?_
    cases v with
    | string text => exact congrArg Except.ok (some_bne_not _ negated)
    | _ => rfl
  | .inList operand values negated =>
    rw [dual, truth, truth]
    exact bind_map fun v => congrArg Except.ok (membership_not v values negated)
  | .inQuery operand q negated =>
    rw [dual, truth, truth]
    refine bind_map fun v => ?_
    -- Null is nowhere, and the nested query is not looked at.
    split
    · rfl
    · exact bind_map fun rows => congrArg Except.ok (membership_not v _ negated)
  | .isNull operand negated =>
    rw [dual, truth, truth]
    exact bind_map fun v => congrArg Except.ok (some_bne_not _ negated)
  | .isEmpty collection negated =>
    rw [dual, truth, truth]
    exact bind_map fun vs => congrArg Except.ok (some_bne_not _ negated)
  | .isMember value collection negated =>
    rw [dual, truth, truth]
    refine bind_map fun v => ?_
    split
    · rfl
    · exact bind_map fun vs => congrArg Except.ok (some_bne_not _ negated)
  | .and left right =>
    rw [dual, truth, truth, left.truth_dual, right.truth_dual]
    exact connect_not false Truth.not_and _ _
  | .or left right =>
    rw [dual, truth, truth, left.truth_dual, right.truth_dual]
    exact connect_not true Truth.not_or _ _
termination_by structural p

/-! ## Filters -/

/-- A condition is true of the tuples that it keeps. -/
theorem Predicate.isTrue_of_filterTuples {s : Source} {outer tuples kept : List Tuple}
    {p : Predicate} (h : filterTuples s outer tuples (some p) = .ok kept) {tuple : Tuple}
    (htuple : tuple ∈ kept) : p.IsTrue s tuple outer := by
  rw [filterTuples] at h
  obtain ⟨tuple', -, kept', hkept', hmem⟩ := mem_of_flatMapE h htuple
  obtain ⟨truth, htruth, hkept'⟩ := bind_eq_ok.mp hkept'
  obtain rfl := Except.ok.inj hkept'
  split at hmem
  · rename_i htrue
    obtain rfl := List.mem_singleton.mp hmem
    rw [IsTrue, htruth, htrue]
  · cases hmem

/-- A condition and its dual are not both true. -/
theorem Predicate.not_isTrue_dual {s : Source} {tuple : Tuple} {outer : List Tuple} {p : Predicate}
    (h : p.IsTrue s tuple outer) : ¬ p.dual.IsTrue s tuple outer := by
  intro hdual
  rw [IsTrue, truth_dual, h] at hdual
  cases hdual

/-- Over whatever tables, parameters and tuples the dual of a condition has the negated truth value,
unknown where the condition is unknown, and fails with the same failure where it fails. So they are
not both true, and no tuple passes both of them as filters. -/
theorem Predicate.dual_correct (p : Predicate) (s : Source) (outer : List Tuple) :
    (∀ tuple, p.dual.truth s tuple outer = (p.truth s tuple outer).map Truth.not) ∧
      (∀ tuple, ¬ (p.IsTrue s tuple outer ∧ p.dual.IsTrue s tuple outer)) ∧
      ∀ tuples kept keptByDual, filterTuples s outer tuples (some p) = .ok kept →
        filterTuples s outer tuples (some p.dual) = .ok keptByDual → kept.Disjoint keptByDual := by
  refine ⟨fun tuple => truth_dual s tuple outer p, fun tuple h => not_isTrue_dual h.1 h.2, ?_⟩
  intro tuples kept keptByDual hkept hdual tuple htuple htuple'
  exact not_isTrue_dual (isTrue_of_filterTuples hkept htuple) (isTrue_of_filterTuples hdual htuple')

/-- The condition is true of some users, and of others its dual is. -/
theorem Predicate.dual_correct_both_kept :
    ∃ kept keptByDual, kept ≠ [] ∧ keptByDual ≠ [] ∧
      filterTuples ⟨Sample.tables, [("floor", .int32 4)], .insertion⟩ []
        (Sample.userRecords.map fun r => [some r]) (some Sample.diligent) = .ok kept ∧
      filterTuples ⟨Sample.tables, [("floor", .int32 4)], .insertion⟩ []
        (Sample.userRecords.map fun r => [some r]) (some Sample.diligent.dual) = .ok keptByDual ∧
      kept.Disjoint keptByDual := by
  have hsome : ∀ p : Predicate, (filterTuples ⟨Sample.tables, [("floor", .int32 4)], .insertion⟩ []
      (Sample.userRecords.map fun r => [some r]) (some p)).toOption.any (!·.isEmpty) = true →
      ∃ kept, filterTuples ⟨Sample.tables, [("floor", .int32 4)], .insertion⟩ []
        (Sample.userRecords.map fun r => [some r]) (some p) = .ok kept ∧ kept ≠ [] := by
    -- The lists that are kept are computed, and only compared with none.
    intro p h
    obtain ⟨kept, hkept, hsome⟩ := Sample.exists_ok_and h
    refine ⟨kept, hkept, ?_⟩
    rintro rfl
    cases hsome
  obtain ⟨kept, hkept, hne⟩ := hsome Sample.diligent (by decide +kernel)
  obtain ⟨keptByDual, hdual, hne'⟩ := hsome Sample.diligent.dual (by decide +kernel)
  exact ⟨kept, keptByDual, hne, hne', hkept, hdual,
    (dual_correct Sample.diligent _ []).2.2 _ kept keptByDual hkept hdual⟩

end EntityQuery
