import EntityQuery.Proofs.Evaluation.Outcomes
import EntityQuery.Proofs.Statement.Grouping

/-!
# Filtering by linked conditions

Evaluation stops early at a side that decides, and has a third truth value besides. Where no condition
fails, neither shows in what a filter keeps: a tuple passes linked conditions exactly when
`Statement.Holds` says so of those that are true of it.
-/

namespace EntityQuery

namespace Predicate

variable {s : Source} {tuple : Tuple} {outer : List Tuple} {p q : Predicate}

/-- Evaluation gives a truth value. -/
def Evaluates (s : Source) (tuple : Tuple) (outer : List Tuple) (p : Predicate) : Prop :=
  ∃ v, p.truth s tuple outer = .ok v

/-- Evaluation gives true, and neither false nor unknown. -/
def IsTrue (s : Source) (tuple : Tuple) (outer : List Tuple) (p : Predicate) : Prop :=
  p.truth s tuple outer = .ok (some true)

theorem and_isTrue_iff (hp : p.Evaluates s tuple outer) (hq : q.Evaluates s tuple outer) :
    (p.and q).Evaluates s tuple outer ∧
      ((p.and q).IsTrue s tuple outer ↔ p.IsTrue s tuple outer ∧ q.IsTrue s tuple outer) := by
  obtain ⟨a, ha⟩ := hp
  obtain ⟨b, hb⟩ := hq
  have htruth : (p.and q).truth s tuple outer = .ok (a.and b) := by
    rw [truth, ha]
    by_cases hfalse : a = some false
    · -- The right side is not even looked at.
      subst hfalse
      cases b <;> rfl
    · show (if a = some false then _ else _) = _
      rw [if_neg hfalse, hb]
      rfl
  refine ⟨⟨_, htruth⟩, ?_⟩
  simp only [IsTrue, htruth, ha, hb, Except.ok.injEq]
  rcases a with _ | _ | _ <;> rcases b with _ | _ | _ <;> decide

theorem or_isTrue_iff (hp : p.Evaluates s tuple outer) (hq : q.Evaluates s tuple outer) :
    (p.or q).Evaluates s tuple outer ∧
      ((p.or q).IsTrue s tuple outer ↔ p.IsTrue s tuple outer ∨ q.IsTrue s tuple outer) := by
  obtain ⟨a, ha⟩ := hp
  obtain ⟨b, hb⟩ := hq
  have htruth : (p.or q).truth s tuple outer = .ok (a.or b) := by
    rw [truth, ha]
    by_cases htrue : a = some true
    · subst htrue
      cases b <;> rfl
    · show (if a = some true then _ else _) = _
      rw [if_neg htrue, hb]
      rfl
  refine ⟨⟨_, htruth⟩, ?_⟩
  simp only [IsTrue, htruth, ha, hb, Except.ok.injEq]
  rcases a with _ | _ | _ <;> rcases b with _ | _ | _ <;> decide

/-- Linked conditions of which none fails do not fail, and are true exactly when they hold. -/
theorem combine_isTrue_iff {ys : List (Statement Predicate)}
    (hevaluates : ∀ p, .clause p ∈ ys → p.Evaluates s tuple outer)
    (h : Statement.combine .and .or ys = some p) :
    p.Evaluates s tuple outer ∧
      (p.IsTrue s tuple outer ↔ Statement.Holds (IsTrue s tuple outer) ys) :=
  Statement.combine_iff_holds (fun _ _ => and_isTrue_iff) (fun _ _ => or_isTrue_iff) hevaluates h

end Predicate

/-! ## What a filter keeps -/

/-- Each element gives itself or nothing. -/
theorem flatMapE_filter {f : α → Except ε (List α)} {xs : List α} {keep : α → Bool}
    (h : ∀ x ∈ xs, f x = .ok (if keep x then [x] else [])) : flatMapE f xs = .ok (xs.filter keep) := by
  induction xs with
  | nil => rfl
  | cons x xs ih =>
    have hx := h x List.mem_cons_self
    have hxs := ih fun y hy => h y (List.mem_cons_of_mem _ hy)
    rw [flatMapE, hx, hxs]
    cases hkeep : keep x with
    | false => rw [List.filter_cons_of_neg (by simp [hkeep])]; rfl
    | true => rw [List.filter_cons_of_pos hkeep]; rfl

open Classical in
/-- A filter of linked conditions keeps the tuples of which they hold, if none of them fails. -/
theorem filterTuples_combine {s : Source} {outer tuples : List Tuple}
    {ys : List (Statement Predicate)}
    (hevaluates : ∀ tuple ∈ tuples, ∀ p, .clause p ∈ ys → p.Evaluates s tuple outer) :
    filterTuples s outer tuples (Statement.combine .and .or ys) =
      .ok (tuples.filter fun tuple => Statement.Holds (Predicate.IsTrue s tuple outer) ys) := by
  cases hcombine : Statement.combine .and .or ys with
  | none =>
    -- Without conditions everything passes.
    have hnone := (Statement.combine_eq_none_iff _ _).mp hcombine
    rw [filterTuples, List.filter_eq_self.mpr]
    intro tuple _
    exact decide_eq_true (.inl hnone)
  | some p =>
    rw [filterTuples]
    refine flatMapE_filter fun tuple htuple => ?_
    obtain ⟨⟨v, hv⟩, hiff⟩ := Predicate.combine_isTrue_iff (hevaluates tuple htuple) hcombine
    have hpass : v = some true ↔ Statement.Holds (Predicate.IsTrue s tuple outer) ys := by
      rw [← hiff, Predicate.IsTrue, hv, Except.ok.injEq]
    rw [hv]
    show Except.ok (if v = some true then _ else _) = _
    simp only [hpass, decide_eq_true_eq]

end EntityQuery
