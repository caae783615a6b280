import EntityQuery.Tables.Evaluate
import Mathlib

/-!
# Distinct rows

Identity of rows is symmetric and transitive, although a row that holds a NaN is not identical to
itself. So the order of rows decides which of them are kept as distinct, but not how many.
-/

namespace EntityQuery

/-! ## Identity of lists -/

section Lists

variable {α : Type} {as bs cs : List α}

theorem forall₂_trans {R : α → α → Prop} (hR : ∀ a b c, R a b → R b c → R a c)
    (h : List.Forall₂ R as bs) (h' : List.Forall₂ R bs cs) : List.Forall₂ R as cs := by
  induction h generalizing cs with
  | nil => exact h'
  | cons hab _ ih =>
    cases h' with
    | cons hbc h' => exact .cons (hR _ _ _ hab hbc) (ih h')

theorem beq_iff_forall₂ [BEq α] :
    (as == bs) = true ↔ List.Forall₂ (fun a b => (a == b) = true) as bs := by
  induction as generalizing bs with
  | nil => cases bs <;> simp
  | cons a as ih => cases bs <;> simp [ih]

instance partialEquivBEqList [BEq α] [PartialEquivBEq α] : PartialEquivBEq (List α) where
  symm h := beq_iff_forall₂.mpr ((beq_iff_forall₂.mp h).imp fun _ _ hab => BEq.symm hab).flip
  trans h h' := beq_iff_forall₂.mpr <|
    forall₂_trans (fun _ _ _ hab hbc => BEq.trans hab hbc) (beq_iff_forall₂.mp h)
      (beq_iff_forall₂.mp h')

end Lists

/-! ## Identity of values, records and rows -/

theorem Value.identical_symm {a b : Value} (h : a.identical b = true) : b.identical a = true := by
  fun_cases identical a b
  case case17 =>
    -- Values of different kinds.
    rw [identical] at h
    · cases h
    all_goals assumption
  all_goals first | exact h | exact BEq.symm h

theorem Value.identical_trans {a b c : Value} (h : a.identical b = true)
    (h' : b.identical c = true) : a.identical c = true := by
  fun_cases identical a b
  case case1 => exact h'
  case case17 =>
    rw [identical] at h
    · cases h
    all_goals assumption
  all_goals
    cases c
    all_goals first | exact BEq.trans h h' | cases h'

namespace Record

variable {a b c : Record}

theorem identical_iff : a.identical b = true ↔ a.entity = b.entity ∧
    List.Forall₂ (fun x y => x.1 = y.1 ∧ x.2.identical y.2 = true) a.fields b.fields := by
  simp only [identical, Bool.and_eq_true, beq_iff_eq, List.all_eq_true, List.forall₂_iff_zip,
    and_assoc, Prod.forall]

theorem identical_symm (h : a.identical b = true) : b.identical a = true := by
  obtain ⟨hentity, hfields⟩ := identical_iff.mp h
  refine identical_iff.mpr ⟨hentity.symm, List.Forall₂.flip (hfields.imp ?_)⟩
  rintro x y ⟨hname, hvalue⟩
  exact ⟨hname.symm, Value.identical_symm hvalue⟩

theorem identical_trans (h : a.identical b = true) (h' : b.identical c = true) :
    a.identical c = true := by
  obtain ⟨hentity, hfields⟩ := identical_iff.mp h
  obtain ⟨hentity', hfields'⟩ := identical_iff.mp h'
  refine identical_iff.mpr ⟨hentity.trans hentity', forall₂_trans ?_ hfields hfields'⟩
  rintro x y z ⟨hname, hvalue⟩ ⟨hname', hvalue'⟩
  exact ⟨hname.trans hname', Value.identical_trans hvalue hvalue'⟩

end Record

theorem Cell.identical_symm {a b : Cell} (h : a.identical b = true) : b.identical a = true := by
  fun_cases identical a b
  case case1 => exact Value.identical_symm h
  case case2 => exact h
  case case3 => exact Record.identical_symm h
  case case4 =>
    rw [identical] at h
    · cases h
    all_goals assumption

theorem Cell.identical_trans {a b c : Cell} (h : a.identical b = true)
    (h' : b.identical c = true) : a.identical c = true := by
  fun_cases identical a b
  case case1 =>
    cases c with
    | value => exact Value.identical_trans h h'
    | record => cases h'
  case case2 => exact h'
  case case3 =>
    cases c with
    | value => cases h'
    | record r =>
      cases r with
      | none => cases h'
      | some => exact Record.identical_trans h h'
  case case4 =>
    rw [identical] at h
    · cases h
    all_goals assumption

namespace Row

variable {a b c : Row}

theorem identical_iff :
    a.identical b = true ↔ List.Forall₂ (fun x y => x.identical y = true) a.cells b.cells := by
  simp only [identical, Bool.and_eq_true, beq_iff_eq, List.all_eq_true, List.forall₂_iff_zip,
    Prod.forall]

theorem identical_symm (h : a.identical b = true) : b.identical a = true :=
  identical_iff.mpr ((identical_iff.mp h).imp fun _ _ hxy => Cell.identical_symm hxy).flip

theorem identical_trans (h : a.identical b = true) (h' : b.identical c = true) :
    a.identical c = true :=
  identical_iff.mpr <|
    forall₂_trans (fun _ _ _ hxy hyz => Cell.identical_trans hxy hyz) (identical_iff.mp h)
      (identical_iff.mp h')

/-- Rows that are identical to each other are identical to the same rows. -/
theorem identical_congr (h : a.identical b = true) (row : Row) :
    a.identical row = b.identical row := by
  rw [Bool.eq_iff_iff]
  constructor
  · intro ha
    exact identical_trans (identical_symm h) ha
  · intro hb
    exact identical_trans h hb

end Row

/-! ## The number of distinct rows -/

/-- Of the rows seen before it only counts to which rows they are identical. -/
theorem distinctRows_congr {seen seen' : List Row}
    (h : ∀ row, seen.any (·.identical row) = seen'.any (·.identical row)) (rows : List Row) :
    distinctRows seen rows = distinctRows seen' rows := by
  induction rows generalizing seen seen' with
  | nil => rfl
  | cons row rows ih =>
    rw [distinctRows, distinctRows, ih h, h row]
    have hcons : ∀ row', (row :: seen).any (·.identical row') =
        (row :: seen').any (·.identical row') := by
      intro row'
      rw [List.any_cons, List.any_cons, h row']
    rw [ih hcons]

theorem length_distinctRows_swap (seen : List Row) (x y : Row) (rows : List Row) :
    (distinctRows seen (y :: x :: rows)).length = (distinctRows seen (x :: y :: rows)).length := by
  simp only [distinctRows, List.any_cons]
  by_cases hx : seen.any (·.identical x) = true
  · by_cases hy : seen.any (·.identical y) = true
    · simp only [hx, hy, if_true]
    · simp [hx, hy]
  · by_cases hy : seen.any (·.identical y) = true
    · simp [hx, hy]
    · by_cases hxy : x.identical y = true
      · -- The first of the two is kept, and the rows behind them are compared with it.
        have hyx := Row.identical_symm hxy
        have hseen : distinctRows (y :: seen) rows = distinctRows (x :: seen) rows := by
          refine distinctRows_congr (fun row => ?_) rows
          rw [List.any_cons, List.any_cons, Row.identical_congr hyx]
        simp [hx, hy, hxy, hyx, hseen]
      · have hyx : ¬y.identical x = true := fun h => hxy (Row.identical_symm h)
        -- Of two different rows the order in which they were seen does not matter.
        have hseen : distinctRows (x :: y :: seen) rows = distinctRows (y :: x :: seen) rows := by
          refine distinctRows_congr (fun row => ?_) rows
          simp only [List.any_cons, Bool.or_left_comm]
        simp [hx, hy, hxy, hyx, hseen]

theorem length_distinctRows_perm {rows rows' : List Row} (h : rows.Perm rows') (seen : List Row) :
    (distinctRows seen rows).length = (distinctRows seen rows').length := by
  induction h generalizing seen with
  | nil => rfl
  | cons row _ ih =>
    rw [distinctRows, distinctRows]
    split
    · exact ih seen
    · rw [List.length_cons, List.length_cons, ih (row :: seen)]
  | swap x y rows => exact length_distinctRows_swap seen x y rows
  | trans _ _ ih ih' => exact (ih seen).trans (ih' seen)

end EntityQuery
