import EntityQuery.Proofs.Evaluation.Distinct

/-!
# Values that compare alike

Identical values may differ: the two zeros of a float are identical. No comparison tells them apart,
so a condition has the same truth for either, and rows that differ in this way are identical to the
same rows.
-/

namespace EntityQuery

/-! ## Numbers -/

namespace Number

open Float.Model (UnpackedFloat)

/-- The same number, or two zeros. -/
def SameNumber (x y : Float) : Prop :=
  x.toModel.unpack = y.toModel.unpack ∨
    ∃ s s', x.toModel.unpack = .zero s ∧ y.toModel.unpack = .zero s'

theorem compare_zero_left (s s' : Float.Model.UnpackedFloat.Sign) (u : UnpackedFloat) :
    (UnpackedFloat.zero s).compare u = (UnpackedFloat.zero s').compare u := by
  cases u with
  | infinity sign => cases sign <;> rfl
  | notANumber => rfl
  | zero sign => rfl
  | finite sign m e h => cases sign <;> rfl

theorem compare_zero_right (s s' : Float.Model.UnpackedFloat.Sign) (u : UnpackedFloat) :
    u.compare (.zero s) = u.compare (.zero s') := by
  cases u with
  | infinity sign => cases sign <;> rfl
  | notANumber => rfl
  | zero sign => rfl
  | finite sign m e h => cases sign <;> rfl

variable {x y x' y' : Float}

theorem SameNumber.order (h : SameNumber x y) (h' : SameNumber x' y') :
    Number.order x x' = Number.order y y' := by
  have hleft : Number.order x x' = Number.order y x' := by
    rcases h with h | ⟨s, s', hx, hy⟩
    · rw [Number.order, Number.order, Float.Model.compare, Float.Model.compare, h]
    · rw [Number.order, Number.order, Float.Model.compare, Float.Model.compare, hx, hy,
        compare_zero_left]
  have hright : Number.order y x' = Number.order y y' := by
    rcases h' with h | ⟨s, s', hx, hy⟩
    · rw [Number.order, Number.order, Float.Model.compare, Float.Model.compare, h]
    · rw [Number.order, Number.order, Float.Model.compare, Float.Model.compare, hx, hy,
        compare_zero_right]
  exact hleft.trans hright

theorem beq_eq (x y : Float) : (x == y) = (Number.order x y == some .eq) :=
  rfl

theorem SameNumber.beq (h : SameNumber x y) (h' : SameNumber x' y') : (x == x') = (y == y') := by
  rw [beq_eq, beq_eq, h.order h']

theorem sameNumber_of_beq (h : x == y) : SameNumber x y := by
  obtain ⟨-, -, h | ⟨hx, hy⟩ | ⟨hx, hy⟩⟩ :=
    (UnpackedFloat.beq_iff_ne_notANumber_and_eq _ _).mp (h : x.toModel.unpack.beq y.toModel.unpack)
  · exact .inl h
  · exact .inr ⟨_, _, hx, hy⟩
  · exact .inr ⟨_, _, hx, hy⟩

theorem unpack_widen_zero {a : Float32} {s : Float.Model.UnpackedFloat.Sign}
    (h : a.toModel.unpack = .zero s) : (widen a).toModel.unpack = .zero s := by
  rw [widen, h]
  exact UnpackedFloat.unpack_packedZero

theorem sameNumber_widen {a b : Float32} (h : a == b) : SameNumber (widen a) (widen b) := by
  obtain ⟨-, -, h | ⟨hx, hy⟩ | ⟨hx, hy⟩⟩ :=
    (UnpackedFloat.beq_iff_ne_notANumber_and_eq _ _).mp (h : a.toModel.unpack.beq b.toModel.unpack)
  · left
    rw [widen, widen, h]
  · exact .inr ⟨_, _, unpack_widen_zero hx, unpack_widen_zero hy⟩
  · exact .inr ⟨_, _, unpack_widen_zero hx, unpack_widen_zero hy⟩

end Number

/-! ## Values -/

namespace Value

/-- Identical values are the same one, unless they hold floats. -/
theorem identical_cases {v w : Value} (h : v.identical w = true) :
    v = w ∨ (∃ a b, v = float32 a ∧ w = float32 b ∧ a == b) ∨
      (∃ a b, v = float64 a ∧ w = float64 b ∧ a == b) ∨
      ∃ as bs, v = float64Array as ∧ w = float64Array bs ∧ as == bs := by
  fun_cases identical v w
  case case1 => exact .inl rfl
  case case5 a b => exact .inr (.inl ⟨a, b, rfl, rfl, h⟩)
  case case6 a b => exact .inr (.inr (.inl ⟨a, b, rfl, rfl, h⟩))
  case case14 as bs => exact .inr (.inr (.inr ⟨as, bs, rfl, rfl, h⟩))
  case case17 =>
    rw [identical] at h
    · cases h
    all_goals assumption
  all_goals exact .inl (congrArg _ (eq_of_beq h))

/-- The same value, or two that are identical. -/
def Same (v w : Value) : Prop :=
  v = w ∨ v.identical w = true

/-- A relation on values that all comparisons respect. -/
structure Congruence (R : Value → Value → Prop) : Prop where
  refl (v : Value) : R v v
  isNull {v w : Value} : R v w → v.isNull = w.isNull
  typeName {v w : Value} : R v w → v.typeName = w.typeName
  string? {v w : Value} : R v w → v.string? = w.string?
  equal {v w v' w' : Value} : R v w → R v' w' → v.equal v' = w.equal w'
  order {v w v' w' : Value} : R v w → R v' w' → v.order v' = w.order w'
  identical {v w v' w' : Value} : R v w → R v' w' → v.identical v' = w.identical w'

theorem congruence_eq : Congruence Eq where
  refl _ := rfl
  isNull h := by rw [h]
  typeName h := by rw [h]
  string? h := by rw [h]
  equal h h' := by rw [h, h']
  order h h' := by rw [h, h']
  identical h h' := by rw [h, h']

theorem identical_congr {v w : Value} (h : v.Same w) (u : Value) :
    v.identical u = w.identical u ∧ u.identical v = u.identical w := by
  rcases h with rfl | h
  · exact ⟨rfl, rfl⟩
  · have h' := identical_symm h
    constructor
    · rw [Bool.eq_iff_iff]
      exact ⟨identical_trans h', identical_trans h⟩
    · rw [Bool.eq_iff_iff]
      exact ⟨fun hu => identical_trans hu h, fun hu => identical_trans hu h'⟩

/-- How two values compare with a third, from either side. -/
theorem compare_congr {v w : Value} (h : v.Same w) (u : Value) :
    (v.equal u = w.equal u ∧ u.equal v = u.equal w) ∧
      v.order u = w.order u ∧ u.order v = u.order w := by
  have hid := identical_congr h u
  have hrefl : ∀ x, Number.SameNumber x x := fun x => .inl rfl
  rcases h with rfl | h
  · exact ⟨⟨rfl, rfl⟩, rfl, rfl⟩
  · -- Identical values that are not the same are zeros of two signs, in either width or in a
    -- collection.
    rcases identical_cases h with rfl | ⟨a, b, rfl, rfl, hab⟩ | ⟨a, b, rfl, rfl, hab⟩ |
      ⟨as, bs, rfl, rfl, hab⟩
    · exact ⟨⟨rfl, rfl⟩, rfl, rfl⟩
    · have hnum := Number.sameNumber_widen hab
      -- Whatever they are compared with, only the numbers count.
      cases u <;>
        simp only [equal, order, float64?, identical, hnum.beq (hrefl _), (hrefl _).beq hnum,
          hnum.order (hrefl _), (hrefl _).order hnum, and_self]
    · have hnum := Number.sameNumber_of_beq hab
      cases u <;>
        simp only [equal, order, float64?, identical, hnum.beq (hrefl _), (hrefl _).beq hnum,
          hnum.order (hrefl _), (hrefl _).order hnum, and_self]
    · -- Collections are compared by identity alone.
      cases u <;> simp_all [equal, order, float64?]

/-- What conditions ask of one value. -/
theorem attributes_congr {v w : Value} (h : v.Same w) :
    v.isNull = w.isNull ∧ v.typeName = w.typeName ∧ v.string? = w.string? := by
  rcases h with rfl | h
  · exact ⟨rfl, rfl, rfl⟩
  · rcases identical_cases h with rfl | ⟨_, _, rfl, rfl, -⟩ | ⟨_, _, rfl, rfl, -⟩ |
      ⟨_, _, rfl, rfl, -⟩ <;> exact ⟨rfl, rfl, rfl⟩

theorem congruence_same : Congruence Same where
  refl _ := .inl rfl
  isNull h := (attributes_congr h).1
  typeName h := (attributes_congr h).2.1
  string? h := (attributes_congr h).2.2
  equal h h' := (compare_congr h _).1.1.trans (compare_congr h' _).1.2
  order h h' := (compare_congr h _).2.1.trans (compare_congr h' _).2.2
  identical h h' := (identical_congr h _).1.trans (identical_congr h' _).2

end Value

/-! ## Cells and rows -/

/-- Cells with related values, or with the same record. -/
inductive Cell.Like (R : Value → Value → Prop) : Cell → Cell → Prop
  | value {v w : Value} : R v w → Like R (.value v) (.value w)
  | record (r : Option Record) : Like R (.record r) (.record r)

/-- Rows that are related cell by cell. -/
def Row.Like (R : Value → Value → Prop) (a b : Row) : Prop :=
  List.Forall₂ (Cell.Like R) a.cells b.cells

theorem Cell.Like.eq {a b : Cell} (h : a.Like Eq b) : a = b := by
  cases h with
  | value h => rw [h]
  | record r => rfl

theorem Row.Like.eq {a b : Row} (h : a.Like Eq b) : a = b := by
  obtain ⟨as⟩ := a
  obtain ⟨bs⟩ := b
  change List.Forall₂ (Cell.Like Eq) as bs at h
  have hcells : List.Forall₂ Eq as bs := h.imp fun _ _ hcell => hcell.eq
  rw [List.forall₂_eq_eq_eq] at hcells
  rw [hcells]

section Rows

variable {R : Value → Value → Prop} (hR : Value.Congruence R)
include hR

theorem Cell.Like.toValue {a b : Cell} (h : a.Like R b) : R a.toValue b.toValue := by
  cases h with
  | value h => exact h
  | record r => exact hR.refl .null

theorem Cell.Like.identical {a b a' b' : Cell} (h : a.Like R b) (h' : a'.Like R b') :
    a.identical a' = b.identical b' := by
  cases h with
  | value h =>
    cases h' with
    | value h' => exact hR.identical h h'
    | record r' => rfl
  | record r =>
    cases h' with
    | value h' => cases r <;> rfl
    | record r' => rfl

theorem Row.Like.identical {a b a' b' : Row} (h : a.Like R b) (h' : a'.Like R b') :
    a.identical a' = b.identical b' := by
  obtain ⟨as⟩ := a
  obtain ⟨bs⟩ := b
  obtain ⟨as'⟩ := a'
  obtain ⟨bs'⟩ := b'
  change List.Forall₂ (Cell.Like R) as bs at h
  change List.Forall₂ (Cell.Like R) as' bs' at h'
  rw [Bool.eq_iff_iff, Row.identical_iff, Row.identical_iff]
  induction h generalizing as' bs' with
  | nil => cases h' <;> simp
  | cons hab _ ih =>
    cases h' with
    | nil => simp
    | cons hab' h' =>
      rw [List.forall₂_cons, List.forall₂_cons, hab.identical hR hab']
      exact and_congr_right fun _ => ih _ _ h'

/-- Of rows that are alike the same ones are distinct. -/
theorem distinctRows_like {seen seen' rows rows' : List Row}
    (hseen : List.Forall₂ (Row.Like R) seen seen')
    (h : List.Forall₂ (Row.Like R) rows rows') :
    List.Forall₂ (Row.Like R) (distinctRows seen rows) (distinctRows seen' rows') := by
  induction h generalizing seen seen' with
  | nil => exact .nil
  | @cons row row' _ _ hrow _ ih =>
    have hany : seen.any (·.identical row) = seen'.any (·.identical row') := by
      induction hseen with
      | nil => rfl
      | cons hab _ ih => rw [List.any_cons, List.any_cons, hab.identical hR hrow, ih]
    rw [distinctRows, distinctRows, hany]
    split
    · exact ih hseen
    · exact .cons hrow (ih (.cons hrow hseen))

theorem Comparison.truth_like {v w v' w' : Value} (h : R v w) (h' : R v' w') (op : Comparison) :
    op.truth v v' = op.truth w w' := by
  unfold truth
  rw [hR.isNull h, hR.isNull h', hR.equal h h', hR.order h h']

theorem membership_like {v w : Value} {vs ws : List Value} (h : R v w)
    (hs : List.Forall₂ R vs ws) (negated : Bool) :
    membership v vs negated = membership w ws negated := by
  have hequal : vs.any (·.equal v) = ws.any (·.equal w) := by
    induction hs with
    | nil => rfl
    | cons hab _ ih => rw [List.any_cons, List.any_cons, hR.equal hab h, ih]
  have hnull : vs.any Value.isNull = ws.any Value.isNull := by
    clear hequal
    induction hs with
    | nil => rfl
    | cons hab _ ih => rw [List.any_cons, List.any_cons, hR.isNull hab, ih]
  rw [membership, membership, hR.isNull h, hequal, hnull]

end Rows

end EntityQuery
