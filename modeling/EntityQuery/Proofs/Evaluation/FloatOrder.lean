import EntityQuery.Proofs.Evaluation.Rounding

/-!
# The order of floats

NaN apart, a float has a rank: the infinities are the outermost, the zeros the middle, and between them
a number is ranked by its exponent and then its mantissa. The order of floats is that of their ranks,
so it is total on them, and a NaN is not ordered with anything.
-/

namespace EntityQuery.Number

open Float.Model (Format UnpackedFloat)
open Float.Model.UnpackedFloat

/-- The side of a float and how far it is from zero, in one direction. -/
def rank : UnpackedFloat → Int × Int × Int
  | .infinity .negative => (-2, 0, 0)
  | .finite .negative m e _ => (-1, -e, -m)
  | .zero _ | .notANumber => (0, 0, 0)
  | .finite .positive m e _ => (1, e, m)
  | .infinity .positive => (2, 0, 0)

def compareRanks : Int × Int × Int → Int × Int × Int → Ordering :=
  compareLex (compareOn Prod.fst) (compareLex (compareOn (·.2.1)) (compareOn (·.2.2)))

instance : Std.TransCmp compareRanks :=
  inferInstanceAs (Std.TransCmp (compareLex _ _))

/-- Two numbers on the same side of zero are ranked by exponent and mantissa, downwards if they are
negative. -/
theorem compareRanks_finite (s : Sign) {m m' : Nat} {e e' : Int} (h : 0 < m) (h' : 0 < m') :
    compareRanks (rank (.finite s m e h)) (rank (.finite s m' e' h')) =
      match s with
      | .positive => (compare e e').then (compare m m')
      | .negative => ((compare e e').then (compare m m')).swap := by
  have hmantissas : compare (m : Int) (m' : Int) = compare m m' := by
    rw [← cmp_eq_compare, ← cmp_eq_compare, Nat.strictMono_cast.cmp_map_eq]
  cases s with
  | positive =>
    show ((compare e e').then (compare (m : Int) (m' : Int))) = _
    rw [hmantissas]
  | negative =>
    show ((compare (-e) (-e')).then (compare (-(m : Int)) (-(m' : Int)))) = _
    rw [compare_neg, compare_neg, hmantissas, Ordering.swap_then]

/-- Floats are ordered as they are ranked, unless one of them is a NaN. -/
theorem compare_eq (u v : UnpackedFloat) :
    u.compare v = if u.isNaN || v.isNaN then none else some (compareRanks (rank u) (rank v)) := by
  -- Floats of different classes or signs are told apart by their sides alone.
  cases u with
  | notANumber => rfl
  | infinity s =>
    cases v with
    | notANumber => cases s <;> rfl
    | infinity s' => cases s <;> cases s' <;> rfl
    | zero s' => cases s <;> rfl
    | finite s' m e h => cases s <;> cases s' <;> rfl
  | zero s =>
    cases v with
    | notANumber => rfl
    | infinity s' => cases s' <;> rfl
    | zero s' => rfl
    | finite s' m e h => cases s' <;> rfl
  | finite s m e h =>
    cases v with
    | notANumber => cases s <;> rfl
    | infinity s' => cases s <;> cases s' <;> rfl
    | zero s' => cases s <;> rfl
    | finite s' m' e' h' =>
      have hsame : compareRanks (rank (.finite s m e h)) (rank (.finite s m' e' h')) = _ :=
        compareRanks_finite s h h'
      cases s <;> cases s'
      · exact congrArg some hsame.symm
      · rfl
      · rfl
      · exact congrArg some hsame.symm

variable {x y z : Float}

theorem order_eq (x y : Float) : order x y = if x.isNaN || y.isNaN then none
    else some (compareRanks (rank x.toModel.unpack) (rank y.toModel.unpack)) :=
  compare_eq _ _

theorem order_eq_none_iff : order x y = none ↔ x.isNaN = true ∨ y.isNaN = true := by
  rw [order_eq, ← Bool.or_eq_true]
  split
  · next h => exact iff_of_true rfl h
  · next h => exact iff_of_false nofun h

theorem order_swap (x y : Float) : order y x = (order x y).map Ordering.swap := by
  rw [order_eq, order_eq, Bool.or_comm]
  split
  · rfl
  · exact congrArg some Std.OrientedCmp.eq_swap

/-- The order is transitive, and a NaN is never between two floats. -/
theorem order_trans {o o' : Ordering} (hxy : order x y = some o) (hyz : order y z = some o')
    (ho : o.isLE = true) (ho' : o'.isLE = true) :
    ∃ o'', order x z = some o'' ∧ o''.isLE = true := by
  rw [order_eq] at hxy hyz ⊢
  split at hxy
  · cases hxy
  split at hyz
  · cases hyz
  obtain rfl := Option.some.inj hxy
  obtain rfl := Option.some.inj hyz
  exact ⟨_, if_neg (by simp_all), Std.TransCmp.isLE_trans ho ho'⟩

theorem beq_of_isLE {o o' : Ordering} (hxy : order x y = some o) (hyx : order y x = some o')
    (ho : o.isLE = true) (ho' : o'.isLE = true) : x == y := by
  have hswap := order_swap x y
  rw [hxy, hyx] at hswap
  obtain rfl := Option.some.inj hswap
  rw [beq_eq, hxy]
  cases o with
  | eq => rfl
  | lt => cases ho'
  | gt => cases ho

theorem isNaN_ofInt {n : Int} (hn : n.natAbs < 2 ^ 64) : (ofInt n).isNaN = false := by
  rw [Bool.eq_false_iff]
  intro h
  have hnone : order (ofInt n) (ofInt n) = none := order_eq_none_iff.mpr (.inl h)
  rw [order_ofInt hn hn] at hnone
  cases hnone

end EntityQuery.Number
