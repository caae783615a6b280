import EntityQuery.Proofs.Evaluation.Rounding

/-!
# Widening floats

A 32-bit float has at most 24 significant bits, and its exponent lies well within the range of
64-bit floats. So it is widened without rounding: only its mantissa is filled up with zeros. Hence
floats are the same number if they are after widening.
-/

namespace EntityQuery.Number

open Float.Model Float.Model.UnpackedFloat

/-! ## Mantissas that need no rounding -/

/-- A mantissa of 53 bits is kept as it is. -/
theorem roundWithAccuracy_of_log2 (sign : Sign) {m : Nat} {e : Int} (h : 0 < m)
    (hlog : m.log2 = 52) (he : -1074 ≤ e) :
    roundWithAccuracy .binary64 sign m e .exact = .finite sign m e h := by
  have hshift : shiftToTargetExponent .binary64 m e .exact = (⟨m, false, false⟩, e) := by
    rw [shiftToTargetExponent_eq (by omega), hlog]
    exact Prod.ext rfl (Int.add_zero e)
  have hrounded : (⟨m, false, false⟩ : ExtendedMantissa).roundedMantissa = m := rfl
  rw [roundWithAccuracy]
  simp only [hshift, hrounded]
  exact dif_neg (Nat.ne_of_gt h)

/-- A mantissa of up to 53 bits is filled up with zeros. -/
theorem round_of_log2_le (sign : Sign) {m : Nat} {e : Int} (h : 0 < m) (hlog : m.log2 ≤ 52)
    (he : -1022 ≤ m.log2 + e) :
    UnpackedFloat.round .binary64 sign m e =
      .finite sign (m * 2 ^ (52 - m.log2)) (e - (52 - m.log2 : Nat))
        (Nat.mul_pos h (Nat.two_pow_pos _)) := by
  have hfilled : (m * 2 ^ (52 - m.log2)).log2 = 52 := by
    rw [log2_mul_two_pow (Nat.ne_of_gt h)]
    omega
  rw [← roundWithAccuracy_of_log2 sign _ hfilled (by omega)]
  have hshift : (e - (m.log2 + e - 52 : Int)).toNat = 52 - m.log2 := by omega
  show roundWithAccuracy .binary64 sign
    (m <<< (e - Format.binary64.targetExponent (totalExponent m e)).toNat)
    (e - ((e - Format.binary64.targetExponent (totalExponent m e)).toNat : Int)) .exact = _
  rw [targetExponent_eq he, hshift, Nat.shiftLeft_eq]

/-! ## Floats of 32 bits -/

/-- The finite floats of 32 bits: a mantissa of 24 bits, or of fewer under the least exponent. -/
inductive Narrow (m : Nat) (e : Int) : Prop
  | normal : m.log2 = 23 → -149 ≤ e → e ≤ 104 → Narrow m e
  | subnormal : m.log2 < 23 → e = -149 → Narrow m e

theorem narrow_unpack {bits : BitVec Format.binary32.numBits} {s : Sign} {m : Nat} {e : Int}
    {h : 0 < m} (hbits : UnpackedFloat.unpack .binary32 bits = .finite s m e h) : Narrow m e := by
  have hbias : (Format.binary32.exponentBias + Format.binary32.mantissaBitsWithoutImplicit : Int) =
      150 := by decide
  have hexponent : (@unpackExponent .binary32 bits).toNat < 2 ^ 8 := BitVec.isLt _
  have hmantissa : (@unpackMantissa .binary32 bits).toNat < 2 ^ 23 := BitVec.isLt _
  unfold UnpackedFloat.unpack at hbits
  simp only [hbias] at hbits
  split at hbits
  -- All ones in the exponent are an infinity or no number.
  case isTrue => split at hbits <;> cases hbits
  case isFalse hfinite =>
    split at hbits
    case isTrue hzero =>
      split at hbits
      case isTrue => cases hbits
      case isFalse =>
        -- No exponent and something in the mantissa: a float below the normal ones.
        rw [hzero, UnpackedFloat.finite.injEq] at hbits
        obtain ⟨-, rfl, rfl⟩ := hbits
        exact .subnormal ((Nat.log2_lt (by omega)).mpr hmantissa) rfl
    case isFalse hzero =>
      rw [UnpackedFloat.finite.injEq] at hbits
      obtain ⟨-, rfl, rfl⟩ := hbits
      -- The leading bit is not stored, so the mantissa has one bit more.
      have hmax : (@unpackExponent .binary32 bits).toNat ≠ 255 :=
        fun hmax => hfinite (BitVec.eq_of_toNat_eq hmax)
      have hmin : (@unpackExponent .binary32 bits).toNat ≠ 0 :=
        fun hmin => hzero (BitVec.eq_of_toNat_eq hmin)
      have hvalue : (1#1 ++ @unpackMantissa .binary32 bits).toNat =
          2 ^ 23 + (@unpackMantissa .binary32 bits).toNat := by
        rw [BitVec.toNat_append, ← Nat.shiftLeft_add_eq_or_of_lt hmantissa]
        rfl
      have hlog : (1#1 ++ @unpackMantissa .binary32 bits).toNat.log2 = 23 := by
        rw [hvalue, Nat.log2_eq_iff (by omega)]
        omega
      exact .normal hlog (by omega) (by omega)

/-- The same number with a mantissa of 53 bits. -/
def filled : UnpackedFloat → UnpackedFloat
  | .finite sign m e h =>
    .finite sign (m * 2 ^ (52 - m.log2)) (e - (52 - m.log2 : Nat))
      (Nat.mul_pos h (Nat.two_pow_pos _))
  | special => special

theorem filled_eq_notANumber {u : UnpackedFloat} : filled u = .notANumber ↔ u = .notANumber := by
  cases u <;> simp [filled]

theorem filled_eq_zero {u : UnpackedFloat} {s : Sign} : filled u = .zero s ↔ u = .zero s := by
  cases u <;> simp [filled]

/-- A mantissa has less than 24 bits only under the least exponent, so no other float of 32 bits is
the same number. -/
theorem Narrow.filled_inj {s s' : Sign} {m m' : Nat} {e e' : Int} {h : 0 < m} {h' : 0 < m'}
    (hm : Narrow m e) (hm' : Narrow m' e')
    (heq : filled (.finite s m e h) = filled (.finite s' m' e' h')) :
    UnpackedFloat.finite s m e h = .finite s' m' e' h' := by
  obtain ⟨rfl, hmantissa, hexponent⟩ := UnpackedFloat.finite.inj heq
  have hsame : e = e' ∧ m.log2 = m'.log2 := by
    rcases hm with ⟨hlog, hge, -⟩ | ⟨hlog, rfl⟩ <;>
      rcases hm' with ⟨hlog', hge', -⟩ | ⟨hlog', rfl⟩ <;> omega
  obtain ⟨rfl, hlog⟩ := hsame
  rw [hlog] at hmantissa
  have hm : m = m' := Nat.eq_of_mul_eq_mul_right (Nat.two_pow_pos _) hmantissa
  subst hm
  rfl

/-- Widening rounds nothing. -/
theorem unpack_widen (x : Float32) : (widen x).toModel.unpack = filled x.toModel.unpack := by
  cases hx : x.toModel.unpack with
  | infinity s =>
    rw [widen, hx]
    cases s <;> rfl
  | notANumber =>
    rw [widen, hx]
    exact UnpackedFloat.unpack_packedNaN
  | zero s =>
    rw [widen, hx]
    exact UnpackedFloat.unpack_packedZero
  | finite s m e h =>
    -- Fewer bits and a smaller range: filled up with zeros the mantissa has 53 bits, and nothing is
    -- rounded.
    have hnarrow : Narrow m e := narrow_unpack hx
    have hbounds : m.log2 ≤ 23 ∧ -149 ≤ e ∧ e ≤ 104 := by
      rcases hnarrow with ⟨hlog, hge, hle⟩ | ⟨hlog, rfl⟩ <;> omega
    obtain ⟨hlog, hge, hle⟩ := hbounds
    have hfilled : (m * 2 ^ (52 - m.log2)).log2 = 52 := by
      rw [log2_mul_two_pow (Nat.ne_of_gt h)]
      omega
    obtain ⟨hlow, hhigh⟩ := (Nat.log2_eq_iff (Nat.ne_of_gt
      (Nat.mul_pos h (Nat.two_pow_pos _)))).mp hfilled
    rw [widen, hx]
    show (Float.Model.pack (UnpackedFloat.round .binary64 s m e)).unpack = _
    rw [round_of_log2_le s h (by omega) (by omega)]
    exact unpack_pack s _ hlow hhigh (by omega) (by omega)

theorem isNaN_widen (x : Float32) : (widen x).isNaN = x.isNaN := by
  show (widen x).toModel.unpack.isNaN = x.toModel.unpack.isNaN
  rw [unpack_widen]
  cases x.toModel.unpack <;> rfl

theorem filled_unpack_inj {x y : Float32} :
    filled x.toModel.unpack = filled y.toModel.unpack ↔ x.toModel.unpack = y.toModel.unpack := by
  refine ⟨fun heq => ?_, fun heq => by rw [heq]⟩
  cases hx : x.toModel.unpack with
  | finite s m e h =>
    cases hy : y.toModel.unpack with
    | finite s' m' e' h' =>
      rw [hx, hy] at heq
      exact (narrow_unpack hx).filled_inj (narrow_unpack hy) heq
    | _ => simp [hx, hy, filled] at heq
  | _ =>
    rw [hx] at heq
    cases hy : y.toModel.unpack <;> simp_all [filled]

/-- Floats of 32 bits are the same number if they are after widening. -/
theorem widen_beq (x y : Float32) : (widen x == widen y) = (x == y) := by
  rw [Bool.eq_iff_iff]
  show ((widen x).toModel.unpack.beq (widen y).toModel.unpack) = true ↔
    (x.toModel.unpack.beq y.toModel.unpack) = true
  rw [UnpackedFloat.beq_iff_ne_notANumber_and_eq, UnpackedFloat.beq_iff_ne_notANumber_and_eq,
    unpack_widen, unpack_widen]
  simp only [ne_eq, filled_eq_notANumber, filled_eq_zero, filled_unpack_inj]

end EntityQuery.Number
