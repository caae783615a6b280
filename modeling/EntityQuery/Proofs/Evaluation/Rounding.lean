import EntityQuery.Proofs.Evaluation.Likeness

/-!
# Rounding integers

A 64-bit float has 53 significant bits. An integer with more of them becomes the nearest multiple of
the last one that is kept, and the even multiple if two are as near. As floats integers are ordered
like their nearest multiples: the order of integers of up to 53 bits, which are their own, is kept, and
of larger ones those become the same float that have the same nearest multiple.
-/

namespace EntityQuery.Number

open Float.Model Float.Model.UnpackedFloat

/-- The quotient rounded to the nearest natural number, and to the even one if two are as near. -/
def roundedQuotient (n d : Nat) : Nat :=
  if 2 * (n % d) < d then n / d
  else if d < 2 * (n % d) then n / d + 1
  else n / d + n / d % 2

/-- The distance of the floats between which a natural number lies. -/
def gap (n : Nat) : Nat :=
  2 ^ (n.log2 - 52)

/-- The multiple of the gap that is nearest to a natural number. -/
def nearestNat (n : Nat) : Nat :=
  roundedQuotient n (gap n) * gap n

/-- The integer whose float an integer becomes. -/
def nearest (n : Int) : Int :=
  n.sign * nearestNat n.natAbs

/-! ## Shifting -/

/-- Shifting keeps the last bit that is dropped, and whether there was any before it. -/
theorem shiftRight_succ (n k : Nat) :
    (⟨n, false, false⟩ : ExtendedMantissa) >>> (k + 1) =
      ⟨n / 2 ^ (k + 1), n / 2 ^ k % 2 != 0, decide (n % 2 ^ k ≠ 0)⟩ := by
  induction k with
  | zero =>
    show ExtendedMantissa.mk (n / 2) (n % 2 != 0) false = _
    simp [Nat.mod_one]
  | succ k ih =>
    show ((⟨n, false, false⟩ : ExtendedMantissa) >>> (k + 1)).shiftRightOne = _
    rw [ih, ExtendedMantissa.shiftRightOne]
    have hmod : n % 2 ^ (k + 1) = n % 2 ^ k + 2 ^ k * (n / 2 ^ k % 2) := Nat.mod_pow_succ
    have hpos : 0 < 2 ^ k := Nat.two_pow_pos k
    have hsticky : (n / 2 ^ k % 2 != 0 || decide (n % 2 ^ k ≠ 0)) =
        decide (n % 2 ^ (k + 1) ≠ 0) := by
      rw [hmod]
      rcases Nat.mod_two_eq_zero_or_one (n / 2 ^ k) with h | h <;> simp [h]
    rw [hsticky, Nat.div_div_eq_div_mul, ← Nat.pow_succ]

/-- The mantissa that is left is the rounded quotient. -/
theorem roundedMantissa_shiftRight (n k : Nat) :
    ((⟨n, false, false⟩ : ExtendedMantissa) >>> k).roundedMantissa =
      roundedQuotient n (2 ^ k) := by
  unfold roundedQuotient
  cases k with
  | zero =>
    rw [Nat.pow_zero, Nat.mod_one, Nat.div_one]
    rfl
  | succ k =>
    rw [shiftRight_succ]
    -- What is shifted out is the highest bit of the remainder and the rest below it.
    have hmod : n % 2 ^ (k + 1) = n % 2 ^ k + 2 ^ k * (n / 2 ^ k % 2) := Nat.mod_pow_succ
    have hpow : 2 ^ (k + 1) = 2 * 2 ^ k := Nat.pow_succ'
    have hlt : n % 2 ^ k < 2 ^ k := Nat.mod_lt _ (Nat.two_pow_pos k)
    rw [hmod, hpow]
    generalize n / 2 ^ (k + 1) = q
    generalize n % 2 ^ k = rest at hlt
    generalize 2 ^ k = half at hlt
    rcases Nat.mod_two_eq_zero_or_one (n / half) with hbit | hbit
    · rw [hbit, Nat.mul_zero, Nat.add_zero, if_pos (by omega)]
      -- Less than half is dropped, whether anything is left or not.
      rcases Nat.eq_zero_or_pos rest with rfl | hrest
      · rfl
      · rw [decide_eq_true (Nat.ne_of_gt hrest)]
        rfl
    · rw [hbit, Nat.mul_one, if_neg (by omega)]
      -- Half is a tie, which goes to the even mantissa; with anything more it is rounded up.
      rcases Nat.eq_zero_or_pos rest with rfl | hrest
      · rw [if_neg (by omega)]
        rfl
      · rw [if_pos (by omega), decide_eq_true (Nat.ne_of_gt hrest)]
        rfl

/-! ## Rounding -/

theorem roundedQuotient_bounds (n d : Nat) :
    n / d ≤ roundedQuotient n d ∧ roundedQuotient n d ≤ n / d + 1 := by
  unfold roundedQuotient
  split
  · omega
  · split <;> omega

theorem roundedQuotient_mono {n n' d : Nat} (h : n ≤ n') :
    roundedQuotient n d ≤ roundedQuotient n' d := by
  obtain hlt | heq := Nat.lt_or_eq_of_le (Nat.div_le_div_right (c := d) h)
  · have hbounds := roundedQuotient_bounds n d
    have hbounds' := roundedQuotient_bounds n' d
    omega
  · have hmod : n % d ≤ n' % d := by
      have hn := Nat.div_add_mod n d
      have hn' := Nat.div_add_mod n' d
      rw [heq] at hn
      omega
    unfold roundedQuotient
    rw [heq]
    split <;> split <;> (try split) <;> (try split) <;> omega

theorem log2_mul_two_pow {n : Nat} (hn : n ≠ 0) (k : Nat) : (n * 2 ^ k).log2 = n.log2 + k := by
  have hpos := Nat.two_pow_pos k
  rw [Nat.log2_eq_iff (Nat.mul_ne_zero hn (Nat.ne_of_gt hpos)), Nat.add_right_comm, Nat.pow_add,
    Nat.pow_add]
  exact ⟨Nat.mul_le_mul_right _ (Nat.log2_self_le hn),
    Nat.mul_lt_mul_of_pos_right Nat.lt_log2_self hpos⟩

theorem targetExponent_eq {n : Nat} {e : Int} (h : -1022 ≤ n.log2 + e) :
    Format.binary64.targetExponent (totalExponent n e) = n.log2 + e - 52 := by
  have hmin : Format.binary64.minExponent = -1074 := by decide
  have hbits : Format.binary64.mantissaBits = 53 := by decide
  rw [Format.targetExponent, totalExponent, hmin, hbits]
  omega

/-- A mantissa is shifted to 53 bits if it has more. -/
theorem shiftToTargetExponent_eq {n : Nat} {e : Int} (h : -1022 ≤ n.log2 + e) :
    shiftToTargetExponent .binary64 n e .exact =
      ((⟨n, false, false⟩ : ExtendedMantissa) >>> (n.log2 - 52), e + (n.log2 - 52 : Nat)) := by
  rw [shiftToTargetExponent, targetExponent_eq h]
  have hshift : (n.log2 + e - 52 - e).toNat = n.log2 - 52 := by omega
  rw [shiftToExponent, hshift]
  rfl

theorem log2_roundedQuotient {n : Nat} (h : 52 ≤ n.log2) :
    2 ^ 52 ≤ roundedQuotient n (gap n) ∧ roundedQuotient n (gap n) ≤ 2 ^ 53 := by
  have hpos : 0 < gap n := Nat.two_pow_pos _
  have hn : n ≠ 0 := by
    rintro rfl
    exact absurd h (by decide)
  have hlow : 2 ^ 52 ≤ n / gap n := by
    rw [Nat.le_div_iff_mul_le hpos, gap, ← Nat.pow_add, Nat.add_sub_cancel' h]
    exact Nat.log2_self_le hn
  have hhigh : n / gap n < 2 ^ 53 := by
    rw [Nat.div_lt_iff_lt_mul hpos, gap, ← Nat.pow_add]
    have hlog : 53 + (n.log2 - 52) = n.log2 + 1 := by omega
    rw [hlog]
    exact Nat.lt_log2_self
  have hbounds := roundedQuotient_bounds n (gap n)
  omega

/-- A float in canonical form: a mantissa of 53 bits, and a value in multiples of `2⁻⁵²`. -/
structure Canonical (value : Nat) (mantissa : Nat) (exponent : Int) : Prop where
  low : 2 ^ 52 ≤ mantissa
  high : mantissa < 2 ^ 53
  exponent_ge : -52 ≤ exponent
  value_eq : mantissa * 2 ^ (exponent + 52).toNat = value

/-- A mantissa that was rounded up to 54 bits is shifted once more, which loses nothing. -/
theorem shift_canonical {r : Nat} {e : Int} (hlow : 2 ^ 52 ≤ r) (hhigh : r ≤ 2 ^ 53)
    (he : -52 ≤ e) :
    ∃ m e', shiftToTargetExponent .binary64 r e .exact = (⟨m, false, false⟩, e') ∧
      Canonical (r * 2 ^ (e + 52).toNat) m e' ∧ e' ≤ e + 1 := by
  obtain hlt | rfl := Nat.lt_or_eq_of_le hhigh
  · have hlog : r.log2 = 52 := (Nat.log2_eq_iff (by omega)).mpr ⟨hlow, hlt⟩
    refine ⟨r, e, ?_, ⟨hlow, hlt, he, rfl⟩, by omega⟩
    rw [shiftToTargetExponent_eq (by omega), hlog]
    exact Prod.ext rfl (Int.add_zero e)
  · have hlog : (2 ^ 53).log2 = 53 := Nat.log2_two_pow
    refine ⟨2 ^ 52, e + 1, ?_, ⟨Nat.le_refl _, by decide, by omega, ?_⟩, Int.le_refl _⟩
    · rw [shiftToTargetExponent_eq (by omega), hlog]
      rfl
    · have hexp : 52 + (e + 1 + 52).toNat = 53 + (e + 52).toNat := by omega
      rw [← Nat.pow_add, ← Nat.pow_add, hexp]

/-- Of a mantissa with at least 53 bits the first 53 are left, rounded. -/
theorem roundWithAccuracy_eq (sign : Sign) {n : Nat} {e : Int} (hlog : 52 ≤ n.log2)
    (he : -52 ≤ e) :
    ∃ m e' h, roundWithAccuracy .binary64 sign n e .exact = .finite sign m e' h ∧
      Canonical (nearestNat n * 2 ^ (e + 52).toNat) m e' ∧ e' ≤ e + n.log2 - 51 := by
  obtain ⟨hlow, hhigh⟩ := log2_roundedQuotient hlog
  have hexp : e + (n.log2 - 52 : Nat) = e + n.log2 - 52 := by omega
  obtain ⟨m, e', hshift, hcanonical, hle⟩ :=
    shift_canonical (e := e + n.log2 - 52) hlow hhigh (by omega)
  -- The quotient times its unit is the nearest multiple.
  have hvalue : roundedQuotient n (gap n) * 2 ^ (e + n.log2 - 52 + 52).toNat =
      nearestNat n * 2 ^ (e + 52).toNat := by
    have hsum : (e + n.log2 - 52 + 52).toNat = (n.log2 - 52) + (e + 52).toNat := by omega
    rw [nearestNat, gap, Nat.mul_assoc, ← Nat.pow_add, hsum]
  rw [hvalue] at hcanonical
  have hpos : 0 < m := Nat.lt_of_lt_of_le (by decide) hcanonical.low
  refine ⟨m, e', hpos, ?_, hcanonical, by omega⟩
  -- The mantissa is not zero, so what is left is a finite float.
  have hshift' : shiftToTargetExponent .binary64 (roundedQuotient n (2 ^ (n.log2 - 52)))
      (e + n.log2 - 52) .exact = (⟨m, false, false⟩, e') := hshift
  rw [roundWithAccuracy, shiftToTargetExponent_eq (by omega)]
  simp only [roundedMantissa_shiftRight, hexp, hshift']
  exact dif_neg (Nat.ne_of_gt hpos)

theorem nearestNat_of_log2_le {n : Nat} (h : n.log2 ≤ 52) : nearestNat n = n := by
  have hgap : gap n = 1 := by rw [gap, Nat.sub_eq_zero_of_le h, Nat.pow_zero]
  rw [nearestNat, hgap, Nat.mul_one, roundedQuotient, Nat.mod_one, Nat.div_one]
  rfl

/-- Rounding does not leave the powers of two around a number. -/
theorem nearestNat_bounds {n : Nat} (hn : n ≠ 0) :
    2 ^ n.log2 ≤ nearestNat n ∧ nearestNat n ≤ 2 ^ (n.log2 + 1) := by
  obtain hsmall | hlarge := Nat.le_total n.log2 52
  · rw [nearestNat_of_log2_le hsmall]
    exact ⟨Nat.log2_self_le hn, Nat.le_of_lt Nat.lt_log2_self⟩
  · obtain ⟨hlow, hhigh⟩ := log2_roundedQuotient hlarge
    have hlow' : 2 ^ n.log2 = 2 ^ 52 * gap n := by
      rw [gap, ← Nat.pow_add, Nat.add_sub_cancel' hlarge]
    have hhigh' : 2 ^ (n.log2 + 1) = 2 ^ 53 * gap n := by
      rw [gap, ← Nat.pow_add]
      congr 1
      omega
    rw [hlow', hhigh']
    exact ⟨Nat.mul_le_mul_right _ hlow, Nat.mul_le_mul_right _ hhigh⟩

theorem nearestNat_mono {n n' : Nat} (h : n ≤ n') : nearestNat n ≤ nearestNat n' := by
  by_cases hn : n = 0
  · rw [hn]
    exact Nat.zero_le _
  have hn' : n' ≠ 0 := by omega
  have hlog : n.log2 ≤ n'.log2 :=
    (Nat.le_log2 hn').mpr (Nat.le_trans (Nat.log2_self_le hn) h)
  obtain hlt | heq := Nat.lt_or_eq_of_le hlog
  · calc nearestNat n
        ≤ 2 ^ (n.log2 + 1) := (nearestNat_bounds hn).2
      _ ≤ 2 ^ n'.log2 := Nat.pow_le_pow_right (by decide) hlt
      _ ≤ nearestNat n' := (nearestNat_bounds hn').1
  · have hgap : gap n = gap n' := by rw [gap, gap, heq]
    rw [nearestNat, nearestNat, hgap]
    exact Nat.mul_le_mul_right _ (roundedQuotient_mono h)

theorem nearest_mono {m n : Int} (h : m ≤ n) : nearest m ≤ nearest n := by
  unfold nearest
  rcases Int.lt_trichotomy m 0 with hm | rfl | hm
  · rw [Int.sign_eq_neg_one_of_neg hm]
    rcases Int.lt_or_le n 0 with hn | hn
    · have hle : nearestNat n.natAbs ≤ nearestNat m.natAbs := nearestNat_mono (by omega)
      rw [Int.sign_eq_neg_one_of_neg hn]
      omega
    · have hpos : 0 ≤ n.sign * (nearestNat n.natAbs : Int) :=
        Int.mul_nonneg (Int.sign_nonneg_iff.mpr hn) (Int.natCast_nonneg _)
      omega
  · rw [Int.sign_zero, Int.zero_mul]
    exact Int.mul_nonneg (Int.sign_nonneg_iff.mpr h) (Int.natCast_nonneg _)
  · have hle : nearestNat m.natAbs ≤ nearestNat n.natAbs := nearestNat_mono (by omega)
    rw [Int.sign_eq_one_of_pos hm, Int.sign_eq_one_of_pos (by omega)]
    omega

/-- Rounding gives the float with the value of the nearest multiple. -/
theorem round_eq (sign : Sign) {n : Nat} (hn : 0 < n) :
    ∃ m e h, UnpackedFloat.round .binary64 sign n 0 = .finite sign m e h ∧
      Canonical (nearestNat n * 2 ^ 52) m e ∧ e ≤ n.log2 := by
  -- A number of fewer bits is first filled up with zeros.
  have hround : UnpackedFloat.round .binary64 sign n 0 = roundWithAccuracy .binary64 sign
      (n * 2 ^ (52 - n.log2)) (0 - (52 - n.log2 : Nat)) .exact := by
    have htarget := targetExponent_eq (n := n) (e := 0) (by omega)
    have hshift : (0 - (n.log2 + 0 - 52 : Int)).toNat = 52 - n.log2 := by omega
    show roundWithAccuracy .binary64 sign
      (n <<< (0 - Format.binary64.targetExponent (totalExponent n 0)).toNat)
      (0 - ((0 - Format.binary64.targetExponent (totalExponent n 0)).toNat : Int)) .exact = _
    rw [htarget, hshift, Nat.shiftLeft_eq]
  have hlog : (n * 2 ^ (52 - n.log2)).log2 = n.log2 + (52 - n.log2) :=
    log2_mul_two_pow (Nat.ne_of_gt hn) _
  obtain ⟨m, e, h, hfinite, hcanonical, hle⟩ :=
    roundWithAccuracy_eq sign (n := n * 2 ^ (52 - n.log2)) (e := 0 - (52 - n.log2 : Nat))
      (by omega) (by omega)
  refine ⟨m, e, h, hround.trans hfinite, ?_, by omega⟩
  -- Up to 53 bits nothing is rounded, and above them nothing has been filled up.
  obtain hsmall | hlarge := Nat.le_total n.log2 52
  · rw [nearestNat_of_log2_le (by omega), Nat.mul_assoc, ← Nat.pow_add] at hcanonical
    rw [nearestNat_of_log2_le hsmall]
    have hsum : 52 - n.log2 + (0 - ((52 - n.log2 : Nat) : Int) + 52).toNat = 52 := by omega
    rw [hsum] at hcanonical
    exact hcanonical
  · have hzero : 52 - n.log2 = 0 := Nat.sub_eq_zero_of_le hlarge
    rw [hzero, Nat.pow_zero, Nat.mul_one] at hcanonical
    exact hcanonical

/-! ## Packing -/

/-- A float with a mantissa of 53 bits is packed without loss. -/
theorem unpack_pack {m : Nat} {e : Int} (sign : Sign) (h : 0 < m) (hlow : 2 ^ 52 ≤ m)
    (hhigh : m < 2 ^ 53) (hge : -1074 ≤ e) (he : e ≤ 970) :
    (Float.Model.pack (.finite sign m e h)).unpack = .finite sign m e h := by
  have hlog : m.log2 = 52 := (Nat.log2_eq_iff (by omega)).mpr ⟨hlow, hhigh⟩
  have hbias : Format.binary64.exponentBias = 1023 := by decide
  obtain ⟨b, hb⟩ : ∃ b : Nat, e + 1023 + 52 = b := ⟨(e + 1023 + 52).toNat, by omega⟩
  -- The exponent is in range, so the float is packed with its biased exponent.
  have hpack : UnpackedFloat.pack .binary64 (.finite sign m e h) =
      packComponents .binary64 sign (BitVec.ofNat _ b) (BitVec.ofNat _ m) := by
    have hbiased : (e + Format.binary64.exponentBias + (52 : Nat)).toNat = b := by
      rw [hbias]
      omega
    have hfinite : ¬ 2 ^ 11 ≤ b + 1 := by omega
    unfold UnpackedFloat.pack
    simp only [hbiased, hlog]
    rw [if_neg hfinite, if_pos (by decide)]
  show UnpackedFloat.unpack .binary64 (UnpackedFloat.pack .binary64 (.finite sign m e h)) = _
  rw [hpack]
  unfold UnpackedFloat.unpack
  simp only [unpackMantissa_packComponents, unpackExponent_packComponents,
    unpackSign_packComponents, Sign.ofBitVec_toBitVec]
  -- Unpacking gives back the exponent, and the mantissa with its leading bit.
  have hexponent : (BitVec.ofNat 11 b).toNat = b := Nat.mod_eq_of_lt (by omega)
  have hmantissa : (1#1 ++ BitVec.ofNat 52 m).toNat = m := by
    have hlast : (BitVec.ofNat 52 m).toNat = m - 2 ^ 52 := by
      rw [BitVec.toNat_ofNat, Nat.mod_eq_sub_mod hlow, Nat.mod_eq_of_lt (by omega)]
    rw [BitVec.toNat_append, ← Nat.shiftLeft_add_eq_or_of_lt (BitVec.isLt _), hlast]
    show 1 <<< 52 + (m - 2 ^ 52) = m
    omega
  -- The packed exponent is neither that of an infinity nor that of zero.
  have hinfinite : BitVec.ofNat 11 b ≠ -1#11 := by
    intro hb'
    have hmax : b = 2047 := hexponent.symm.trans (congrArg BitVec.toNat hb')
    omega
  have hzero : BitVec.ofNat 11 b ≠ 0#11 := by
    intro hb'
    have hnil : b = 0 := hexponent.symm.trans (congrArg BitVec.toNat hb')
    omega
  have hsum : (b : Int) - (Format.binary64.exponentBias + (52 : Nat)) = e := by
    rw [hbias]
    omega
  rw [if_neg hinfinite, if_neg hzero]
  simp only [hexponent, hmantissa, hsum]

/-! ## Integers as floats -/

theorem Canonical.log2_eq {value m : Nat} {e : Int} (h : Canonical value m e) :
    value.log2 = 52 + (e + 52).toNat := by
  have hlow := h.low
  have hm : m ≠ 0 := by omega
  rw [← h.value_eq, log2_mul_two_pow hm, (Nat.log2_eq_iff hm).mpr ⟨hlow, h.high⟩]

theorem Canonical.value_lt {value value' m m' : Nat} {e e' : Int} (h : Canonical value m e)
    (h' : Canonical value' m' e') (he : e < e') : value < value' := by
  by_contra hle
  have hlog := h.log2_eq
  have hlog' := h'.log2_eq
  have hge := h.exponent_ge
  have hlow := h'.low
  have hpos : value' ≠ 0 := by
    rintro rfl
    rw [Nat.log2_zero] at hlog'
    omega
  have hle' : value'.log2 ≤ value.log2 :=
    (Nat.le_log2 (by omega)).mpr (Nat.le_trans (Nat.log2_self_le hpos) (Nat.le_of_not_lt hle))
  omega

/-- Canonical forms are ordered like their values. -/
theorem Canonical.compare_eq {value value' m m' : Nat} {e e' : Int} (h : Canonical value m e)
    (h' : Canonical value' m' e') : (compare e e').then (compare m m') = compare value value' := by
  rcases Int.lt_trichotomy e e' with hlt | rfl | hgt
  · rw [compare_lt_iff_lt.mpr hlt, compare_lt_iff_lt.mpr (h.value_lt h' hlt)]
    rfl
  · rw [Std.compare_self, ← h.value_eq, ← h'.value_eq, ← cmp_eq_compare, ← cmp_eq_compare,
      cmp_mul_pos_right (Nat.two_pow_pos _)]
    rfl
  · rw [compare_gt_iff_gt.mpr hgt, compare_gt_iff_gt.mpr (h'.value_lt h hgt)]
    rfl

/-- The sign of the float that an integer becomes. -/
def signOf (n : Int) : Sign :=
  if n < 0 then .negative else .positive

theorem unpack_ofInt {n : Int} (hn : n ≠ 0) (hbound : n.natAbs < 2 ^ 64) :
    ∃ m e h, (ofInt n).toModel.unpack = .finite (signOf n) m e h ∧
      Canonical (nearestNat n.natAbs * 2 ^ 52) m e := by
  obtain ⟨m, e, h, hround, hcanonical, he⟩ :=
    round_eq (signOf n) (n := n.natAbs) (Int.natAbs_pos.mpr hn)
  have hlog : n.natAbs.log2 < 64 := (Nat.log2_lt (Int.natAbs_ne_zero.mpr hn)).mpr hbound
  refine ⟨m, e, h, ?_, hcanonical⟩
  have hnormalize : UnpackedFloat.ofInt .binary64 n =
      UnpackedFloat.round .binary64 (signOf n) n.natAbs 0 := by
    unfold UnpackedFloat.ofInt UnpackedFloat.normalize
    rcases Int.lt_or_gt_of_ne hn with hneg | hpos
    · rw [compare_lt_iff_lt.mpr hneg, signOf, if_pos hneg, show (-n).toNat = n.natAbs by omega]
    · rw [compare_gt_iff_gt.mpr hpos, signOf, if_neg (by omega), show n.toNat = n.natAbs by omega]
  show (Float.Model.pack (UnpackedFloat.ofInt .binary64 n)).unpack = _
  rw [hnormalize, hround]
  have hge := hcanonical.exponent_ge
  exact unpack_pack _ h hcanonical.low hcanonical.high (by omega) (by omega)

theorem unpack_ofInt_zero : (ofInt 0).toModel.unpack = .zero .positive :=
  unpack_packedZero

theorem nearestNat_pos {n : Nat} (hn : 0 < n) : 0 < nearestNat n := by
  obtain ⟨m, e, h, -, hcanonical, -⟩ := round_eq .positive hn
  have hvalue : 0 < nearestNat n * 2 ^ 52 := by
    rw [← hcanonical.value_eq]
    exact Nat.mul_pos h (Nat.two_pow_pos _)
  exact Nat.pos_of_mul_pos_right hvalue

theorem nearest_eq_apply {n : Int} (hn : n ≠ 0) :
    nearest n = (signOf n).apply (nearestNat n.natAbs) := by
  unfold signOf nearest
  rcases Int.lt_or_gt_of_ne hn with hneg | hpos
  · rw [if_pos hneg, Int.sign_eq_neg_one_of_neg hneg, Int.neg_one_mul]
    rfl
  · rw [if_neg (by omega), Int.sign_eq_one_of_pos hpos, Int.one_mul]
    rfl

/-- The float of an integer lies on the side of zero on which its sign says. -/
theorem order_ofInt_zero {n : Int} (hn : n ≠ 0) (hbound : n.natAbs < 2 ^ 64) :
    Number.order (ofInt n) (ofInt 0) = some (compare (nearest n) 0) ∧
      Number.order (ofInt 0) (ofInt n) = some (compare 0 (nearest n)) := by
  obtain ⟨m, e, h, hunpack, -⟩ := unpack_ofInt hn hbound
  have hpos := nearestNat_pos (n := n.natAbs) (by omega)
  show (ofInt n).toModel.unpack.compare (ofInt 0).toModel.unpack = _ ∧
    (ofInt 0).toModel.unpack.compare (ofInt n).toModel.unpack = _
  rw [hunpack, unpack_ofInt_zero, nearest_eq_apply hn]
  cases signOf n with
  | positive =>
    have hgt : (0 : Int) < Sign.positive.apply (nearestNat n.natAbs) := by
      show (0 : Int) < (nearestNat n.natAbs : Int)
      omega
    rw [compare_gt_iff_gt.mpr hgt, compare_lt_iff_lt.mpr hgt]
    exact ⟨rfl, rfl⟩
  | negative =>
    have hlt : Sign.negative.apply (nearestNat n.natAbs) < 0 := by
      show -(nearestNat n.natAbs : Int) < 0
      omega
    rw [compare_gt_iff_gt.mpr hlt, compare_lt_iff_lt.mpr hlt]
    exact ⟨rfl, rfl⟩

theorem compare_neg (a b : Int) : compare (-a) (-b) = (compare a b).swap := by
  rcases Int.lt_trichotomy a b with h | rfl | h
  · rw [compare_lt_iff_lt.mpr h, compare_gt_iff_gt.mpr (Int.neg_lt_neg h)]
    rfl
  · rw [Std.compare_self, Std.compare_self]
    rfl
  · rw [compare_gt_iff_gt.mpr h, compare_lt_iff_lt.mpr (Int.neg_lt_neg h)]
    rfl

/-- Integers of 64 bits are ordered as floats like their nearest multiples. -/
theorem order_ofInt {m n : Int} (hm : m.natAbs < 2 ^ 64) (hn : n.natAbs < 2 ^ 64) :
    Number.order (ofInt m) (ofInt n) = some (compare (nearest m) (nearest n)) := by
  by_cases hm' : m = 0
  · subst hm'
    by_cases hn' : n = 0
    · subst hn'
      decide +kernel
    · exact (order_ofInt_zero hn' hn).2
  by_cases hn' : n = 0
  · subst hn'
    exact (order_ofInt_zero hm' hm).1
  -- Neither is zero, so both are finite and canonical.
  obtain ⟨a, e, ha, hunpack, hcanonical⟩ := unpack_ofInt hm' hm
  obtain ⟨b, e', hb, hunpack', hcanonical'⟩ := unpack_ofInt hn' hn
  have hpos := nearestNat_pos (n := m.natAbs) (by omega)
  have hpos' := nearestNat_pos (n := n.natAbs) (by omega)
  -- Canonical floats of one sign are ordered as their values are.
  have hvalues : (compare e e').then (compare a b) =
      compare (nearestNat m.natAbs) (nearestNat n.natAbs) := by
    rw [hcanonical.compare_eq hcanonical', ← cmp_eq_compare, ← cmp_eq_compare,
      cmp_mul_pos_right (Nat.two_pow_pos _)]
  have hints : compare (nearestNat m.natAbs : Int) (nearestNat n.natAbs : Int) =
      (compare e e').then (compare a b) := by
    rw [hvalues, ← cmp_eq_compare, ← cmp_eq_compare, Nat.strictMono_cast.cmp_map_eq]
  show (ofInt m).toModel.unpack.compare (ofInt n).toModel.unpack = _
  rw [hunpack, hunpack', nearest_eq_apply hm', nearest_eq_apply hn']
  cases signOf m <;> cases signOf n
  · show _ = some (compare (-(nearestNat m.natAbs : Int)) (-(nearestNat n.natAbs : Int)))
    rw [compare_neg, hints]
    rfl
  · show _ = some (compare (-(nearestNat m.natAbs : Int)) (nearestNat n.natAbs : Int))
    rw [compare_lt_iff_lt.mpr (by omega)]
    rfl
  · show _ = some (compare (nearestNat m.natAbs : Int) (-(nearestNat n.natAbs : Int)))
    rw [compare_gt_iff_gt.mpr (by omega)]
    rfl
  · show _ = some (compare (nearestNat m.natAbs : Int) (nearestNat n.natAbs : Int))
    rw [hints]
    rfl

/-- Integers of 64 bits become the same float if they have the same nearest multiple. -/
theorem ofInt_beq_iff {m n : Int} (hm : m.natAbs < 2 ^ 64) (hn : n.natAbs < 2 ^ 64) :
    (ofInt m == ofInt n) = true ↔ nearest m = nearest n := by
  rw [beq_eq, order_ofInt hm hn, beq_iff_eq, Option.some.injEq, Std.compare_eq_iff_eq]

/-- An integer of up to 53 bits is a float. -/
theorem nearest_of_natAbs_le {n : Int} (h : n.natAbs ≤ 2 ^ 53) : nearest n = n := by
  have hnat : nearestNat n.natAbs = n.natAbs := by
    obtain hlt | heq := Nat.lt_or_eq_of_le h
    · by_cases hzero : n.natAbs = 0
      · rw [hzero]
        rfl
      · have hlog := (Nat.log2_lt hzero).mpr hlt
        exact nearestNat_of_log2_le (by omega)
    · rw [heq]
      decide
  rw [nearest, hnat, Int.sign_mul_natAbs]

end EntityQuery.Number
