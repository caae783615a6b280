import EntityQuery.Proofs.Evaluation.Rounding

/-!
# Equality and order

Where two values are ordered, one expects them to be equal if neither comes before the other. So it is
for values without floats, except for two 64-bit integers: they are ordered exactly, but they are
equal if they become the same float. Integers of different widths, and timestamps, are compared
exactly either way.
-/

namespace EntityQuery

namespace Value

/-- Whether a value is a float or has floats as elements. -/
def holdsFloats : Value → Bool
  | float32 _ | float64 _ | float64Array _ => true
  | _ => false

variable {v w : Value} {o : Ordering}

theorem orderBytes_eq_iff (as bs : List UInt8) : orderBytes as bs = .eq ↔ as = bs := by
  fun_induction orderBytes as bs with
  | case1 => exact iff_of_true rfl rfl
  | case2 => simp
  | case3 => simp
  | case4 a as b bs ih => rw [Ordering.then_eq_eq, ih, Std.compare_eq_iff_eq, List.cons.injEq]

/-- Of the values without floats only integers are numbers. -/
theorem float64?_eq_some {x : Float} (hv : v.holdsFloats = false) (h : v.float64? = some x) :
    (∃ a, v = int32 a) ∨ ∃ a, v = int64 a := by
  cases v with
  | int32 a => exact .inl ⟨a, rfl⟩
  | int64 a => exact .inr ⟨a, rfl⟩
  | float32 x | float64 x => cases hv
  | _ => cases h

/-- 32-bit integers are floats, and so they are equal if they are the same. -/
theorem equal_int32 (a b : Int32) : (int32 a).equal (int32 b) = true ↔ a.toInt = b.toInt := by
  have ha := a.toInt_lt
  have ha' := a.le_toInt
  have hb := b.toInt_lt
  have hb' := b.le_toInt
  show (Number.ofInt a.toInt == Number.ofInt b.toInt) = true ↔ _
  rw [Number.ofInt_beq_iff (by omega) (by omega), Number.nearest_of_natAbs_le (by omega),
    Number.nearest_of_natAbs_le (by omega)]

/-- 64-bit integers are equal if they have the same nearest multiple. -/
theorem equal_int64 (a b : Int64) : (int64 a).equal (int64 b) = true ↔
    Number.nearest a.toInt = Number.nearest b.toInt := by
  have ha := a.toInt_lt
  have ha' := a.le_toInt
  have hb := b.toInt_lt
  have hb' := b.le_toInt
  exact Number.ofInt_beq_iff (by omega) (by omega)

theorem equal_iff_of_order (hv : v.holdsFloats = false) (hw : w.holdsFloats = false)
    (h : v.order w = some o) (hints : ∀ a b, v = int64 a → w ≠ int64 b) :
    v.equal w = true ↔ o = .eq := by
  fun_cases order v w
  case case1 a b =>
    obtain rfl := Option.some.inj h
    rw [equal_int32, Std.compare_eq_iff_eq]
  case case2 a b => exact absurd rfl (hints a b rfl)
  case case3 a b =>
    obtain rfl := Option.some.inj h
    show (a.toInt64 == b) = true ↔ _
    rw [beq_iff_eq, Std.compare_eq_iff_eq, ← Int64.toInt_inj, Int32.toInt_toInt64]
  case case4 a b =>
    obtain rfl := Option.some.inj h
    show (a == b.toInt64) = true ↔ _
    rw [beq_iff_eq, Std.compare_eq_iff_eq, ← Int64.toInt_inj, Int32.toInt_toInt64]
  case case5 a b =>
    obtain rfl := Option.some.inj h
    show (a == b) = true ↔ _
    rw [beq_iff_eq, Std.compare_eq_iff_eq]
  case case6 a b | case7 a b | case8 a b =>
    obtain rfl := Option.some.inj h
    show (a == b) = true ↔ _
    rw [beq_iff_eq, Std.compare_eq_iff_eq, Int64.toInt_inj]
  case case9 a b =>
    obtain rfl := Option.some.inj h
    show (a == b) = true ↔ _
    rw [beq_iff_eq, orderBytes_eq_iff]
  case case10 a b =>
    obtain rfl := Option.some.inj h
    show (a == b) = true ↔ _
    rw [beq_iff_eq, orderBytes_eq_iff, Vector.toList_inj]
  case case11 a b =>
    obtain rfl := Option.some.inj h
    show (a == b) = true ↔ _
    rw [beq_iff_eq, Std.compare_eq_iff_eq]
  case case12 x y hx hy hints₁ hints₂ hints₃ hints₄ _ _ _ _ _ _ _ =>
    -- Without floats both would be integers, which are ordered exactly.
    obtain ⟨a, ha⟩ | ⟨a, ha⟩ := float64?_eq_some hv hx <;>
      obtain ⟨b, hb⟩ | ⟨b, hb⟩ := float64?_eq_some hw hy
    · exact (hints₁ a b ha hb).elim
    · exact (hints₃ a b ha hb).elim
    · exact (hints₄ a b ha hb).elim
    · exact (hints₂ a b ha hb).elim
  case case13 _ _ _ _ _ _ _ _ _ _ _ hnone =>
    rw [order] at h
    · split at h
      · next x y hx hy => exact (hnone x y hx hy).elim
      · cases h
    all_goals assumption

theorem isNull_of_order (h : v.order w = some o) : v.isNull = false ∧ w.isNull = false := by
  constructor
  · cases v with
    | null => cases w <;> cases h
    | _ => rfl
  · cases w with
    | null => cases v <;> cases h
    | _ => rfl

/-- Where two values without floats are ordered, they are equal if neither comes before the other, or
if they are 64-bit integers with the same nearest multiple; up to 53 bits the latter are the same.
The condition that they are equal is just that, and it is the conditions that they are ordered either
way that hold for both if neither comes before the other. -/
theorem equal_correct (hv : v.holdsFloats = false) (hw : w.holdsFloats = false)
    (h : v.order w = some o) :
    (v.equal w = true ↔ o = .eq ∨ ∃ a b, v = int64 a ∧ w = int64 b ∧
      Number.nearest a.toInt = Number.nearest b.toInt) ∧
    ((∀ a b, v = int64 a → w = int64 b → a.toInt.natAbs ≤ 2 ^ 53 ∧ b.toInt.natAbs ≤ 2 ^ 53) →
      (v.equal w = true ↔ o = .eq)) ∧
    Comparison.eq.truth v w = some (v.equal w) ∧
    (Comparison.le.truth v w = some true ∧ Comparison.ge.truth v w = some true ↔ o = .eq) := by
  obtain ⟨hv', hw'⟩ := isNull_of_order h
  have htruth : ∀ op : Comparison, op.truth v w = _ := fun op =>
    if_neg (by rw [hv', hw']; exact Bool.false_ne_true)
  have heq : Comparison.eq.truth v w = some (v.equal w) := htruth .eq
  -- Neither comes before the other just if both conditions hold.
  have hboth : Comparison.le.truth v w = some true ∧ Comparison.ge.truth v w = some true ↔
      o = .eq := by
    rw [htruth .le, htruth .ge]
    simp only [h, Option.map_some, Option.some.injEq]
    cases o <;> decide
  -- Only two 64-bit integers are compared after rounding.
  by_cases hints : ∃ a b, v = int64 a ∧ w = int64 b
  · obtain ⟨a, b, rfl, rfl⟩ := hints
    obtain rfl := Option.some.inj h
    have hequal := equal_int64 a b
    refine ⟨?_, fun hsmall => ?_, heq, hboth⟩
    · rw [hequal]
      constructor
      · intro hnearest
        exact .inr ⟨a, b, rfl, rfl, hnearest⟩
      · rintro (hsame | ⟨_, _, ⟨⟩, ⟨⟩, hnearest⟩)
        · exact congrArg Number.nearest (Std.compare_eq_iff_eq.mp hsame)
        · exact hnearest
    · obtain ⟨ha, hb⟩ := hsmall a b rfl rfl
      rw [hequal, Number.nearest_of_natAbs_le ha, Number.nearest_of_natAbs_le hb,
        Std.compare_eq_iff_eq]
  · -- All other values are compared as they are ordered.
    have hequal := equal_iff_of_order hv hw h fun a b hva hwb => hints ⟨a, b, hva, hwb⟩
    refine ⟨?_, fun _ => hequal, heq, hboth⟩
    rw [hequal]
    constructor
    · exact .inl
    · rintro (ho | ⟨a, b, hva, hwb, -⟩)
      · exact ho
      · exact absurd ⟨a, b, hva, hwb⟩ hints

theorem equal_correct_sample :
    (int64 9007199254740992).holdsFloats = false ∧ (int64 9007199254740991).holdsFloats = false ∧
      (int64 9007199254740992).order (int64 9007199254740991) = some .gt ∧
      (int64 9007199254740992).equal (int64 9007199254740991) = false := by
  have horder : (int64 9007199254740992).order (int64 9007199254740991) = some .gt := rfl
  obtain ⟨-, hexact, -⟩ := equal_correct rfl rfl horder
  refine ⟨rfl, rfl, horder, Bool.eq_false_iff.mpr fun h => ?_⟩
  have hsmall : ∀ a b, int64 9007199254740992 = int64 a → int64 9007199254740991 = int64 b →
      a.toInt.natAbs ≤ 2 ^ 53 ∧ b.toInt.natAbs ≤ 2 ^ 53 := by
    rintro _ _ ⟨⟩ ⟨⟩
    decide
  cases (hexact hsmall).mp h

/-- Two integers that are not the same, and have the same nearest multiple. -/
theorem equal_distinct_integers :
    (int64 9007199254740993).holdsFloats = false ∧ (int64 9007199254740992).holdsFloats = false ∧
      (int64 9007199254740993).order (int64 9007199254740992) = some .gt ∧
      (int64 9007199254740993).equal (int64 9007199254740992) = true := by
  decide +kernel

end Value

end EntityQuery
