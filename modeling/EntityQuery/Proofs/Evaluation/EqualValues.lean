import EntityQuery.Proofs.Evaluation.Membership
import EntityQuery.Proofs.Evaluation.Readable
import EntityQuery.Proofs.Evaluation.Widening

/-!
# Equal values

Identical values are equal, a NaN being neither to itself. Equal values of one kind are identical,
unless they are two 64-bit integers that round to the same float. Values of different kinds are
never identical, and some of them are equal; but an attribute may hold both of them only if it is
declared with a type that accepts more than one kind.
-/

namespace EntityQuery

namespace Value

variable {v w : Value}

/-! ## One kind -/

theorem equal_of_identical (h : v.identical w = true) : v.equal w = true := by
  fun_cases identical v w
  case case1 => rfl
  case case3 a b =>
    obtain rfl := eq_of_beq h
    exact (equal_int32 a a).mpr rfl
  case case4 a b =>
    obtain rfl := eq_of_beq h
    exact (equal_int64 a a).mpr rfl
  case case5 a b => exact (Number.widen_beq a b).trans h
  case case17 =>
    rw [identical] at h
    · cases h
    all_goals assumption
  -- Of all other kinds equality is identity.
  all_goals exact h

/-- Two 64-bit integers that round to the same float. -/
def RoundAlike (v w : Value) : Prop :=
  ∃ m n, v = int64 m ∧ w = int64 n ∧ Number.nearest m.toInt = Number.nearest n.toInt

/-- Equal values of one kind are identical, unless they are rounded. -/
theorem identical_of_equal (h : v.equal w = true) (hkind : v.typeName = w.typeName) :
    v.identical w = true ∨ v.RoundAlike w := by
  fun_cases identical v w
  case case1 => exact .inl rfl
  case case3 a b =>
    have hab := (equal_int32 a b).mp h
    exact .inl (beq_iff_eq.mpr (Int32.toInt_inj.mp hab))
  case case4 a b => exact .inr ⟨a, b, rfl, rfl, (equal_int64 a b).mp h⟩
  case case5 a b => exact .inl ((Number.widen_beq a b).symm.trans h)
  case case17 =>
    exfalso
    cases v <;> cases w <;> first
      | (simp [typeName] at hkind; done)
      | grind
  all_goals exact .inl h

/-- A value that is equal to itself is no NaN. -/
theorem identical_self_of_equal (h : v.equal v = true) : v.identical v = true := by
  rcases identical_of_equal h rfl with hid | ⟨m, -, rfl, -, -⟩
  · exact hid
  · exact beq_self_eq_true m

/-! ## Two kinds -/

/-- Equal values that are not identical are of two kinds, or they are rounded. -/
structure EqualApart (v w : Value) : Prop where
  equal : v.equal w = true
  not_identical : v.identical w = false
  cause : v.typeName ≠ w.typeName ∨ v.RoundAlike w

theorem EqualApart.of_not_identical (h : v.equal w = true) (hid : v.identical w = false) :
    v.EqualApart w := by
  refine ⟨h, hid, ?_⟩
  by_cases hkind : v.typeName = w.typeName
  · rcases identical_of_equal h hkind with hid' | hround
    · rw [hid] at hid'
      cases hid'
    · exact .inr hround
  · exact .inl hkind

/-- Equality with the value is identity. -/
def IsStrict (v : Value) : Prop :=
  ∀ w, v.equal w = v.identical w

theorem isStrict_string (text : String) : (string text).IsStrict := by
  intro w
  cases w <;> rfl

theorem isStrict_null : null.IsStrict := by
  intro w
  cases w <;> rfl

/-- Collections are not widened. -/
theorem isStrict_of_isArray (hv : v.isArray = true) : v.IsStrict := by
  intro w
  cases v
  case boolArray | int32Array | int64Array | float64Array | stringArray | uuidArray =>
    cases w <;> rfl
  all_goals cases hv

theorem EqualApart.not_isStrict (h : v.EqualApart w) : ¬v.IsStrict ∧ ¬w.IsStrict := by
  have hequal := h.equal
  have hid := h.not_identical
  constructor
  · intro hv
    rw [hv w, hid] at hequal
    cases hequal
  · intro hw
    rw [equal_comm, hw v, identical_comm, hid] at hequal
    cases hequal

end Value

/-! ## Values of one attribute -/

/-- The scalar types of attributes that hold values of more than one kind, or 64-bit integers. -/
def ScalarType.isMixed : ScalarType → Bool
  | int64 | float32 | float64 | timestamp => true
  | bool | int32 | string | bytes | uuid => false

/-- All other scalar types accept the kind of their name alone. -/
theorem ScalarType.typeName_of_accepts {s : ScalarType} {v : Value} (hs : s.isMixed = false)
    (h : s.accepts v = true) : v.typeName = s.name := by
  cases s with
  | bool | int32 | string | bytes | uuid =>
    cases v with
    | bool | int32 | string | bytes | uuid => first | rfl | cases h
    | _ => cases h
  | int64 | float32 | float64 | timestamp => cases hs

theorem ScalarType.isMixed_of_equalApart {s : ScalarType} {v w : Value} (hv : s.accepts v = true)
    (hw : s.accepts w = true) (h : v.EqualApart w) : s.isMixed = true := by
  by_contra hs
  have hs : s.isMixed = false := Bool.eq_false_iff.mpr hs
  rcases h.cause with hkind | ⟨m, n, rfl, rfl, -⟩
  · exact hkind ((typeName_of_accepts hs hv).trans (typeName_of_accepts hs hw).symm)
  · cases s with
    | int64 | float32 | float64 | timestamp => cases hs
    | bool | int32 | string | bytes | uuid => cases hv

/-- What an attribute accepts is accepted by a scalar type, or it is only equal to what it is identical
to. -/
theorem FieldType.accepts_cases {t : FieldType} {v : Value} (h : t.accepts v = true) :
    (∃ s, (Shape.ofFieldType t).plain = .scalar s ∧ s.accepts v = true) ∨ v.IsStrict := by
  unfold accepts at h
  split at h
  case isTrue hnull =>
    obtain rfl := Value.isNull_iff.mp hnull
    exact .inr Value.isStrict_null
  case isFalse =>
    cases t with
    | scalar s | optionalScalar s => exact .inl ⟨s, rfl, h⟩
    | array s =>
      refine .inr (Value.isStrict_of_isArray ?_)
      cases s <;> cases v <;> first | rfl | cases h
    | enumeration name variants | optionalEnumeration name variants =>
      cases v with
      | string text => exact .inr (Value.isStrict_string text)
      | _ => cases h

/-- The shapes of attributes with a mixed type. -/
def Shape.isMixed : Shape → Bool
  | scalar s | nullable (scalar s) => s.isMixed
  | _ => false

theorem Shape.isMixed_of_plain {shape : Shape} {s : ScalarType} (h : shape.plain = .scalar s)
    (hs : s.isMixed = true) : shape.isMixed = true := by
  cases shape with
  | scalar s' =>
    cases h
    exact hs
  | nullable inner =>
    obtain rfl : inner = .scalar s := h
    exact hs
  | record | anyRecord | enumeration | array | anyValue | tuple => cases h

/-- Values of attributes of one shape that are equal, but not identical, have a mixed shape. -/
theorem FieldType.isMixed_of_equalApart {t u : FieldType} {shape : Shape} {v w : Value}
    (ht : shape.plain = (Shape.ofFieldType t).plain) (hu : shape.plain = (Shape.ofFieldType u).plain)
    (hv : t.accepts v = true) (hw : u.accepts w = true) (h : v.EqualApart w) :
    shape.isMixed = true := by
  obtain ⟨hstrict, hstrict'⟩ := h.not_isStrict
  obtain ⟨s, hs, hv⟩ := (accepts_cases hv).resolve_right hstrict
  obtain ⟨s', hs', hw⟩ := (accepts_cases hw).resolve_right hstrict'
  rw [← ht] at hs
  rw [← hu, hs] at hs'
  cases hs'
  exact Shape.isMixed_of_plain hs (ScalarType.isMixed_of_equalApart hv hw h)

end EntityQuery
