import EntityQuery.Proofs.Evaluation.Presence

/-!
# Values that can be read

Three tables have to agree: which values an attribute accepts, which result types its shape admits, and
which values a result type reads. They do but for one entry. An attribute of 32-bit floats accepts
32-bit integers, and is admitted as a result of 32-bit floats, which reads no integers; all other
result types read the narrower values as well.
-/

namespace EntityQuery

/-! ## Shapes without null -/

namespace Shape

variable {want got : Shape}

/-- A shape without its null. -/
def plain : Shape → Shape
  | nullable s => s
  | s => s

theorem plain_optional (s : Shape) : s.optional.plain = s.plain := by
  cases s <;> rfl

theorem plain_inSlot (s : Shape) (frames : List Frame) (level slot : Nat) :
    (s.inSlot frames level slot).plain = s.plain := by
  unfold inSlot
  split
  · exact plain_optional s
  · rfl

/-- What a shape accepts does not depend on null, except that it must not be lost. -/
theorem accepts_plain (h : want.accepts got = true) :
    want.plain.accepts got.plain = true ∧ (got.isNullable = true → want.isNullable = true) := by
  cases want <;> cases got
  all_goals first
    | exact ⟨h, fun _ => rfl⟩
    | exact ⟨h, fun hnull => (Bool.false_ne_true hnull).elim⟩
    | cases h

end Shape

/-! ## Plain types -/

namespace BaseType

variable {b : BaseType} {v : Value}

/-- A result type reads the scalars that are accepted for a type it admits, but 32-bit floats are not
read from integers. -/
theorem read?_scalar {s : ScalarType} (hshape : b.shape.accepts (.scalar s) = true)
    (hv : s.accepts v = true) :
    (∃ a, b.read? v = some a) ∨ b = .float32 ∧ s = .float32 ∧ ∃ n, v = .int32 n := by
  fun_cases ScalarType.accepts s v
  case case16 =>
    rw [ScalarType.accepts] at hv
    · cases hv
    all_goals assumption
  -- What is accepted is of one of few kinds, and each type that admits it is tried.
  all_goals
    cases b
    all_goals first
      | exact .inl ⟨_, rfl⟩
      | exact .inr ⟨rfl, rfl, _, rfl⟩
      | cases hshape

/-- It reads the collections that are accepted for a type it admits. -/
theorem read?_array {s : ScalarType} (hshape : b.shape.accepts (.array s) = true)
    (hv : s.acceptsArray v = true) : ∃ a, b.read? v = some a := by
  fun_cases ScalarType.acceptsArray s v
  case case8 =>
    rw [ScalarType.acceptsArray] at hv
    · cases hv
    all_goals assumption
  all_goals
    cases b
    all_goals first
      | exact ⟨_, rfl⟩
      | cases hshape

/-- It reads what a field accepts whose shape it admits, null aside, with the same exception. -/
theorem read?_field {ft : FieldType} (hshape : b.shape.accepts (Shape.ofFieldType ft).plain = true)
    (hv : ft.accepts v = true) (hnull : v.isNull = false) :
    (∃ a, b.read? v = some a) ∨
      b = .float32 ∧ ft.optional = .optionalScalar .float32 ∧ ∃ n, v = .int32 n := by
  unfold FieldType.accepts at hv
  rw [if_neg (Bool.eq_false_iff.mp hnull)] at hv
  cases ft with
  | scalar s | optionalScalar s =>
    obtain hread | ⟨hb, rfl, hint⟩ := read?_scalar hshape hv
    · exact .inl hread
    · exact .inr ⟨hb, rfl, hint⟩
  | array s => exact .inl (read?_array hshape hv)
  | enumeration | optionalEnumeration =>
    left
    -- The value of an enumeration is a string.
    dsimp only at hv
    split at hv
    · cases b
      all_goals first
        | exact ⟨_, rfl⟩
        | cases hshape
    · cases hv

theorem plain_shape (b : BaseType) : b.shape.plain = b.shape := by
  cases b <;> rfl

end BaseType

/-! ## Types of cells -/

namespace CellType

variable {t : CellType} {v : Value}

/-- Types that values are read as, and not records. -/
def isValue : CellType → Bool
  | base _ | any => true
  | anyRecord | record _ | entity _ => false
  | optional t => t.isValue

/-- The plain type under all options. -/
def base? : CellType → Option BaseType
  | base b => some b
  | optional t => t.base?
  | _ => none

theorem plain_shape (ht : t.isValue = true) :
    t.shape.plain = (t.base?.map BaseType.shape).getD .anyValue := by
  induction t with
  | base b => exact b.plain_shape
  | any => rfl
  | optional t ih =>
    show t.shape.optional.plain = _
    rw [Shape.plain_optional]
    exact ih ht
  | anyRecord | record | entity => cases ht

/-- The exception: an integer in a field of 32-bit floats, read as such a float. -/
def Misreads (t : CellType) (ft : FieldType) (v : Value) : Prop :=
  t.base? = some .float32 ∧ ft.optional = .optionalScalar .float32 ∧ ∃ n, v = .int32 n

/-- The failure to read an integer as a 32-bit float. -/
def misread (position : Nat) : QueryError :=
  .undecodable (cellName position) (.unexpected "float32" "int32")

/-- A value that a plain type reads is read under options, too. -/
theorem read_value_ok (hnull : v.isNull = false) (ht : t.isValue = true)
    (h : ∀ b, t.base? = some b → ∃ a, b.read? v = some a) (position : Nat) :
    ∃ a, t.read position (.value v) = .ok a := by
  induction t with
  | base b =>
    obtain ⟨a, ha⟩ := h b rfl
    refine ⟨a, ?_⟩
    cases v with
    | null => cases hnull
    | _ => simp only [read, readBase, BaseType.read, ha]
  | any => exact ⟨v, rfl⟩
  | optional t ih =>
    obtain ⟨a, ha⟩ := ih ht h
    refine ⟨some a, ?_⟩
    have hcell : (Cell.value v).isNull = false := hnull
    simp [read, hcell, ha, bind, Except.bind]
  | anyRecord | record | entity => cases ht

/-- An integer is not read as a 32-bit float, under options or not. -/
theorem read_misread (hbase : t.base? = some .float32) (n : Int32) (position : Nat) :
    t.read position (.value (.int32 n)) = .error (misread position) := by
  induction t with
  | base b =>
    obtain rfl := Option.some.inj hbase
    rfl
  | optional t ih =>
    show (t.read position (.value (.int32 n)) >>= fun a => _) = _
    rw [ih hbase]
    rfl
  | any | anyRecord | record | entity => cases hbase

/-- Null is read under a nullable shape. -/
theorem read_null (ht : t.isValue = true) (hshape : t.shape.isNullable = true) (position : Nat) :
    ∃ a, t.read position (.value .null) = .ok a := by
  cases t with
  | base b => cases b <;> cases hshape
  | any => exact ⟨.null, rfl⟩
  | optional t => exact ⟨none, rfl⟩
  | anyRecord | record | entity => cases ht

/-- What a field accepts is read as any type that admits the shape of the field, null aside, unless it
is misread. -/
theorem read_accepted {ft : FieldType} (ht : t.isValue = true)
    (hshape : t.shape.plain.accepts (Shape.ofFieldType ft).plain = true) (hv : ft.accepts v = true)
    (hnull : v.isNull = false) (position : Nat) :
    t.Misreads ft v ∧ t.read position (.value v) = .error (misread position) ∨
      ¬ t.Misreads ft v ∧ ∃ a, t.read position (.value v) = .ok a := by
  rw [plain_shape ht] at hshape
  by_cases hmisreads : t.Misreads ft v
  · obtain ⟨hbase, -, n, rfl⟩ := id hmisreads
    exact .inl ⟨hmisreads, read_misread hbase n position⟩
  · refine .inr ⟨hmisreads, read_value_ok hnull ht (fun b hb => ?_) position⟩
    rw [hb] at hshape
    obtain hread | ⟨rfl, hfloat, hint⟩ := BaseType.read?_field hshape hv hnull
    · exact hread
    · exact absurd ⟨hb, hfloat, hint⟩ hmisreads

end CellType

end EntityQuery
