import EntityQuery.Plan.Json
import EntityQuery.Proofs.Json.Text
import Mathlib

/-!
# Values that are read back

A value without a NaN and without an infinite float is read back where finite floats are: all else is
written out in full under the name of its kind. Plans are written with the bits of their floats, from
which finite floats are read back.
-/

namespace EntityQuery

namespace Json

/-! ## Arrays and integers -/

/-- What is read back one by one is read back from an array. -/
theorem listOf?_map {α : Type} {read : Json → Option α} {write : α → Json} {as : List α}
    (h : ∀ a ∈ as, read (write a) = some a) : (array (as.map write)).listOf? read = some as := by
  show (as.map write).mapM read = some as
  induction as with
  | nil => rfl
  | cons a as ih =>
    obtain ⟨ha, has⟩ := List.forall_mem_cons.mp h
    rw [List.map_cons, List.mapM_cons, ha, ih has]
    rfl

theorem plain_array_map {α : Type} {write : α → Json} {as : List α}
    (h : ∀ a ∈ as, (write a).Plain) : (array (as.map write)).Plain :=
  plainArray_iff.mpr (List.forall_mem_map.mpr h)

theorem natBelow?_ofNat {n bound : Nat} (h : n < bound) : (ofNat n).natBelow? bound = some n := by
  show (if (0 : Int) ≤ n ∧ (n : Int) ≤ bound - 1 then some (n : Int) else none).map Int.toNat = some n
  rw [if_pos (by omega)]
  rfl

theorem word32?_ofNat {n : Nat} (h : n < 0x100000000) : (ofNat n).word32? = some n :=
  natBelow?_ofNat h

theorem plain_ofNat {n : Nat} (h : n < 0x100000000) : (ofNat n).Plain := by
  show Parser.IsWord n
  rw [Parser.IsWord]
  omega

theorem int32?_ofInt32 (n : Int32) : (ofInt32 n).int32? = some n := by
  show (if Int32.minValue.toInt ≤ n.toInt ∧ n.toInt ≤ Int32.maxValue.toInt then some n.toInt
    else none).map Int32.ofInt = some n
  rw [if_pos ⟨n.minValue_le_toInt, n.toInt_le⟩]
  exact congrArg some n.ofInt_toInt

theorem plain_ofInt32 (n : Int32) : (ofInt32 n).Plain := by
  have hlow := n.le_toInt
  have hhigh := n.toInt_lt
  show Parser.IsWord n.toInt
  rw [Parser.IsWord]
  omega

theorem int64?_ofInt64 (n : Int64) : (ofInt64 n).int64? = some n := by
  show (if Int64.minValue.toInt ≤ n.toInt ∧ n.toInt ≤ Int64.maxValue.toInt then some n.toInt
    else none).map Int64.ofInt = some n
  rw [if_pos ⟨n.minValue_le_toInt, n.toInt_le⟩]
  exact congrArg some n.ofInt_toInt

theorem plain_ofInt64 (n : Int64) : (ofInt64 n).Plain := by
  have hlow := n.le_toInt
  have hhigh := n.toInt_lt
  show Parser.IsWord n.toInt
  rw [Parser.IsWord]
  omega

theorem byte?_ofByte (b : UInt8) : (ofByte b).byte? = some b := by
  show ((ofNat b.toNat).natBelow? 256).map UInt8.ofNat = some b
  rw [natBelow?_ofNat b.toNat_lt]
  exact congrArg some b.ofNat_toNat

theorem plain_ofByte (b : UInt8) : (ofByte b).Plain :=
  plain_ofNat (Nat.lt_trans b.toNat_lt (by decide))

theorem uuid?_ofUuid (u : Uuid) : (ofUuid u).uuid? = some u := by
  have hbytes : (ofUuid u).listOf? byte? = some u.toList := listOf?_map fun b _ => byte?_ofByte b
  rw [uuid?, hbytes]
  exact dif_pos u.size_toArray

theorem plain_ofUuid (u : Uuid) : (ofUuid u).Plain :=
  plain_array_map fun b _ => plain_ofByte b

/-! ## Floats -/

/-- Digits of another number than three are not the word for a NaN. -/
theorem digits_ne_nan {count : Nat} (h : count ≠ 3) (n : Nat) :
    String.ofList (Hex.digits count n) ≠ "nan" := by
  intro heq
  have hlength := congrArg String.length heq
  rw [String.length_ofList, Hex.length_digits] at hlength
  exact h hlength

theorem isNaN_eq_false {x : Float.Model.UnpackedFloat} (h : x.isFinite = true) : x.isNaN = false := by
  cases x with
  | notANumber => cases h
  | _ => rfl

theorem float32?_ofFloat32 {x : Float32} (h : x.isFinite = true) :
    (ofFloat32 x).float32? = some x := by
  have hnan : x.isNaN = false := isNaN_eq_false h
  have hread : Hex.read? 8 (String.ofList (Hex.digits 8 x.toBits.toNat)) = some x.toBits.toNat :=
    Hex.read?_digits x.toBits.toNat_lt
  rw [ofFloat32, hnan, if_neg Bool.false_ne_true, float32?, hread]
  · show some (Float32.ofBits (.ofNat x.toBits.toNat)) = some x
    rw [UInt32.ofNat_toNat, Float32.ofBits_toBits]
  · exact digits_ne_nan (by decide) _

theorem float64?_ofFloat64 {x : Float} (h : x.isFinite = true) :
    (ofFloat64 x).float64? = some x := by
  have hnan : x.isNaN = false := isNaN_eq_false h
  have hread : Hex.read? 16 (String.ofList (Hex.digits 16 x.toBits.toNat)) = some x.toBits.toNat :=
    Hex.read?_digits x.toBits.toNat_lt
  rw [ofFloat64, hnan, if_neg Bool.false_ne_true, float64?, hread]
  · show some (Float.ofBits (.ofNat x.toBits.toNat)) = some x
    rw [UInt64.ofNat_toNat, Float.ofBits_toBits]
  · exact digits_ne_nan (by decide) _

end Json

namespace FloatForm

/-- Finite floats are read as they were written. -/
structure Exact (form : FloatForm) : Prop where
  single : ∀ x : Float32, x.isFinite = true → form.single? (form.single x) = some x
  double : ∀ x : Float, x.isFinite = true → form.double? (form.double x) = some x

/-- Finite floats have a text as JSON. -/
structure Plain (form : FloatForm) : Prop where
  single : ∀ x : Float32, x.isFinite = true → (form.single x).Plain
  double : ∀ x : Float, x.isFinite = true → (form.double x).Plain

theorem finite_exact : finite.Exact where
  single x h := by
    show (if x.isFinite then Json.ofFloat32 x else .null).float32? = some x
    rw [if_pos h]
    exact Json.float32?_ofFloat32 h
  double x h := by
    show (if x.isFinite then Json.ofFloat64 x else .null).float64? = some x
    rw [if_pos h]
    exact Json.float64?_ofFloat64 h

end FloatForm

/-! ## Values -/

namespace Value

/-- A value without a NaN and without an infinite float. -/
def Finite : Value → Prop
  | float32 x => x.isFinite = true
  | float64 x => x.isFinite = true
  | float64Array xs => ∀ x ∈ xs, x.isFinite = true
  | _ => True

section Forms

variable {form : FloatForm} {v : Value}

/-- The name of its kind tells which content a value has. -/
theorem ofJsonIn?_toJsonIn (hform : form.Exact) (hv : v.Finite) :
    ofJsonIn? form (v.toJsonIn form) = some v := by
  cases v with
  | null | bool b | string s => rfl
  | int32 n => exact congrArg (Option.map int32) (Json.int32?_ofInt32 n)
  | int64 n => exact congrArg (Option.map int64) (Json.int64?_ofInt64 n)
  | float32 x => exact congrArg (Option.map float32) (hform.single x hv)
  | float64 x => exact congrArg (Option.map float64) (hform.double x hv)
  | bytes bs => exact congrArg (Option.map bytes) (Json.listOf?_map fun b _ => Json.byte?_ofByte b)
  | timestamp t => exact congrArg (Option.map timestamp) (Json.int64?_ofInt64 t)
  | uuid u => exact congrArg (Option.map uuid) (Json.uuid?_ofUuid u)
  | boolArray xs => exact congrArg (Option.map boolArray) (Json.listOf?_map fun _ _ => rfl)
  | int32Array xs =>
    exact congrArg (Option.map int32Array) (Json.listOf?_map fun n _ => Json.int32?_ofInt32 n)
  | int64Array xs =>
    exact congrArg (Option.map int64Array) (Json.listOf?_map fun n _ => Json.int64?_ofInt64 n)
  | float64Array xs =>
    exact congrArg (Option.map float64Array) (Json.listOf?_map fun x hx => hform.double x (hv x hx))
  | stringArray xs => exact congrArg (Option.map stringArray) (Json.listOf?_map fun _ _ => rfl)
  | uuidArray xs =>
    exact congrArg (Option.map uuidArray) (Json.listOf?_map fun u _ => Json.uuid?_ofUuid u)

/-- The content under the name of a kind is plain, whichever it is. -/
theorem plain_toJsonIn (hform : form.Plain) (hv : v.Finite) : (v.toJsonIn form).Plain := by
  cases v with
  | null => exact trivial
  | bool _ | string _ => exact ⟨trivial, trivial⟩
  | int32 n => exact ⟨Json.plain_ofInt32 n, trivial⟩
  | int64 n | timestamp n => exact ⟨Json.plain_ofInt64 n, trivial⟩
  | float32 x => exact ⟨hform.single x hv, trivial⟩
  | float64 x => exact ⟨hform.double x hv, trivial⟩
  | bytes bs => exact ⟨Json.plain_array_map fun b _ => Json.plain_ofByte b, trivial⟩
  | uuid u => exact ⟨Json.plain_ofUuid u, trivial⟩
  | boolArray _ | stringArray _ => exact ⟨Json.plain_array_map fun _ _ => trivial, trivial⟩
  | int32Array xs => exact ⟨Json.plain_array_map fun n _ => Json.plain_ofInt32 n, trivial⟩
  | int64Array xs => exact ⟨Json.plain_array_map fun n _ => Json.plain_ofInt64 n, trivial⟩
  | float64Array xs => exact ⟨Json.plain_array_map fun x hx => hform.double x (hv x hx), trivial⟩
  | uuidArray xs => exact ⟨Json.plain_array_map fun u _ => Json.plain_ofUuid u, trivial⟩

end Forms

end Value

/-! ## Parameters -/

section Parameters

variable {form : FloatForm} {parameters : List (String × Value)}

theorem Json.parameters?_ofParameters (hform : form.Exact) (h : ∀ p ∈ parameters, p.2.Finite) :
    (Json.ofParameters form parameters).parameters? form = some parameters := by
  refine Json.listOf?_map fun p hp => ?_
  show (Value.ofJsonIn? form (p.2.toJsonIn form)).bind _ = _
  rw [Value.ofJsonIn?_toJsonIn hform (h p hp)]
  rfl

theorem Json.plain_ofParameters (hform : form.Plain) (h : ∀ p ∈ parameters, p.2.Finite) :
    (Json.ofParameters form parameters).Plain :=
  plain_array_map fun p hp => ⟨trivial, Value.plain_toJsonIn hform (h p hp), trivial⟩

end Parameters

end EntityQuery
