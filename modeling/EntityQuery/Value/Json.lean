import EntityQuery.Json
import EntityQuery.Text.Hex
import EntityQuery.Value

/-!
# Values as JSON

A value is written under the name of its kind. How its floats are written and read is left to a form.
Records and rows have a form in which every float is the hexadecimal digits of its bits, and the NaN a
word of its own. The form of plans, which hold finite numbers, writes all other floats as null, and they
cannot be read back.
-/

namespace EntityQuery

/-! ## Scalars -/

namespace Json

def ofInt32 (n : Int32) : Json := .int n.toInt

def ofInt64 (n : Int64) : Json := .int n.toInt

def ofNat (n : Nat) : Json := .int n

def ofByte (b : UInt8) : Json := .int b.toNat

/-- A 32-bit float by the digits of its bits, for forms that write floats so. -/
def ofFloat32 (x : Float32) : Json :=
  .string (if x.isNaN then "nan" else String.ofList (Hex.digits 8 x.toBits.toNat))

/-- A 64-bit float by the digits of its bits, for forms that write floats so. -/
def ofFloat64 (x : Float) : Json :=
  .string (if x.isNaN then "nan" else String.ofList (Hex.digits 16 x.toBits.toNat))

def ofUuid (u : Uuid) : Json := .array (u.toList.map ofByte)

def int32? (x : Json) : Option Int32 :=
  (x.intIn? Int32.minValue.toInt Int32.maxValue.toInt).map Int32.ofInt

def int64? (x : Json) : Option Int64 :=
  (x.intIn? Int64.minValue.toInt Int64.maxValue.toInt).map Int64.ofInt

def byte? (x : Json) : Option UInt8 :=
  (x.natBelow? 256).map UInt8.ofNat

def float32? : Json → Option Float32
  | .string "nan" => some (Float32.ofBits 0x7fc00000)
  | .string s => (Hex.read? 8 s).map fun n => Float32.ofBits (.ofNat n)
  | _ => none

def float64? : Json → Option Float
  | .string "nan" => some (Float.ofBits 0x7ff8000000000000)
  | .string s => (Hex.read? 16 s).map fun n => Float.ofBits (.ofNat n)
  | _ => none

def uuid? (x : Json) : Option Uuid := do
  let bytes ← x.listOf? byte?
  if h : bytes.toArray.size = 16 then some ⟨bytes.toArray, h⟩ else none

end Json

/-! ## Values -/

/-- How floats are written and read. -/
structure FloatForm where
  single : Float32 → Json
  double : Float → Json
  single? : Json → Option Float32
  double? : Json → Option Float

namespace FloatForm

/-- Every float by its bits. -/
def exact : FloatForm where
  single := .ofFloat32
  double := .ofFloat64
  single? := Json.float32?
  double? := Json.float64?

/-- Finite floats by their bits, all others as null. -/
def finite : FloatForm where
  single x := if x.isFinite then .ofFloat32 x else .null
  double x := if x.isFinite then .ofFloat64 x else .null
  single? := Json.float32?
  double? := Json.float64?

end FloatForm

namespace Value

/-- A value as JSON, its floats in a given form. -/
def toJsonIn (form : FloatForm) : Value → Json
  | null => .string "Null"
  | bool b => .tagged "Bool" (.bool b)
  | int32 n => .tagged "Int32" (.ofInt32 n)
  | int64 n => .tagged "Int64" (.ofInt64 n)
  | float32 x => .tagged "Float32" (form.single x)
  | float64 x => .tagged "Float64" (form.double x)
  | string s => .tagged "String" (.string s)
  | bytes bs => .tagged "Bytes" (.array (bs.map .ofByte))
  | timestamp t => .tagged "Timestamp" (.ofInt64 t)
  | uuid u => .tagged "Uuid" (.ofUuid u)
  | boolArray xs => .tagged "BoolArray" (.array (xs.map .bool))
  | int32Array xs => .tagged "Int32Array" (.array (xs.map .ofInt32))
  | int64Array xs => .tagged "Int64Array" (.array (xs.map .ofInt64))
  | float64Array xs => .tagged "Float64Array" (.array (xs.map form.double))
  | stringArray xs => .tagged "StringArray" (.array (xs.map .string))
  | uuidArray xs => .tagged "UuidArray" (.array (xs.map .ofUuid))

/-- A value as it stands in records and rows. -/
def toJson (v : Value) : Json :=
  v.toJsonIn .exact

/-- The value of a kind with a given content, whose floats have a given form. -/
def ofContentIn? (form : FloatForm) (kind : String) (x : Json) : Option Value :=
  match kind with
  | "Bool" => x.bool?.map bool
  | "Int32" => x.int32?.map int32
  | "Int64" => x.int64?.map int64
  | "Float32" => (form.single? x).map float32
  | "Float64" => (form.double? x).map float64
  | "String" => x.string?.map string
  | "Bytes" => (x.listOf? Json.byte?).map bytes
  | "Timestamp" => x.int64?.map timestamp
  | "Uuid" => x.uuid?.map uuid
  | "BoolArray" => (x.listOf? Json.bool?).map boolArray
  | "Int32Array" => (x.listOf? Json.int32?).map int32Array
  | "Int64Array" => (x.listOf? Json.int64?).map int64Array
  | "Float64Array" => (x.listOf? form.double?).map float64Array
  | "StringArray" => (x.listOf? Json.string?).map stringArray
  | "UuidArray" => (x.listOf? Json.uuid?).map uuidArray
  | _ => none

/-- The value that a document holds, its floats in a given form. -/
def ofJsonIn? (form : FloatForm) (x : Json) : Option Value :=
  match x.variant? with
  | some ("Null", none) | some ("Null", some .null) => some null
  | some (kind, some content) => ofContentIn? form kind content
  | _ => none

/-- A value as it stands in records and rows. -/
def ofJson? (x : Json) : Option Value :=
  ofJsonIn? .exact x

end Value

end EntityQuery
