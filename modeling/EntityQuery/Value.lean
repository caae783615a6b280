import EntityQuery.Number

/-!
# Values

A value is what an attribute holds, a literal denotes or a result cell carries. Scalars carry their
width; element collections are typed, so that an empty one keeps its element type.
-/

namespace EntityQuery

/-- A 128-bit identifier, most significant byte first. -/
abbrev Uuid := Vector UInt8 16

/-- A runtime value. -/
inductive Value where
  | null
  | bool (b : Bool)
  | int32 (n : Int32)
  | int64 (n : Int64)
  | float32 (x : Float32)
  | float64 (x : Float)
  | string (s : String)
  | bytes (bs : List UInt8)
  /-- Microseconds since the epoch. -/
  | timestamp (t : Int64)
  | uuid (u : Uuid)
  | boolArray (xs : List Bool)
  | int32Array (xs : List Int32)
  | int64Array (xs : List Int64)
  | float64Array (xs : List Float)
  | stringArray (xs : List String)
  | uuidArray (xs : List Uuid)
deriving DecidableEq, Inhabited

namespace Value

/-! ## Kinds of values -/

def isNull : Value → Bool
  | null => true
  | _ => false

/-- The kind of a value as messages name it. -/
def typeName : Value → String
  | null => "null"
  | bool _ => "bool"
  | int32 _ => "int32"
  | int64 _ => "int64"
  | float32 _ => "float32"
  | float64 _ => "float64"
  | string _ => "string"
  | bytes _ => "bytes"
  | timestamp _ => "timestamp"
  | uuid _ => "uuid"
  | boolArray _ => "bool[]"
  | int32Array _ => "int32[]"
  | int64Array _ => "int64[]"
  | float64Array _ => "float64[]"
  | stringArray _ => "string[]"
  | uuidArray _ => "uuid[]"

/-- The elements of a collection, each as a scalar; `none` for a value that is no collection. -/
def elements? : Value → Option (List Value)
  | boolArray xs => some (xs.map bool)
  | int32Array xs => some (xs.map int32)
  | int64Array xs => some (xs.map int64)
  | float64Array xs => some (xs.map float64)
  | stringArray xs => some (xs.map string)
  | uuidArray xs => some (xs.map uuid)
  | _ => none

/-- Whether a value is a collection. Byte strings are scalars. -/
def isArray (v : Value) : Bool :=
  v.elements?.isSome

/-- The number of elements of a collection. -/
def length? (v : Value) : Option Nat :=
  v.elements?.map List.length

/-! ## Readers

Each reader gives the content of the kinds it names, widened where nothing is lost, except that
64-bit integers round when they are read as floats. -/

def bool? : Value → Option Bool
  | bool b => some b
  | _ => none

def int32? : Value → Option Int32
  | int32 n => some n
  | _ => none

/-- 64-bit integers, timestamps and widened 32-bit integers. -/
def int64? : Value → Option Int64
  | int64 n => some n
  | timestamp t => some t
  | int32 n => some n.toInt64
  | _ => none

def float32? : Value → Option Float32
  | float32 x => some x
  | _ => none

/-- Any number as a 64-bit float. -/
def float64? : Value → Option Float
  | float64 x => some x
  | float32 x => some (Number.widen x)
  | int32 n => some (Number.ofInt n.toInt)
  | int64 n => some (Number.ofInt n.toInt)
  | _ => none

def string? : Value → Option String
  | string s => some s
  | _ => none

def bytes? : Value → Option (List UInt8)
  | bytes bs => some bs
  | _ => none

def timestamp? : Value → Option Int64
  | timestamp t => some t
  | _ => none

def uuid? : Value → Option Uuid
  | uuid u => some u
  | _ => none

/-! ## Identity

Two values are identical when they have one kind and one content, floats being compared as numbers:
a NaN is not identical to itself and the two zeros are identical. -/

/-- Whether two values are identical. -/
def identical : Value → Value → Bool
  | null, null => true
  | bool a, bool b => a == b
  | int32 a, int32 b => a == b
  | int64 a, int64 b => a == b
  | float32 a, float32 b => a == b
  | float64 a, float64 b => a == b
  | string a, string b => a == b
  | bytes a, bytes b => a == b
  | timestamp a, timestamp b => a == b
  | uuid a, uuid b => a == b
  | boolArray a, boolArray b => a == b
  | int32Array a, int32Array b => a == b
  | int64Array a, int64Array b => a == b
  | float64Array a, float64Array b => a == b
  | stringArray a, stringArray b => a == b
  | uuidArray a, uuidArray b => a == b
  | _, _ => false

end Value

end EntityQuery
