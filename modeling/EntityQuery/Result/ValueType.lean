import EntityQuery.Record
import EntityQuery.Shape

/-!
# Reading values

A caller reads a value as one of a fixed set of types, or as an optional one, or takes it as it is.
-/

namespace EntityQuery

/-! ## Plain types -/

/-- A type that a value can be read as. -/
inductive BaseType where
  | bool
  | int32
  | int64
  | float32
  | float64
  | string
  | bytes
  | uuid
  | boolArray
  | int32Array
  | int64Array
  | float64Array
  | stringArray
deriving DecidableEq, Inhabited

namespace BaseType

/-- What reading gives. -/
abbrev Carrier : BaseType → Type
  | bool => Bool
  | int32 => Int32
  | int64 => Int64
  | float32 => Float32
  | float64 => Float
  | string => String
  | bytes => List UInt8
  | uuid => Uuid
  | boolArray => List Bool
  | int32Array => List Int32
  | int64Array => List Int64
  | float64Array => List Float
  | stringArray => List String

def name : BaseType → String
  | bool => "bool"
  | int32 => "int32"
  | int64 => "int64"
  | float32 => "float32"
  | float64 => "float64"
  | string => "string"
  | bytes => "bytes"
  | uuid => "uuid"
  | boolArray => "bool[]"
  | int32Array => "int32[]"
  | int64Array => "int64[]"
  | float64Array => "float64[]"
  | stringArray => "string[]"

/-- The shape that a selected item must fit. -/
def shape : BaseType → Shape
  | bool => .scalar .bool
  | int32 => .scalar .int32
  | int64 => .scalar .int64
  | float32 => .scalar .float32
  | float64 => .scalar .float64
  | string => .scalar .string
  | bytes => .scalar .bytes
  | uuid => .scalar .uuid
  | boolArray => .array .bool
  | int32Array => .array .int32
  | int64Array => .array .int64
  | float64Array => .array .float64
  | stringArray => .array .string

/-- Read a value. Numbers and integer collections are widened; a timestamp is read as the 64-bit
integer of its microseconds. -/
def read? : (t : BaseType) → Value → Option t.Carrier
  | bool, v => v.bool?
  | int32, v => v.int32?
  | int64, v => v.int64?
  | float32, v => v.float32?
  | float64, v => v.float64?
  | string, v => v.string?
  | bytes, v => v.bytes?
  | uuid, v => v.uuid?
  | boolArray, .boolArray xs => some xs
  | int32Array, .int32Array xs => some xs
  | int64Array, .int64Array xs => some xs
  | int64Array, .int32Array xs => some (xs.map Int32.toInt64)
  | float64Array, .float64Array xs => some xs
  | stringArray, .stringArray xs => some xs
  | _, _ => none

end BaseType

/-- The failure to read a value under a name. -/
def unreadable (field expected : String) (v : Value) : QueryError :=
  .undecodable field (.unexpected expected v.typeName)

/-- Read a value under a name. -/
def BaseType.read (t : BaseType) (v : Value) (field : String) : Except QueryError t.Carrier :=
  match t.read? v with
  | some a => .ok a
  | none => .error (unreadable field t.name v)

/-! ## Values and options -/

/-- A type that a field can be read as. -/
inductive ValueType where
  | base (type : BaseType)
  /-- The value as it is. -/
  | any
  | optional (type : ValueType)
deriving DecidableEq, Inhabited

namespace ValueType

abbrev Carrier : ValueType → Type
  | base t => t.Carrier
  | any => Value
  | optional t => Option t.Carrier

def name : ValueType → String
  | base t => t.name
  | any => "any value"
  | optional t => t.name

/-- Read a value; null is read as nothing where the type is optional. -/
def read? : (t : ValueType) → Value → Option t.Carrier
  | base t, v => t.read? v
  | any, v => some v
  | optional t, v => if v.isNull then some none else (t.read? v).map some

/-- Read a value under a name. -/
def read (t : ValueType) (v : Value) (field : String) : Except QueryError t.Carrier :=
  match t.read? v with
  | some a => .ok a
  | none => .error (unreadable field t.name v)

/-- Read a field of a record; a missing one is read as null. -/
def readField (t : ValueType) (r : Record) (field : String) : Except QueryError t.Carrier :=
  t.read ((r.get? field).getD .null) (r.entity ++ "." ++ field)

/-- What goes wrong in reading a value is that it cannot be read. -/
theorem read_error {t : ValueType} {v : Value} {field : String} {err : QueryError}
    (h : t.read v field = .error err) : err.isReading = true := by
  unfold read at h
  split at h
  · cases h
  · obtain rfl := Except.error.inj h
    rfl

/-! ## Literals -/

/-- The type under all options. -/
def strip : ValueType → ValueType
  | optional t => t.strip
  | t => t

/-- A value as a literal for an attribute of this type: integers and floats are widened to it. -/
def literal (t : ValueType) (v : Value) : Value :=
  match t.strip, v with
  | base .int64, .int32 n => .int64 n.toInt64
  | base .float64, .float32 x => .float64 (Number.widen x)
  | _, v => v

end ValueType

end EntityQuery
