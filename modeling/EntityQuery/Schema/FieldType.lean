import EntityQuery.Value

/-!
# Types of attributes

The type of a stored field says which values it may hold, whether it may be null, and which
comparisons make sense on it.
-/

namespace EntityQuery

/-! ## Scalar types -/

inductive ScalarType where
  | bool
  | int32
  | int64
  | float32
  | float64
  | string
  | bytes
  | timestamp
  | uuid
deriving DecidableEq, Inhabited

namespace ScalarType

def name : ScalarType → String
  | bool => "bool"
  | int32 => "int32"
  | int64 => "int64"
  | float32 => "float32"
  | float64 => "float64"
  | string => "string"
  | bytes => "bytes"
  | timestamp => "timestamp"
  | uuid => "uuid"

def isNumeric : ScalarType → Bool
  | int32 | int64 | float32 | float64 => true
  | _ => false

/-- Whether ordering comparisons and orderings apply: to numbers, strings and timestamps. -/
def isOrderable : ScalarType → Bool
  | string | timestamp => true
  | s => s.isNumeric

/-- Whether a value can be stored in, or compared with, an attribute of this type. Narrower numbers
are accepted where no range is lost, and 64-bit integers as timestamps. -/
def accepts : ScalarType → Value → Bool
  | bool, .bool _ => true
  | int32, .int32 _ => true
  | int64, .int32 _ | int64, .int64 _ => true
  | float32, .float32 _ | float32, .int32 _ => true
  | float64, .float32 _ | float64, .float64 _ | float64, .int32 _ | float64, .int64 _ => true
  | string, .string _ => true
  | bytes, .bytes _ => true
  | timestamp, .timestamp _ | timestamp, .int64 _ => true
  | uuid, .uuid _ => true
  | _, _ => false

/-- Whether a value is a collection with elements of this type. -/
def acceptsArray : ScalarType → Value → Bool
  | bool, .boolArray _ => true
  | int32, .int32Array _ => true
  | int64, .int64Array _ | int64, .int32Array _ => true
  | float64, .float64Array _ => true
  | string, .stringArray _ => true
  | uuid, .uuidArray _ => true
  | _, _ => false

/-- Whether two attributes of these types can be compared: equal types, or two numbers. -/
def comparableWith (a b : ScalarType) : Bool :=
  a == b || (a.isNumeric && b.isNumeric)

end ScalarType

/-! ## Field types -/

inductive FieldType where
  | scalar (type : ScalarType)
  | optionalScalar (type : ScalarType)
  /-- A collection of elements. -/
  | array (element : ScalarType)
  /-- One of a list of variants, stored as a string. -/
  | enumeration (name : String) (variants : List String)
  | optionalEnumeration (name : String) (variants : List String)
deriving DecidableEq, Inhabited

namespace FieldType

/-- The nullable form of a type; collections have none. -/
def optional : FieldType → FieldType
  | scalar s => optionalScalar s
  | enumeration name variants => optionalEnumeration name variants
  | t => t

def isNullable : FieldType → Bool
  | optionalScalar _ | optionalEnumeration .. => true
  | _ => false

def isArray : FieldType → Bool
  | array _ => true
  | _ => false

/-- Whether LIKE applies. -/
def isText : FieldType → Bool
  | scalar s | optionalScalar s => s == .string
  | enumeration .. | optionalEnumeration .. => true
  | array _ => false

/-- Whether ordering comparisons and orderings apply. -/
def isOrderable : FieldType → Bool
  | scalar s | optionalScalar s => s.isOrderable
  | _ => false

/-- The scalar type of a field, or of the elements of a collection. -/
def scalar? : FieldType → Option ScalarType
  | scalar s | optionalScalar s | array s => some s
  | _ => none

def variants? : FieldType → Option (List String)
  | enumeration _ variants | optionalEnumeration _ variants => some variants
  | _ => none

/-- Whether a field of this type may hold a value. -/
def accepts (t : FieldType) (v : Value) : Bool :=
  if v.isNull then t.isNullable
  else match t with
    | scalar s | optionalScalar s => s.accepts v
    | array s => s.acceptsArray v
    | enumeration _ variants | optionalEnumeration _ variants =>
      match v with
      | .string text => variants.contains text
      | _ => false

/-- Whether a value may be an element of a collection of this type. -/
def acceptsElement : FieldType → Value → Bool
  | array s, v => s.accepts v
  | _, _ => false

/-- Whether two attributes of these types can be compared. Enumerations compare with each other and
with strings, collections with nothing that has a scalar type. -/
def comparableWith (a b : FieldType) : Bool :=
  match a.scalar?, b.scalar? with
  | some s, some t => !a.isArray && !b.isArray && s.comparableWith t
  | none, none => true
  | some s, none | none, some s => s == .string

/-- The type as messages name it. -/
def describe : FieldType → String
  | scalar s => s.name
  | optionalScalar s => s.name ++ "?"
  | array s => s.name ++ "[]"
  | enumeration name _ => "enum " ++ name
  | optionalEnumeration name _ => "enum " ++ name ++ "?"

end FieldType

end EntityQuery
