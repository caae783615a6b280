import EntityQuery.Error
import EntityQuery.Schema.FieldType

/-!
# Shapes

A shape is the static type of a selected item or of a requested result. The two are compared before
a query runs.
-/

namespace EntityQuery

inductive Shape where
  /-- A whole record of an entity. -/
  | record (entity : String)
  | anyRecord
  | scalar (type : ScalarType)
  | enumeration (name : String)
  /-- A collection of elements. -/
  | array (element : ScalarType)
  /-- A value of unknown type. -/
  | anyValue
  | nullable (shape : Shape)
  | tuple (shapes : List Shape)
deriving Inhabited

/-- Whether a value of one type can be read as one of another: unchanged, or widened. -/
def ScalarType.assignableTo : ScalarType → ScalarType → Bool
  | int32, int64 => true
  | float32, float64 => true
  | timestamp, int64 => true
  | a, b => a == b

namespace Shape

/-- The nullable form of a shape. -/
def optional : Shape → Shape
  | nullable s => nullable s
  | s => nullable s

def isNullable : Shape → Bool
  | nullable _ => true
  | _ => false

/-- Whether a requested shape can hold a selected one. -/
def accepts : (requested selected : Shape) → Bool
  | nullable want, nullable got => accepts want got
  | nullable want, got => accepts want got
  | _, nullable _ => false
  | anyRecord, record _ => true
  | record a, record b => a == b
  | anyValue, scalar _ | anyValue, enumeration _ | anyValue, array _ | anyValue, anyValue => true
  | scalar _, anyValue | enumeration _, anyValue | array _, anyValue => true
  | scalar want, scalar got => got.assignableTo want
  | scalar s, enumeration _ => s == .string
  | enumeration a, enumeration b => a == b
  | array want, array got => got.assignableTo want
  | _, _ => false

mutual

/-- The shape as messages name it. -/
def describe : Shape → String
  | record entity => "entity " ++ entity
  | anyRecord => "any entity"
  | scalar s => s.name
  | enumeration name => "enum " ++ name
  | array s => s.name ++ "[]"
  | anyValue => "any value"
  | nullable s => s.describe ++ "?"
  | tuple shapes => "(" ++ ", ".intercalate (describeAll shapes) ++ ")"

def describeAll : List Shape → List String
  | [] => []
  | s :: shapes => s.describe :: describeAll shapes

end

/-- Check shapes one by one; the first that does not fit is the error. -/
def checkEach : (requested selected : List Shape) → Except QueryError Unit
  | want :: requested, got :: selected =>
    if want.accepts got then checkEach requested selected
    else .error (.shape want.describe got.describe)
  | _, _ => .ok ()

/-- The shapes of the cells that a requested shape stands for. -/
def cells : Shape → List Shape
  | tuple shapes => shapes
  | s => [s]

/-- Check that a requested shape can hold the selected ones. -/
def check (requested : Shape) (selected : List Shape) : Except QueryError Unit :=
  if requested.cells.length = selected.length then checkEach requested.cells selected
  else .error (.arity requested.cells.length selected.length)

/-! ## Shapes of what is selected -/

def ofFieldType : FieldType → Shape
  | .scalar s => scalar s
  | .optionalScalar s => nullable (scalar s)
  | .array s => array s
  | .enumeration name _ => enumeration name
  | .optionalEnumeration name _ => nullable (enumeration name)

def ofValue : Value → Shape
  | .null => anyValue
  | .bool _ => scalar .bool
  | .int32 _ => scalar .int32
  | .int64 _ => scalar .int64
  | .float32 _ => scalar .float32
  | .float64 _ => scalar .float64
  | .string _ => scalar .string
  | .bytes _ => scalar .bytes
  | .timestamp _ => scalar .timestamp
  | .uuid _ => scalar .uuid
  | .boolArray _ => array .bool
  | .int32Array _ => array .int32
  | .int64Array _ => array .int64
  | .float64Array _ => array .float64
  | .stringArray _ => array .string
  | .uuidArray _ => array .uuid

end Shape

end EntityQuery
