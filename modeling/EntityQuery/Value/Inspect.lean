import EntityQuery.Text.FloatText
import EntityQuery.Text.Quoted
import EntityQuery.Value

/-!
# Values in messages

Where a message has to tell two values apart it shows them in full: the kind and, in parentheses, the
content.
-/

namespace EntityQuery.Value

/-- Floats from a ten-thousandth up to ten to the sixteenth are shown positionally. -/
def floatStyle : FloatStyle where
  firstPlace := -3
  lastPlace := 16
  nan := "NaN"
  infinity := "inf"

/-- Elements between brackets. -/
def inspectList (shown : α → String) (xs : List α) : String :=
  "[" ++ ", ".intercalate (xs.map shown) ++ "]"

def inspectBytes (bs : List UInt8) : String :=
  inspectList (fun b => toString b.toNat) bs

def inspectInt32 (n : Int32) : String := toString n.toInt

def inspectInt64 (n : Int64) : String := toString n.toInt

def inspectBool (b : Bool) : String := if b then "true" else "false"

/-- The kind and the content of a value. -/
def inspect : Value → String
  | null => "Null"
  | bool b => "Bool(" ++ inspectBool b ++ ")"
  | int32 n => "Int32(" ++ inspectInt32 n ++ ")"
  | int64 n => "Int64(" ++ inspectInt64 n ++ ")"
  | float32 x => "Float32(" ++ floatStyle.float32 x ++ ")"
  | float64 x => "Float64(" ++ floatStyle.float64 x ++ ")"
  | string s => "String(" ++ Quoted.encode s ++ ")"
  | bytes bs => "Bytes(" ++ inspectBytes bs ++ ")"
  | timestamp t => "Timestamp(" ++ inspectInt64 t ++ ")"
  | uuid u => "Uuid(" ++ inspectBytes u.toList ++ ")"
  | boolArray xs => "BoolArray(" ++ inspectList inspectBool xs ++ ")"
  | int32Array xs => "Int32Array(" ++ inspectList inspectInt32 xs ++ ")"
  | int64Array xs => "Int64Array(" ++ inspectList inspectInt64 xs ++ ")"
  | float64Array xs => "Float64Array(" ++ inspectList floatStyle.float64 xs ++ ")"
  | stringArray xs => "StringArray(" ++ inspectList Quoted.encode xs ++ ")"
  | uuidArray xs => "UuidArray(" ++ inspectList (inspectBytes ·.toList) xs ++ ")"

end EntityQuery.Value
