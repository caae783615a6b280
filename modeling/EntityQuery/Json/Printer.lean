import EntityQuery.Json
import EntityQuery.Text.Hex

/-!
# Writing JSON

Documents are written without blanks. A string is written between double quotes; in it a quote, a
backslash and each control character are escaped.
-/

namespace EntityQuery.Json

/-- A character as it stands in a string. -/
def escape (c : Char) : List Char :=
  if c = '"' then ['\\', '"']
  else if c = '\\' then ['\\', '\\']
  else if c.toNat < 0x20 then '\\' :: 'u' :: Hex.digits 4 c.toNat
  else [c]

/-- A string as it is written. -/
def quote (s : String) : String :=
  "\"" ++ String.ofList (s.toList.flatMap escape) ++ "\""

mutual

/-- A document as it is written. -/
def render : Json → String
  | null => "null"
  | bool true => "true"
  | bool false => "false"
  | int n => toString n
  | number text => text
  | string s => quote s
  | array xs => "[" ++ ",".intercalate (renderArray xs) ++ "]"
  | object members => "\x7b" ++ ",".intercalate (renderObject members) ++ "\x7d"
  | unreadable => "\"\\ud800\""

def renderArray : List Json → List String
  | [] => []
  | x :: xs => x.render :: renderArray xs

def renderObject : List (String × Json) → List String
  | [] => []
  | (name, x) :: members => (quote name ++ ":" ++ x.render) :: renderObject members

end

end EntityQuery.Json
