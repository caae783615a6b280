import EntityQuery.Text.Hex
import EntityQuery.Text.Invisible

/-!
# Quoted text

A text is shown between double quotes. Quotes, backslashes, line breaks, tabs and the null character
are escaped by a letter, characters without a shape by the hexadecimal number of their code point.
-/

namespace EntityQuery.Quoted

/-- The code point of a character in braces. -/
def byNumber (c : Char) : List Char :=
  let digits := (Hex.digits 6 c.toNat).dropWhile (· == '0')
  ['\\', 'u', '\x7b'] ++ digits ++ ['\x7d']

def escape (c : Char) : List Char :=
  match c with
  | '\x00' => ['\\', '0']
  | '\t' => ['\\', 't']
  | '\r' => ['\\', 'r']
  | '\n' => ['\\', 'n']
  | '\\' => ['\\', '\\']
  | '"' => ['\\', '"']
  | c => if Invisible.holds c then byNumber c else [c]

def encode (s : String) : String :=
  "\"" ++ String.ofList (s.toList.flatMap escape) ++ "\""

end EntityQuery.Quoted
