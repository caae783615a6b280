import EntityQuery.Json
import EntityQuery.Text.Hex

/-!
# Reading JSON

Each reader takes the characters that are left and gives what it read with the characters after it.
The nesting of a document is bounded by the number of its characters, which serves as fuel.
-/

namespace EntityQuery.Json.Parser

/-! ## Blanks and words -/

def isBlank (c : Char) : Bool :=
  c == ' ' || c == '\n' || c == '\t' || c == '\r'

/-- What is left after blanks. -/
def skipBlanks (cs : List Char) : List Char :=
  cs.dropWhile isBlank

/-- What is left after a given word. -/
def word? (w : String) (cs : List Char) : Option (List Char) :=
  if w.toList.isPrefixOf cs then some (cs.drop w.length) else none

/-! ## Strings -/

/-- Four hexadecimal digits. -/
def codeUnit? : List Char → Option (Nat × List Char)
  | a :: b :: c :: d :: cs => (Hex.ofDigits? [a, b, c, d]).map (·, cs)
  | _ => none

/-- The second unit of a surrogate pair, with its escape. -/
def lowSurrogate? : List Char → Option (Nat × List Char)
  | '\\' :: 'u' :: cs =>
    match codeUnit? cs with
    | some (low, cs) => if 0xDC00 ≤ low ∧ low < 0xE000 then some (low, cs) else none
    | none => none
  | _ => none

/-- The character of a code unit and, for a pair, of the one behind it. Half a pair is none. -/
def character (unit : Nat) (cs : List Char) : Option Char × List Char :=
  if 0xD800 ≤ unit ∧ unit < 0xDC00 then
    match lowSurrogate? cs with
    | some (low, cs) => (some (Char.ofNat (0x10000 + (unit - 0xD800) * 0x400 + (low - 0xDC00))), cs)
    | none => (none, cs)
  else if 0xDC00 ≤ unit ∧ unit < 0xE000 then (none, cs)
  else (some (Char.ofNat unit), cs)

/-- The character of an escape, behind its backslash. -/
def escaped? : List Char → Option (Option Char × List Char)
  | '"' :: cs => some ('"', cs)
  | '\\' :: cs => some ('\\', cs)
  | '/' :: cs => some ('/', cs)
  | 'b' :: cs => some ('\x08', cs)
  | 'f' :: cs => some ('\x0c', cs)
  | 'n' :: cs => some ('\n', cs)
  | 'r' :: cs => some ('\r', cs)
  | 't' :: cs => some ('\t', cs)
  | 'u' :: cs => (codeUnit? cs).map fun (unit, cs) => character unit cs
  | _ => none

/-- A character before a text, if both can be read. -/
def consText (c : Option Char) (text : Option (List Char)) : Option (List Char) :=
  match c, text with
  | some c, some text => some (c :: text)
  | _, _ => none

/-- The rest of a string whose opening quote has been read. -/
def stringBody? : (fuel : Nat) → List Char → Option (Option (List Char) × List Char)
  | 0, _ => none
  | _ + 1, [] => none
  | fuel + 1, c :: cs =>
    if c = '"' then some (some [], cs)
    else if c = '\\' then do
      let (c, cs) ← escaped? cs
      let (body, cs) ← stringBody? fuel cs
      some (consText c body, cs)
    else if c.toNat < 0x20 then none
    else do
      let (body, cs) ← stringBody? fuel cs
      some (consText c body, cs)

/-- A string, and whether it has a text. -/
def string? : List Char → Option (Option String × List Char)
  | '"' :: cs => (stringBody? cs.length cs).map fun (body, cs) => (body.map String.ofList, cs)
  | _ => none

/-! ## Numbers -/

/-- At least one digit. -/
def digits? (cs : List Char) : Option (List Char × List Char) :=
  match cs.span Char.isDigit with
  | ([], _) => none
  | (ds, cs) => some (ds, cs)

/-- The digits before the point, without a superfluous zero in front. -/
def wholePart? : List Char → Option (List Char × List Char)
  | '0' :: c :: cs => if c.isDigit then none else some (['0'], c :: cs)
  | cs => digits? cs

/-- The point and the digits behind it, if there is a point. -/
def fraction? : List Char → Option (List Char × List Char)
  | '.' :: cs => (digits? cs).map fun (ds, cs) => ('.' :: ds, cs)
  | cs => some ([], cs)

def exponentDigits? (marker : Char) : List Char → Option (List Char × List Char)
  | '+' :: cs => (digits? cs).map fun (ds, cs) => (marker :: '+' :: ds, cs)
  | '-' :: cs => (digits? cs).map fun (ds, cs) => (marker :: '-' :: ds, cs)
  | cs => (digits? cs).map fun (ds, cs) => (marker :: ds, cs)

/-- The exponent, if there is one. -/
def exponent? : List Char → Option (List Char × List Char)
  | 'e' :: cs => exponentDigits? 'e' cs
  | 'E' :: cs => exponentDigits? 'E' cs
  | cs => some ([], cs)

def natOfDigits (ds : List Char) : Nat :=
  ds.foldl (fun n c => 10 * n + (c.toNat - '0'.toNat)) 0

/-- The number with these parts: an integer if nothing but digits was written and they fit 64 bits,
signed or unsigned. -/
def numberOf (negative : Bool) (whole fraction exponent : List Char) : Json :=
  let n := natOfDigits whole
  let isWhole := fraction.isEmpty && exponent.isEmpty
  if isWhole && !negative && n < 0x10000000000000000 then .int n
  else if isWhole && negative && 0 < n && n ≤ 0x8000000000000000 then .int (-n)
  else .number (String.ofList ((if negative then ['-'] else []) ++ whole ++ fraction ++ exponent))

def unsigned? (negative : Bool) (cs : List Char) : Option (Json × List Char) := do
  let (whole, cs) ← wholePart? cs
  let (fraction, cs) ← fraction? cs
  let (exponent, cs) ← exponent? cs
  some (numberOf negative whole fraction exponent, cs)

def number? : List Char → Option (Json × List Char)
  | '-' :: cs => unsigned? true cs
  | cs => unsigned? false cs

/-! ## Documents -/

mutual

/-- A document, after blanks. -/
def document? : (fuel : Nat) → List Char → Option (Json × List Char)
  | 0, _ => none
  | fuel + 1, cs =>
    match skipBlanks cs with
    | 'n' :: cs => (word? "ull" cs).map (.null, ·)
    | 't' :: cs => (word? "rue" cs).map (.bool true, ·)
    | 'f' :: cs => (word? "alse" cs).map (.bool false, ·)
    | '"' :: cs => (string? ('"' :: cs)).map fun (s, cs) => (s.elim .unreadable .string, cs)
    | '[' :: cs =>
      match skipBlanks cs with
      | ']' :: cs => some (.array [], cs)
      | cs => (elements? fuel cs).map fun (xs, cs) => (.array xs, cs)
    | '{' :: cs =>
      match skipBlanks cs with
      | '}' :: cs => some (.object [], cs)
      | cs => (members? fuel cs).map fun (members, cs) => (members.elim .unreadable .object, cs)
    | cs => number? cs

/-- The elements of an array that is not empty, up to its closing bracket. -/
def elements? : (fuel : Nat) → List Char → Option (List Json × List Char)
  | 0, _ => none
  | fuel + 1, cs => do
    let (x, cs) ← document? fuel cs
    match skipBlanks cs with
    | ']' :: cs => some ([x], cs)
    | ',' :: cs => do
      let (xs, cs) ← elements? fuel cs
      some (x :: xs, cs)
    | _ => none

/-- The members of an object that is not empty, up to its closing brace, and whether all their names
have a text. -/
def members? : (fuel : Nat) → List Char → Option (Option (List (String × Json)) × List Char)
  | 0, _ => none
  | fuel + 1, cs => do
    let (name, cs) ← string? (skipBlanks cs)
    match skipBlanks cs with
    | ':' :: cs => do
      let (x, cs) ← document? fuel cs
      match skipBlanks cs with
      | '}' :: cs => some (name.map fun name => [(name, x)], cs)
      | ',' :: cs => do
        let (members, cs) ← members? fuel cs
        some (name.bind fun name => members.map ((name, x) :: ·), cs)
      | _ => none
    | _ => none

end

end Parser

/-- The document that a text holds, with nothing but blanks around it. How deep it is nested does not
matter, as what is nested deep may stand where it is passed over. -/
def ofText? (text : String) : Option Json := do
  let cs := text.toList
  let (x, cs) ← Parser.document? (cs.length + 1) cs
  if (Parser.skipBlanks cs).isEmpty then some x else none

/-- How many arrays and objects may stand in each other where a text is read as a whole. -/
def nestingLimit : Nat := 127

/-- The document that a text holds and that is read as a whole. -/
def ofNestedText? (text : String) : Option Json :=
  (ofText? text).filter fun x => x.depth ≤ nestingLimit

end EntityQuery.Json
