/-!
# JSON documents

A document keeps the members of an object in order, repeated ones included, and keeps integers of 64
bits apart from all other numbers.
-/

namespace EntityQuery

/-- A JSON document. -/
inductive Json where
  | null
  | bool (b : Bool)
  | int (n : Int)
  /-- A number with a fraction or an exponent, beyond 64 bits, or minus zero, as it is written. -/
  | number (text : String)
  | string (s : String)
  | array (xs : List Json)
  | object (members : List (String × Json))
  /-- A string with half a surrogate pair, or an object with such a name: it may be passed over, but
  has no content that could be read. -/
  | unreadable
deriving Inhabited

namespace Json

/-! ## Measures -/

mutual

/-- How deep documents are nested in each other. -/
def depth : Json → Nat
  | array xs => depthArray xs + 1
  | object members => depthObject members + 1
  | _ => 0

def depthArray : List Json → Nat
  | [] => 0
  | x :: xs => max x.depth (depthArray xs)

def depthObject : List (String × Json) → Nat
  | [] => 0
  | (_, x) :: members => max x.depth (depthObject members)

end

/-! ## Readers -/

def bool? : Json → Option Bool
  | bool b => some b
  | _ => none

def string? : Json → Option String
  | string s => some s
  | _ => none

def array? : Json → Option (List Json)
  | array xs => some xs
  | _ => none

/-- An integer of a range. -/
def intIn? (low high : Int) : Json → Option Int
  | int n => if low ≤ n ∧ n ≤ high then some n else none
  | _ => none

/-- A natural number below a bound. -/
def natBelow? (bound : Nat) (x : Json) : Option Nat :=
  (x.intIn? 0 (bound - 1)).map Int.toNat

/-- An unsigned number of 32 bits. -/
def word32? (x : Json) : Option Nat :=
  x.natBelow? 0x100000000

/-- An unsigned number of 64 bits. -/
def word64? (x : Json) : Option Nat :=
  x.natBelow? 0x10000000000000000

def listOf? (read : Json → Option α) (x : Json) : Option (List α) :=
  x.array?.bind (·.mapM read)

/-- Null as nothing, all else as a value. -/
def optional? (read : Json → Option α) : Json → Option (Option α)
  | null => some none
  | x => (read x).map some

/-! ## Structures

A structure is written as an object with a member for each field, and is read from that or from the
array of all its fields in order. Members of other names are passed over; a field given twice makes
the document unreadable. -/

/-- The members of an object that go by the names, in the order of the names. -/
def members? (names : List String) : Json → Option (List (Option Json))
  | object members =>
    if names.all fun name => (members.filter (·.1 == name)).length ≤ 1 then
      some (names.map fun name => members.lookup name)
    else
      none
  | _ => none

/-- The fields of a structure, in the order of their names. -/
def fields? (names : List String) : Json → Option (List (Option Json))
  | array xs => if xs.length = names.length then some (xs.map some) else none
  | x => x.members? names

/-- An optional field: null, or left out. -/
def optionalField? (read : Json → Option α) : Option Json → Option (Option α)
  | none => some none
  | some x => x.optional? read

/-! ## Alternatives

An alternative is written as its tag, or as an object with the tag as its only member and the content
of the alternative under it. Where an alternative has fields of its own, they are members of its
content, which no array can stand for. -/

/-- The tag and the content of an alternative. -/
def variant? : Json → Option (String × Option Json)
  | string tag => some (tag, none)
  | object [(tag, content)] => some (tag, some content)
  | _ => none

/-- An alternative without content. -/
def tag? (x : Json) : Option String :=
  match x.variant? with
  | some (tag, none) | some (tag, some null) => some tag
  | _ => none

/-- An alternative with content. -/
def tagged (tag : String) (content : Json) : Json :=
  object [(tag, content)]

end Json

end EntityQuery
