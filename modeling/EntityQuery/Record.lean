import EntityQuery.Value

/-!
# Records and result rows

A record is one stored row of an entity: named values in a fixed order. A query answers with rows of
cells, each a value or a whole record.
-/

namespace EntityQuery

/-- A row of an entity. The first value under a name is the one that counts. -/
structure Record where
  entity : String
  fields : List (String × Value)
deriving DecidableEq, Inhabited

namespace Record

/-- The value stored under a name. -/
def get? (r : Record) (name : String) : Option Value :=
  r.fields.lookup name

/-- Put a value in place of the first one under a name. -/
def replace (name : String) (v : Value) : List (String × Value) → List (String × Value)
  | [] => [(name, v)]
  | (n, w) :: fields => if n = name then (n, v) :: fields else (n, w) :: replace name v fields

/-- Store a value under a name, in place of the one it had or behind all others. -/
def set (r : Record) (name : String) (v : Value) : Record :=
  { r with fields := replace name v r.fields }

/-- Whether two records have the same names in the same order and identical values. -/
def identical (a b : Record) : Bool :=
  a.entity == b.entity && a.fields.length == b.fields.length &&
    (a.fields.zip b.fields).all fun (x, y) => x.1 == y.1 && x.2.identical y.2

end Record

/-- One cell of a result row. -/
inductive Cell where
  | value (v : Value)
  /-- A whole record; absent where an outer join found none. -/
  | record (r : Option Record)
deriving DecidableEq, Inhabited

namespace Cell

def isNull : Cell → Bool
  | value v => v.isNull
  | record r => r.isNone

/-- The value of a cell; a whole record counts as null. -/
def toValue : Cell → Value
  | value v => v
  | record _ => .null

def identical : Cell → Cell → Bool
  | value a, value b => a.identical b
  | record none, record none => true
  | record (some a), record (some b) => a.identical b
  | _, _ => false

end Cell

/-- One result row: a cell for each selected item. -/
structure Row where
  cells : List Cell
deriving DecidableEq, Inhabited

/-- Whether two rows are identical cell by cell. -/
def Row.identical (a b : Row) : Bool :=
  a.cells.length == b.cells.length && (a.cells.zip b.cells).all fun (x, y) => x.identical y

end EntityQuery
