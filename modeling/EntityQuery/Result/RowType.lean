import EntityQuery.Result.ValueType

/-!
# Reading rows

The requested type of a result says which shape the selection must have and how rows are read. A row
is read cell by cell; the position of a cell names it in failures. How the record of an entity is read
is up to the caller.
-/

namespace EntityQuery

/-! ## Entities -/

/-- A type that records of an entity are read as. -/
structure EntityType where
  name : String
  /-- What reading gives. -/
  Carrier : Type
  read : Record → Except QueryError Carrier
  /-- A record is only refused for what its fields hold. -/
  isReading {r : Record} {err : QueryError} : read r = .error err → err.isReading = true

/-- The values of fields. -/
abbrev Fields : List (String × ValueType) → Type
  | [] => Unit
  | (_, t) :: fields => t.Carrier × Fields fields

/-- Read the fields of a record; the first that cannot be read is the error. -/
def Fields.read (r : Record) :
    (fields : List (String × ValueType)) → Except QueryError (Fields fields)
  | [] => .ok ()
  | (name, t) :: fields => do
    let a ← t.readField r name
    let rest ← Fields.read r fields
    .ok (a, rest)

theorem Fields.read_error {r : Record} {fields : List (String × ValueType)} {err : QueryError}
    (h : Fields.read r fields = .error err) : err.isReading = true := by
  induction fields with
  | nil => cases h
  | cons f fields ih =>
    simp only [read, bind, Except.bind] at h
    split at h
    · obtain rfl := Except.error.inj h
      exact ValueType.read_error ‹_›
    · split at h
      · obtain rfl := Except.error.inj h
        exact ih ‹_›
      · cases h

/-- Records of an entity read into fields, in order. -/
def EntityType.ofFields (name : String) (fields : List (String × ValueType)) : EntityType where
  name := name
  Carrier := Fields fields
  read r := Fields.read r fields
  isReading := Fields.read_error

instance : Inhabited EntityType := ⟨.ofFields "" []⟩

/-! ## Cells -/

/-- A type that a cell can be read as. -/
inductive CellType where
  | base (type : BaseType)
  /-- The value as it is, null included. -/
  | any
  /-- A record of any entity. -/
  | anyRecord
  /-- A record of an entity as it is. -/
  | record (entity : String)
  /-- A record of an entity, read as the caller reads it. -/
  | entity (type : EntityType)
  | optional (type : CellType)
deriving Inhabited

namespace CellType

abbrev Carrier : CellType → Type
  | base t => t.Carrier
  | any => Value
  | anyRecord => Record
  | record _ => Record
  | entity e => e.Carrier
  | optional t => Option t.Carrier

def shape : CellType → Shape
  | base t => t.shape
  | any => .nullable .anyValue
  | anyRecord => .anyRecord
  | record name => .record name
  | entity e => .record e.name
  | optional t => t.shape.optional

/-- The name of a cell in failures. -/
def cellName (position : Nat) : String :=
  let n := toString position
  "column " ++ n

/-- The record in a cell. -/
def readRecord (position : Nat) : Cell → Except QueryError Record
  | .record (some r) => .ok r
  | .record none => .error (.unexpectedNull position)
  | .value v => .error (unreadable (cellName position) "an entity" v)

/-- The value in a cell, which must not be null, as a plain type. -/
def readBase (t : BaseType) (position : Nat) : Cell → Except QueryError t.Carrier
  | .value .null | .record none => .error (.unexpectedNull position)
  | .value v => t.read v (cellName position)
  | .record (some r) =>
    .error (.undecodable (cellName position) (.unexpected t.name ("entity " ++ r.entity)))

/-- The value in a cell. -/
def readAny (position : Nat) : Cell → Except QueryError Value
  | .value v => .ok v
  | .record _ => .error (.undecodable (cellName position) (.unexpected "a value" "an entity"))

/-- Read the cell at a position. -/
def read : (t : CellType) → (position : Nat) → Cell → Except QueryError t.Carrier
  | base t, position, cell => readBase t position cell
  | any, position, cell => readAny position cell
  | anyRecord, position, cell => readRecord position cell
  | record _, position, cell => readRecord position cell
  | entity e, position, cell => do
    let r ← readRecord position cell
    e.read r
  | optional t, position, cell =>
    if cell.isNull then .ok none
    else do
      let a ← t.read position cell
      .ok (some a)

end CellType

/-! ## Rows -/

/-- The values of cells. -/
abbrev Cells : List CellType → Type
  | [] => Unit
  | t :: types => t.Carrier × Cells types

/-- Read cells from a position on; the first that cannot be read is the error. -/
def Cells.read :
    (types : List CellType) → (position : Nat) → List Cell → Except QueryError (Cells types)
  | [], _, _ => .ok ()
  | _ :: _, position, [] => .error (.unexpectedNull position)
  | t :: types, position, cell :: cells => do
    let a ← t.read position cell
    let rest ← Cells.read types (position + 1) cells
    .ok (a, rest)

/-- A type that a row can be read as. -/
inductive RowType where
  /-- The only cell of the row. -/
  | single (type : CellType)
  /-- All cells of the row. -/
  | tuple (types : List CellType)
deriving Inhabited

namespace RowType

abbrev Carrier : RowType → Type
  | single t => t.Carrier
  | tuple types => Cells types

def shape : RowType → Shape
  | single t => t.shape
  | tuple types => .tuple (types.map CellType.shape)

/-- Read a row, which must have as many cells as the type. -/
def read : (t : RowType) → Row → Except QueryError t.Carrier
  | single t, row =>
    match row.cells with
    | [cell] => t.read 0 cell
    | cells => .error (.arity 1 cells.length)
  | tuple types, row =>
    if row.cells.length = types.length then Cells.read types 0 row.cells
    else .error (.arity types.length row.cells.length)

end RowType

end EntityQuery
