import EntityQuery.Record
import EntityQuery.Catalog

/-!
# Tables

The records of a store in memory: a list for each entity, in the order of insertion. An entity
without a table is unknown to the store, even if the catalog has it.
-/

namespace EntityQuery

/-- The table of each entity. -/
structure Tables where
  entries : List (String × List Record)
deriving DecidableEq, Inhabited

namespace Tables

def empty : Tables := ⟨[]⟩

/-- An empty table for every entity of a catalog. -/
def ofCatalog (c : Catalog) : Tables :=
  ⟨c.schema.entities.map fun (name, _) => (name, [])⟩

def table? (t : Tables) (entity : String) : Option (List Record) :=
  t.entries.lookup entity

/-- The table of an entity; a missing one is an error. -/
def table (t : Tables) (entity : String) : Except StoreError (List Record) :=
  match t.table? entity with
  | some records => .ok records
  | none => .error (.unknownEntity entity)

/-- Add a record to the table of an entity, which is made if it is missing. -/
def append (entity : String) (r : Record) :
    List (String × List Record) → List (String × List Record)
  | [] => [(entity, [r])]
  | (name, records) :: rest =>
    if name = entity then (name, records ++ [r]) :: rest
    else (name, records) :: append entity r rest

/-- Add a record to the table of its entity. -/
def insert (t : Tables) (r : Record) : Tables :=
  ⟨append r.entity r t.entries⟩

def insertAll (t : Tables) (records : List Record) : Tables :=
  records.foldl insert t

/-- Replace the table of an entity, if there is one. -/
def put (entity : String) (records : List Record) :
    List (String × List Record) → List (String × List Record)
  | [] => []
  | (name, old) :: rest =>
    if name = entity then (name, records) :: rest else (name, old) :: put entity records rest

/-- The tables with another table for an entity that has one. -/
def setTable (t : Tables) (entity : String) (records : List Record) : Tables :=
  ⟨put entity records t.entries⟩

/-- The records of an entity; none where there is no table. -/
def records (t : Tables) (entity : String) : List Record :=
  (t.table? entity).getD []

/-- Remove every record and keep the tables. -/
def clear (t : Tables) : Tables :=
  ⟨t.entries.map fun (name, _) => (name, [])⟩

end Tables

end EntityQuery
