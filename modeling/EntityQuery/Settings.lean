import EntityQuery.Page

/-!
# Settings

Settings bound what a query may ask for.
-/

namespace EntityQuery

structure Settings where
  /-- The page size where a caller asks for none. -/
  defaultPageSize : Nat
  /-- The largest page size that a caller may ask for. -/
  maxPageSize : Nat
  /-- The most rows that a listing may have. -/
  maxResults : Option Nat
  /-- Whether plans are to be traced. -/
  traceQueries : Bool
deriving DecidableEq, Inhabited

namespace Settings

def standard : Settings where
  defaultPageSize := standardPageSize
  maxPageSize := 1000
  maxResults := none
  traceQueries := false

/-- The first page of the default size. -/
def defaultPage (s : Settings) : PageRequest :=
  ⟨0, s.defaultPageSize, []⟩

/-- What is wrong with settings: the default page size must be positive and a size that a caller may
ask for. -/
def fault? (s : Settings) : Option SettingsFault :=
  if s.defaultPageSize = 0 then some .zeroPageSize
  else if s.maxPageSize < s.defaultPageSize then
    some (.pageSizeAboveMaximum s.defaultPageSize s.maxPageSize)
  else none

def validate (s : Settings) : Except QueryError Unit :=
  match s.fault? with
  | some fault => .error (.invalidSettings fault)
  | none => .ok ()

end Settings

end EntityQuery
