import EntityQuery.Json.Parser
import EntityQuery.Settings

/-!
# Settings as JSON

Every field of the settings may be left out and then keeps its standard.
-/

namespace EntityQuery

/-- The fields of a structure, of which any may be left out; in an array only the last ones. -/
def Json.leadingFields? (names : List String) : Json → Option (List (Option Json))
  | .array xs =>
    if xs.length ≤ names.length then
      some (xs.map some ++ List.replicate (names.length - xs.length) none)
    else none
  | x => x.fields? names

/-- A field that keeps a standard where it is left out. -/
def Json.fieldOr? (standard : α) (read : Json → Option α) : Option Json → Option α
  | none => some standard
  | some x => read x

namespace Settings

def ofJson? (x : Json) : Option Settings := do
  match ← x.leadingFields?
    ["default_page_size", "max_page_size", "max_results", "trace_compiled_queries"] with
  | [defaultPageSize, maxPageSize, maxResults, traceQueries] => do
    let defaultPageSize ← Json.fieldOr? standard.defaultPageSize Json.word32? defaultPageSize
    let maxPageSize ← Json.fieldOr? standard.maxPageSize Json.word32? maxPageSize
    let maxResults ← Json.fieldOr? standard.maxResults (Json.optional? Json.word64?) maxResults
    let traceQueries ← Json.fieldOr? standard.traceQueries Json.bool? traceQueries
    some { defaultPageSize, maxPageSize, maxResults, traceQueries }
  | _ => none

/-- The settings that a text holds, valid or not. -/
def ofText? (text : String) : Option Settings :=
  (Json.ofText? text).bind ofJson?

end Settings

end EntityQuery
