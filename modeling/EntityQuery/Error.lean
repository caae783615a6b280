import EntityQuery.Error.Store

/-!
# Failures of a query

What can go wrong between a query body and its results: planning, page requests, the store, and
the mapping of rows. Each failure carries its cause; the wording is in the `message` functions alone.
-/

namespace EntityQuery

/-! ## Causes -/

/-- Why a path cannot be used where it stands. -/
inductive PathFault where
  | unknownAttribute (name : String)
  | unknownSortAttribute
  | unknownRelation
  | notRelation (name : String)
  | outOfScope
  | noOpenScope
  | undeclaredJoin
  | undeclaredParent
  | unboundParent
  | unboundSlot
  | joinOnToOne
  | joinOnToMany
  | toManyHop (relation : String)
  | toManySelected
  | enclosingRecordSelected
  | enclosingColumnOrdered
  | relationAsValue (relation : String)
  | recordAsValue
  | misplacedAggregate
  | aggregateOfNonField
  | aggregateWithoutPath
  | mixedAggregates
  | selectInSubquery
  | recordFromSubquery
  | notSubquery
  | orderByNonPath
  | sortByRelation
  | joinInChange
  | hopInChange
  | relationAssigned
  | collectionAssigned
  | other (text : String)
deriving DecidableEq, Inhabited

def PathFault.message : PathFault → String
  | unknownAttribute name => s!"unknown attribute `{name}`"
  | unknownSortAttribute => "unknown attribute"
  | unknownRelation => "unknown relation"
  | notRelation name => s!"`{name}` is not a relation"
  | outOfScope => "path belongs to a query that is not in scope"
  | noOpenScope => "no query scope is open"
  | undeclaredJoin => "join is not declared"
  | undeclaredParent => "join parent is not declared"
  | unboundParent => "join parent is not bound"
  | unboundSlot => "alias is not bound"
  | joinOnToOne => "relation is to-one; use join"
  | joinOnToMany => "relation is to-many; use join_many"
  | toManyHop relation => s!"`{relation}` is a to-many relation and must be joined explicitly"
  | toManySelected => "a to-many relation is selected through join_many"
  | enclosingRecordSelected => "cannot select an entity of an enclosing query"
  | enclosingColumnOrdered => "cannot order by an attribute of an enclosing query"
  | relationAsValue relation => s!"relation `{relation}` is not a value"
  | recordAsValue => "an entity is not a value"
  | misplacedAggregate => "aggregates are only allowed in selections"
  | aggregateOfNonField => "aggregates apply to stored attributes"
  | aggregateWithoutPath => "aggregate requires an attribute"
  | mixedAggregates => "aggregates cannot be mixed with per-row selections"
  | selectInSubquery =>
    "a subquery selects the expression its body returns; `select` is not allowed"
  | recordFromSubquery => "a subquery must select a single value"
  | notSubquery => "IN requires a subquery"
  | orderByNonPath => "ordering requires an attribute path"
  | sortByRelation => "cannot sort by a relation"
  | joinInChange => "bulk mutations cannot join relations"
  | hopInChange => "bulk mutations cannot navigate relations"
  | relationAssigned => "relations cannot be assigned"
  | collectionAssigned => "element collections cannot be assigned in bulk"
  | other text => text

/-- Why a schema is no catalog. -/
inductive SchemaFault where
  | misnamedEntity (key name : String)
  | missingIdentity (entity field : String)
  | duplicateAttribute (name entity : String)
  | unknownSource (relation entity : String)
  | unknownTarget (relation entity : String)
  | unknownSourceField (entity relation field : String)
  | unknownTargetField (entity relation target field : String)
  | undeclaredIdentity (entity : String)
  | other (text : String)
deriving DecidableEq, Inhabited

def SchemaFault.message : SchemaFault → String
  | misnamedEntity key name => s!"entity registered as `{key}` is named `{name}`"
  | missingIdentity entity field => s!"entity `{entity}` lacks identity field `{field}`"
  | duplicateAttribute name entity => s!"duplicate attribute `{name}` on entity `{entity}`"
  | unknownSource relation entity => s!"relation `{relation}` starts at unknown entity `{entity}`"
  | unknownTarget relation entity => s!"relation `{relation}` targets unknown entity `{entity}`"
  | unknownSourceField entity relation field =>
    s!"relation `{entity}.{relation}` joins on unknown field `{field}`"
  | unknownTargetField entity relation target field =>
    s!"relation `{entity}.{relation}` joins on unknown field `{target}.{field}`"
  | undeclaredIdentity entity => s!"entity {entity} has no identity field"
  | other text => text

/-- Why a page cannot be fetched. -/
inductive PageFault where
  | zeroSize
  | sizeAboveMaximum (size maximum : Nat)
  | offsetOverflow (index size : Nat)
  | other (text : String)
deriving DecidableEq, Inhabited

def PageFault.message : PageFault → String
  | zeroSize => "page size must be positive"
  | sizeAboveMaximum size maximum => s!"page size {size} exceeds the maximum of {maximum}"
  | offsetOverflow index size => s!"offset of page {index} with size {size} overflows"
  | other text => text

/-- Why settings cannot be used. -/
inductive SettingsFault where
  | zeroPageSize
  | pageSizeAboveMaximum (size maximum : Nat)
  | other (text : String)
deriving DecidableEq, Inhabited

def SettingsFault.message : SettingsFault → String
  | zeroPageSize => "default_page_size must be positive"
  | pageSizeAboveMaximum size maximum =>
    s!"default_page_size {size} exceeds max_page_size {maximum}"
  | other text => text

/-- Why a value cannot be read as the requested type. -/
inductive DecodeFault where
  | unexpected (expected found : String)
  | other (text : String)
deriving DecidableEq, Inhabited

def DecodeFault.message : DecodeFault → String
  | unexpected expected found => s!"expected {expected}, found {found}"
  | other text => text

/-! ## Failures -/

/-- A failure of planning, running or reading a query. -/
inductive QueryError where
  /-- An attribute path does not resolve, or resolves to what is not allowed in its place. -/
  | path (entity path : String) (fault : PathFault)
  /-- An operator or a value does not fit the declared type of an attribute. -/
  | mismatch (path expected found : String)
  /-- A selected item cannot produce the requested result type. -/
  | shape (expected found : String)
  /-- The result type has another number of fields than the selection. -/
  | arity (expected found : Nat)
  | unknownEntity (name : String)
  | invalidSchema (fault : SchemaFault)
  /-- A query for exactly one row found none. -/
  | noResult
  /-- A query for exactly one row found more. -/
  | notUnique (count : Nat)
  | invalidPage (fault : PageFault)
  | tooManyResults (limit : Nat)
  /-- A null cell where the result type is not optional. -/
  | unexpectedNull (position : Nat)
  | undecodable (field : String) (fault : DecodeFault)
  | invalidSettings (fault : SettingsFault)
  | store (error : StoreError)
deriving DecidableEq, Inhabited

namespace QueryError

/-- Whether an error is about what a cell or a field holds. -/
def isReading : QueryError → Bool
  | unexpectedNull _ | undecodable .. => true
  | _ => false

def message : QueryError → String
  | path entity place fault =>
    let reason := fault.message
    s!"cannot resolve `{place}` on {entity}: {reason}"
  | mismatch place expected found =>
    s!"type mismatch at `{place}`: expected {expected}, found {found}"
  | shape expected found =>
    s!"projection type mismatch: result type expects {expected}, query selects {found}"
  | arity expected found =>
    s!"projection arity mismatch: result type has {expected} fields, query selects {found}"
  | unknownEntity name => s!"unknown entity: {name}"
  | invalidSchema fault =>
    let reason := fault.message
    s!"invalid schema: {reason}"
  | noResult => "query did not return a result"
  | notUnique count => s!"query did not return a unique result: {count}"
  | invalidPage fault =>
    let reason := fault.message
    s!"invalid page request: {reason}"
  | tooManyResults limit => s!"query returned more than {limit} rows"
  | unexpectedNull position => s!"unexpected null at result position {position}"
  | undecodable field fault =>
    let reason := fault.message
    s!"cannot decode `{field}`: {reason}"
  | invalidSettings fault =>
    let reason := fault.message
    s!"invalid configuration: {reason}"
  | store error => error.message

/-- Whether an error is found while planning, before the store is asked anything. -/
def isPlanning : QueryError → Bool
  | path .. | mismatch .. | shape .. | arity .. | unknownEntity _ => true
  | _ => false

end QueryError

end EntityQuery
