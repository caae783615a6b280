import EntityQuery.Proofs.Engine.Conduct
import EntityQuery.Proofs.Engine.Listing
import EntityQuery.Proofs.Planning.Changes
import EntityQuery.Proofs.Sample

/-!
# Calls of operations

An operation checks its request and plans its body before it asks the store. Then it fetches once,
counts once or executes once; only a page is counted and then fetched, and is not counted where the
selection aggregates. What a store that fits its plans answers is not refused for its width any
more, so whatever is wrong with the request has been found before the first call.
-/

namespace EntityQuery

/-! ## Operations -/

/-- What an engine can do with a body. -/
inductive Operation where
  | all
  | allSorted (sort : List RootOrder)
  | one
  | first
  | hasRow
  | count
  | pages (request : PageRequest)
  | pagesSorted (field : String) (request : PageRequest)
  | update
  | delete

/-- Whether the selection of a body aggregates. -/
def Body.aggregates (c : Catalog) (b : Body) : Bool :=
  match b.plan c with
  | .ok planned => planned.plan.projection.isAggregate
  | .error _ => false

namespace Operation

/-- What an operation gives where rows are read as a type. -/
abbrev Result (t : RowType) : Operation → Type
  | all | allSorted _ => List t.Carrier
  | one => t.Carrier
  | first => Option t.Carrier
  | hasRow => Bool
  | pages _ | pagesSorted .. => Page t
  | count | update | delete => Nat

/-- Perform an operation with an engine on a store. -/
def perform {m : Type → Type} [Monad m] (store : Store m) (e : Engine) (t : RowType) (b : Body) :
    (op : Operation) → ExceptT QueryError m (op.Result t)
  | all => e.all store t b
  | allSorted sort => e.allSorted store t sort b
  | one => e.one store t b
  | first => e.first store t b
  | hasRow => e.hasRow store b
  | count => e.count store b
  | pages request => e.pages store t request b
  | pagesSorted field request => e.pagesSorted store t field request b
  | update => e.update store b
  | delete => e.delete store b

/-- The kinds of the calls that an operation makes if nothing fails, in their order. -/
def kinds (e : Engine) (b : Body) : Operation → List CallKind
  | all | allSorted _ | one | first | hasRow => [.fetch]
  | count => [.count]
  | pages _ | pagesSorted .. => if b.aggregates e.catalog then [.fetch] else [.count, .fetch]
  | update => if b.assignments.isEmpty then [] else [.execute]
  | delete => [.execute]

end Operation

/-! ## Steps -/

section Steps

variable {σ : Type} {store : Store (StateM σ)}

namespace Conducts

/-- Rows are fetched by one call, as wide as their plan if the store fits. -/
theorem fetch (hfit : store.Fitting) (q : Plan) :
    Conducts [.fetch] (fun rows => ∀ row ∈ rows, row.cells.length = q.projection.width)
      (Store.lift (store.observed.fetch q)) (Store.lift (store.fetch q)) :=
  call (.fetch q) (hfit q)

theorem count (q : Plan) :
    Conducts [.count] (fun _ => True) (Store.lift (store.observed.count q))
      (Store.lift (store.count q)) :=
  call (.count q) fun _ _ _ => trivial

theorem execute (c : Change) :
    Conducts [.execute] (fun _ => True) (Store.lift (store.observed.execute c))
      (Store.lift (store.execute c)) :=
  call (.execute c) fun _ _ _ => trivial

theorem hasRow (hfit : store.Fitting) (q : Plan) :
    Conducts [.fetch] (fun _ => True) (Store.lift (store.observed.hasRow q))
      (Store.lift (store.hasRow q)) := by
  rw [Store.lift_hasRow, Store.lift_hasRow]
  exact (fetch hfit _).bind_nil fun _ _ => .pure

/-- Reading rows that are as wide as their type finds no fault with the request. -/
theorem readRows {t : RowType} {rows : List Row}
    (hwidth : ∀ row ∈ rows, row.cells.length = t.shape.cells.length) :
    Conducts (σ := σ) [] (fun _ => True) (liftM (Engine.readRows t rows))
      (liftM (Engine.readRows t rows)) :=
  check fun _ h => QueryError.isRequest_of_isReading (Engine.readRows_error hwidth h)

theorem readRow {t : RowType} {row : Row} (hwidth : row.cells.length = t.shape.cells.length) :
    Conducts (σ := σ) [] (fun _ => True) (liftM (t.read row)) (liftM (t.read row)) :=
  check fun _ h => QueryError.isRequest_of_isReading (RowType.read_error hwidth h)

end Conducts

end Steps

/-! ## Operations one by one -/

namespace Engine

variable {σ : Type} {store : Store (StateM σ)} {e : Engine} {b : Body} {t : RowType} {q : Plan}

/-- A body is prepared for rows as wide as their type. -/
theorem prepare_width (h : e.prepare t b = .ok q) : q.projection.width = t.shape.cells.length := by
  obtain ⟨planned, hplanned, hcheck, rfl⟩ := prepare_ok h
  rw [← Body.length_shapes hplanned, Shape.length_of_check hcheck]

theorem sorted_projection {entity : String} {sort : List RootOrder} {plan : Plan}
    (h : e.sorted entity sort q = .ok plan) : plan.projection = q.projection := by
  rw [sorted_ok h]

theorem bounded_projection : (e.bounded q).projection = q.projection := by
  unfold bounded
  split <;> rfl

theorem checkCount_error {rows : List Row} {err : QueryError} (h : e.checkCount rows = .error err) :
    ∃ limit, err = .tooManyResults limit := by
  unfold checkCount at h
  split at h
  · cases h
  · next limit _ =>
    split at h
    · exact ⟨limit, (Except.error.inj h).symm⟩
    · cases h

theorem obeys_allSorted (hfit : store.Fitting) (sort : List RootOrder) :
    Obeys [.fetch] (e.allSorted store.observed t sort b) (e.allSorted store t sort b) := by
  refine .check fun q hq => .check fun plan hplan => .of_conducts ?_
  have hwidth : (e.bounded plan).projection.width = t.shape.cells.length := by
    rw [bounded_projection, sorted_projection hplan, prepare_width hq]
  refine (Conducts.fetch hfit _).bind_nil fun rows hrows => ?_
  have hcount : ∀ err, e.checkCount rows = .error err → err.isRequest = false := by
    intro err herr
    obtain ⟨limit, rfl⟩ := checkCount_error herr
    rfl
  refine (Conducts.check hcount).bind_nil fun _ _ => ?_
  exact .readRows fun row hrow => (hrows row hrow).trans hwidth

theorem obeys_one (hfit : store.Fitting) :
    Obeys [.fetch] (e.one store.observed t b) (e.one store t b) := by
  refine .check fun q hq => .of_conducts ?_
  have hwidth : q.projection.width = t.shape.cells.length := prepare_width hq
  refine (Conducts.fetch hfit _).bind_nil fun rows hrows => ?_
  match rows with
  | [] => exact .throw rfl
  | [row] => exact .readRow ((hrows row (by simp)).trans hwidth)
  | _ :: _ :: _ => exact .throw rfl

theorem obeys_first (hfit : store.Fitting) :
    Obeys [.fetch] (e.first store.observed t b) (e.first store t b) := by
  refine .check fun q hq => .of_conducts ?_
  have hwidth : q.projection.width = t.shape.cells.length := prepare_width hq
  refine (Conducts.fetch hfit _).bind_nil fun rows hrows => ?_
  match rows with
  | [] => exact .pure
  | row :: _ =>
    exact (Conducts.readRow ((hrows row (by simp)).trans hwidth)).bind_nil
      fun _ _ => .pure

theorem obeys_hasRow (hfit : store.Fitting) :
    Obeys [.fetch] (e.hasRow store.observed b) (e.hasRow store b) :=
  .check fun _ _ => .of_conducts (.hasRow hfit _)

theorem obeys_count : Obeys [.count] (e.count store.observed b) (e.count store b) :=
  .check fun _ _ => .of_conducts (.count _)

/-- The rows of an aggregate are counted without a call. -/
theorem conducts_total : Conducts (if q.projection.isAggregate then [] else [.count])
    (fun _ => True) (total store.observed q) (total store q) := by
  unfold total
  split
  · exact .pure
  · exact .count _

/-- A page whose offset has been checked is fetched. -/
theorem conducts_fetchPage (hfit : store.Fitting)
    (hwidth : q.projection.width = t.shape.cells.length) {request : PageRequest} {offset : Nat}
    (hoffset : request.offset = .ok offset) :
    Conducts [.fetch] (fun _ => True) (fetchPage store.observed t q request)
      (fetchPage store t q request) := by
  have hwindow : request.window = .ok ⟨request.size, offset⟩ := by
    rw [PageRequest.window, hoffset]
    rfl
  show Conducts ([] ++ [.fetch]) _ _ _
  refine (Conducts.check ?_).bind fun w _ => ?_
  · intro err herr
    rw [hwindow] at herr
    cases herr
  · refine (Conducts.fetch hfit _).bind_nil fun rows hrows => ?_
    exact .readRows fun row hrow => (hrows row hrow).trans hwidth

theorem aggregates_eq {entity : String} {sort : List RootOrder} {plan : Plan}
    (hq : e.prepare t b = .ok q) (hplan : e.sorted entity sort q = .ok plan) :
    b.aggregates e.catalog = plan.projection.isAggregate := by
  obtain ⟨planned, hplanned, -, rfl⟩ := prepare_ok hq
  rw [Body.aggregates, hplanned, sorted_projection hplan]

/-- Everything that can be wrong with a page is checked before its rows are counted. -/
theorem obeys_pages (hfit : store.Fitting) (request : PageRequest) :
    Obeys (if b.aggregates e.catalog then [.fetch] else [.count, .fetch])
      (e.pages store.observed t request b) (e.pages store t request b) := by
  refine .check fun _ _ => .check fun offset hoffset => .check fun q hq => .check fun plan hplan =>
    .of_conducts ?_
  have hwidth : plan.projection.width = t.shape.cells.length := by
    rw [sorted_projection hplan, prepare_width hq]
  have hkinds : (if b.aggregates e.catalog then [.fetch] else [.count, .fetch]) =
      (if plan.projection.isAggregate then [] else [.count]) ++ [CallKind.fetch] := by
    rw [aggregates_eq hq hplan]
    split <;> rfl
  rw [hkinds]
  refine conducts_total.bind fun _ _ => ?_
  exact (conducts_fetchPage hfit hwidth hoffset).bind_nil fun _ _ => .pure

/-- A change is planned with as many assignments as there are. -/
theorem planChange_isEmpty {c : Catalog} {parts : ChangeParts} (h : b.planChange c = .ok parts) :
    parts.assignments.isEmpty = b.assignments.isEmpty := by
  obtain ⟨_, _, _, -, -, -, hassignments, -⟩ := Body.planChange_ok h
  have hlength := (Planner.run_assignments_ok hassignments).1.length_eq
  rw [Bool.eq_iff_iff, List.isEmpty_iff_length_eq_zero, List.isEmpty_iff_length_eq_zero, hlength]

theorem obeys_update : Obeys (if b.assignments.isEmpty then [] else [.execute])
    (e.update store.observed b) (e.update store b) := by
  refine .check fun parts hparts => .of_conducts ?_
  rw [← planChange_isEmpty hparts]
  split
  · exact .pure
  · exact .execute _

theorem obeys_delete : Obeys [.execute] (e.delete store.observed b) (e.delete store b) :=
  .check fun _ _ => .of_conducts (.execute _)

end Engine

/-! ## All operations -/

namespace Operation

variable {σ : Type} {store : Store (StateM σ)}

/-- Every operation obeys towards a store that fits. -/
theorem obeys (hfit : store.Fitting) (e : Engine) (t : RowType) (b : Body) (op : Operation) :
    Obeys (op.kinds e b) (op.perform store.observed e t b) (op.perform store e t b) := by
  cases op with
  | all => exact Engine.obeys_allSorted hfit []
  | allSorted sort => exact Engine.obeys_allSorted hfit sort
  | one => exact Engine.obeys_one hfit
  | first => exact Engine.obeys_first hfit
  | hasRow => exact Engine.obeys_hasRow hfit
  | count => exact Engine.obeys_count
  | pages request => exact Engine.obeys_pages hfit request
  | pagesSorted field request => exact Engine.obeys_pages hfit _
  | update => exact Engine.obeys_update
  | delete => exact Engine.obeys_delete

/-- Whichever calls fail, an operation makes calls of its kinds in order, all of them if it has a
result. After a call that fails it makes no other, and that failure is its error. Where its error is
about the planning of the body or about the page, it has made no call; so the width of rows, which
is checked in planning, is not found wrong after they were fetched. -/
theorem calls_correct (e : Engine) (t : RowType) (b : Body) (op : Operation)
    (inject : Watched.Injection) (s : Watched) :
    ∃ result s' made,
      (op.perform (Watched.failing inject) e t b).run.run s = (result, s') ∧
      (op.perform (Watched.failing inject).observed e t b).run.run (s, []) = (result, s', made) ∧
      made.map (·.call.kind) <+: op.kinds e b ∧
      (∀ a, result = .ok a → made.map (·.call.kind) = op.kinds e b) ∧
      (∀ before x after err, made = before ++ x :: after → x.failure? = some err →
        after = [] ∧ result = .error (.store err)) ∧
      ∀ err, result = .error err → err.isPlanning = true ∨ (∃ fault, err = .invalidPage fault) →
        made = [] := by
  have hobeys := op.obeys (Watched.failing_fitting inject) e t b
  obtain ⟨result, s', made, hrun, hobserved, hkinds, hall, hlast, hrequest⟩ := hobeys.calls s
  refine ⟨result, s', made, hrun, hobserved, hkinds, hall, hlast, fun err herr hearly => ?_⟩
  apply hrequest err herr
  rcases hearly with hplanning | ⟨fault, rfl⟩
  · cases err <;> first | exact hplanning | rfl
  · rfl

theorem calls_correct_sample :
    (∃ s made, ((pages Sample.secondLogin).perform
        (Watched.store [⟨.fetch, 0, .timeout 5⟩]).observed (.ofCatalog Sample.catalog)
        (.single (.optional (.base .string))) Sample.ownerLogins).run.run
          (⟨Sample.tables, []⟩, []) = (.error (.store (.timeout 5)), s, made) ∧
      made.map (·.call.kind) = [.count, .fetch]) ∧
    (∃ s, (all.perform (Watched.store []).observed (.ofCatalog Sample.catalog)
        (.tuple [.any, .any]) Sample.ownerLogins).run.run (⟨Sample.tables, []⟩, []) =
          (.error (.arity 2 1), s, [])) ∧
    ∃ s made, (count.perform (Watched.store []).observed (.ofCatalog Sample.catalog)
        (.single .any) Sample.ownerLogins).run.run (⟨Sample.tables, []⟩, []) = (.ok 3, s, made) ∧
      made.map (·.call.kind) = [.count] := by
  refine ⟨?_, ?_, ?_⟩
  · obtain ⟨result, s, made, -, hrun, -, -, hlast, -⟩ := calls_correct (.ofCatalog Sample.catalog)
      (.single (.optional (.base .string))) Sample.ownerLogins (pages Sample.secondLogin)
      (fun s call => Watched.fault? [⟨.fetch, 0, .timeout 5⟩] s.calls call.kind) ⟨Sample.tables, []⟩
    have hmade : (made.map fun x => (x.call.kind, x.failure?)) =
        [(.count, none), (.fetch, some (.timeout 5))] :=
      (congrArg (fun r => r.2.2.map fun x => (x.call.kind, x.failure?)) hrun).symm.trans
        (by decide +kernel)
    -- Two calls were made, and the second one failed, so its failure is the answer.
    obtain ⟨x, rest, rfl, hx, hrest⟩ := List.map_eq_cons_iff.mp hmade
    obtain ⟨y, rest, rfl, hy, hnil⟩ := List.map_eq_cons_iff.mp hrest
    obtain rfl := List.map_eq_nil_iff.mp hnil
    obtain ⟨hxkind, -⟩ := Prod.mk.inj hx
    obtain ⟨hykind, hfailure⟩ := Prod.mk.inj hy
    obtain ⟨-, rfl⟩ := hlast [x] y [] _ rfl hfailure
    refine ⟨s, [x, y], hrun, ?_⟩
    rw [List.map_cons, List.map_singleton, hxkind, hykind]
  · obtain ⟨result, s, made, -, hrun, -, -, -, hearly⟩ := calls_correct (.ofCatalog Sample.catalog)
      (.tuple [.any, .any]) Sample.ownerLogins all
      (fun s call => Watched.fault? [] s.calls call.kind) ⟨Sample.tables, []⟩
    have hfailure : failure? result = some (.arity 2 1) :=
      (congrArg (fun r => failure? r.1) hrun).symm.trans (by decide +kernel)
    obtain rfl := failure?_eq_some.mp hfailure
    -- The error is about the request, so nothing was asked of the store.
    obtain rfl := hearly _ rfl (.inl rfl)
    exact ⟨s, hrun⟩
  · obtain ⟨result, s, made, -, hrun, -, hall, -, -⟩ := calls_correct (.ofCatalog Sample.catalog)
      (.single .any) Sample.ownerLogins count
      (fun s call => Watched.fault? [] s.calls call.kind) ⟨Sample.tables, []⟩
    have hcount : result.toOption = some 3 :=
      (congrArg (fun r => r.1.toOption) hrun).symm.trans (by decide +kernel)
    obtain rfl := Sample.eq_ok hcount
    exact ⟨s, made, hrun, hall 3 rfl⟩

end Operation

end EntityQuery
