import EntityQuery.Proofs.Changes.Typing
import EntityQuery.Proofs.Engine.Calls

/-!
# Sessions

A session is a sequence of requests to an engine on the store in memory, each of which may fail.
Queries leave the tables alone, whatever comes of them. An update or delete is planned against the
catalog before the store is asked to perform it. So what is typed stays typed.
-/

namespace EntityQuery

/-! ## Kept properties -/

/-- Whatever comes of what asks the store, tables with a property have it afterwards. -/
def Store.Keeps {α : Type} (I : Tables → Prop) (x : StateM Tables α) : Prop :=
  ∀ t, I t → I (x.run t).2

namespace Store.Keeps

variable {α β : Type} {I : Tables → Prop}

theorem pure (a : α) : Keeps I (Pure.pure a) :=
  fun _ h => h

theorem bind {x : StateM Tables α} {f : α → StateM Tables β} (hx : Keeps I x)
    (hf : ∀ a, Keeps I (f a)) : Keeps I (x >>= f) := by
  intro t h
  have hfirst : I (x.run t).2 := hx t h
  exact hf (x.run t).1 (x.run t).2 hfirst

/-- What comes after a failure is not done, so it need not keep anything. -/
theorem bind_ok {x : ExceptT QueryError (StateM Tables) α}
    {f : α → ExceptT QueryError (StateM Tables) β} (hx : Keeps I x.run)
    (hf : ∀ a, Keeps I (f a).run) : Keeps I (x >>= f).run := by
  rw [ExceptT.run_bind]
  refine hx.bind fun r => ?_
  cases r with
  | ok a => exact hf a
  | error err => exact pure (Except.error err)

theorem check (r : Except QueryError α) :
    Keeps I (liftM r : ExceptT QueryError (StateM Tables) α).run :=
  pure r

/-- What comes after a check may rely on what was checked. -/
theorem check_bind {r : Except QueryError α} {f : α → ExceptT QueryError (StateM Tables) β}
    (hf : ∀ a, r = .ok a → Keeps I (f a).run) :
    Keeps I ((liftM r : ExceptT QueryError (StateM Tables) α) >>= f).run := by
  cases r with
  | ok a => exact hf a rfl
  | error err => exact pure (Except.error err)

theorem lift {answer : StateM Tables (Except StoreError α)} (h : Keeps I answer) :
    Keeps I (Store.lift answer).run :=
  h.bind fun _ => pure _

theorem fetch (q : Plan) : Keeps I (memory.fetch q) :=
  fun _ h => h

theorem count (q : Plan) : Keeps I (memory.count q) :=
  fun _ h => h

theorem hasRow (q : Plan) : Keeps I (memory.hasRow q) :=
  (fetch _).bind fun _ => pure _

/-- A change keeps what it leaves standing where it is performed. -/
theorem execute {c : Change} (h : ∀ t affected t', c.Performed t affected t' → I t → I t') :
    Keeps I (memory.execute c) := by
  intro t ht
  rcases memory_execute c t with ⟨err, hrun⟩ | ⟨affected, t', hrun, hperformed⟩
  · rw [hrun]
    exact ht
  · rw [hrun]
    exact h t affected t' hperformed ht

end Store.Keeps

/-! ## Queries -/

section Queries

open Store (Keeps)

variable {I : Tables → Prop} {e : Engine} {b : Body} {t : RowType}

theorem Engine.keeps_run (q : Plan) : Keeps I (Engine.run Store.memory t q).run :=
  (Keeps.fetch q).lift.bind_ok fun _ => .check _

theorem keeps_fetchPage (q : Plan) (request : PageRequest) :
    Keeps I (fetchPage Store.memory t q request).run :=
  .check_bind fun _ _ => Engine.keeps_run _

/-- Going to the next page leaves the tables alone. -/
theorem Cursor.keeps_next (c : Cursor t) : Keeps I (c.next Store.memory) := by
  unfold next
  split
  · exact .pure _
  · refine Keeps.bind ?_ fun answer => ?_
    · unfold rows
      split
      · exact .pure _
      · exact keeps_fetchPage _ _
    · split <;> exact .pure _

namespace Engine

theorem keeps_allSorted (sort : List RootOrder) :
    Keeps I (e.allSorted Store.memory t sort b).run :=
  .check_bind fun _ _ => .check_bind fun _ _ => (Keeps.fetch _).lift.bind_ok fun _ =>
    .check_bind fun _ _ => .check _

theorem keeps_one : Keeps I (e.one Store.memory t b).run := by
  refine .check_bind fun q _ => (Keeps.fetch _).lift.bind_ok fun rows => ?_
  match rows with
  | [] => exact .check (.error .noResult)
  | [row] => exact .check _
  | _ :: _ :: _ => exact .check (.error (.notUnique _))

theorem keeps_first : Keeps I (e.first Store.memory t b).run := by
  refine .check_bind fun q _ => (Keeps.fetch _).lift.bind_ok fun rows => ?_
  match rows with
  | [] => exact .pure _
  | row :: _ => exact .check_bind fun _ _ => .pure _

theorem keeps_hasRow : Keeps I (e.hasRow Store.memory b).run :=
  .check_bind fun _ _ => (Keeps.hasRow _).lift

theorem keeps_count : Keeps I (e.count Store.memory b).run :=
  .check_bind fun _ _ => (Keeps.count _).lift

theorem keeps_total (q : Plan) : Keeps I (total Store.memory q).run := by
  unfold total
  split
  · exact .pure _
  · exact (Keeps.count _).lift

theorem keeps_pages (request : PageRequest) : Keeps I (e.pages Store.memory t request b).run :=
  .check_bind fun _ _ => .check_bind fun _ _ => .check_bind fun _ _ => .check_bind fun _ _ =>
    (keeps_total _).bind_ok fun _ => (keeps_fetchPage _ _).bind_ok fun _ => .pure _

end Engine

end Queries

/-! ## Changes -/

section Changes

open Store (Keeps)

variable {I : Tables → Prop} {e : Engine} {b : Body}
  (hI : ∀ c t affected t', Change.Typed e.catalog c → c.Performed t affected t' → I t → I t')
include hI

/-- An update is planned with values of the right types before the store is asked to perform it. -/
theorem Engine.keeps_update : Keeps I (e.update Store.memory b).run := by
  refine .check_bind fun parts hparts => ?_
  split
  · exact .pure _
  · refine Keeps.lift (.execute fun t affected t' => ?_)
    exact hI _ t affected t' (Body.planChange_typed hparts)

theorem Engine.keeps_delete : Keeps I (e.delete Store.memory b).run :=
  .check_bind fun _ _ => Keeps.lift (.execute fun t affected t' => hI _ t affected t' trivial)

/-- Every operation keeps what typed changes leave standing. -/
theorem Operation.keeps_perform (t : RowType) (op : Operation) :
    Keeps I (op.perform Store.memory e t b).run := by
  cases op with
  | all => exact Engine.keeps_allSorted []
  | allSorted sort => exact Engine.keeps_allSorted sort
  | one => exact Engine.keeps_one
  | first => exact Engine.keeps_first
  | hasRow => exact Engine.keeps_hasRow
  | count => exact Engine.keeps_count
  | pages request => exact Engine.keeps_pages request
  | pagesSorted field request => exact Engine.keeps_pages _
  | update => exact Engine.keeps_update hI
  | delete => exact Engine.keeps_delete hI

end Changes

/-! ## Requests -/

/-- What a client can ask for: an operation on a body, the next page behind a cursor, or the rows of a
plan or their number from the store itself. -/
inductive Request where
  | perform (operation : Operation) (type : RowType) (body : Body)
  | next (type : RowType) (cursor : Cursor type)
  | fetch (plan : Plan)
  | count (plan : Plan)

namespace Engine

variable {I : Tables → Prop} {e : Engine} {t : Tables}

/-- The tables after a request, whatever came of it. -/
def serve (e : Engine) (t : Tables) : Request → Tables
  | .perform op type b => ((op.perform Store.memory e type b).run.run t).2
  | .next _ c => ((c.next Store.memory).run t).2
  | .fetch q => ((Store.memory.fetch q).run t).2
  | .count q => ((Store.memory.count q).run t).2

/-- The tables after a session of requests. -/
def serveAll (e : Engine) (t : Tables) (requests : List Request) : Tables :=
  requests.foldl e.serve t

theorem serve_keeps
    (hI : ∀ c t affected t', Change.Typed e.catalog c → c.Performed t affected t' → I t → I t')
    (request : Request) (h : I t) : I (e.serve t request) := by
  cases request with
  | perform op type b => exact op.keeps_perform hI type t h
  | next type c => exact c.keeps_next t h
  | fetch q => exact Store.Keeps.fetch q t h
  | count q => exact Store.Keeps.count q t h

theorem serveAll_keeps
    (hI : ∀ c t affected t', Change.Typed e.catalog c → c.Performed t affected t' → I t → I t')
    (requests : List Request) (h : I t) : I (e.serveAll t requests) := by
  induction requests generalizing t with
  | nil => exact h
  | cons request requests ih => exact ih (serve_keeps hI request h)

/-- Typed tables are typed again after an update or a delete, whether it succeeds or fails, and after
every session; and where all entities have their tables, they have them afterwards. -/
theorem sessions_typed (h : t.Typed e.catalog) :
    (∀ b, ((e.update Store.memory b).run.run t).2.Typed e.catalog ∧
      ((e.delete Store.memory b).run.run t).2.Typed e.catalog) ∧
    ∀ requests, (e.serveAll t requests).Typed e.catalog ∧
      (t.Conforms e.catalog → (e.serveAll t requests).Conforms e.catalog) := by
  have htyped : ∀ c t affected t', Change.Typed e.catalog c → c.Performed t affected t' →
      t.Typed e.catalog → t'.Typed e.catalog :=
    fun _ _ _ _ hc hperformed ht => hperformed.typed hc ht
  have hconforms : ∀ c t affected t', Change.Typed e.catalog c → c.Performed t affected t' →
      t.Conforms e.catalog → t'.Conforms e.catalog :=
    fun _ _ _ _ hc hperformed ht => hperformed.conforms hc ht
  refine ⟨fun b => ⟨?_, ?_⟩, fun requests => ⟨?_, fun h' => ?_⟩⟩
  · exact keeps_update htyped t h
  · exact keeps_delete htyped t h
  · exact serveAll_keeps htyped requests h
  · exact serveAll_keeps hconforms requests h'

end Engine

namespace Sample

/-- Two users get a login, an update of an e-mail address to null is refused, tasks are listed, and the
user without an address is deleted. -/
def session : List Request := [
  .perform .update (.single .any) (ChangeStep.body "User" relogin),
  .perform .update (.single .any) (ChangeStep.body "User" [.assign "email" (.literal .null)]),
  .perform .all (.single .anyRecord) (.empty 1 "Todo"),
  .perform .delete (.single .any)
    (ChangeStep.body "User" [.clause (.isNull (.path ⟨1, "User", .root, ["address_id"]⟩) false)])]

end Sample

namespace Engine

theorem sessions_typed_sample :
    Sample.tables.Typed Sample.catalog ∧ Sample.tables.Conforms Sample.catalog ∧
      (((ofCatalog Sample.catalog).serveAll Sample.tables Sample.session).records "User").map
        (·.get? "login") = ["last", "last", "aaa", ""].map (fun login => some (.string login)) ∧
      ((ofCatalog Sample.catalog).serveAll Sample.tables Sample.session).Typed Sample.catalog ∧
      ((ofCatalog Sample.catalog).serveAll Sample.tables Sample.session).Conforms Sample.catalog := by
  have htyped : Sample.tables.Typed Sample.catalog :=
    (Tables.conforms_iff.mp Sample.tables_conforms).1
  obtain ⟨-, hsession⟩ := sessions_typed (e := ofCatalog Sample.catalog) htyped
  have hlogins : (((ofCatalog Sample.catalog).serveAll Sample.tables Sample.session).records "User").map
      (·.get? "login") = ["last", "last", "aaa", ""].map (fun login => some (.string login)) := by
    decide +kernel
  exact ⟨htyped, Sample.tables_conforms, hlogins, (hsession Sample.session).1,
    (hsession Sample.session).2 Sample.tables_conforms⟩

end Engine

end EntityQuery
