import EntityQuery.Engine
import EntityQuery.Proofs.Changes.Recording
import EntityQuery.Proofs.Conformance
import EntityQuery.Sample

/-!
# Sample queries

The catalog of the sample schema, tables that conform to it, and the bodies, changes and conditions
that several modules look at: a query in which a nested body adds a join to the body around it, one
that joins an address which its paths lead to as well, one that uses a parameter at two depths, an
update that assigns a field twice, the distinct rows of a join and a page of them, and a condition
with a nested query.
-/

namespace EntityQuery.Sample

theorem schema_faultless : schema.fault? = none := by
  decide +kernel

def catalog : Catalog :=
  ⟨schema, schema_faultless⟩

theorem exists_ok {ε α : Type} {x : Except ε α} (h : x.toBool = true) : ∃ a, x = .ok a := by
  cases x with
  | ok a => exact ⟨a, rfl⟩
  | error e => cases h

/-- An answer with a property that can be decided. -/
theorem exists_ok_and {ε α : Type} {x : Except ε α} {p : α → Bool}
    (h : x.toOption.any p = true) : ∃ a, x = .ok a ∧ p a = true := by
  cases x with
  | ok a => exact ⟨a, rfl, h⟩
  | error e => cases h

theorem eq_ok {ε α : Type} {x : Except ε α} {a : α} (h : x.toOption = some a) : x = .ok a := by
  cases x with
  | ok b => exact congrArg Except.ok (Option.some.inj h)
  | error e => cases h

theorem run_eq_ok {ε α β : Type} {r : Except ε α × β} {a : α} (h : r.1.toOption = some a) :
    r = (.ok a, r.2) :=
  Prod.ext (eq_ok h) rfl

theorem exists_run_ok {ε α β : Type} {r : Except ε α × β} (h : r.1.toBool = true) :
    ∃ a b, r = (.ok a, b) := by
  obtain ⟨answer, b⟩ := r
  obtain ⟨a, rfl⟩ := exists_ok h
  exact ⟨a, b, rfl⟩

/-- Tables with all records but those of items, which lack a field. -/
def tables : Tables :=
  (Tables.ofCatalog catalog).insertAll (userRecords ++ todoRecords ++ addressRecords ++ nodeRecords)

theorem tables_conforms : tables.Conforms catalog :=
  .of_all (by decide +kernel)

-- They are not empty: all users are among the records.
example : (tables.fetch (Plan.all "User")).toOption.map List.length = some userRecords.length := by
  decide +kernel

/-- The users in Berlin who have a task above an importance, with their addresses. -/
def busyInBerlin : Body :=
  Recorder.record "User" fun user => do
    let owners ← Recorder.subquery "Todo" fun todo => do
      Recorder.clause todo
        (.compare (.path (todo.child "importance")) .gt (.parameter "floor" (.int32 4)))
      Recorder.clause todo
        (.compare (.path ((user.child "address").child "city")) .eq (.literal (.string "Berlin")))
      return .path (todo.child "user_id")
    Recorder.clause user (.inSubquery (.path (user.child "id")) owners false)
    Recorder.select user [.path (user.child "email"), .path (user.child "address")]
    Recorder.orderBy user (.path (user.child "login")) .desc

theorem busyInBerlin_planned : ∃ planned, busyInBerlin.plan catalog = .ok planned :=
  exists_ok (by decide +kernel)

/-- The users with an address, with the task they are at and the city they live in. -/
def placed : Body :=
  Recorder.record "User" fun user => do
    let task ← Recorder.join user "current_todo" "Todo" false .left
    let address ← Recorder.join user "address" "Address" false .inner
    Recorder.select user [.path task, .path (task.child "importance"), .path (address.child "city"),
      .path (user.child "address")]

/-- The users at a task above an importance who own a task above it. -/
def ambitious : Body :=
  Recorder.record "User" fun user => do
    let owners ← Recorder.subquery "Todo" fun todo => do
      Recorder.clause todo
        (.compare (.path (todo.child "importance")) .gt (.parameter "floor" (.int32 4)))
      return .path (todo.child "user_id")
    Recorder.clause user (.inSubquery (.path (user.child "id")) owners false)
    Recorder.clause user (.compare (.path ((user.child "current_todo").child "importance")) .gt
      (.parameter "floor" (.int32 4)))

/-- The users with a task and an address are given a login, which is then changed. -/
def relogin : List ChangeStep := [
  .assign "login" (.literal (.string "first")),
  .clause (.inSubquery (.path ⟨1, "User", .root, ["id"]⟩)
    (.subquery (.empty 2 "Todo") (.path ⟨2, "Todo", .root, ["user_id"]⟩)) false),
  .assign "login" (.parameter "login" (.string "last")),
  .clause (.isNull (.path ⟨1, "User", .root, ["address_id"]⟩) true)]

/-- The join of the owners of tasks, kept where there is none. -/
def ownerJoin : Join := ⟨1, 0, "owner", "User", "user_id", "id", .left⟩

/-- The logins of the owners of tasks. -/
def ownerLogins : Body :=
  Recorder.record "Todo" fun todo => do
    let owner ← Recorder.join todo "owner" "User" false .inner
    Recorder.select todo [.path (owner.child "login")]
    Recorder.distinct todo

/-- The second of the logins, the most important task first. -/
def secondLogin : PageRequest := ⟨1, 1, [⟨"importance", .desc⟩]⟩

/-- A row of a body with its shapes, when it is known which of them are nullable and which of its cells
are null. -/
theorem exists_row {b : Body} {nullable null : List Bool}
    (hall : (b.plan catalog).toOption.any (fun planned =>
      decide (planned.shapes.map Shape.isNullable = nullable) &&
        (tables.fetch planned.plan).toOption.any fun rows => rows.any fun row =>
          decide (row.cells.map Cell.isNull = null)) = true) :
    ∃ planned rows row, b.plan catalog = .ok planned ∧ tables.fetch planned.plan = .ok rows ∧
      row ∈ rows ∧ planned.shapes.map Shape.isNullable = nullable ∧
      row.cells.map Cell.isNull = null := by
  cases h : b.plan catalog with
  | error e =>
    rw [h] at hall
    cases hall
  | ok planned =>
    rw [h] at hall
    simp only [Except.toOption, Option.any_some, Bool.and_eq_true, decide_eq_true_eq] at hall
    -- The shapes, and the row with the cells that are asked for.
    obtain ⟨hshapes, hall⟩ := hall
    cases hrows : tables.fetch planned.plan with
    | error e =>
      rw [hrows] at hall
      cases hall
    | ok rows =>
      rw [hrows] at hall
      simp only [Option.any_some, List.any_eq_true, decide_eq_true_eq] at hall
      obtain ⟨row, hrow, hcells⟩ := hall
      exact ⟨planned, rows, row, rfl, hrows, hrow, hshapes, hcells⟩

/-- Users with tasks, one of them above an importance. -/
def diligent : Predicate :=
  .and (.isEmpty (.related ⟨0, 0, "todos", "Todo", "id", "user_id", "id"⟩) true)
    (.inQuery (.column ⟨0, 0, "id"⟩)
      { Plan.all "Todo" with
        filter := some (.compare (.column ⟨0, 0, "importance"⟩) .gt (.parameter "floor"))
        projection := .items [.expr (.column ⟨0, 0, "user_id"⟩)] } false)

end EntityQuery.Sample
