import EntityQuery.Proofs.Engine.Calls
import EntityQuery.Proofs.Engine.Ordered

/-!
# Bounded listings

A listing with a bound fetches one row more than the bound allows, and fails just if it gets that row.
The largest window of a plan is a 32-bit word, though: a bound of that size or more leaves no room for
the row more, and then a listing is cut off after the largest window, without a failure.
-/

namespace EntityQuery

namespace Engine

variable {e : Engine} {b : Body} {t : RowType} {q plan : Plan} {tables : Tables}
  {sort : List RootOrder} {rows : List Row} {limit : Nat}

/-! ## The rows that are fetched -/

theorem checkCount_eq (hlimit : e.settings.maxResults = some limit) (rows : List Row) :
    e.checkCount rows = if limit < rows.length then .error (.tooManyResults limit) else .ok () := by
  rw [checkCount, hlimit]

/-- Under a bound the first rows are fetched, as many as fit into the window. -/
theorem fetch_bounded (hlimit : e.settings.maxResults = some limit) (hwindow : plan.window = none)
    (hrows : tables.fetch plan = .ok rows) :
    tables.fetch (e.bounded plan) = .ok (rows.take (min (limit + 1) maxWord)) := by
  rw [bounded, hlimit]
  show tables.fetch { plan with window := some ⟨min (limit + 1) maxWord, 0⟩ } = _
  rw [Tables.fetch_window hwindow, hrows]
  rfl

/-- What is fetched is counted and then read. -/
theorem run_allSorted (hq : e.prepare t b = .ok q) (hplan : e.sorted b.entity sort q = .ok plan)
    {cut : List Row} (hcut : tables.fetch (e.bounded plan) = .ok cut) :
    (e.allSorted Store.memory t sort b).run.run tables =
      (e.checkCount cut >>= fun _ => readRows t cut, tables) := by
  rw [allSorted, Store.run_bind_of_ok (Store.run_check_ok.mpr ⟨hq, rfl⟩),
    Store.run_bind_of_ok (Store.run_check_ok.mpr ⟨hplan, rfl⟩),
    Store.run_bind_of_ok (Store.run_fetch_ok.mpr ⟨hcut, rfl⟩)]
  cases hcount : e.checkCount cut with
  | error err => rfl
  | ok u => rfl

/-- Without a bound all rows are read. -/
theorem run_allSorted_unbounded (hq : e.prepare t b = .ok q)
    (hplan : e.sorted b.entity sort q = .ok plan) (hrows : tables.fetch plan = .ok rows) :
    (e.unbounded.allSorted Store.memory t sort b).run.run tables = (readRows t rows, tables) := by
  rw [run_allSorted (e := e.unbounded) hq hplan hrows]
  rfl

/-- Under a bound the rows in the window are read, unless they are too many. -/
theorem run_allSorted_bounded (hlimit : e.settings.maxResults = some limit)
    (hq : e.prepare t b = .ok q) (hplan : e.sorted b.entity sort q = .ok plan)
    (hrows : tables.fetch plan = .ok rows) :
    (e.allSorted Store.memory t sort b).run.run tables =
      (if limit < min (min (limit + 1) maxWord) rows.length then .error (.tooManyResults limit)
        else readRows t (rows.take (min (limit + 1) maxWord)), tables) := by
  have hwindow : plan.window = none := (sorted_window hplan).trans (prepare_window hq)
  rw [run_allSorted hq hplan (fetch_bounded hlimit hwindow hrows), checkCount_eq hlimit,
    List.length_take]
  split <;> rfl

/-- Rows of a prepared plan are never found too many when they are read. -/
theorem readRows_ne_tooManyResults (hq : e.prepare t b = .ok q)
    (hplan : e.sorted b.entity sort q = .ok plan) (hrows : tables.fetch plan = .ok rows) (n : Nat) :
    readRows t (rows.take n) ≠ .error (.tooManyResults limit) := by
  intro herr
  have hwidth : ∀ row ∈ rows.take n, row.cells.length = t.shape.cells.length := by
    intro row hrow
    rw [Plan.length_cells hrows (List.mem_of_mem_take hrow), sorted_projection hplan,
      prepare_width hq]
  cases readRows_error hwidth herr

/-! ## Listings under a bound -/

/-- The engine whose listings may have as many rows as a bound. -/
def boundedBy (e : Engine) (limit : Nat) : Engine where
  catalog := e.catalog
  settings := { e.settings with maxResults := some limit }
  usable := e.usable

/-- A listing whose rows can be fetched fails under a bound if it has more rows than the bound
allows, and otherwise it is what it is without a bound. So it is for every bound below the largest
window, and for every listing that fits into the largest window. A bound that does not leave room
for one row more never makes a listing fail: it is cut off after the largest window. -/
theorem bounded_correct (hlimit : e.settings.maxResults = some limit) (hq : e.prepare t b = .ok q)
    (hplan : e.sorted b.entity sort q = .ok plan) (hrows : tables.fetch plan = .ok rows) :
    (e.unbounded.allSorted Store.memory t sort b).run.run tables = (readRows t rows, tables) ∧
    (limit < maxWord ∨ rows.length ≤ maxWord →
      ((e.allSorted Store.memory t sort b).run.run tables =
          (.error (.tooManyResults limit), tables) ↔ limit < rows.length) ∧
        (rows.length ≤ limit → (e.allSorted Store.memory t sort b).run.run tables =
          (e.unbounded.allSorted Store.memory t sort b).run.run tables)) ∧
    (maxWord ≤ limit → (e.allSorted Store.memory t sort b).run.run tables =
      (readRows t (rows.take maxWord), tables)) := by
  have hunbounded := run_allSorted_unbounded hq hplan hrows
  have hbounded := run_allSorted_bounded hlimit hq hplan hrows
  refine ⟨hunbounded, fun hroom => ⟨?_, fun hfew => ?_⟩, fun hlarge => ?_⟩
  · rw [hbounded, Prod.mk.injEq, and_iff_left rfl]
    -- Rows that are read never give the error for too many of them.
    split
    · next hmany => exact iff_of_true rfl (by omega)
    · next hfew =>
      exact iff_of_false (readRows_ne_tooManyResults hq hplan hrows _) (by omega)
  · rw [hbounded, hunbounded, if_neg (by omega), List.take_of_length_le (by omega)]
  · rw [hbounded, if_neg (by omega), Nat.min_eq_right (by omega)]

/-- There are three rows: more than two, but not more than three. -/
theorem bounded_correct_sample :
    (((Engine.ofCatalog Sample.catalog).boundedBy 2).allSorted Store.memory
        (.single (.optional (.base .string))) Sample.secondLogin.sort
        Sample.ownerLogins).run.run Sample.tables =
      (.error (.tooManyResults 2), Sample.tables) ∧
    ((((Engine.ofCatalog Sample.catalog).boundedBy 3).allSorted Store.memory
        (.single (.optional (.base .string))) Sample.secondLogin.sort
        Sample.ownerLogins).run.run Sample.tables : Except QueryError (List (Option String)) × _) =
      (.ok [some "aaa", some "ccc", none], Sample.tables) := by
  obtain ⟨q, plan, hq, hplan, -, rows, hrows, hread⟩ :=
    run_allSorted_unbounded_ok (Prod.ext ownerLogins_listed rfl)
  have hthree : rows.length = 3 := (mapM_eq_ok.mp hread).length_eq
  obtain ⟨-, hroom, -⟩ :=
    bounded_correct (e := (ofCatalog Sample.catalog).boundedBy 2) rfl hq hplan hrows
  obtain ⟨hall, hroom', -⟩ :=
    bounded_correct (e := (ofCatalog Sample.catalog).boundedBy 3) rfl hq hplan hrows
  constructor
  · exact (hroom (.inl (by decide))).1.mpr (by omega)
  · rw [(hroom' (.inl (by decide))).2 (by omega), hall, hread]

end Engine

/-! ## A listing that is cut off -/

namespace Sample

/-- A catalog of items that are twins of each other if they have one number. -/
def twinned : Catalog where
  schema := {
    version := 1
    entities := [("Item", {
      name := "Item"
      identityField := "id"
      fields := [.new "id" (.scalar .int64)] })]
    relations := [⟨"twins", "Item", "id", "Item", "id", .oneToMany⟩] }
  faultless := by decide +kernel

def twin : Record := ⟨"Item", [("id", .int64 1)]⟩

/-- Items of which each is a twin of every one. -/
def twins (n : Nat) : Tables :=
  ⟨[("Item", List.replicate n twin)]⟩

/-- The numbers of all pairs of twins. -/
def pairs : Body :=
  Recorder.record "Item" fun item => do
    let _ ← Recorder.join item "twins" "Item" true .inner
    Recorder.select item [.path (item.child "id")]

def twinJoin : Join := ⟨1, 0, "twins", "Item", "id", "id", .inner⟩

def pairsPlan : Plan :=
  ⟨"Item", [twinJoin], none, .items [.expr (.column ⟨0, 0, "id"⟩)], false, [], none, []⟩

/-- Listings may have as many rows as the largest window. -/
def spacious : Engine :=
  (Engine.ofCatalog twinned).boundedBy maxWord

theorem pairs_prepared : spacious.prepare (.single (.base .int64)) pairs = .ok pairsPlan := by
  rfl

/-- An item is joined with all of them. -/
theorem twinJoin_extend (n : Nat) : twinJoin.extend (List.replicate n twin) [some twin] =
    List.replicate n [some twin, some twin] := by
  have hmatching : twinJoin.matching (List.replicate n twin) [some twin] =
      List.replicate n twin := by
    refine List.filter_eq_self.mpr fun r hr => ?_
    rw [List.eq_of_mem_replicate hr]
    decide
  rw [Join.extend, hmatching]
  cases n with
  | zero => rfl
  | succ n => exact List.map_replicate

theorem pairs_bound (n : Nat) : (twins n).bind "Item" [twinJoin] =
    .ok (List.replicate (n * n) [some twin, some twin]) := by
  have hjoined : twinJoin.apply (twins n) (List.replicate n [some twin]) =
      .ok (List.replicate (n * n) [some twin, some twin]) := by
    refine (flatMapE_ok (g := fun _ => List.replicate n [some twin, some twin]) ?_).trans ?_
    · intro tuple htuple
      rw [List.eq_of_mem_replicate htuple, if_pos (by decide), twinJoin_extend]
    · rw [List.flatMap_replicate, List.flatten_replicate_replicate]
  show (twins n).joinAll [twinJoin] ((List.replicate n twin).map fun r => [some r]) = _
  rw [List.map_replicate, Tables.joinAll, hjoined]
  rfl

/-- There is a row for each pair. -/
theorem pairs_fetched (n : Nat) :
    (twins n).fetch pairsPlan = .ok (List.replicate (n * n) ⟨[.value (.int64 1)]⟩) := by
  have hrows : (List.replicate (n * n) [some twin, some twin]).mapM
      (fun tuple => pairsPlan.projection.row ⟨twins n, [], .insertion⟩ tuple []) =
        .ok (List.replicate (n * n) ⟨[.value (.int64 1)]⟩) := by
    rw [← List.map_replicate (f := fun _ => (⟨[.value (.int64 1)]⟩ : Row))]
    refine mapM_eq_map fun tuple htuple => ?_
    rw [List.eq_of_mem_replicate htuple]
    rfl
  exact (Plan.rows_ok rfl).mpr ⟨_, _, _, _, pairs_bound n, rfl, sortTuples_nil _ _ _, hrows, rfl⟩

theorem read_pairs (n : Nat) :
    Engine.readRows (.single (.base .int64)) (List.replicate n ⟨[.value (.int64 1)]⟩) =
      .ok (List.replicate n 1) := by
  rw [← List.map_replicate (f := fun _ => (1 : Int64))]
  refine mapM_eq_map fun row hrow => ?_
  rw [List.eq_of_mem_replicate hrow]
  rfl

end Sample

namespace Engine

/-- The bound allows one number less than there are pairs, and the last pair is left out without a
failure. -/
theorem bounded_cut_off :
    Sample.spacious.settings.maxResults = some 4294967295 ∧
    (∃ rows, (Sample.twins 65536).fetch Sample.pairsPlan = .ok rows ∧ rows.length = 4294967296) ∧
    (Sample.spacious.unbounded.allSorted Store.memory (.single (.base .int64)) []
        Sample.pairs).run.run (Sample.twins 65536) =
      (.ok (List.replicate 4294967296 1), Sample.twins 65536) ∧
    (Sample.spacious.allSorted Store.memory (.single (.base .int64)) []
        Sample.pairs).run.run (Sample.twins 65536) =
      (.ok (List.replicate 4294967295 1), Sample.twins 65536) := by
  have hrows := Sample.pairs_fetched 65536
  have hq : Sample.spacious.prepare (.single (.base .int64)) Sample.pairs = .ok Sample.pairsPlan :=
    Sample.pairs_prepared
  refine ⟨rfl, ⟨_, hrows, List.length_replicate⟩, ?_, ?_⟩
  · rw [run_allSorted_unbounded hq sorted_nil hrows, Sample.read_pairs]
  · rw [run_allSorted_bounded rfl hq sorted_nil hrows, List.length_replicate, if_neg (by decide),
      List.take_replicate, Sample.read_pairs]
    rfl

end Engine

end EntityQuery
