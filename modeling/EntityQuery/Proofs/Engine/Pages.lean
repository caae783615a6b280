import EntityQuery.Proofs.Engine.Listing
import EntityQuery.Proofs.Sample
import Mathlib.Algebra.Order.Floor.Div

/-!
# Pages of a listing

As long as the tables stay the same, pages are consecutive parts of one listing. A cursor that goes
from page to page gives each part once and then nothing more.
-/

namespace EntityQuery

/-- The page of an index in a listing; behind the last row there is none. -/
def pageAt? (xs : List α) (size index : Nat) : Option (List α) :=
  if index * size < xs.length then some ((xs.drop (index * size)).take size) else none

/-! ## A cursor over a listing -/

namespace Cursor

variable {t : RowType} {tables : Tables} {xs : List t.Carrier} {size k : Nat} {c : Cursor t}

/-- What the next calls give, and the cursor behind them. -/
def nexts {m : Type → Type} [Monad m] (store : Store m) :
    Nat → Cursor t → m (List (Option (Except QueryError (List t.Carrier))) × Cursor t)
  | 0, c => return ([], c)
  | n + 1, c => do
    let (answer, c) ← c.next store
    let (answers, c) ← nexts store n c
    return (answer :: answers, c)

/-- A cursor stands before the page of an index in a listing. Either the page can still be had, being
there or to be fetched, or the listing has ended. -/
inductive StandsAt (tables : Tables) (xs : List t.Carrier) (size : Nat) : Nat → Cursor t → Prop
  | before {k : Nat} {q : Plan} {sort : List RootOrder} {pending : Option (List t.Carrier)} :
      q.Lists tables t xs → k * size ≤ maxWord →
      (∀ rows, pending = some rows → rows = (xs.drop (k * size)).take size) →
      StandsAt tables xs size k ⟨q, ⟨k, size, sort⟩, pending, false⟩
  | ended {k : Nat} {c : Cursor t} : c.done = true → xs.length ≤ k * size →
      StandsAt tables xs size k c

theorem run_next_done (h : c.done = true) :
    (c.next Store.memory).run tables = ((none, c), tables) := by
  unfold next
  rw [if_pos h]
  rfl

theorem run_next_nil (hdone : c.done = false)
    (h : (c.rows Store.memory).run.run tables = (.ok [], tables)) :
    (c.next Store.memory).run tables =
      ((none, { c with pending := none, done := true }), tables) := by
  unfold next
  rw [if_neg (by rw [hdone]; exact Bool.false_ne_true), StateT.run_bind, h]
  rfl

theorem run_next_cons (hdone : c.done = false) {x : t.Carrier} {rows : List t.Carrier}
    (h : (c.rows Store.memory).run.run tables = (.ok (x :: rows), tables)) :
    (c.next Store.memory).run tables =
      ((some (.ok (x :: rows)), c.advance (x :: rows)), tables) := by
  unfold next
  rw [if_neg (by rw [hdone]; exact Bool.false_ne_true), StateT.run_bind, h]
  rfl

/-- The rows of the page to come, whether they are there or have to be fetched. -/
theorem run_rows (sort : List RootOrder) {q : Plan} {pending : Option (List t.Carrier)}
    (hlists : q.Lists tables t xs) (hoffset : k * size ≤ maxWord)
    (hpending : ∀ rows, pending = some rows → rows = (xs.drop (k * size)).take size)
    (done : Bool) :
    ((⟨q, ⟨k, size, sort⟩, pending, done⟩ : Cursor t).rows Store.memory).run.run tables =
      (.ok ((xs.drop (k * size)).take size), tables) := by
  cases pending with
  | none =>
    have hoffset : (⟨k, size, sort⟩ : PageRequest).index * size ≤ maxWord := hoffset
    exact hlists.run_fetchPage hoffset
  | some rows =>
    rw [← hpending rows rfl]
    rfl

/-- One call gives the page and stands before the one after it. -/
theorem StandsAt.run_next (hsize : 0 < size) (hlength : xs.length ≤ maxWord)
    (h : StandsAt tables xs size k c) :
    ∃ c', (c.next Store.memory).run tables = (((pageAt? xs size k).map .ok, c'), tables) ∧
      StandsAt tables xs size (k + 1) c' := by
  have hsucc : (k + 1) * size = k * size + size := Nat.succ_mul k size
  cases h with
  | ended hdone hend =>
    have hnone : pageAt? xs size k = none := if_neg (by omega)
    refine ⟨c, ?_, .ended hdone (by omega)⟩
    rw [hnone]
    exact run_next_done hdone
  | @before q sort pending hlists hoffset hpending =>
    have hrows := run_rows sort hlists hoffset hpending false
    by_cases hlt : k * size < xs.length
    · have hsome : pageAt? xs size k = some ((xs.drop (k * size)).take size) := if_pos hlt
      have hcount : ((xs.drop (k * size)).take size).length = min size (xs.length - k * size) := by
        rw [List.length_take, List.length_drop]
      rw [hsome]
      generalize (xs.drop (k * size)).take size = page at hrows hcount
      cases page with
      | nil =>
        rw [List.length_nil] at hcount
        omega
      | cons x rows =>
        refine ⟨_, run_next_cons rfl hrows, ?_⟩
        have hindex : k ≤ k * size := Nat.le_mul_of_pos_right k hsize
        have hmax : k ≠ maxWord := by omega
        -- Only a short page, or an index that is the last word, ends the cursor at once.
        by_cases hshort : (x :: rows).length < size
        · refine .ended ?_ (by omega)
          simp only [advance, hshort, decide_true, Bool.true_or]
        · have hadvance : (⟨q, ⟨k, size, sort⟩, pending, false⟩ : Cursor t).advance (x :: rows) =
              ⟨q, ⟨k + 1, size, sort⟩, none, false⟩ := by
            simp only [advance, hshort, hmax, decide_false, Bool.or_self, if_false]
          rw [hadvance]
          -- A page that is full ends within the listing, so the next offset is a word.
          exact .before hlists (by omega) (fun rows h => by cases h)
    · have hnone : pageAt? xs size k = none := if_neg hlt
      have hnil : (xs.drop (k * size)).take size = [] := by
        rw [List.drop_eq_nil_of_le (by omega), List.take_nil]
      rw [hnil] at hrows
      refine ⟨⟨q, ⟨k, size, sort⟩, none, true⟩, ?_, .ended rfl (by omega)⟩
      rw [hnone]
      exact run_next_nil rfl hrows

/-- The calls give the pages from the one before which the cursor stands, and `none` behind the
last. -/
theorem StandsAt.run_nexts (hsize : 0 < size) (hlength : xs.length ≤ maxWord)
    (h : StandsAt tables xs size k c) (n : Nat) :
    ∃ c', (c.nexts Store.memory n).run tables =
      (((List.range n).map fun j => (pageAt? xs size (k + j)).map .ok, c'), tables) := by
  induction n generalizing k c with
  | zero => exact ⟨c, rfl⟩
  | succ n ih =>
    obtain ⟨c₁, hnext, h₁⟩ := h.run_next hsize hlength
    obtain ⟨c', hnexts⟩ := ih h₁
    -- The first of the calls gives the page ahead, the others go on behind it.
    have hrange : (List.range (n + 1)).map (fun j => (pageAt? xs size (k + j)).map Except.ok) =
        ((pageAt? xs size k).map .ok : Option (Except QueryError _)) ::
          (List.range n).map fun j => (pageAt? xs size (k + 1 + j)).map Except.ok := by
      rw [List.range_succ_eq_map, List.map_cons, List.map_map, Nat.add_zero]
      refine congrArg _ (List.map_congr_left fun j _ => ?_)
      rw [Function.comp_apply, Nat.succ_eq_add_one, Nat.add_right_comm, Nat.add_assoc]
    refine ⟨c', ?_⟩
    rw [hrange, nexts, StateT.run_bind, hnext]
    show ((c₁.nexts Store.memory n >>= _ : StateM Tables _).run tables : _) = _
    rw [StateT.run_bind, hnexts]
    rfl

/-- A visitor that never stops has seen the rest of the listing in the end. -/
theorem StandsAt.run_visit (hsize : 0 < size) (hlength : xs.length ≤ maxWord) {steps : Nat}
    (h : StandsAt tables xs size k c) (hsteps : xs.length ≤ (k + steps) * size)
    (seen : List t.Carrier) :
    (c.visit Store.memory (fun seen rows => (seen ++ rows, false)) steps seen).run tables =
      ((seen ++ xs.drop (k * size), .ok ()), tables) := by
  induction steps generalizing k c seen with
  | zero =>
    rw [Nat.add_zero] at hsteps
    rw [visit, List.drop_eq_nil_of_le hsteps, List.append_nil]
    rfl
  | succ steps ih =>
    obtain ⟨c₁, hnext, h₁⟩ := h.run_next hsize hlength
    rw [visit, StateT.run_bind, hnext]
    by_cases hlt : k * size < xs.length
    · -- A page that is not empty is seen, and the rest of the listing is behind it.
      have hsome : pageAt? xs size k = some ((xs.drop (k * size)).take size) := if_pos hlt
      have hrest := ih h₁ (by rw [Nat.add_right_comm, Nat.add_assoc]; exact hsteps)
        (seen ++ (xs.drop (k * size)).take size)
      have hpages : (xs.drop (k * size)).take size ++ xs.drop ((k + 1) * size) =
          xs.drop (k * size) := by
        rw [Nat.succ_mul, ← List.drop_drop, List.take_append_drop]
      rw [List.append_assoc, hpages] at hrest
      rw [hsome]
      exact hrest
    · have hnone : pageAt? xs size k = none := if_neg hlt
      -- Behind the last page nothing is left to be seen.
      rw [hnone, List.drop_eq_nil_of_le (by omega), List.append_nil]
      rfl

end Cursor

/-! ## Pages and what follows them -/

namespace Page

variable {t : RowType} {p : Page t}

theorem pageCount_eq_ceilDiv (hsize : 0 < p.request.size) :
    p.pageCount = p.total ⌈/⌉ p.request.size := by
  rw [pageCount, Nat.ceilDiv_eq_add_pred_div, Nat.max_eq_left hsize]

/-- There is a page after this one if there are rows behind it. -/
theorem hasNext_iff (hsize : 0 < p.request.size) :
    p.hasNext = true ↔ (p.request.index + 1) * p.request.size < p.total := by
  rw [hasNext, decide_eq_true_iff, pageCount_eq_ceilDiv hsize, ← Nat.not_le,
    ceilDiv_le_iff_le_mul hsize, Nat.mul_comm, Nat.not_le]

end Page

namespace Engine

variable {e : Engine} {b : Body} {t : RowType} {tables : Tables} {xs : List t.Carrier}
  {request : PageRequest}

theorem size_pos_of_checkSize (h : e.checkSize request = .ok ()) : 0 < request.size := by
  unfold checkSize at h
  split at h
  · cases h
  · next hzero => exact Nat.pos_of_ne_zero hzero

/-- A page of a listing that the engine accepts. -/
theorem run_pages {q plan : Plan} (hq : e.prepare t b = .ok q)
    (hplan : e.sorted b.entity request.sort q = .ok plan) (hlists : plan.Lists tables t xs)
    (hcheck : e.checkSize request = .ok ()) (hoffset : request.index * request.size ≤ maxWord) :
    (e.pages Store.memory t request b).run.run tables =
      (.ok ⟨request, xs.length, (xs.drop (request.index * request.size)).take request.size, plan⟩,
        tables) := by
  have hword : request.offset = .ok (request.index * request.size) := if_pos hoffset
  simp only [pages, Store.run_bind_ok, Store.run_check_ok, Store.run_pure_ok]
  exact ⟨(), tables, ⟨hcheck, rfl⟩, _, tables, ⟨hword, rfl⟩, q, tables, ⟨hq, rfl⟩, plan, tables,
    ⟨hplan, rfl⟩, _, tables, hlists.run_total, _, tables, hlists.run_fetchPage hoffset, rfl, rfl⟩

theorem run_total_ok {q : Plan} {tables' : Tables} {n : Nat}
    (h : (total Store.memory q).run.run tables = (.ok n, tables')) : tables' = tables := by
  unfold total at h
  split at h
  · exact (Store.run_pure_ok.mp h).2.symm
  · exact (Store.run_count_ok.mp h).2.symm

theorem window_eq {w : Window} (h : request.window = .ok w) :
    w = ⟨request.size, request.index * request.size⟩ := by
  obtain ⟨offset, hoffset, h⟩ := bind_eq_ok.mp h
  unfold PageRequest.offset at hoffset
  split at hoffset
  · obtain rfl := Except.ok.inj hoffset
    exact (Except.ok.inj h).symm
  · cases hoffset

/-- A page comes with its plan, the total of that and its part of the rows. -/
theorem run_pages_parts {tables' : Tables} {p : Page t}
    (h : (e.pages Store.memory t request b).run.run tables = (.ok p, tables')) :
    ∃ q rows, e.prepare t b = .ok q ∧ e.sorted b.entity request.sort q = .ok p.plan ∧
      (total Store.memory p.plan).run.run tables = (.ok p.total, tables) ∧
      tables.fetch p.plan = .ok rows ∧
      readRows t ((rows.drop (request.index * request.size)).take request.size) = .ok p.rows := by
  simp only [pages, fetchPage, run, Store.run_bind_ok, Store.run_check_ok, Store.run_pure_ok,
    Store.run_fetch_ok] at h
  obtain ⟨_, _, ⟨-, rfl⟩, _, _, ⟨-, rfl⟩, q, _, ⟨hq, rfl⟩, plan, _, ⟨hplan, rfl⟩, n, _, htotal, xs, _,
    ⟨w, _, ⟨hw, rfl⟩, cut, _, ⟨hcut, rfl⟩, hread, rfl⟩, rfl, rfl⟩ := h
  obtain rfl := run_total_ok htotal
  have hwindow : plan.window = none := (sorted_window hplan).trans (prepare_window hq)
  obtain ⟨rows, hrows, rfl⟩ := Tables.fetch_window_ok hwindow hcut
  obtain rfl := window_eq hw
  exact ⟨q, rows, hq, hplan, htotal, hrows, hread⟩

/-- A page that is accepted has its part of the listing without a bound, and totals of all of it.
Calls for the pages from it on give the parts of the listing one after the other, none of them empty,
and then nothing any more; so together they are the listing from the first row of the page on. -/
theorem pages_correct (hcheck : e.checkSize request = .ok ())
    (hoffset : request.index * request.size ≤ maxWord)
    (hlisting : ((e.unbounded.allSorted Store.memory t request.sort b).run.run tables).1 = .ok xs)
    (hlength : xs.length ≤ maxWord) :
    ∃ p : Page t, (e.pages Store.memory t request b).run.run tables = (.ok p, tables) ∧
      p.rows = (xs.drop (request.index * request.size)).take request.size ∧
      p.total = xs.length ∧
      p.pageCount = xs.length ⌈/⌉ request.size ∧
      (p.hasNext = true ↔ (request.index + 1) * request.size < xs.length) ∧
      (∀ n, ∃ c, ((Cursor.ofPage p).nexts Store.memory n).run tables =
        (((List.range n).map fun j =>
          (pageAt? xs request.size (request.index + j)).map Except.ok, c), tables)) ∧
      (∀ index rows, pageAt? xs request.size index = some rows → rows ≠ []) ∧
      (p.visitUntil Store.memory (fun seen rows => (seen ++ rows, false)) []).run tables =
        ((xs.drop (request.index * request.size), .ok ()), tables) := by
  obtain ⟨q, plan, hq, hplan, hlists⟩ := run_allSorted_unbounded_ok (Prod.ext hlisting rfl)
  have hsize : 0 < request.size := size_pos_of_checkSize hcheck
  -- The cursor of the page stands before it, with its rows read ahead.
  have hstands : Cursor.StandsAt tables xs request.size request.index
      (Cursor.ofPage ⟨request, xs.length,
        (xs.drop (request.index * request.size)).take request.size, plan⟩) := by
    refine .before hlists hoffset fun rows h => ?_
    exact (Option.some.inj h).symm
  refine ⟨_, run_pages hq hplan hlists hcheck hoffset, rfl, rfl, Page.pageCount_eq_ceilDiv hsize,
    Page.hasNext_iff hsize, hstands.run_nexts hsize hlength, ?_, ?_⟩
  · intro index rows h
    unfold pageAt? at h
    split at h
    · next hlt =>
      obtain rfl := Option.some.inj h
      rw [← List.length_pos_iff, List.length_take, List.length_drop]
      omega
    · cases h
  · -- A visit takes more steps than there are words, so it comes to the end of the listing.
    have hsteps : xs.length ≤ (request.index + (maxWord + 2)) * request.size := by
      have hword : request.index + (maxWord + 2) ≤ (request.index + (maxWord + 2)) * request.size :=
        Nat.le_mul_of_pos_right _ hsize
      omega
    exact hstands.run_visit hsize hlength hsteps []

theorem ownerLogins_listed :
    ((((Engine.ofCatalog Sample.catalog).unbounded.allSorted Store.memory
      (.single (.optional (.base .string))) Sample.secondLogin.sort Sample.ownerLogins).run.run
        Sample.tables).1 : Except QueryError (List (Option String))) =
      .ok [some "aaa", some "ccc", none] := by
  refine Sample.eq_ok ?_
  decide +kernel

theorem pages_correct_sample :
    ∃ p : Page (.single (.optional (.base .string))),
      ((Engine.ofCatalog Sample.catalog).pages Store.memory _ Sample.secondLogin
        Sample.ownerLogins).run.run Sample.tables = (.ok p, Sample.tables) ∧
      p.rows = [some "ccc"] ∧ p.total = 3 ∧ p.hasNext = true ∧
      (p.visitUntil Store.memory (fun seen rows => (seen ++ rows, false)) []).run Sample.tables =
        (([some "ccc", none], .ok ()), Sample.tables) := by
  obtain ⟨p, hpages, hrows, htotal, -, hnext, -, -, hvisit⟩ :=
    pages_correct (e := .ofCatalog Sample.catalog) (b := Sample.ownerLogins)
      (t := .single (.optional (.base .string))) (by decide) (by decide)
      ownerLogins_listed (by decide)
  exact ⟨p, hpages, hrows, htotal, hnext.mpr (by decide), hvisit⟩

end Engine

end EntityQuery
