import EntityQuery.Tables.Evaluate
import Mathlib.Data.List.Forall2

/-!
# Outcomes of evaluation

An outcome is safe when it is a result of the kind that is expected, or one of the failures that no
check can exclude: an integer sum overflows, or a sorter gives up. Each way of putting steps together
keeps outcomes safe.
-/

namespace EntityQuery

/-- A result with a property, or the failure of an integer sum, or that of a sorter that may give up. -/
def Safe (sorter : Sorter) (P : α → Prop) : Except StoreError α → Prop
  | .ok a => P a
  | .error e => e = .evaluation .sumOverflow ∨ e = .evaluation .unsorted ∧ ¬ sorter.IsTotal

namespace Safe

variable {α β : Type} {sorter : Sorter} {P : α → Prop} {Q : β → Prop}

theorem ok {a : α} (h : P a) : Safe sorter P (.ok a) :=
  h

theorem mono {P' : α → Prop} {x : Except StoreError α} (h : Safe sorter P x)
    (hP : ∀ a, P a → P' a) : Safe sorter P' x := by
  cases x with
  | ok a => exact hP a h
  | error e => exact h

/-- A step after a safe one has to be safe on the results that it can meet. -/
theorem bind {x : Except StoreError α} {f : α → Except StoreError β} (hx : Safe sorter P x)
    (hf : ∀ a, P a → Safe sorter Q (f a)) : Safe sorter Q (x >>= f) := by
  cases x with
  | ok a => exact hf a hx
  | error e => exact hx

/-- A step before others is safe if all together are. -/
theorem of_bind {x : Except StoreError α} {f : α → Except StoreError β}
    (h : Safe sorter Q (x >>= f)) : Safe sorter (fun _ => True) x := by
  cases x with
  | ok a => exact ok trivial
  | error e => exact h

theorem mapM {f : α → Except StoreError β} {xs : List α} (hf : ∀ x ∈ xs, Safe sorter Q (f x)) :
    Safe sorter (fun ys => ∀ y ∈ ys, Q y) (xs.mapM f) := by
  induction xs with
  | nil =>
    rw [List.mapM_nil]
    exact ok (by simp)
  | cons x xs ih =>
    rw [List.mapM_cons]
    refine bind (hf x (by simp)) fun y hy => ?_
    refine bind (ih fun x' hx' => hf x' (by simp [hx'])) fun ys hys => ok ?_
    intro y' hy'
    rcases List.mem_cons.mp hy' with rfl | hy'
    · exact hy
    · exact hys y' hy'

theorem flatMapE {f : α → Except StoreError (List β)} {xs : List α}
    (hf : ∀ x ∈ xs, Safe sorter (fun ys => ∀ y ∈ ys, Q y) (f x)) :
    Safe sorter (fun ys => ∀ y ∈ ys, Q y) (flatMapE f xs) := by
  induction xs with
  | nil => exact ok (by simp)
  | cons x xs ih =>
    refine bind (hf x (by simp)) fun ys hys => ?_
    refine bind (ih fun x' hx' => hf x' (by simp [hx'])) fun zs hzs => ok ?_
    intro y hy
    rcases List.mem_append.mp hy with hy | hy
    · exact hys y hy
    · exact hzs y hy

theorem cases {x : Except StoreError α} (h : Safe sorter P x) :
    (∃ a, x = .ok a ∧ P a) ∨ x = .error (.evaluation .sumOverflow) ∨
      x = .error (.evaluation .unsorted) ∧ ¬ sorter.IsTotal := by
  cases x with
  | ok a => exact .inl ⟨a, rfl, h⟩
  | error e => exact .inr (h.imp (congrArg _) (And.imp_left (congrArg _)))

end Safe

/-! ## Entries of lists -/

theorem mem_of_lookup {α β : Type} [BEq α] [LawfulBEq α] {entries : List (α × β)} {a : α} {b : β}
    (h : entries.lookup a = some b) : (a, b) ∈ entries := by
  obtain ⟨before, after, heq, -⟩ := List.lookup_eq_some_iff.mp h
  rw [heq]
  exact List.mem_append_right before List.mem_cons_self

/-! ## Lists side by side -/

theorem forall₂_getElem? {R : α → β → Prop} {xs : List α} {ys : List β}
    (h : List.Forall₂ R xs ys) {i : Nat} {x : α} (hx : xs[i]? = some x) :
    ∃ y, ys[i]? = some y ∧ R x y := by
  induction h generalizing i with
  | nil => cases hx
  | cons hxy _ ih =>
    cases i with
    | zero =>
      cases hx
      exact ⟨_, rfl, hxy⟩
    | succ i => exact ih hx

theorem forall₂_mem {R : α → β → Prop} {xs : List α} {ys : List β} (h : List.Forall₂ R xs ys) {x : α}
    (hx : x ∈ xs) : ∃ y ∈ ys, R x y := by
  obtain ⟨i, hi⟩ := List.mem_iff_getElem?.mp hx
  obtain ⟨y, hy, hxy⟩ := forall₂_getElem? h hi
  exact ⟨y, List.mem_of_getElem? hy, hxy⟩

/-- What is found first in lists that are related one by one is related. -/
theorem forall₂_find? {R : α → β → Prop} {xs : List α} {ys : List β} {p : α → Bool} {q : β → Bool}
    (h : List.Forall₂ R xs ys) (hpq : ∀ x y, R x y → p x = q y) :
    (xs.find? p = none ∧ ys.find? q = none) ∨
      ∃ x y, xs.find? p = some x ∧ ys.find? q = some y ∧ R x y := by
  induction h with
  | nil => exact .inl ⟨rfl, rfl⟩
  | @cons x y xs ys hxy _ ih =>
    cases hx : p x with
    | true =>
      right
      refine ⟨x, y, List.find?_cons_of_pos hx, List.find?_cons_of_pos ?_, hxy⟩
      rw [← hpq x y hxy, hx]
    | false =>
      have hy : q y = false := by rw [← hpq x y hxy, hx]
      rw [List.find?_cons_of_neg (by simp [hx]), List.find?_cons_of_neg (by simp [hy])]
      exact ih

/-! ## Equal outcomes -/

/-- Results that are related, or the same failure. -/
def Alike (R : α → β → Prop) : Except ε α → Except ε β → Prop
  | .ok a, .ok b => R a b
  | .error e, .error e' => e = e'
  | _, _ => False

namespace Alike

variable {α α' β β' ε : Type} {R : α → β → Prop} {S : α' → β' → Prop}

theorem refl (x : Except ε α) : Alike Eq x x := by
  cases x with
  | ok a => exact Eq.refl a
  | error e => exact Eq.refl e

theorem symm {x : Except ε α} {y : Except ε β} (h : Alike R x y) :
    Alike (fun b a => R a b) y x := by
  cases x with
  | ok a =>
    cases y with
    | ok b => exact h
    | error e => exact h.elim
  | error e =>
    cases y with
    | ok b => exact h.elim
    | error e' => exact Eq.symm h

theorem eq {x y : Except ε α} (h : Alike Eq x y) : x = y := by
  cases x with
  | ok a =>
    cases y with
    | ok b => exact congrArg _ h
    | error e => exact h.elim
  | error e =>
    cases y with
    | ok b => exact h.elim
    | error e' => exact congrArg _ h

theorem mono {R' : α → β → Prop} {x : Except ε α} {y : Except ε β} (h : Alike R x y)
    (hR : ∀ a b, R a b → R' a b) : Alike R' x y := by
  cases x with
  | ok a =>
    cases y with
    | ok b => exact hR a b h
    | error e => exact h.elim
  | error e =>
    cases y with
    | ok b => exact h.elim
    | error e' => exact h

theorem bind {x : Except ε α} {y : Except ε β} {f : α → Except ε α'} {g : β → Except ε β'}
    (hxy : Alike R x y) (hfg : ∀ a b, R a b → Alike S (f a) (g b)) :
    Alike S (x >>= f) (y >>= g) := by
  cases x with
  | ok a =>
    cases y with
    | ok b => exact hfg a b hxy
    | error e => exact hxy.elim
  | error e =>
    cases y with
    | ok b => exact hxy.elim
    | error e' => exact hxy

/-- What is alike to a result is a result. -/
theorem of_ok {a : α} {y : Except ε β} (h : Alike R (.ok a) y) : ∃ b, y = .ok b ∧ R a b := by
  cases y with
  | ok b => exact ⟨b, rfl, h⟩
  | error e => exact h.elim

theorem map_eq {f : α → β} {x : Except ε α} {y : Except ε β} (h : Alike R x y)
    (hf : ∀ a b, R a b → f a = b) : x.map f = y := by
  cases x with
  | ok a =>
    obtain ⟨b, rfl, hab⟩ := h.of_ok
    exact congrArg Except.ok (hf a b hab)
  | error e =>
    cases y with
    | ok b => exact h.elim
    | error e' => exact congrArg Except.error h

theorem flatMapE {f : α → Except ε (List α')} {g : β → Except ε (List β')} {xs : List α}
    {ys : List β} (h : List.Forall₂ R xs ys)
    (hfg : ∀ a b, R a b → Alike (List.Forall₂ S) (f a) (g b)) :
    Alike (List.Forall₂ S) (flatMapE f xs) (flatMapE g ys) := by
  induction h with
  | nil => exact List.Forall₂.nil
  | cons hab _ ih =>
    exact (hfg _ _ hab).bind fun as bs habs => ih.bind fun as' bs' habs' =>
      List.rel_append habs habs'

theorem mapM {f : α → Except ε α'} {g : β → Except ε β'} {xs : List α} {ys : List β}
    (h : List.Forall₂ R xs ys) (hfg : ∀ a b, R a b → Alike S (f a) (g b)) :
    Alike (List.Forall₂ S) (xs.mapM f) (ys.mapM g) := by
  induction h with
  | nil => exact List.Forall₂.nil
  | cons hab _ ih =>
    rw [List.mapM_cons, List.mapM_cons]
    exact (hfg _ _ hab).bind fun a' b' hab' => ih.bind fun as bs habs => List.Forall₂.cons hab' habs

end Alike

/-! ## Successful steps -/

theorem bind_eq_ok {α β ε : Type} {x : Except ε α} {f : α → Except ε β} {b : β} :
    x >>= f = .ok b ↔ ∃ a, x = .ok a ∧ f a = .ok b := by
  cases x with
  | error e =>
    constructor
    · intro h
      cases h
    · rintro ⟨a, h, -⟩
      cases h
  | ok a =>
    constructor
    · intro h
      exact ⟨a, rfl, h⟩
    · rintro ⟨a', ha, h⟩
      cases ha
      exact h

/-- What is alike element by element is the same for the whole list. -/
theorem mapM_congr₂ {γ ε : Type} {R : α → γ → Prop} {f : α → Except ε β} {g : γ → Except ε β}
    {xs : List α} {ys : List γ} (h : List.Forall₂ R xs ys) (hfg : ∀ a b, R a b → f a = g b) :
    xs.mapM f = ys.mapM g := by
  induction h with
  | nil => rfl
  | cons hab _ ih => rw [List.mapM_cons, List.mapM_cons, hfg _ _ hab, ih]

theorem mapM_congr {α β ε : Type} {f g : α → Except ε β} {xs : List α} (h : ∀ x ∈ xs, f x = g x) :
    xs.mapM f = xs.mapM g := by
  refine mapM_congr₂ (R := fun x y : α => x = y ∧ x ∈ xs)
    (List.forall₂_same.mpr fun x hx => ⟨rfl, hx⟩) ?_
  rintro x _ ⟨rfl, hx⟩
  exact h x hx

theorem flatMapE_congr {α β ε : Type} {f g : α → Except ε (List β)} {xs : List α}
    (h : ∀ x ∈ xs, f x = g x) : flatMapE f xs = flatMapE g xs := by
  induction xs with
  | nil => rfl
  | cons x xs ih =>
    rw [flatMapE, flatMapE, h x List.mem_cons_self,
      ih fun x' hx' => h x' (List.mem_cons_of_mem _ hx')]

/-- What follows a step need only be the same on the result of the step. -/
theorem bind_congr_ok {α β ε : Type} {x y : Except ε α} {f g : α → Except ε β} (h : x = y)
    (hfg : ∀ a, x = .ok a → f a = g a) : x >>= f = y >>= g := by
  subst h
  cases x with
  | ok a => exact hfg a rfl
  | error e => rfl

/-- A list of results has one result for each element. -/
theorem mapM_eq_ok {α β ε : Type} {f : α → Except ε β} {xs : List α} {ys : List β} :
    xs.mapM f = .ok ys ↔ List.Forall₂ (fun x y => f x = .ok y) xs ys := by
  induction xs generalizing ys with
  | nil =>
    rw [List.mapM_nil, List.forall₂_nil_left_iff]
    exact ⟨fun h => (Except.ok.inj h).symm, fun h => congrArg Except.ok h.symm⟩
  | cons x xs ih =>
    rw [List.mapM_cons, List.forall₂_cons_left_iff]
    constructor
    · intro h
      obtain ⟨y, hy, h⟩ := bind_eq_ok.mp h
      obtain ⟨ys', hys, h⟩ := bind_eq_ok.mp h
      exact ⟨y, ys', hy, ih.mp hys, (Except.ok.inj h).symm⟩
    · rintro ⟨y, ys', hy, hys, rfl⟩
      exact bind_eq_ok.mpr ⟨y, hy, bind_eq_ok.mpr ⟨ys', ih.mpr hys, rfl⟩⟩

theorem mapM_eq_map {α β ε : Type} {f : α → Except ε β} {g : α → β} {xs : List α}
    (h : ∀ x ∈ xs, f x = .ok (g x)) : xs.mapM f = .ok (xs.map g) := by
  rw [mapM_eq_ok, List.forall₂_map_right_iff, List.forall₂_same]
  exact h

theorem mapM_ok {ε : Type} {f : α → Except ε β} {g : γ → β} {xs : List α} {ys : List γ}
    {R : γ → α → Prop} (h : List.Forall₂ R ys xs) (hf : ∀ y x, R y x → f x = .ok (g y)) :
    xs.mapM f = .ok (ys.map g) := by
  induction h with
  | nil => rfl
  | cons hxy _ ih =>
    rw [List.mapM_cons, hf _ _ hxy, ih]
    rfl

theorem flatMapE_ok {α β ε : Type} {f : α → Except ε (List β)} {g : α → List β} {xs : List α}
    (h : ∀ x ∈ xs, f x = .ok (g x)) : flatMapE f xs = .ok (xs.flatMap g) := by
  induction xs with
  | nil => rfl
  | cons x xs ih =>
    simp only [flatMapE, h x (by simp), ih fun x' hx' => h x' (by simp [hx']), bind, Except.bind,
      List.flatMap_cons]

/-- What a list gives comes from one of its elements. -/
theorem mem_of_flatMapE {α β ε : Type} {f : α → Except ε (List β)} {xs : List α} {ys : List β}
    (h : flatMapE f xs = .ok ys) {y : β} (hy : y ∈ ys) : ∃ x ∈ xs, ∃ zs, f x = .ok zs ∧ y ∈ zs := by
  induction xs generalizing ys with
  | nil =>
    cases h
    cases hy
  | cons x xs ih =>
    obtain ⟨zs, hzs, h⟩ := bind_eq_ok.mp h
    obtain ⟨rest, hrest, h⟩ := bind_eq_ok.mp h
    obtain rfl := Except.ok.inj h
    rcases List.mem_append.mp hy with hy | hy
    · exact ⟨x, List.mem_cons_self, zs, hzs, hy⟩
    · obtain ⟨x', hx', hrest⟩ := ih hrest hy
      exact ⟨x', List.mem_cons_of_mem x hx', hrest⟩

/-! ## Failing steps -/

theorem bind_eq_error {α β ε : Type} {x : Except ε α} {f : α → Except ε β} {err : ε} :
    x >>= f = .error err ↔ x = .error err ∨ ∃ a, x = .ok a ∧ f a = .error err := by
  cases x with
  | error e =>
    constructor
    · intro h
      cases h
      exact .inl rfl
    · rintro (h | ⟨a, h, -⟩)
      · cases h
        rfl
      · cases h
  | ok a =>
    constructor
    · intro h
      exact .inr ⟨a, rfl, h⟩
    · rintro (h | ⟨a', ha, h⟩)
      · cases h
      · cases ha
        exact h

/-- A list fails at one of its elements. -/
theorem mapM_eq_error {α β ε : Type} {f : α → Except ε β} {xs : List α} {err : ε}
    (h : xs.mapM f = .error err) : ∃ x ∈ xs, f x = .error err := by
  induction xs with
  | nil => cases h
  | cons x xs ih =>
    rw [List.mapM_cons] at h
    rcases bind_eq_error.mp h with h | ⟨y, -, h⟩
    · exact ⟨x, List.mem_cons_self, h⟩
    · rcases bind_eq_error.mp h with h | ⟨ys, -, h⟩
      · obtain ⟨x', hx', h⟩ := ih h
        exact ⟨x', List.mem_cons_of_mem x hx', h⟩
      · cases h

/-! ## Plans -/

/-- A plan is evaluated under the parameters of its source; those that it carries itself only count
where it is fetched. -/
theorem Plan.rows_withParameters (s : Source) (outer : List Tuple) (q : Plan)
    (parameters : List (String × Value)) :
    Plan.rows s outer { q with parameters } = q.rows s outer := by
  cases q
  rw [Plan.rows, Plan.rows]

theorem Tables.fetchBy_eq_rows {t : Tables} {q q' : Plan}
    (h : q = { q' with parameters := q.parameters }) (sorter : Sorter) :
    t.fetchBy sorter q = q'.rows ⟨t, q.parameters, sorter⟩ [] := by
  have hrows := Plan.rows_withParameters ⟨t, q.parameters, sorter⟩ [] q' q.parameters
  rw [← h] at hrows
  exact hrows

theorem Tables.fetch_eq_rows {t : Tables} {q q' : Plan}
    (h : q = { q' with parameters := q.parameters }) :
    t.fetch q = q'.rows ⟨t, q.parameters, .insertion⟩ [] :=
  fetchBy_eq_rows h .insertion

/-! ## Lists of rows -/

/-- Distinct rows are some of the rows. -/
theorem mem_of_mem_distinctRows {rows seen : List Row} {row : Row}
    (h : row ∈ distinctRows seen rows) : row ∈ rows := by
  induction rows generalizing seen with
  | nil => cases h
  | cons r rows ih =>
    unfold distinctRows at h
    split at h
    · exact List.mem_cons_of_mem _ (ih h)
    · rcases List.mem_cons.mp h with rfl | h
      · exact List.mem_cons_self
      · exact List.mem_cons_of_mem _ (ih h)

theorem mem_windowed {window : Option Window} {rows : List Row} {row : Row}
    (h : row ∈ windowed window rows) : row ∈ rows := by
  cases window with
  | none => exact h
  | some w => exact List.mem_of_mem_drop (List.mem_of_mem_take h)

/-- Lists that are related one by one stay so when they are sorted, if the orders agree. -/
theorem sortBy_forall₂ {R : α → β → Prop} (order : α → α → Ordering) (order' : β → β → Ordering)
    (horder : ∀ a a' b b', R a b → R a' b' → order a a' = order' b b') {xs : List α} {ys : List β}
    (h : List.Forall₂ R xs ys) : List.Forall₂ R (sortBy order xs) (sortBy order' ys) := by
  -- An insertion passes the same elements on both sides.
  have hinsert : ∀ {x y} {sorted : List α} {sorted' : List β}, R x y →
      List.Forall₂ R sorted sorted' →
      List.Forall₂ R (insertLast order x sorted) (insertLast order' y sorted') := by
    intro x y sorted sorted' hxy hsorted
    induction hsorted with
    | nil => exact .cons hxy .nil
    | @cons a b as bs hab habs ih =>
      unfold insertLast
      rw [horder x a y b hxy hab]
      split
      · exact .cons hab ih
      · exact .cons hxy (.cons hab habs)
  -- So does a row of insertions, whatever has been sorted before.
  have hfold : ∀ {sorted : List α} {sorted' : List β}, List.Forall₂ R sorted sorted' →
      List.Forall₂ R (xs.foldl (fun sorted x => insertLast order x sorted) sorted)
        (ys.foldl (fun sorted y => insertLast order' y sorted) sorted') := by
    induction h with
    | nil => exact fun h => h
    | cons hxy _ ih => exact fun h => ih (hinsert hxy h)
  exact List.rel_reverse (hfold .nil)

end EntityQuery
