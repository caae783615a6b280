import EntityQuery.Proofs.Evaluation.KeyOrder
import Mathlib.Data.List.Perm.Basic

/-!
# Tables in another order

Where the records of each table are in another order, a join finds the same records in another order,
and so the same tuples are bound. A condition without nested queries has the same truth for each of
them: how many records are related to one, and which, does not depend on their order.
-/

namespace EntityQuery

/-! ## Records in another order -/

/-- Tables of the same entities, each with the same records in whatever order. -/
def Tables.Rearranged (t t' : Tables) : Prop :=
  ∀ entity, Alike List.Perm (t.table entity) (t'.table entity)

/-- Tables with the last records first. -/
def Tables.reversed (t : Tables) : Tables :=
  ⟨t.entries.map fun (name, records) => (name, records.reverse)⟩

theorem Tables.rearranged_reversed (t : Tables) : t.Rearranged t.reversed := by
  intro entity
  have hlookup : ∀ entries : List (String × List Record),
      (entries.map fun (name, records) => (name, records.reverse)).lookup entity =
        (entries.lookup entity).map List.reverse := by
    intro entries
    induction entries with
    | nil => rfl
    | cons entry entries ih =>
      rw [List.map_cons, List.lookup_cons, List.lookup_cons, ih]
      split <;> rfl
  unfold table table? reversed
  rw [hlookup]
  cases t.entries.lookup entity with
  | none => rfl
  | some records => exact records.reverse_perm.symm

/-! ## Tuples in another order -/

theorem related_perm {targets targets' : List Record} (h : targets.Perm targets') (key : Value)
    (field : String) : (related key field targets).Perm (related key field targets') := by
  unfold related
  split
  · exact .refl _
  · exact h.filter _

theorem Join.extend_perm {targets targets' : List Record} (h : targets.Perm targets') (j : Join)
    (tuple : Tuple) : (j.extend targets tuple).Perm (j.extend targets' tuple) := by
  have hmatching : (j.matching targets tuple).Perm (j.matching targets' tuple) :=
    related_perm h _ _
  unfold extend
  generalize j.matching targets tuple = found at hmatching
  generalize j.matching targets' tuple = found' at hmatching
  cases found with
  | nil =>
    obtain rfl := hmatching.nil_eq
    exact .refl _
  | cons r records =>
    cases found' with
    | nil => exact absurd hmatching.length_eq (by simp)
    | cons r' records' =>
      cases j.kind <;> exact hmatching.map fun r => tuple ++ [some r]

theorem flatMapE_eq_ok {α β ε : Type} {f : α → Except ε (List β)} {xs : List α} {zs : List β}
    (h : flatMapE f xs = .ok zs) :
    (∀ x ∈ xs, f x = .ok ((f x).toOption.getD [])) ∧
      zs = xs.flatMap fun x => (f x).toOption.getD [] := by
  induction xs generalizing zs with
  | nil => exact ⟨by simp, (Except.ok.inj h).symm⟩
  | cons x xs ih =>
    obtain ⟨us, hus, h⟩ := bind_eq_ok.mp h
    obtain ⟨ws, hws, h⟩ := bind_eq_ok.mp h
    obtain rfl := Except.ok.inj h
    obtain ⟨hrest, rfl⟩ := ih hws
    have hx : f x = .ok ((f x).toOption.getD []) := by
      rw [hus]
      rfl
    refine ⟨List.forall_mem_cons.mpr ⟨hx, hrest⟩, ?_⟩
    rw [List.flatMap_cons, hus]
    rfl

/-- Steps that succeed on all elements, with the same results up to order, do so in any order. -/
theorem flatMapE_perm {α β ε : Type} {f g : α → Except ε (List β)} {xs ys : List α} {zs : List β}
    (h : xs.Perm ys)
    (hfg : ∀ x ∈ xs, ∀ us, f x = .ok us → ∃ us', g x = .ok us' ∧ us.Perm us')
    (hzs : flatMapE f xs = .ok zs) : ∃ zs', flatMapE g ys = .ok zs' ∧ zs.Perm zs' := by
  obtain ⟨hok, rfl⟩ := flatMapE_eq_ok hzs
  have hresults : ∀ x ∈ xs, g x = .ok ((g x).toOption.getD []) ∧
      ((f x).toOption.getD []).Perm ((g x).toOption.getD []) := by
    intro x hx
    obtain ⟨us', hus', hperm⟩ := hfg x hx _ (hok x hx)
    rw [hus']
    exact ⟨rfl, hperm⟩
  refine ⟨_, flatMapE_ok fun y hy => (hresults y (h.mem_iff.mpr hy)).1, ?_⟩
  exact h.flatMap fun x hx => (hresults x hx).2

variable {t t' : Tables} {tuples tuples' bound : List Tuple} {outer : List Tuple}

theorem Join.apply_perm (h : t.Rearranged t') (j : Join) (htuples : tuples.Perm tuples')
    (hbound : j.apply t tuples = .ok bound) :
    ∃ bound', j.apply t' tuples' = .ok bound' ∧ bound.Perm bound' := by
  obtain ⟨targets, htargets, hbound⟩ := bind_eq_ok.mp hbound
  have htable := h j.entity
  rw [htargets] at htable
  obtain ⟨targets', htargets', hperm⟩ := htable.of_ok
  -- The steps of the join, for one tuple at a time.
  let extend (targets : List Record) (tuple : Tuple) : Except StoreError (List Tuple) :=
    if tuple.length = j.slot then .ok (j.extend targets tuple)
    else .error (.evaluation (.joinOutOfOrder j.slot))
  have hextend : ∀ tuple ∈ tuples, ∀ us, extend targets tuple = .ok us →
      ∃ us', extend targets' tuple = .ok us' ∧ us.Perm us' := by
    intro tuple _ us hus
    unfold extend at hus ⊢
    split at hus
    · next hlength =>
      obtain rfl := Except.ok.inj hus
      exact ⟨_, if_pos hlength, j.extend_perm hperm tuple⟩
    · cases hus
  obtain ⟨bound', hbound', hperm'⟩ := flatMapE_perm htuples hextend hbound
  exact ⟨bound', bind_eq_ok.mpr ⟨targets', htargets', hbound'⟩, hperm'⟩

theorem Tables.joinAll_perm (h : t.Rearranged t') (joins : List Join) (htuples : tuples.Perm tuples')
    (hbound : t.joinAll joins tuples = .ok bound) :
    ∃ bound', t'.joinAll joins tuples' = .ok bound' ∧ bound.Perm bound' := by
  induction joins generalizing tuples tuples' with
  | nil =>
    obtain rfl := Except.ok.inj hbound
    exact ⟨tuples', rfl, htuples⟩
  | cons j joins ih =>
    obtain ⟨joined, hjoined, hbound⟩ := bind_eq_ok.mp hbound
    obtain ⟨joined', hjoined', hperm⟩ := j.apply_perm h htuples hjoined
    obtain ⟨bound', hbound', hperm'⟩ := ih hperm hbound
    exact ⟨bound', bind_eq_ok.mpr ⟨joined', hjoined', hbound'⟩, hperm'⟩

theorem Tables.bind_perm (h : t.Rearranged t') {entity : String} {joins : List Join}
    (hbound : t.bind entity joins = .ok bound) :
    ∃ bound', t'.bind entity joins = .ok bound' ∧ bound.Perm bound' := by
  obtain ⟨records, hrecords, hbound⟩ := bind_eq_ok.mp hbound
  have htable := h entity
  rw [hrecords] at htable
  obtain ⟨records', hrecords', hperm⟩ := htable.of_ok
  obtain ⟨bound', hbound', hperm'⟩ := joinAll_perm h joins (hperm.map fun r => [some r]) hbound
  exact ⟨bound', bind_eq_ok.mpr ⟨records', hrecords', hbound'⟩, hperm'⟩

/-! ## Conditions -/

/-- The filter of a plan gives each tuple the same truth, or the same failure, over either tables. -/
def Plan.FiltersAlike (t t' : Tables) (outer : List Tuple) (q : Plan) : Prop :=
  ∀ p ∈ q.filter, ∀ tuple,
    p.truth ⟨t, q.parameters, .insertion⟩ tuple outer = p.truth ⟨t', q.parameters, .insertion⟩ tuple outer

theorem Plan.matching_perm {q : Plan} (h : t.Rearranged t') (hfilter : q.FiltersAlike t t' outer)
    (hmatching : q.matching ⟨t, q.parameters, .insertion⟩ outer = .ok tuples) :
    ∃ tuples', q.matching ⟨t', q.parameters, .insertion⟩ outer = .ok tuples' ∧ tuples.Perm tuples' := by
  obtain ⟨bound, hbound, hkept⟩ := bind_eq_ok.mp hmatching
  obtain ⟨bound', hbound', hperm⟩ := Tables.bind_perm h hbound
  -- The bound tuples are the same up to their order, and the filter takes them one by one.
  suffices hkept' : ∃ tuples', filterTuples ⟨t', q.parameters, .insertion⟩ outer bound' q.filter = .ok tuples' ∧
      tuples.Perm tuples' by
    obtain ⟨tuples', htuples', hperm'⟩ := hkept'
    exact ⟨tuples', bind_eq_ok.mpr ⟨bound', hbound', htuples'⟩, hperm'⟩
  unfold FiltersAlike at hfilter
  revert hfilter hkept
  cases q.filter with
  | none =>
    intro _ hkept
    obtain rfl := Except.ok.inj hkept
    exact ⟨bound', rfl, hperm⟩
  | some p =>
    intro hfilter hkept
    rw [filterTuples] at hkept ⊢
    refine flatMapE_perm hperm (fun tuple _ us hus => ⟨us, ?_, .refl us⟩) hkept
    rw [← hfilter p rfl tuple]
    exact hus

/-- An operand without nested queries. -/
def Operand.isFlat : Operand → Bool
  | query _ => false
  | _ => true

/-- A condition without nested queries. -/
def Predicate.isFlat : Predicate → Bool
  | compare left _ right => left.isFlat && right.isFlat
  | like operand .. | inList operand .. | isNull operand _ | isMember operand .. => operand.isFlat
  | inQuery .. => false
  | isEmpty .. => true
  | and left right | or left right => left.isFlat && right.isFlat

theorem Source.elements_perm (h : t.Rearranged t') (parameters : List (String × Value))
    (collection : Collection) (tuple : Tuple) (outer : List Tuple) :
    Alike List.Perm (Source.elements ⟨t, parameters, .insertion⟩ collection tuple outer)
      (Source.elements ⟨t', parameters, .insertion⟩ collection tuple outer) := by
  have hsame : ∀ x : Except StoreError (List Value), Alike List.Perm x x := fun x =>
    (Alike.refl x).mono fun _ _ heq => heq ▸ .refl _
  cases collection with
  | stored column => exact hsame _
  | related r =>
    refine (Alike.refl (tuple.record outer r.level r.slot)).bind fun owner owner' howner => ?_
    subst howner
    dsimp only
    split
    · exact List.Perm.refl _
    · exact (h r.entity).bind fun targets targets' hperm =>
        (related_perm hperm _ _).map fun r' => fieldValue (some r') r.identityField

theorem Operand.value_rearranged {o : Operand} (ho : o.isFlat = true)
    (parameters : List (String × Value)) (tuple : Tuple) (outer : List Tuple) :
    o.value ⟨t, parameters, .insertion⟩ tuple outer = o.value ⟨t', parameters, .insertion⟩ tuple outer := by
  cases o with
  | query q => cases ho
  | column | literal | aggregate => rw [value, value]
  | parameter name =>
    rw [value, value]
    rfl

theorem Predicate.truth_rearranged (h : t.Rearranged t') {p : Predicate} (hp : p.isFlat = true)
    (parameters : List (String × Value)) (tuple : Tuple) (outer : List Tuple) :
    p.truth ⟨t, parameters, .insertion⟩ tuple outer = p.truth ⟨t', parameters, .insertion⟩ tuple outer := by
  -- A flat operand reads the tuple only, and a collection has the same elements in some order.
  have hvalue {o : Operand} (ho : o.isFlat = true) :
      o.value ⟨t, parameters, .insertion⟩ tuple outer = o.value ⟨t', parameters, .insertion⟩ tuple outer :=
    Operand.value_rearranged ho parameters tuple outer
  have helements := fun collection => Source.elements_perm h parameters collection tuple outer
  match p with
  | .compare left op right =>
    obtain ⟨hleft, hright⟩ := Bool.and_eq_true_iff.mp hp
    rw [truth, truth, hvalue hleft, hvalue hright]
  | .like operand pattern negated | .inList operand values negated | .isNull operand negated =>
    rw [truth, truth, hvalue hp]
  | .isEmpty collection negated =>
    rw [truth, truth]
    refine ((helements collection).bind fun vs vs' hperm => ?_).eq
    rw [hperm.isEmpty_eq]
    exact .refl _
  | .isMember value collection negated =>
    rw [truth, truth, hvalue hp]
    refine ((Alike.refl _).bind fun v v' hv => ?_).eq
    subst hv
    split
    · exact .refl _
    · refine (helements collection).bind fun vs vs' hperm => ?_
      rw [hperm.any_eq]
      exact .refl _
  | .and left right | .or left right =>
    obtain ⟨hleft, hright⟩ := Bool.and_eq_true_iff.mp hp
    rw [truth, truth, left.truth_rearranged h hleft, right.truth_rearranged h hright]
termination_by structural p

end EntityQuery
