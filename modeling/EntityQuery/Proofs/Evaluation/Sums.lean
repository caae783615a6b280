import EntityQuery.Proofs.Evaluation.Extremes
import EntityQuery.Proofs.Evaluation.Rearranged

/-!
# Sums of integers

A sum is added up value by value, and fails as soon as a partial sum needs more than 64 bits, also where
the total does not. So it depends on the order of the values whether there is a sum: in some order there
is one exactly if the total fits, in every order if moreover the positive values alone and the negative
values alone have sums that fit.
-/

namespace EntityQuery

/-! ## Totals -/

/-- An integer of 64 bits. -/
def FitsInt64 (n : Int) : Prop :=
  Int64.minValue.toInt ≤ n ∧ n ≤ Int64.maxValue.toInt

instance (n : Int) : Decidable (FitsInt64 n) :=
  inferInstanceAs (Decidable (_ ∧ _))

theorem FitsInt64.toInt_ofInt {n : Int} (h : FitsInt64 n) : (Int64.ofInt n).toInt = n := by
  obtain ⟨hmin, hmax⟩ := h
  rw [Int64.toInt_minValue] at hmin
  rw [Int64.toInt_maxValue] at hmax
  exact Int64.toInt_ofInt_of_le (by omega) (by omega)

theorem fitsInt64_toInt (n : Int64) : FitsInt64 n.toInt :=
  ⟨n.minValue_le_toInt, n.toInt_le⟩

namespace Value

/-- The number of an integer. -/
def number (v : Value) : Int :=
  ((v.int64?).getD 0).toInt

def total (vs : List Value) : Int :=
  (vs.map number).sum

/-- The total of the positive values. -/
def gains (vs : List Value) : Int :=
  (vs.map fun v => max v.number 0).sum

/-- The total of the negative values. -/
def losses (vs : List Value) : Int :=
  (vs.map fun v => min v.number 0).sum

/-- The sums of the values so far, up to each of them, are of 64 bits. -/
def PartialSumsFit (vs : List Value) : Prop :=
  ∀ us, us <+: vs → FitsInt64 (total us)

variable {v : Value} {vs ws : List Value}

theorem number_fits (v : Value) : FitsInt64 v.number :=
  fitsInt64_toInt _

theorem total_nil : total [] = 0 :=
  rfl

theorem total_cons (v : Value) (vs : List Value) : total (v :: vs) = v.number + total vs :=
  List.sum_cons

theorem total_perm (h : vs.Perm ws) : total vs = total ws :=
  (h.map number).sum_eq

/-- A total of a part is at most the gains and at least the losses of the whole. -/
theorem total_le_gains (vs : List Value) : total vs ≤ gains vs :=
  List.sum_le_sum fun v _ => le_max_left v.number 0

theorem losses_le_total (vs : List Value) : losses vs ≤ total vs :=
  List.sum_le_sum fun v _ => min_le_left v.number 0

theorem gains_le_of_sublist (h : vs.Sublist ws) : gains vs ≤ gains ws := by
  refine (h.map fun v => max v.number 0).sum_le_sum fun n hn => ?_
  obtain ⟨v, -, rfl⟩ := List.mem_map.mp hn
  exact le_max_right v.number 0

theorem losses_le_of_sublist (h : vs.Sublist ws) : losses ws ≤ losses vs := by
  have hneg : ∀ us : List Value, -losses us = (us.map fun v => max (-v.number) 0).sum := by
    intro us
    induction us with
    | nil => rfl
    | cons u us ih =>
      have hu : losses (u :: us) = min u.number 0 + losses us := List.sum_cons
      rw [List.map_cons, List.sum_cons, ← ih, hu]
      omega
  have hle := (h.map fun v => max (-v.number) 0).sum_le_sum fun n hn => by
    obtain ⟨v, -, rfl⟩ := List.mem_map.mp hn
    exact le_max_right (-v.number) 0
  rw [← hneg, ← hneg] at hle
  exact neg_le_neg_iff.mp hle

theorem gains_perm (h : vs.Perm ws) : gains vs = gains ws :=
  (h.map _).sum_eq

theorem losses_perm (h : vs.Perm ws) : losses vs = losses ws :=
  (h.map _).sum_eq

/-! ## Adding up -/

/-- One more value is added if the sum then fits. -/
theorem sumInt64_cons (start n : Int64) (ns : List Int64) :
    sumInt64 start (n :: ns) =
      if FitsInt64 (start.toInt + n.toInt) then sumInt64 (.ofInt (start.toInt + n.toInt)) ns
      else none :=
  rfl

/-- Adding up succeeds, with the total, if each partial sum fits. -/
theorem sumInt64_eq_some_iff {start sum : Int64} :
    sumInt64 start (vs.map fun v => (v.int64?).getD 0) = some sum ↔
      (∀ us, us <+: vs → FitsInt64 (start.toInt + total us)) ∧
        sum.toInt = start.toInt + total vs := by
  -- Over the values; the start is the sum of those before them.
  induction vs generalizing start with
  | nil =>
    simp only [List.map_nil, sumInt64, List.prefix_nil, forall_eq, total_nil, Int.add_zero,
      Option.some.injEq]
    refine ⟨fun h => ⟨fitsInt64_toInt start, congrArg Int64.toInt h.symm⟩, fun h => ?_⟩
    exact (Int64.toInt_inj.mp h.2).symm
  | cons v vs ih =>
    have htotal : ∀ us, start.toInt + total (v :: us) = start.toInt + v.number + total us := by
      intro us
      rw [total_cons, Int.add_assoc]
    rw [List.map_cons, sumInt64_cons, ← number, htotal vs]
    by_cases hfits : FitsInt64 (start.toInt + v.number)
    · rw [if_pos hfits, ih, hfits.toInt_ofInt]
      refine and_congr_left fun _ => ⟨fun h us hus => ?_, fun h us hus => ?_⟩
      · rcases List.prefix_cons_iff.mp hus with rfl | ⟨us', rfl, hus'⟩
        · rw [total_nil, Int.add_zero]
          exact fitsInt64_toInt start
        · rw [htotal]
          exact h us' hus'
      · rw [← htotal]
        exact h (v :: us) (List.prefix_cons_inj v |>.mpr hus)
    · rw [if_neg hfits]
      refine iff_of_false nofun fun h => hfits ?_
      have hfirst := h.1 [v] ⟨vs, rfl⟩
      rw [htotal, total_nil, Int.add_zero] at hfirst
      exact hfirst

theorem ofList_sum (hne : vs ≠ []) (hint : ∀ v ∈ vs, v.isInteger = true) :
    Aggregate.sum.ofList vs = (sumInt64 0 (vs.map fun v => (v.int64?).getD 0)).elim
      (.error (.evaluation .sumOverflow)) fun sum => .ok (.int64 sum) := by
  have hnumbers : vs.filterMap int64? = vs.map fun v => (v.int64?).getD 0 := by
    rw [← List.filterMap_eq_map]
    refine List.filterMap_congr fun v hv => ?_
    have hv := hint v hv
    cases v <;> first | rfl | cases hv
  cases vs with
  | nil => exact absurd rfl hne
  | cons v vs =>
    rw [Aggregate.ofList, Aggregate.ofValues, if_pos (List.all_eq_true.mpr hint), hnumbers]
    cases sumInt64 0 ((v :: vs).map fun v => (v.int64?).getD 0) <;> rfl

/-- The sum of integers is their total if each partial sum fits. -/
theorem ofList_sum_of_partialSumsFit (hne : vs ≠ []) (hint : ∀ v ∈ vs, v.isInteger = true)
    (h : PartialSumsFit vs) : Aggregate.sum.ofList vs = .ok (.int64 (.ofInt (total vs))) := by
  have hzero : (0 : Int64).toInt = 0 := rfl
  have hsum : sumInt64 0 (vs.map fun v => (v.int64?).getD 0) = some (.ofInt (total vs)) := by
    rw [sumInt64_eq_some_iff, (h vs (List.prefix_refl vs)).toInt_ofInt, hzero, Int.zero_add]
    refine ⟨fun us hus => ?_, rfl⟩
    rw [Int.zero_add]
    exact h us hus
  rw [ofList_sum hne hint, hsum, Option.elim_some]

/-- The sum of integers fails if some partial sum does not fit. -/
theorem ofList_sum_of_not_partialSumsFit (hne : vs ≠ []) (hint : ∀ v ∈ vs, v.isInteger = true)
    (h : ¬ PartialSumsFit vs) : Aggregate.sum.ofList vs = .error (.evaluation .sumOverflow) := by
  rw [ofList_sum hne hint]
  cases hsum : sumInt64 0 (vs.map fun v => (v.int64?).getD 0) with
  | none => rfl
  | some sum =>
    refine absurd (fun us hus => ?_) h
    have hfits := (sumInt64_eq_some_iff.mp hsum).1 us hus
    rw [show (0 : Int64).toInt = 0 from rfl, Int.zero_add] at hfits
    exact hfits

/-! ## Orders -/

/-- Where the gains and the losses fit, so does each partial sum in any order. -/
theorem partialSumsFit_of_parts (hgains : FitsInt64 (gains vs)) (hlosses : FitsInt64 (losses vs))
    (h : ws.Perm vs) : PartialSumsFit ws := by
  intro us hus
  have hle := (total_le_gains us).trans (gains_le_of_sublist hus.sublist)
  have hge := (losses_le_of_sublist hus.sublist).trans (losses_le_total us)
  rw [gains_perm h] at hle
  rw [losses_perm h] at hge
  exact ⟨hlosses.1.trans hge, hle.trans hgains.2⟩

theorem total_filter_gains (vs : List Value) :
    total (vs.filter fun v => 0 ≤ v.number) = gains vs := by
  induction vs with
  | nil => rfl
  | cons v vs ih =>
    have hgains : gains (v :: vs) = max v.number 0 + gains vs := List.sum_cons
    rw [List.filter_cons, hgains, ← ih]
    split
    · next h => rw [total_cons, max_eq_left (of_decide_eq_true h)]
    · next h => rw [max_eq_right (le_of_not_ge fun hle => h (decide_eq_true hle)), Int.zero_add]

theorem total_filter_losses (vs : List Value) :
    total (vs.filter fun v => !decide (0 ≤ v.number)) = losses vs := by
  induction vs with
  | nil => rfl
  | cons v vs ih =>
    have hlosses : losses (v :: vs) = min v.number 0 + losses vs := List.sum_cons
    rw [List.filter_cons, hlosses, ← ih]
    by_cases h : 0 ≤ v.number
    · rw [if_neg (by simpa using h), min_eq_right h, Int.zero_add]
    · rw [if_pos (by simpa using h), total_cons, min_eq_left (le_of_not_ge h)]

theorem total_nonneg (h : ∀ v ∈ vs, 0 ≤ v.number) : 0 ≤ total vs :=
  List.sum_nonneg (List.forall_mem_map.mpr h)

theorem total_nonpos (h : ∀ v ∈ vs, v.number ≤ 0) : total vs ≤ 0 := by
  induction vs with
  | nil => exact le_rfl
  | cons v vs ih =>
    have hrest := ih fun w hw => h w (List.mem_cons_of_mem _ hw)
    have hv := h v List.mem_cons_self
    rw [total_cons]
    omega

/-- A value can be added next if the total of all that are left fits: one of the other sign than what
is there so far, or else any. -/
theorem exists_fitting {start : Int} (hstart : FitsInt64 start) (hne : vs ≠ [])
    (h : FitsInt64 (start + total vs)) : ∃ v ∈ vs, FitsInt64 (start + v.number) := by
  have hmin : Int64.minValue.toInt ≤ 0 := by decide
  have hmax : 0 ≤ Int64.maxValue.toInt := by decide
  obtain ⟨v, rest, rfl⟩ := List.exists_cons_of_ne_nil hne
  rw [total_cons] at h
  by_cases hsign : 0 ≤ start
  · by_cases hother : ∃ u ∈ v :: rest, u.number ≤ 0
    · -- A value of the other sign keeps the sum between its start and zero, or close to it.
      obtain ⟨u, hu, hle⟩ := hother
      have hfits := number_fits u
      exact ⟨u, hu, by unfold FitsInt64 at *; omega⟩
    · -- If there is none, each partial sum lies between the start and the total.
      have hpos : ∀ u ∈ v :: rest, 0 ≤ u.number := fun u hu =>
        le_of_not_ge fun hle => hother ⟨u, hu, hle⟩
      have hv := hpos v List.mem_cons_self
      have hrest := total_nonneg fun u hu => hpos u (List.mem_cons_of_mem _ hu)
      exact ⟨v, List.mem_cons_self, by unfold FitsInt64 at *; omega⟩
  · by_cases hother : ∃ u ∈ v :: rest, 0 ≤ u.number
    · obtain ⟨u, hu, hle⟩ := hother
      have hfits := number_fits u
      exact ⟨u, hu, by unfold FitsInt64 at *; omega⟩
    · have hneg : ∀ u ∈ v :: rest, u.number ≤ 0 := fun u hu =>
        le_of_not_ge fun hle => hother ⟨u, hu, hle⟩
      have hv := hneg v List.mem_cons_self
      have hrest := total_nonpos fun u hu => hneg u (List.mem_cons_of_mem _ hu)
      exact ⟨v, List.mem_cons_self, by unfold FitsInt64 at *; omega⟩

/-- There is an order in which all partial sums fit if the total fits. -/
theorem exists_perm_fitting {start : Int} (hstart : FitsInt64 start)
    (h : FitsInt64 (start + total vs)) :
    ∃ ws, ws.Perm vs ∧ ∀ us, us <+: ws → FitsInt64 (start + total us) := by
  induction hlength : vs.length generalizing vs start with
  | zero =>
    refine ⟨[], List.nil_perm.mpr (List.eq_nil_of_length_eq_zero hlength), fun us hus => ?_⟩
    rw [List.prefix_nil.mp hus, total_nil, Int.add_zero]
    exact hstart
  | succ n ih =>
    -- A value that fits comes first, and the others are ordered behind it.
    obtain ⟨v, hv, hfits⟩ := exists_fitting hstart (by rintro rfl; cases hlength) h
    obtain ⟨before, after, rfl⟩ := List.append_of_mem hv
    have hmiddle : (before ++ v :: after).Perm (v :: (before ++ after)) := List.perm_middle
    rw [total_perm hmiddle, total_cons, ← Int.add_assoc] at h
    rw [hmiddle.length_eq] at hlength
    obtain ⟨ws, hws, hprefix⟩ := ih hfits h (Nat.succ.inj hlength)
    refine ⟨v :: ws, (hws.cons v).trans hmiddle.symm, fun us hus => ?_⟩
    rcases List.prefix_cons_iff.mp hus with rfl | ⟨us', rfl, hus'⟩
    · rw [total_nil, Int.add_zero]
      exact hstart
    · rw [total_cons, ← Int.add_assoc]
      exact hprefix us' hus'

theorem ne_nil_of_perm (h : ws.Perm vs) (hne : vs ≠ []) : ws ≠ [] := by
  rintro rfl
  exact hne h.nil_eq.symm

theorem exists_perm_ofList_sum (hint : ∀ v ∈ vs, v.isInteger = true) (hne : vs ≠ [])
    (h : FitsInt64 (total vs)) :
    ∃ ws, ws.Perm vs ∧ Aggregate.sum.ofList ws = .ok (.int64 (.ofInt (total vs))) := by
  have hzero : FitsInt64 0 := by decide
  obtain ⟨ws, hws, hprefix⟩ := exists_perm_fitting hzero (by rwa [Int.zero_add])
  have hfit : PartialSumsFit ws := fun us hus => Int.zero_add (total us) ▸ hprefix us hus
  refine ⟨ws, hws, ?_⟩
  rw [← total_perm hws]
  exact ofList_sum_of_partialSumsFit (ne_nil_of_perm hws hne)
    (fun v hv => hint v (hws.mem_iff.mp hv)) hfit

/-- The sum of integers does not depend on their order just if their total does not fit, or their gains
and their losses do. -/
theorem ofList_sum_perm_iff (hint : ∀ v ∈ vs, v.isInteger = true) (hne : vs ≠ []) :
    (∀ ws, ws.Perm vs → Aggregate.sum.ofList ws = Aggregate.sum.ofList vs) ↔
      (FitsInt64 (total vs) → FitsInt64 (gains vs) ∧ FitsInt64 (losses vs)) := by
  have hint' (ws : List Value) (hws : ws.Perm vs) : ∀ v ∈ ws, v.isInteger = true :=
    fun v hv => hint v (hws.mem_iff.mp hv)
  have hfails (ws : List Value) (hws : ws.Perm vs) (h : ¬ PartialSumsFit ws) :
      Aggregate.sum.ofList ws = .error (.evaluation .sumOverflow) :=
    ofList_sum_of_not_partialSumsFit (ne_nil_of_perm hws hne) (hint' ws hws) h
  have hsucceeds (ws : List Value) (hws : ws.Perm vs) (h : PartialSumsFit ws) :
      Aggregate.sum.ofList ws = .ok (.int64 (.ofInt (total vs))) := by
    rw [← total_perm hws]
    exact ofList_sum_of_partialSumsFit (ne_nil_of_perm hws hne) (hint' ws hws) h
  constructor
  · intro hsame htotal
    -- Since the sum succeeds in one order, it does so with the gains first, and with the losses first.
    obtain ⟨ws, hws, hsum⟩ := exists_perm_ofList_sum hint hne htotal
    have hall : ∀ ws', ws'.Perm vs → PartialSumsFit ws' := by
      intro ws' hws'
      by_contra hnot
      have heq := (hfails ws' hws' hnot).symm.trans ((hsame ws' hws').trans
        ((hsame ws hws).symm.trans hsum))
      cases heq
    have hperm := List.filter_append_perm (fun v : Value => 0 ≤ v.number) vs
    rw [← total_filter_gains, ← total_filter_losses]
    exact ⟨hall _ hperm _ (List.prefix_append ..),
      hall _ (List.perm_append_comm.trans hperm) _ (List.prefix_append ..)⟩
  · intro hparts ws hws
    by_cases htotal : FitsInt64 (total vs)
    · obtain ⟨hgains, hlosses⟩ := hparts htotal
      rw [hsucceeds ws hws (partialSumsFit_of_parts hgains hlosses hws),
        hsucceeds vs (.refl vs) (partialSumsFit_of_parts hgains hlosses (.refl vs))]
    · have hnot : ∀ ws', ws'.Perm vs → ¬ PartialSumsFit ws' := fun ws' hws' h =>
        htotal (total_perm hws' ▸ h ws' (List.prefix_refl ws'))
      rw [hfails ws hws (hnot ws hws), hfails vs (.refl vs) (hnot vs (.refl vs))]

end Value

/-! ## Plans -/

section Plans

variable {t : Tables} {q : Plan} {c : Column} {tuples : List Tuple}

/-- A plan adds up the values of a column that are not null. Over rearranged tables it has the same sum
if the order of these values makes no difference to it. -/
theorem Plan.sum_rearranged {values : List Value}
    (hmatching : q.matching ⟨t, q.parameters, .insertion⟩ [] = .ok tuples)
    (hvalues : tuples.mapM (fun tuple => c.value tuple []) = .ok values)
    (hint : ∀ v ∈ Value.present values, v.isInteger = true) :
    t.fetch (q.aggregating .sum c) =
        (Aggregate.sum.ofList (Value.present values)).map (fun v => [Row.ofValue v]) ∧
      ∀ t', t.Rearranged t' → q.FiltersAlike t t' [] →
        (FitsInt64 (Value.total (Value.present values)) →
          FitsInt64 (Value.gains (Value.present values)) ∧
            FitsInt64 (Value.losses (Value.present values))) →
        t'.fetch (q.aggregating .sum c) = t.fetch (q.aggregating .sum c) := by
  let value (tuple : Tuple) : Value := (c.value tuple []).toOption.getD .null
  have hvalue : ∀ tuple ∈ tuples, c.value tuple [] = .ok (value tuple) := by
    intro tuple htuple
    obtain ⟨i, hi⟩ := List.mem_iff_getElem?.mp htuple
    obtain ⟨v, -, hv⟩ := forall₂_getElem? (mapM_eq_ok.mp hvalues) hi
    show c.value tuple [] = .ok ((c.value tuple []).toOption.getD .null)
    rw [hv]
    rfl
  -- All values have been read, so they are those of the tuples.
  obtain rfl := Except.ok.inj (hvalues.symm.trans (mapM_eq_map hvalue))
  have hrows : t.fetch (q.aggregating .sum c) =
      (Aggregate.sum.ofList (Value.present (tuples.map value))).map fun v => [Row.ofValue v] :=
    rows_aggregating hmatching hvalue
  refine ⟨hrows, fun t' h hfilter hparts => ?_⟩
  -- Over the other tables the same tuples pass, in another order.
  obtain ⟨tuples', hmatching', hperm⟩ := matching_perm h hfilter hmatching
  have hrows' : t'.fetch (q.aggregating .sum c) =
      (Aggregate.sum.ofList (Value.present (tuples'.map value))).map fun v => [Row.ofValue v] :=
    rows_aggregating hmatching' fun tuple htuple => hvalue tuple (hperm.mem_iff.mpr htuple)
  rw [hrows, hrows']
  have hpresent : (Value.present (tuples'.map value)).Perm (Value.present (tuples.map value)) :=
    (hperm.symm.map value).filter _
  -- Without a value there is nothing to add up, whatever the order.
  by_cases hne : Value.present (tuples.map value) = []
  · rw [hne] at hpresent ⊢
    rw [hpresent.eq_nil]
  · rw [(Value.ofList_sum_perm_iff hint hne).mpr hparts _ hpresent]

end Plans

/-- The sum of integers is their total where each partial sum is of 64 bits, and fails where one is not:
in every order if the total is not, and else in some order it is the total. So the order makes no
difference just where the total does not fit, or the positive values and the negative ones have each a
total that does. Then a plan has the same sum over tables whose records stand in another order, if its
filter does not look at that order; without nested queries it does not. -/
theorem Aggregate.sum_correct {vs : List Value} (hint : ∀ v ∈ vs, v.isInteger = true) :
    (vs ≠ [] →
      (Value.PartialSumsFit vs → sum.ofList vs = .ok (.int64 (.ofInt (Value.total vs)))) ∧
      (¬ Value.PartialSumsFit vs → sum.ofList vs = .error (.evaluation .sumOverflow)) ∧
      (¬ FitsInt64 (Value.total vs) → sum.ofList vs = .error (.evaluation .sumOverflow)) ∧
      (FitsInt64 (Value.total vs) →
        ∃ ws, ws.Perm vs ∧ sum.ofList ws = .ok (.int64 (.ofInt (Value.total vs)))) ∧
      ((∀ ws, ws.Perm vs → sum.ofList ws = sum.ofList vs) ↔
        (FitsInt64 (Value.total vs) →
          FitsInt64 (Value.gains vs) ∧ FitsInt64 (Value.losses vs)))) ∧
    ∀ (t : Tables) (q : Plan) (c : Column) (tuples : List Tuple) (values : List Value),
      q.matching ⟨t, q.parameters, .insertion⟩ [] = .ok tuples →
      tuples.mapM (fun tuple => c.value tuple []) = .ok values → Value.present values = vs →
      t.fetch (q.aggregating .sum c) = (sum.ofList vs).map (fun v => [Row.ofValue v]) ∧
      ∀ t', t.Rearranged t' →
        ((∀ p ∈ q.filter, p.isFlat = true) → q.FiltersAlike t t' []) ∧
        (q.FiltersAlike t t' [] →
          (FitsInt64 (Value.total vs) →
            FitsInt64 (Value.gains vs) ∧ FitsInt64 (Value.losses vs)) →
          t'.fetch (q.aggregating .sum c) = t.fetch (q.aggregating .sum c)) := by
  refine ⟨fun hne => ⟨?_, ?_, fun htotal => ?_, fun htotal => ?_, ?_⟩, ?_⟩
  · exact Value.ofList_sum_of_partialSumsFit hne hint
  · exact Value.ofList_sum_of_not_partialSumsFit hne hint
  · exact Value.ofList_sum_of_not_partialSumsFit hne hint fun hfit =>
      htotal (hfit vs (List.prefix_refl vs))
  · exact Value.exists_perm_ofList_sum hint hne htotal
  · exact Value.ofList_sum_perm_iff hint hne
  · rintro t q c tuples values hmatching hvalues rfl
    obtain ⟨hfetch, hsame⟩ := Plan.sum_rearranged hmatching hvalues hint
    exact ⟨hfetch, fun t' h => ⟨fun hflat p hp tuple =>
      Predicate.truth_rearranged h (hflat p hp) _ tuple [], hsame t' h⟩⟩

/-- The importance of all tasks with an owner, in either order of the tables. -/
theorem Aggregate.sum_correct_reversed :
    let q : Plan := ⟨"Todo", [Sample.ownerJoin], some (.isNull (.column ⟨0, 1, "id"⟩) true), .root,
      false, [], none, []⟩
    Sample.tables.fetch (q.aggregating .sum ⟨0, 0, "importance"⟩) = .ok [Row.ofValue (.int64 41)] ∧
      Sample.tables.reversed.fetch (q.aggregating .sum ⟨0, 0, "importance"⟩) =
        .ok [Row.ofValue (.int64 41)] := by
  intro q
  let c : Column := ⟨0, 0, "importance"⟩
  let values : List Value := [.int32 5, .int32 15, .int32 20, .int32 1]
  obtain ⟨tuples, hmatching, hvalues⟩ := Sample.exists_ok_and
    (x := q.matching ⟨Sample.tables, [], .insertion⟩ [])
    (p := fun tuples =>
      decide ((tuples.mapM fun tuple => c.value tuple []).toOption = some values))
    (by decide +kernel)
  have hint : ∀ v ∈ values, v.isInteger = true := by decide
  obtain ⟨hfetch, hsame⟩ := (sum_correct hint).2 Sample.tables q c tuples values hmatching
    (Sample.eq_ok (of_decide_eq_true hvalues)) rfl
  obtain ⟨hflat, hsame⟩ := hsame _ Sample.tables.rearranged_reversed
  -- The filter has no nested query.
  have hfilter := hflat fun p hp => by
    obtain rfl := Option.some.inj hp
    rfl
  have hresult : Sample.tables.fetch (q.aggregating .sum c) = .ok [Row.ofValue (.int64 41)] :=
    hfetch.trans rfl
  exact ⟨hresult, (hsame hfilter fun _ => by decide).trans hresult⟩

/-- The same integers have a sum in one order and none in another, though their total fits. -/
theorem Aggregate.sum_overflow_within_range :
    FitsInt64 (Value.total [.int64 Int64.maxValue, .int64 1, .int64 (-1)]) ∧
      sum.ofList [.int64 Int64.maxValue, .int64 1, .int64 (-1)] =
        .error (.evaluation .sumOverflow) ∧
      sum.ofList [.int64 1, .int64 (-1), .int64 Int64.maxValue] =
        .ok (.int64 Int64.maxValue) :=
  ⟨by decide, rfl, rfl⟩

end EntityQuery
