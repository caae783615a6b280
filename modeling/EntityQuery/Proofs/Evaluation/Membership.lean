import EntityQuery.Proofs.Evaluation.Duality
import EntityQuery.Proofs.Evaluation.Equality
import EntityQuery.Proofs.Evaluation.FloatOrder
import EntityQuery.Proofs.Meaning.Bodies

/-!
# Membership in lists

Membership looks for the value among the candidates and only then for a null among them, while a
disjunction of comparisons goes through the candidates one by one and stops at the first that is equal.
Both say that nothing is known of a null value, and of a value that is not found where a candidate is
null, and both fail where the operand does.
-/

namespace EntityQuery

/-! ## Equality in either direction -/

theorem Number.beq_comm (x y : Float) : (x == y) = (y == x) := by
  rw [beq_eq, beq_eq, order_swap x y]
  rcases Number.order x y with _ | _ | _ | _ <;> rfl

namespace Value

theorem identical_comm (a b : Value) : a.identical b = b.identical a :=
  Bool.eq_iff_iff.mpr ⟨identical_symm, identical_symm⟩

theorem equal_comm (a b : Value) : a.equal b = b.equal a := by
  fun_cases equal a b
  case case1 => rfl
  case case6 x y hx hy _ _ _ _ _ =>
    rw [equal, hx, hy]
    · exact Number.beq_comm x y
    all_goals grind
  case case7 _ _ _ _ _ hnumbers =>
    rw [equal]
    · split
      · next y x hy hx => exact absurd hy (hnumbers x y hx)
      · exact identical_comm a b
    all_goals grind
  all_goals exact BEq.comm

/-- Only null equals null. -/
theorem equal_of_isNull {u v : Value} (hu : u.isNull = false) (hv : v.isNull = true) :
    u.equal v = false := by
  cases v with
  | null =>
    cases u with
    | null => cases hu
    | _ => rfl
  | _ => cases hv

end Value

/-! ## One candidate more -/

theorem membership_singleton (u v : Value) : membership u [v] false = Comparison.eq.truth u v := by
  simp only [membership, Comparison.truth, List.any_cons, List.any_nil, Bool.or_false,
    Value.equal_comm v u]
  cases hu : u.isNull with
  | true => rfl
  | false =>
    cases hv : v.isNull with
    | true => rw [Value.equal_of_isNull hu hv]; rfl
    | false => cases u.equal v <;> rfl

/-- A value is one of the candidates if it was among the others, or is equal to the last. -/
theorem membership_concat (u : Value) (vs : List Value) (w : Value) :
    membership u (vs ++ [w]) false = (membership u vs false).or (Comparison.eq.truth u w) := by
  simp only [membership, Comparison.truth, List.any_append, List.any_cons, List.any_nil,
    Bool.or_false, Value.equal_comm w u]
  cases hu : u.isNull with
  | true => rfl
  | false =>
    cases hw : w.isNull with
    | true =>
      rw [Value.equal_of_isNull hu hw]
      cases vs.any (·.equal u) <;> cases vs.any Value.isNull <;> rfl
    | false =>
      cases vs.any (·.equal u) <;> cases vs.any Value.isNull <;> cases u.equal w <;> rfl

namespace Truth

theorem or_of_left {a : Truth} (h : a = some true) (b : Truth) : a.or b = some true := by
  rw [h, or]

end Truth

/-! ## Lists of comparisons -/

namespace Predicate

/-- That an operand is equal to one of some literals, compared from left to right. -/
def equalsOneOf (operand : Operand) (v : Value) (vs : List Value) : Predicate :=
  vs.foldl (fun p w => p.or (.compare operand .eq (.literal w))) (.compare operand .eq (.literal v))

/-- That an operand is different from each of some literals, compared from left to right. -/
def differsFromEach (operand : Operand) (v : Value) (vs : List Value) : Predicate :=
  vs.foldl (fun p w => p.and (.compare operand .ne (.literal w))) (.compare operand .ne (.literal v))

theorem dual_equalsOneOf (operand : Operand) (v : Value) (vs : List Value) :
    (equalsOneOf operand v vs).dual = differsFromEach operand v vs := by
  rw [equalsOneOf, differsFromEach]
  exact (List.foldl_hom dual fun _ _ => rfl).symm

variable (s : Source) (tuple : Tuple) (outer : List Tuple) (operand : Operand)

theorem truth_compare_literal (op : Comparison) (v : Value) :
    (compare operand op (.literal v)).truth s tuple outer =
      (do let u ← operand.value s tuple outer; .ok (op.truth u v)) := by
  rw [truth]
  rfl

/-- The operand is evaluated for each literal, with the same outcome. -/
theorem truth_equalsOneOf (v : Value) (vs : List Value) :
    (equalsOneOf operand v vs).truth s tuple outer =
      (inList operand (v :: vs) false).truth s tuple outer := by
  induction vs using List.reverseRecOn with
  | nil =>
    rw [equalsOneOf, List.foldl_nil, truth_compare_literal, truth]
    cases operand.value s tuple outer with
    | error e => rfl
    | ok u => exact congrArg Except.ok (membership_singleton u v).symm
  | append_singleton vs w ih =>
    have hlast : equalsOneOf operand v (vs ++ [w]) =
        .or (equalsOneOf operand v vs) (.compare operand .eq (.literal w)) := by
      rw [equalsOneOf, List.foldl_concat, equalsOneOf]
    -- The chain before the last comparison has the truth value of the shorter list.
    rw [hlast, truth, truth, ih, truth_compare_literal, truth]
    cases operand.value s tuple outer with
    | error e => rfl
    | ok u =>
      show (if membership u (v :: vs) false = some true then _ else _) =
        Except.ok (membership u (v :: vs ++ [w]) false)
      rw [membership_concat]
      split
      · next h => rw [h, Truth.or_of_left rfl]
      · rfl

theorem truth_differsFromEach (v : Value) (vs : List Value) :
    (differsFromEach operand v vs).truth s tuple outer =
      (inList operand (v :: vs) true).truth s tuple outer := by
  rw [← dual_equalsOneOf, truth_dual, truth_equalsOneOf, ← truth_dual]
  rfl

/-! ## Nested queries -/

/-- Where the operand is null the nested query is not looked at, and the list makes no difference. -/
theorem truth_inQuery (q : Plan) (negated : Bool) {rows : List Row}
    (h : q.rows s (tuple :: outer) = .ok rows) :
    (inQuery operand q negated).truth s tuple outer =
      (inList operand (firstValues rows) negated).truth s tuple outer := by
  rw [truth, truth]
  cases operand.value s tuple outer with
  | error e => rfl
  | ok u =>
    show (if u.isNull then _ else _) = Except.ok (membership u (firstValues rows) negated)
    split
    · next hnull => rw [membership, if_pos hnull]
    · rw [h]
      rfl

/-- Whatever an operand, the tables and the tuples are, being in a list of candidates has the truth
value, or the failure, of being equal to the first or to the second and so on, and not being in it that
of being different from the first and from the second and so on. Being in a nested query that has rows,
and not being in it, is the same of the first values of the rows. -/
theorem membership_correct :
    (∀ v vs,
      (inList operand (v :: vs) false).truth s tuple outer =
          (equalsOneOf operand v vs).truth s tuple outer ∧
        (inList operand (v :: vs) true).truth s tuple outer =
          (differsFromEach operand v vs).truth s tuple outer) ∧
      ∀ q negated rows, q.rows s (tuple :: outer) = .ok rows →
        (inQuery operand q negated).truth s tuple outer =
          (inList operand (firstValues rows) negated).truth s tuple outer := by
  refine ⟨fun v vs => ⟨?_, ?_⟩, fun q negated rows h => ?_⟩
  · exact (truth_equalsOneOf s tuple outer operand v vs).symm
  · exact (truth_differsFromEach s tuple outer operand v vs).symm
  · exact truth_inQuery s tuple outer operand q negated h

/-- One task has no owner. The first user is among the owners all the same; of the fourth it is not
known. -/
theorem membership_correct_null_candidate :
    let s : Source := ⟨Sample.tables, [], .insertion⟩
    let id : Operand := .column ⟨0, 0, "id"⟩
    let owners : Plan :=
      { Plan.all "Todo" with projection := .items [.expr (.column ⟨0, 0, "user_id"⟩)] }
    let first : Tuple := [Sample.userRecords[0]?]
    let fourth : Tuple := [Sample.userRecords[3]?]
    ∃ v vs,
      owners.rows s [first] = .ok ((v :: vs).map fun u => ⟨[.value u]⟩) ∧
      (inQuery id owners false).truth s first [] = .ok (some true) ∧
      (equalsOneOf id v vs).truth s first [] = .ok (some true) ∧
      (inQuery id owners true).truth s first [] = .ok (some false) ∧
      (differsFromEach id v vs).truth s first [] = .ok (some false) ∧
      owners.rows s [fourth] = .ok ((v :: vs).map fun u => ⟨[.value u]⟩) ∧
      (inQuery id owners false).truth s fourth [] = .ok none ∧
      (equalsOneOf id v vs).truth s fourth [] = .ok none := by
  intro s id owners first fourth
  -- The values that are returned, in order; the number of the first user is one of them.
  let candidates : List Value := [.int64 1, .int64 1, .int64 2, .int64 3, .null, .int64 42]
  have hrows : owners.rows s [first] = .ok (candidates.map fun u => ⟨[.value u]⟩) :=
    Sample.eq_ok (by decide +kernel)
  have hrows' : owners.rows s [fourth] = .ok (candidates.map fun u => ⟨[.value u]⟩) :=
    Sample.eq_ok (by decide +kernel)
  have hmember : (inList id candidates false).truth s first [] = .ok (some true) :=
    Sample.eq_ok (by decide +kernel)
  have hnegated : (inList id candidates true).truth s first [] = .ok (some false) :=
    Sample.eq_ok (by decide +kernel)
  have hunknown : (inList id candidates false).truth s fourth [] = .ok none :=
    Sample.eq_ok (by decide +kernel)
  obtain ⟨hlist, hquery⟩ := membership_correct s first [] id
  obtain ⟨hlist', hquery'⟩ := membership_correct s fourth [] id
  exact ⟨_, _, hrows, (hquery owners false _ hrows).trans hmember,
    (hlist _ _).1.symm.trans hmember, (hquery owners true _ hrows).trans hnegated,
    (hlist _ _).2.symm.trans hnegated, hrows', (hquery' owners false _ hrows').trans hunknown,
    (hlist' _ _).1.symm.trans hunknown⟩

end Predicate

end EntityQuery
