import EntityQuery.Proofs.Evaluation.Likeness
import EntityQuery.Proofs.Evaluation.Outcomes
import EntityQuery.Proofs.Meaning.Bodies
import EntityQuery.Proofs.Statement

/-!
# What the meaning of a body depends on

A body is read through its paths and its parameters alone. Environments in which the records that it
reads are the same, and sources whose parameters compare alike, give the same truth to every clause and
rows that are alike to every body.
-/

namespace EntityQuery

/-! ## Paths on the way to records -/

/-- A path is one of some paths, or stops short on the way to it. -/
def Path.OnWayTo (ps : List Path) (p : Path) : Prop :=
  ∃ q ∈ ps, p.scope = q.scope ∧ p.origin = q.origin ∧ p.hops <+: q.hops

namespace Path.OnWayTo

variable {ps qs : List Path} {p : Path}

theorem of_mem (h : p ∈ ps) : p.OnWayTo ps :=
  ⟨p, h, rfl, rfl, List.prefix_refl _⟩

theorem holder (h : p.OnWayTo ps) : p.holder.OnWayTo ps := by
  obtain ⟨q, hq, hscope, horigin, hhops⟩ := h
  exact ⟨q, hq, hscope, horigin, (List.dropLast_prefix _).trans hhops⟩

theorem trans (h : p.OnWayTo qs) (hqs : ∀ q ∈ qs, q.OnWayTo ps) : p.OnWayTo ps := by
  obtain ⟨q, hq, hscope, horigin, hhops⟩ := h
  obtain ⟨q', hq', hscope', horigin', hhops'⟩ := hqs q hq
  exact ⟨q', hq', hscope.trans hscope', horigin.trans horigin', hhops.trans hhops'⟩

theorem leaving {scope : Nat} (h : p.OnWayTo ps) (hscope : p.scope ≠ scope) :
    p.OnWayTo (Path.leaving scope ps) := by
  obtain ⟨q, hq, heq, hrest⟩ := h
  refine ⟨q, List.mem_filter.mpr ⟨hq, ?_⟩, heq, hrest⟩
  rw [← heq]
  exact bne_iff_ne.mpr hscope

end Path.OnWayTo

/-- The records of an operand lie on the way to those of the item. -/
theorem Expr.records_onWayTo {e : Expr} {p : Path} (h : p ∈ e.records) :
    p.OnWayTo (e.selectedRecords e.records) := by
  cases e with
  | path q =>
    rw [records, List.mem_singleton] at h
    subst h
    exact Path.OnWayTo.holder (.of_mem (List.mem_singleton_self q))
  | aggregate f q =>
    rw [records] at h
    cases h
  | literal | parameter | subquery => exact .of_mem h

/-! ## Environments -/

/-- Environments in which given paths, and those on the way to them, lead to the same record of the
same entity. -/
structure Environment.Same (ps : List Path) (env env' : Environment) : Prop where
  record {p : Path} (hp : p.OnWayTo ps) : env.record p = env'.record p
  entity? {p : Path} (hp : p.OnWayTo ps) : env.entity? p = env'.entity? p
  root : (env.head?.bind fun x => x.2.record .root) = env'.head?.bind fun x => x.2.record .root

namespace Environment.Same

variable {c : Catalog} {s s' : Source} {env env' : Environment} {ps qs : List Path} {p : Path}

theorem mono (h : env.Same ps env') (hqs : ∀ q ∈ qs, q.OnWayTo ps) : env.Same qs env' :=
  ⟨fun hp => h.record (hp.trans hqs), fun hp => h.entity? (hp.trans hqs), h.root⟩

/-- A scene is added to both. Its own paths lead to the same records whatever stands around it. -/
theorem cons {scope : Nat} (h : env.Same (Path.leaving scope ps) env') (x : Scene) :
    Environment.Same ps ((scope, x) :: env) ((scope, x) :: env') := by
  refine ⟨fun {p} hp => ?_, fun {p} hp => ?_, rfl⟩
  · unfold Environment.record
    rw [List.lookup_cons, List.lookup_cons]
    split
    · rfl
    · rename_i hscope
      exact h.record (hp.leaving (beq_eq_false_iff_ne.mp hscope))
  · unfold Environment.entity?
    rw [List.lookup_cons, List.lookup_cons]
    split
    · rfl
    · rename_i hscope
      exact h.entity? (hp.leaving (beq_eq_false_iff_ne.mp hscope))

theorem value (h : env.Same ps env') (hp : p.holder.OnWayTo ps) : env.value p = env'.value p := by
  rw [Environment.value, Environment.value, h.record hp]

theorem attribute? (h : env.Same ps env') (hp : p.holder.OnWayTo ps) :
    env.attribute? p c = env'.attribute? p c := by
  rw [Environment.attribute?, Environment.attribute?, h.entity? hp]

theorem relatedIdentities (h : env.Same ps env') (hs : s.tables = s'.tables) (hp : p.OnWayTo ps)
    (r : Relation) : env.relatedIdentities c s p r = env'.relatedIdentities c s' p r := by
  rw [Environment.relatedIdentities, Environment.relatedIdentities, h.record hp, hs]

theorem elements (h : env.Same ps env') (hs : s.tables = s'.tables) (hp : p.holder.OnWayTo ps) :
    env.elements c s p = env'.elements c s' p := by
  unfold Environment.elements
  rw [h.attribute? hp, h.value hp]
  simp only [h.relatedIdentities hs hp]

theorem isNull (h : env.Same ps env') (hs : s.tables = s'.tables) (hp : p.holder.OnWayTo ps) :
    env.isNull c s p = env'.isNull c s' p := by
  unfold Environment.isNull
  rw [h.attribute? hp, h.value hp, h.record hp]
  simp only [h.relatedIdentities hs hp]

end Environment.Same

/-! ## Items and rows -/

/-- Items that give cells that are alike, given paths that lead to the same records. -/
inductive ItemMeaning.Like (ps : List Path) (R : Value → Value → Prop) :
    ItemMeaning → ItemMeaning → Prop
  | cell {read read' : Environment → Except StoreError Cell} :
      (∀ env env', env.Same ps env' → Alike (Cell.Like R) (read env) (read' env')) →
      Like ps R (.cell read) (.cell read')
  | aggregate {read read' : List Environment → Except StoreError Cell} :
      (∀ envs envs', List.Forall₂ (Environment.Same ps) envs envs' →
        Alike (Cell.Like R) (read envs) (read' envs')) →
      Like ps R (.aggregate read) (.aggregate read')

section Rows

variable {c : Catalog} {R : Value → Value → Prop} (hR : Value.Congruence R)
  {ps : List Path} {env env' : Environment} {envs envs' : List Environment}
  {items items' : List ItemMeaning}

/-- Aggregates are taken over the same values. -/
theorem Aggregate.meaning_same (h : List.Forall₂ (Environment.Same ps) envs envs') (f : Aggregate)
    {path : Option Path} (hpath : ∀ p ∈ path, p.holder.OnWayTo ps) :
    f.meaning path envs = f.meaning path envs' := by
  cases path with
  | none => rw [meaning, meaning, h.length_eq]
  | some p =>
    have hvalues : (envs.map fun env => env.value p) = envs'.map fun env => env.value p := by
      induction h with
      | nil => rfl
      | cons henv _ ih => rw [List.map_cons, List.map_cons, henv.value (hpath p rfl), ih]
    rw [meaning, meaning, hvalues]

theorem ItemMeaning.Like.isAggregate (h : List.Forall₂ (ItemMeaning.Like ps R) items items') :
    items.any ItemMeaning.isAggregate = items'.any ItemMeaning.isAggregate := by
  induction h with
  | nil => rfl
  | cons hi _ ih => cases hi <;> simp [ItemMeaning.isAggregate, ih]

theorem ItemMeaning.Like.cellIn {i i' : ItemMeaning} (h : i.Like ps R i') (henv : env.Same ps env') :
    Alike (Cell.Like R) (i.cellIn env) (i'.cellIn env') := by
  cases h with
  | cell h => exact h env env' henv
  | aggregate h => exact rfl

theorem ItemMeaning.Like.cellOver {i i' : ItemMeaning} (h : i.Like ps R i')
    (henvs : List.Forall₂ (Environment.Same ps) envs envs') :
    Alike (Cell.Like R) (i.cellOver envs) (i'.cellOver envs') := by
  cases h with
  | cell h => exact rfl
  | aggregate h => exact h envs envs' henvs

theorem rowIn_like (hitems : List.Forall₂ (ItemMeaning.Like ps R) items items')
    (henv : env.Same ps env') : Alike (Row.Like R) (rowIn items env) (rowIn items' env') := by
  cases hitems with
  | nil =>
    rw [rowIn, rowIn, henv.root]
    exact List.Forall₂.cons (.record _) .nil
  | cons hi his =>
    refine (Alike.mapM (.cons hi his) fun _ _ h => h.cellIn henv).bind fun cells cells' hcells => ?_
    exact hcells

theorem OrderTerm.value_same (h : env.Same ps env') {t : OrderTerm}
    (ht : ∀ p ∈ t.records, p.OnWayTo ps) : t.value env = t.value env' := by
  unfold OrderTerm.value
  cases hexpr : t.expr with
  | path p =>
    refine h.value (ht _ ?_)
    rw [records, hexpr]
    exact List.mem_singleton_self _
  | literal | parameter | subquery | aggregate => rfl

theorem orderEnvironments_same (h : List.Forall₂ (Environment.Same ps) envs envs')
    {ts : List OrderTerm} (hts : ∀ p ∈ ts.flatMap OrderTerm.records, p.OnWayTo ps) :
    List.Forall₂ (Environment.Same ps) (orderEnvironments ts envs) (orderEnvironments ts envs') := by
  have hkeyed : List.Forall₂ (fun a b => a.1 = b.1 ∧ Environment.Same ps a.2 b.2)
      (envs.map fun env => (ts.map fun t => t.value env, env))
      (envs'.map fun env => (ts.map fun t => t.value env, env)) := by
    rw [List.forall₂_map_left_iff, List.forall₂_map_right_iff]
    refine h.imp fun env env' henv => ⟨List.map_congr_left fun t ht => ?_, henv⟩
    exact OrderTerm.value_same henv fun p hp => hts p (List.mem_flatMap.mpr ⟨t, ht, hp⟩)
  unfold orderEnvironments
  rw [List.forall₂_map_left_iff, List.forall₂_map_right_iff]
  refine (sortBy_forall₂ _ _ ?_ hkeyed).imp fun _ _ h => h.2
  intro a a' b b' hab hab'
  rw [hab.1, hab'.1]

include hR in
theorem rowsOver_like (hitems : List.Forall₂ (ItemMeaning.Like ps R) items items')
    (henvs : List.Forall₂ (Environment.Same ps) envs envs') {ts : List OrderTerm}
    (hts : ∀ p ∈ ts.flatMap OrderTerm.records, p.OnWayTo ps) (distinct : Bool) :
    Alike (List.Forall₂ (Row.Like R)) (rowsOver items ts distinct envs)
      (rowsOver items' ts distinct envs') := by
  unfold rowsOver
  rw [ItemMeaning.Like.isAggregate hitems]
  split
  · refine (Alike.mapM hitems fun _ _ h => h.cellOver henvs).bind fun cells cells' hcells => ?_
    exact List.Forall₂.cons hcells .nil
  · have hsorted := orderEnvironments_same henvs hts
    refine (Alike.mapM hsorted fun _ _ h => rowIn_like hitems h).bind fun rows rows' hrows => ?_
    cases distinct with
    | true => exact distinctRows_like hR .nil hrows
    | false => exact hrows

include hR in
theorem firstValues_like {rows rows' : List Row} (h : List.Forall₂ (Row.Like R) rows rows') :
    List.Forall₂ R (firstValues rows) (firstValues rows') := by
  unfold firstValues
  rw [List.forall₂_map_left_iff, List.forall₂_map_right_iff]
  refine h.imp fun ⟨cells⟩ ⟨cells'⟩ hrow => ?_
  change List.Forall₂ (Cell.Like R) cells cells' at hrow
  cases hrow with
  | nil => exact hR.refl .null
  | cons hcell _ => exact hcell.toValue hR

include hR in
theorem firstValue_like {rows rows' : List Row} (h : List.Forall₂ (Row.Like R) rows rows') :
    R (firstValue rows) (firstValue rows') := by
  cases h with
  | nil => exact hR.refl .null
  | @cons row row' _ _ hrow _ =>
    obtain ⟨cells⟩ := row
    obtain ⟨cells'⟩ := row'
    change List.Forall₂ (Cell.Like R) cells cells' at hrow
    cases hrow with
    | nil => exact hR.refl .null
    | cons hcell _ => exact hcell.toValue hR

end Rows

/-! ## Filters -/

theorem Truth.and_eq_true {v w : Truth} :
    v.and w = some true ↔ v = some true ∧ w = some true := by
  rcases v with _ | _ | _ <;> rcases w with _ | _ | _ <;> decide

theorem Condition.and_eq_true {p q : Condition} {env : Environment} :
    Condition.and p q env = .ok (some true) ↔
      p env = .ok (some true) ∧ q env = .ok (some true) := by
  constructor
  · intro h
    obtain ⟨v, hp, h⟩ := bind_eq_ok.mp h
    split at h
    · rename_i hfalse
      subst hfalse
      cases h
    · obtain ⟨w, hq, h⟩ := bind_eq_ok.mp h
      obtain ⟨rfl, rfl⟩ := Truth.and_eq_true.mp (Except.ok.inj h)
      exact ⟨hp, hq⟩
  · rintro ⟨hp, hq⟩
    refine bind_eq_ok.mpr ⟨some true, hp, ?_⟩
    rw [if_neg (by decide), hq]
    rfl

open Classical in
theorem keep_some {p : Condition} {envs kept : List Environment}
    (h : Condition.keep (some p) envs = .ok kept) :
    kept = envs.filter fun env => p env = .ok (some true) := by
  rw [Condition.keep] at h
  induction envs generalizing kept with
  | nil =>
    cases h
    rfl
  | cons env envs ih =>
    obtain ⟨first, hfirst, h⟩ := bind_eq_ok.mp h
    obtain ⟨rest, hrest, h⟩ := bind_eq_ok.mp h
    obtain ⟨v, hv, hfirst⟩ := bind_eq_ok.mp hfirst
    cases h
    cases hfirst
    rw [ih hrest, List.filter_cons, hv]
    by_cases htrue : v = some true
    · subst htrue
      simp
    · simp [htrue]

/-- A filter that is true in an environment, or missing. -/
def Condition.Passes (p : Option Condition) (env : Environment) : Prop :=
  ∀ q ∈ p, q env = .ok (some true)

open Classical in
/-- What passes a filter is kept. -/
theorem Condition.keep_eq {p : Option Condition} {envs kept : List Environment}
    (h : Condition.keep p envs = .ok kept) : kept = envs.filter fun env => Condition.Passes p env := by
  cases p with
  | none =>
    cases h
    refine (List.filter_eq_self.mpr fun env _ => decide_eq_true ?_).symm
    rintro q ⟨⟩
  | some p =>
    rw [keep_some h]
    simp only [Condition.Passes, Option.mem_def, Option.some.injEq, forall_eq']

section Filters

variable {ps : List Path} {envs envs' : List Environment}

/-- Conditions that are the same in environments in which given paths lead to the same records. -/
def Condition.Same (ps : List Path) (p q : Condition) : Prop :=
  ∀ env env', env.Same ps env' → p env = q env'

theorem combine_same {xs ys : List (Statement Condition)}
    (h : List.Forall₂ (Statement.Rel (Condition.Same ps)) xs ys) :
    Option.Rel (Condition.Same ps) (Statement.combine .and .or xs) (Statement.combine .and .or ys) := by
  refine Statement.combine_rel ?_ ?_ h
  · intro p q p' q' hpq hpq' env env' henv
    rw [Condition.and, Condition.and, hpq env env' henv, hpq' env env' henv]
  · intro p q p' q' hpq hpq' env env' henv
    rw [Condition.or, Condition.or, hpq env env' henv, hpq' env env' henv]

theorem keep_same (henvs : List.Forall₂ (Environment.Same ps) envs envs') {p q : Option Condition}
    (h : Option.Rel (Condition.Same ps) p q) :
    Alike (List.Forall₂ (Environment.Same ps)) (Condition.keep p envs) (Condition.keep q envs') := by
  cases h with
  | none => exact henvs
  | some hpq =>
    refine Alike.flatMapE henvs fun env env' henv => ?_
    rw [hpq env env' henv]
    refine (Alike.refl _).bind fun v w hvw => ?_
    subst hvw
    split
    · exact List.Forall₂.cons henv .nil
    · exact List.Forall₂.nil

end Filters

/-! ## Bodies -/

/-- Sources with the same tables, whose parameters are bound to related values. -/
structure Source.Like (R : Value → Value → Prop) (s s' : Source) : Prop where
  tables : s.tables = s'.tables
  parameter (name : String) : Alike R (s.parameter name) (s'.parameter name)

theorem Source.parameter_like {R : Value → Value → Prop} {s s' : Source} {name : String}
    (h : Option.Rel R (s.parameters.lookup name) (s'.parameters.lookup name)) :
    Alike R (s.parameter name) (s'.parameter name) := by
  unfold parameter
  revert h
  generalize s.parameters.lookup name = v
  generalize s'.parameters.lookup name = w
  intro h
  cases h with
  | none => exact rfl
  | some hvalue => exact hvalue

section Bodies

variable {c : Catalog} {R : Value → Value → Prop} {s s' : Source} {ps : List Path}

/-- A value that is read alike in environments in which given paths lead to the same records. -/
def ValueLike (ps : List Path) (R : Value → Value → Prop)
    (f g : Environment → Except StoreError Value) : Prop :=
  ∀ env env', env.Same ps env' → Alike R (f env) (g env')

theorem Expr.item_like (hR : Value.Congruence R) (e : Expr)
    (hps : ∀ p ∈ e.selectedRecords e.records, p.OnWayTo ps)
    (h : ValueLike ps R (e.meaning c s) (e.meaning c s')) :
    (e.item c (e.meaning c s)).Like ps R (e.item c (e.meaning c s')) := by
  cases e with
  | path p =>
    -- The record that holds the attribute is on the way of the path.
    have hp : p.OnWayTo ps := hps p (List.mem_singleton_self p)
    refine .cell fun env env' henv => ?_
    simp only [henv.attribute? hp.holder, henv.value hp.holder, henv.record hp]
    split
    · exact Cell.Like.value (hR.refl _)
    · exact Cell.Like.record _
  | aggregate f p =>
    have hp : ∀ q ∈ p, q.holder.OnWayTo ps := by
      rintro q rfl
      exact hps _ (List.mem_singleton_self _)
    refine .aggregate fun envs envs' henvs => ?_
    rw [Aggregate.meaning_same henvs f hp]
    refine (Alike.refl _).bind fun v w hvw => ?_
    subst hvw
    exact Cell.Like.value (hR.refl v)
  | literal | parameter | subquery =>
    -- Anything else is a value.
    refine .cell fun env env' henv => ?_
    exact (h env env' henv).bind fun v w hvw => Cell.Like.value hvw

theorem Expr.isNull_same (hR : Value.Congruence R) (hs : s.tables = s'.tables) (e : Expr)
    (hps : ∀ p ∈ e.records, p.OnWayTo ps) (h : ValueLike ps R (e.meaning c s) (e.meaning c s'))
    {env env' : Environment} (henv : env.Same ps env') :
    e.isNull c s (e.meaning c s) env = e.isNull c s' (e.meaning c s') env' := by
  cases e with
  | path p =>
    refine henv.isNull hs (hps _ ?_)
    rw [records]
    exact List.mem_singleton_self _
  | literal | parameter | subquery | aggregate =>
    refine Alike.eq ((h env env' henv).bind fun v w hvw => ?_)
    exact hR.isNull hvw

/-- What LIKE says of a value, read off the text that it holds. -/
def likeTruth (pattern : String) (negated : Bool) (v : Value) : Except StoreError Truth :=
  if v.isNull then .ok none
  else match v.string? with
    | some text => .ok (some (Like.holds pattern text != negated))
    | none => .error (.evaluation (.likeOnNonText v.typeName))

theorem Clause.meaning_like (operand : Expr) (pattern : String) (negated : Bool)
    (env : Environment) : (Clause.like operand pattern negated).meaning c s env =
      operand.meaning c s env >>= likeTruth pattern negated := by
  rw [meaning]
  refine congrArg _ (funext fun v => ?_)
  cases v <;> rfl

theorem likeTruth_congr (hR : Value.Congruence R) {v w : Value} (h : R v w) (pattern : String)
    (negated : Bool) : likeTruth pattern negated v = likeTruth pattern negated w := by
  rw [likeTruth, likeTruth, hR.isNull h, hR.string? h, hR.typeName h]

/-- The rows of a body are alike if its conditions are the same and its items are alike. -/
theorem Body.rows_like (hR : Value.Congruence R) (hs : s.tables = s'.tables) {b : Body}
    {items items' : List ItemMeaning} {records : List Path} {env env' : Environment}
    (henv : env.Same (Path.leaving b.scope (b.records records)) env')
    (hstatements : List.Forall₂ (Statement.Rel (Condition.Same (b.records records)))
      (statementsMeaning c s b.statements) (statementsMeaning c s' b.statements))
    (hitems : List.Forall₂ (ItemMeaning.Like (b.records records) R) items items') :
    Alike (List.Forall₂ (Row.Like R)) (b.meaning c s items records env)
      (b.meaning c s' items' records env') := by
  rw [Body.meaning_eq, Body.meaning_eq, hs]
  refine (Alike.refl _).bind fun tuples tuples' htuples => ?_
  subst htuples
  -- Both sides bind the same tuples, each in an environment of its own.
  have henvs : List.Forall₂ (Environment.Same (b.records records))
      (tuples.map fun tuple => (b.scope, (⟨b.layout c records, tuple⟩ : Scene)) :: env)
      (tuples.map fun tuple => (b.scope, (⟨b.layout c records, tuple⟩ : Scene)) :: env') := by
    rw [List.forall₂_map_left_iff, List.forall₂_map_right_iff]
    exact List.forall₂_same.mpr fun tuple _ => henv.cons _
  refine (keep_same henvs (combine_same hstatements)).bind fun kept kept' hkept => ?_
  refine rowsOver_like hR hitems hkept (fun p hp => .of_mem ?_) b.distinct
  rw [Body.records_eq]
  exact List.mem_append_right _ hp

/-- The rows of a nested query are alike if its parts are. -/
theorem Body.nested_like (hR : Value.Congruence R) (hs : s.Like R s') {body : Body}
    {returns : Expr} {env env' : Environment} (henv : env.Same (Expr.subquery body returns).records env')
    (hstatements : ∀ ps, (∀ p ∈ statementsRecords body.statements, p.OnWayTo ps) →
      List.Forall₂ (Statement.Rel (Condition.Same ps)) (statementsMeaning c s body.statements)
        (statementsMeaning c s' body.statements))
    (hreturns : ∀ ps, (∀ p ∈ returns.records, p.OnWayTo ps) →
      ValueLike ps R (returns.meaning c s) (returns.meaning c s')) :
    Alike (List.Forall₂ (Row.Like R))
      (body.meaning c s [returns.item c (returns.meaning c s)]
        (returns.selectedRecords returns.records) env)
      (body.meaning c s' [returns.item c (returns.meaning c s')]
        (returns.selectedRecords returns.records) env') := by
  -- What is returned is among the records that the body binds.
  have hitem : ∀ p ∈ returns.selectedRecords returns.records,
      p.OnWayTo (body.records (returns.selectedRecords returns.records)) := by
    intro p hp
    rw [Body.records_eq]
    exact .of_mem (List.mem_append_left _ (List.mem_append_right _ hp))
  rw [Expr.records] at henv
  refine Body.rows_like hR hs.tables henv (hstatements _ fun p hp => .of_mem ?_)
    (.cons (Expr.item_like hR returns hitem (hreturns _ fun p hp => ?_)) .nil)
  · rw [Body.records_eq]
    exact List.mem_append_left _ (List.mem_append_left _ hp)
  · exact (Expr.records_onWayTo hp).trans hitem

mutual

/-- The value of an expression is read alike. -/
theorem Expr.meaning_like (hR : Value.Congruence R) (hs : s.Like R s') (e : Expr) {ps : List Path}
    (hps : ∀ p ∈ e.records, p.OnWayTo ps) : ValueLike ps R (e.meaning c s) (e.meaning c s') := by
  intro env env' henv
  replace henv := henv.mono hps
  match e with
  | .path p =>
    rw [Expr.meaning, Expr.meaning]
    show R (env.value p) (env'.value p)
    rw [Expr.records] at henv
    rw [henv.value (.of_mem (List.mem_singleton_self _))]
    exact hR.refl _
  | .literal v =>
    rw [Expr.meaning, Expr.meaning]
    exact hR.refl v
  | .parameter name v =>
    rw [Expr.meaning, Expr.meaning]
    exact hs.parameter name
  | .subquery body returns =>
    rw [Expr.meaning, Expr.meaning]
    refine (Body.nested_like hR hs henv (fun ps => Body.statements_same hR hs body)
      (fun ps => Expr.meaning_like hR hs returns)).bind fun rows rows' hrows => ?_
    exact firstValue_like hR hrows
  | .aggregate f p =>
    rw [Expr.meaning, Expr.meaning]
    exact rfl
termination_by structural e

/-- The rows of a nested query are alike. -/
theorem Expr.rowsMeaning_like (hR : Value.Congruence R) (hs : s.Like R s') (e : Expr)
    {env env' : Environment} (henv : env.Same e.records env') :
    Alike (List.Forall₂ (Row.Like R)) (e.rowsMeaning c s env) (e.rowsMeaning c s' env') := by
  match e with
  | .path p =>
    rw [Expr.rowsMeaning, Expr.rowsMeaning]
    · exact List.Forall₂.nil
    all_goals nofun
  | .literal v =>
    rw [Expr.rowsMeaning, Expr.rowsMeaning]
    · exact List.Forall₂.nil
    all_goals nofun
  | .parameter name v =>
    rw [Expr.rowsMeaning, Expr.rowsMeaning]
    · exact List.Forall₂.nil
    all_goals nofun
  | .subquery body returns =>
    rw [Expr.rowsMeaning, Expr.rowsMeaning]
    exact Body.nested_like hR hs henv (fun ps => Body.statements_same hR hs body)
      (fun ps => Expr.meaning_like hR hs returns)
  | .aggregate f p =>
    rw [Expr.rowsMeaning, Expr.rowsMeaning]
    · exact List.Forall₂.nil
    all_goals nofun
termination_by structural e

/-- The truth of a clause is the same. -/
theorem Clause.meaning_same (hR : Value.Congruence R) (hs : s.Like R s') (clause : Clause)
    {ps : List Path} (hps : ∀ p ∈ clause.records, p.OnWayTo ps) :
    Condition.Same ps (clause.meaning c s) (clause.meaning c s') := by
  intro env env' henv
  refine Alike.eq ?_
  match clause with
  | .compare left op right =>
    rw [Clause.records] at hps
    rw [Clause.meaning, Clause.meaning]
    refine (Expr.meaning_like hR hs left (fun p hp => hps p (List.mem_append_left _ hp)) env env'
      henv).bind fun v w hvw => ?_
    refine (Expr.meaning_like hR hs right (fun p hp => hps p (List.mem_append_right _ hp)) env env'
      henv).bind fun v' w' hvw' => ?_
    exact Comparison.truth_like hR hvw hvw' op
  | .like operand pattern negated =>
    rw [Clause.records] at hps
    rw [Clause.meaning_like, Clause.meaning_like]
    refine (Expr.meaning_like hR hs operand hps env env' henv).bind fun v w hvw => ?_
    rw [likeTruth_congr hR hvw]
    exact .refl _
  | .inList operand values negated =>
    rw [Clause.records] at hps
    rw [Clause.meaning, Clause.meaning]
    refine (Expr.meaning_like hR hs operand hps env env' henv).bind fun v w hvw => ?_
    exact membership_like hR hvw (List.forall₂_same.mpr fun v _ => hR.refl v) negated
  | .inSubquery operand subquery negated =>
    rw [Clause.records] at hps
    have hsubquery := henv.mono fun p hp => hps p (List.mem_append_right operand.records hp)
    rw [Clause.meaning, Clause.meaning]
    refine (Expr.meaning_like hR hs operand (fun p hp => hps p (List.mem_append_left _ hp)) env env'
      henv).bind fun v w hvw => ?_
    -- Where the operand is null the rows are not asked for, on either side.
    rw [hR.isNull hvw]
    split
    · exact rfl
    · refine (Expr.rowsMeaning_like hR hs subquery hsubquery).bind fun rows rows' hrows => ?_
      exact membership_like hR hvw (firstValues_like hR hrows) negated
  | .isNull operand negated =>
    rw [Clause.records] at hps
    have hnull :=
      Expr.isNull_same hR hs.tables operand hps (Expr.meaning_like hR hs operand hps) henv
    rw [Clause.meaning, Clause.meaning]
    beta_reduce
    rw [hnull]
    exact .refl _
  | .isEmpty collection negated =>
    rw [Clause.records] at hps
    rw [Clause.meaning, Clause.meaning]
    beta_reduce
    rw [henv.elements hs.tables (hps _ (List.mem_singleton_self _))]
    exact .refl _
  | .isMember value collection negated =>
    rw [Clause.records] at hps
    rw [Clause.meaning, Clause.meaning]
    refine (Expr.meaning_like hR hs value (fun p hp => hps p (List.mem_append_left _ hp)) env env'
      henv).bind fun v w hvw => ?_
    rw [hR.isNull hvw,
      henv.elements hs.tables (hps _ (List.mem_append_right _ (List.mem_singleton_self _)))]
    split
    · exact rfl
    · refine (Alike.refl _).bind fun vs vs' hvs => ?_
      subst hvs
      -- Membership compares each element with the value.
      have hequal : ∀ u : Value, u.equal v = u.equal w := fun u => hR.equal (hR.refl u) hvw
      simp only [hequal]
      exact rfl
termination_by structural clause

theorem statementMeaning_same (hR : Value.Congruence R) (hs : s.Like R s') (x : Statement Clause)
    {ps : List Path} (hps : ∀ p ∈ statementRecords x, p.OnWayTo ps) :
    Statement.Rel (Condition.Same ps) (statementMeaning c s x) (statementMeaning c s' x) := by
  match x with
  | .or => exact .or
  | .clause clause => exact .clause (Clause.meaning_same hR hs clause hps)
termination_by structural x

theorem statementsMeaning_same (hR : Value.Congruence R) (hs : s.Like R s')
    (xs : List (Statement Clause)) {ps : List Path}
    (hps : ∀ p ∈ statementsRecords xs, p.OnWayTo ps) :
    List.Forall₂ (Statement.Rel (Condition.Same ps)) (statementsMeaning c s xs)
      (statementsMeaning c s' xs) := by
  match xs with
  | [] => exact .nil
  | x :: xs =>
    rw [statementsRecords] at hps
    exact .cons (statementMeaning_same hR hs x fun p hp => hps p (List.mem_append_left _ hp))
      (statementsMeaning_same hR hs xs fun p hp => hps p (List.mem_append_right _ hp))
termination_by structural xs

theorem Body.statements_same (hR : Value.Congruence R) (hs : s.Like R s') (b : Body) {ps : List Path}
    (hps : ∀ p ∈ statementsRecords b.statements, p.OnWayTo ps) :
    List.Forall₂ (Statement.Rel (Condition.Same ps)) (statementsMeaning c s b.statements)
      (statementsMeaning c s' b.statements) := by
  match b with
  | ⟨scope, entity, statements, joins, selection, orderBy, distinct, assignments⟩ =>
    exact statementsMeaning_same hR hs statements hps
termination_by structural b

end

end Bodies

end EntityQuery
