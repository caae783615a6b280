import EntityQuery.Proofs.Meaning.Alignment
import EntityQuery.Proofs.Meaning.Bodies
import EntityQuery.Proofs.Planning.Planned
import EntityQuery.Proofs.Statement

/-!
# Plans answer what bodies mean

The plan of a body gives the rows that the body means, or fails in the same way. Levels and slot
numbers are read at run time where the planner counted them, in frames that no later binding disturbs;
by name the same records are found.
-/

namespace EntityQuery

section Agreement

variable {c : Catalog} {s s₀ : Source}

/-- A source that has the tables of another one and at least its parameters, and sorts by insertion. -/
structure Source.Extends (s s₀ : Source) : Prop where
  tables : s.tables = s₀.tables
  parameters : ∀ name v, s₀.parameters.lookup name = some v → s.parameters.lookup name = some v
  sorter : s.sorter = .insertion

/-- An expression whose planned operands have the value that it means. -/
def Expr.Agrees (c : Catalog) (s s₀ : Source) (e : Expr) : Prop :=
  ∀ {frames : List Frame} {o : Operand} {t : StaticType} {env : Environment} {tuple : Tuple}
    {outer : List Tuple}, e.PlannedAs c s₀.parameters frames o t →
    Aligned c frames env (tuple :: outer) → o.value s tuple outer = e.meaning c s₀ env

/-! ## Collections and relations -/

section Reading

variable {frames : List Frame} {env : Environment} {tuple : Tuple} {outer : List Tuple} {p : Path}

theorem Aligned.relatedIdentities (hs : s.Extends s₀)
    (h : Aligned c frames env (tuple :: outer)) {level slot : Nat} {r : Relation}
    (hp : p.target? c frames = some (.relation level slot r)) {rows : RelatedRows}
    (hrows : c.relatedRows level slot r = .ok rows) :
    s.relatedIdentities rows tuple outer = env.relatedIdentities c s₀ p.holder r := by
  obtain ⟨target, htarget, rfl⟩ := Catalog.relatedRows_ok.mp hrows
  obtain ⟨hrecord, -⟩ := h.relation hp
  simp only [Source.relatedIdentities, hrecord, bind, Except.bind, Environment.relatedIdentities,
    hs.tables, htarget, Option.map_some, Option.getD_some]

theorem Aligned.elements (hs : s.Extends s₀) (h : Aligned c frames env (tuple :: outer))
    {collection : Collection} {element : FieldType} (hp : p.CollectedAs c frames collection element) :
    s.elements collection tuple outer = env.elements c s₀ p := by
  cases hp with
  | stored htarget htype =>
    obtain ⟨-, hvalue, hlast, hattribute⟩ := h.field htarget
    simp only [Source.elements, hvalue, Environment.elements, hattribute, hlast, Option.getD_some]
    rfl
  | related htarget hmany hto hidentity hrows =>
    simp only [Source.elements, Environment.elements, (h.relation htarget).2]
    exact h.relatedIdentities hs htarget hrows

/-- The test that a to-one relation leads nowhere. -/
theorem Aligned.relationIsNull (hs : s.Extends s₀) (h : Aligned c frames env (tuple :: outer))
    {level slot : Nat} {r : Relation} (hp : p.target? c frames = some (.relation level slot r))
    {negated : Bool} {q : Predicate} (hq : c.relationIsNull p level slot r negated = .ok q) :
    q.truth s tuple outer = (do
      let null ← env.isNull c s₀ p
      .ok (some (null != negated))) := by
  obtain ⟨hrecord, hattribute⟩ := h.relation hp
  obtain ⟨owner, howner, -, ⟨hfield, rfl⟩ | ⟨hfield, rows, hrows, rfl⟩⟩ :=
    Catalog.relationIsNull_ok.mp hq
  · have hne : owner.identityField ≠ r.fromField := fun h => hfield h.symm
    simp only [Predicate.truth, Operand.value, Column.value, hrecord, bind, Except.bind,
      Environment.isNull, hattribute, howner, Option.map_some, Option.some.injEq, if_neg hne]
  · simp only [Predicate.truth, Source.elements, h.relatedIdentities hs hp hrows,
      Environment.isNull, hattribute, howner, Option.map_some, hfield, if_true]
    cases env.relatedIdentities c s₀ p.holder r with
    | error e => rfl
    | ok vs => rfl

/-- The test that an operand is null. -/
theorem Expr.PlannedAs.isNull (h : Aligned c frames env (tuple :: outer)) {e : Expr} {o : Operand}
    {t : StaticType} (he : e.PlannedAs c s₀.parameters frames o t)
    (value : Environment → Except StoreError Value) (hvalue : value env = e.meaning c s₀ env) :
    e.isNull c s₀ value env = (do
      let v ← e.meaning c s₀ env
      .ok v.isNull) := by
  cases he with
  | path htarget =>
    rw [Expr.isNull, Environment.isNull, (h.field htarget).2.2.2, Expr.meaning]
    rfl
  | literal | parameter | subquery => exact congrArg (· >>= _) hvalue

end Reading

/-! ## Items -/

section Items

variable {frames : List Frame} {outer : List Tuple} {e : Expr} {x : SelectedItem}

theorem Expr.SelectedAs.isAggregate_item (h : e.SelectedAs c s₀.parameters frames x)
    (value : Environment → Except StoreError Value) :
    x.item.isAggregate = (e.item c value).isAggregate := by
  cases h with
  | path _ hselected => cases hselected <;> rfl
  | aggregate hplanned => cases hplanned <;> rfl
  | operand hpath hagg hplanned =>
    cases hplanned with
    | path _ => exact absurd rfl (hpath _)
    | literal | parameter | subquery => rfl

theorem Expr.SelectedAs.cell (he : e.Agrees c s s₀) {env : Environment} {tuple : Tuple}
    (halign : Aligned c frames env (tuple :: outer)) (h : e.SelectedAs c s₀.parameters frames x)
    (hitem : x.item.isAggregate = false) :
    x.item.cell s tuple outer = (e.item c (e.meaning c s₀)).cellIn env := by
  cases h with
  | path hext hselected =>
    cases hselected with
    | field htarget =>
      -- The hop was planned in an earlier frame, and the last one extends it.
      obtain ⟨-, hvalue, -, hattribute⟩ := halign.field (hext.target? htarget)
      simp only [Item.cell, Operand.value, hvalue, bind, Except.bind, Expr.item,
        ItemMeaning.cellIn, hattribute]
    | related htarget hmany hf hjoin =>
      obtain ⟨g, hg, hfg⟩ := forall₂_getElem? hext hf
      have hrecord := halign.related (hext.target? htarget) hg (hfg.joinAlong? hjoin)
      simp only [Item.cell, hrecord, bind, Except.bind, Expr.item, ItemMeaning.cellIn,
        (halign.relation (hext.target? htarget)).2]
    | record htarget =>
      obtain ⟨hrecord, hattribute⟩ := halign.record (hext.target? htarget)
      simp only [Item.cell, hrecord, bind, Except.bind, Expr.item, ItemMeaning.cellIn, hattribute]
  | aggregate hplanned => cases hplanned <;> cases hitem
  | operand hpath hagg hplanned =>
    rw [Item.cell, he hplanned halign]
    -- Paths and aggregates are selected in their own way.
    cases e with
    | path p => exact absurd rfl (hpath p)
    | aggregate f p => exact absurd rfl (hagg f p)
    | literal | parameter | subquery => rfl

/-- Environments and tuples that belong together in the same frames. -/
abbrev AlignedAll (c : Catalog) (frames : List Frame) (outer : List Tuple)
    (envs : List Environment) (tuples : List Tuple) : Prop :=
  List.Forall₂ (fun env tuple => Aligned c frames env (tuple :: outer)) envs tuples

theorem Expr.SelectedAs.aggregateCell {envs : List Environment} {tuples : List Tuple}
    (halign : AlignedAll c frames outer envs tuples) (h : e.SelectedAs c s₀.parameters frames x)
    (hitem : x.item.isAggregate = true) (value : Environment → Except StoreError Value) :
    x.item.aggregateCell tuples outer = (e.item c value).cellOver envs := by
  cases h with
  | path _ hselected => cases hselected <;> cases hitem
  | operand _ _ hplanned => cases hplanned <;> cases hitem
  | aggregate hplanned =>
    cases hplanned with
    | rows =>
      simp only [Item.aggregateCell, Aggregate.ofTuples, Expr.item, ItemMeaning.cellOver,
        Aggregate.meaning, halign.length_eq]
    | @column f p column field t entity label htarget htype =>
      have hvalues : tuples.mapM (fun tuple => column.value tuple outer) =
          .ok (envs.map fun env => env.value p) :=
        mapM_ok halign fun env tuple h => (h.field htarget).2.1
      simp only [Item.aggregateCell, Aggregate.ofTuples, hvalues, Expr.item, ItemMeaning.cellOver,
        Aggregate.meaning]
      rfl

end Items

/-! ## Rows -/

section Rows

variable {frames : List Frame} {outer : List Tuple} {envs : List Environment}
  {tuples : List Tuple} {es : List Expr} {selected : List SelectedItem}

theorem orderKeys_eq {keys : List SortKey} {ds : List Direction}
    (h : keys.map SortKey.direction = ds) (as bs : List Value) :
    orderKeys keys as bs = orderValues ds as bs := by
  subst h
  induction keys generalizing as bs with
  | nil => rfl
  | cons key keys ih =>
    cases as with
    | nil => rfl
    | cons a as =>
      cases bs with
      | nil => rfl
      | cons b bs => rw [orderKeys, List.map_cons, orderValues, ih]

/-- Tuples and environments are ordered alike. -/
theorem AlignedAll.sorted (halign : AlignedAll c frames outer envs tuples) {ts : List OrderTerm}
    {keys : List SortKey} (hkeys : List.Forall₂ (OrderTerm.PlannedAs c frames) ts keys) :
    ∃ sorted, sortTuples .insertion keys tuples outer = .ok sorted ∧
      AlignedAll c frames outer (orderEnvironments ts envs) sorted := by
  have hdirections : keys.map SortKey.direction = ts.map OrderTerm.direction := by
    induction hkeys with
    | nil => rfl
    | cons hkey _ ih =>
      obtain ⟨p, column, f, -, -, -, -, rfl⟩ := hkey
      rw [List.map_cons, List.map_cons, ih]
  have hread : ∀ env tuple, Aligned c frames env (tuple :: outer) →
      keys.mapM (fun (key : SortKey) => key.column.value tuple outer) =
        .ok (ts.map fun t => t.value env) := by
    intro env tuple h
    refine mapM_ok hkeys fun t key hkey => ?_
    obtain ⟨p, column, f, hp, htarget, -, -, rfl⟩ := hkey
    rw [(h.field htarget).2.1, OrderTerm.value, hp]
  -- Sorting only sees the values that both sides read alike.
  have hkeyed : ∃ keyed, tuples.mapM (fun tuple => (do
        let values ← keys.mapM fun (key : SortKey) => key.column.value tuple outer
        .ok (values, tuple) : Except StoreError (List Value × Tuple))) = .ok keyed ∧
      List.Forall₂ (fun (x : List Value × Environment) (y : List Value × Tuple) =>
          x.1 = y.1 ∧ Aligned c frames x.2 (y.2 :: outer))
        (envs.map fun env => (ts.map fun t => t.value env, env)) keyed := by
    induction halign with
    | nil => exact ⟨[], rfl, .nil⟩
    | cons h _ ih =>
      obtain ⟨keyed, hkeyed, hall⟩ := ih
      rw [List.mapM_cons, hread _ _ h, hkeyed]
      exact ⟨_, rfl, .cons ⟨rfl, h⟩ hall⟩
  obtain ⟨keyed, hkeyed, hall⟩ := hkeyed
  refine ⟨_, by rw [sortTuples, hkeyed]; rfl, ?_⟩
  have hsorted := sortBy_forall₂ (fun a b => orderValues (ts.map OrderTerm.direction) a.1 b.1)
    (fun a b => orderKeys keys a.1 b.1) (by
      rintro a a' b b' ⟨ha, -⟩ ⟨hb, -⟩
      rw [ha, hb, orderKeys_eq hdirections]) hall
  unfold orderEnvironments AlignedAll
  rw [List.forall₂_map_left_iff, List.forall₂_map_right_iff]
  exact hsorted.imp fun _ _ h => h.2

theorem ItemsPlannedAs.isAggregate (h : ItemsPlannedAs c s₀.parameters frames es selected) :
    (selected.map SelectedItem.item).any Item.isAggregate =
      (es.map fun e => e.item c (e.meaning c s₀)).any ItemMeaning.isAggregate := by
  induction es generalizing selected with
  | nil =>
    cases h
    rfl
  | cons e es ih =>
    cases h with
    | cons hx hxs =>
      simp only [List.map_cons, List.any_cons, ih hxs, hx.isAggregate_item (e.meaning c s₀)]

theorem ItemsPlannedAs.cells {env : Environment} {tuple : Tuple}
    (halign : Aligned c frames env (tuple :: outer)) (hes : ∀ e ∈ es, e.Agrees c s s₀)
    (h : ItemsPlannedAs c s₀.parameters frames es selected)
    (hitems : (selected.map SelectedItem.item).any Item.isAggregate = false) :
    itemCells s tuple outer (selected.map SelectedItem.item) =
      (es.map fun e => e.item c (e.meaning c s₀)).mapM (·.cellIn env) := by
  induction es generalizing selected with
  | nil =>
    cases h
    rw [List.map_nil, itemCells]
    rfl
  | cons e es ih =>
    cases h with
    | cons hx hxs =>
      simp only [List.map_cons, List.any_cons, Bool.or_eq_false_iff] at hitems
      rw [List.map_cons, List.map_cons, itemCells, List.mapM_cons,
        hx.cell (hes e List.mem_cons_self) halign hitems.1,
        ih (fun e he => hes e (List.mem_cons_of_mem _ he)) hxs hitems.2]
      rfl

theorem ItemsPlannedAs.aggregateCells (halign : AlignedAll c frames outer envs tuples)
    (h : ItemsPlannedAs c s₀.parameters frames es selected)
    (hitems : (selected.map SelectedItem.item).all Item.isAggregate = true) :
    (selected.map SelectedItem.item).mapM (·.aggregateCell tuples outer) =
      (es.map fun e => e.item c (e.meaning c s₀)).mapM (·.cellOver envs) := by
  induction es generalizing selected with
  | nil =>
    cases h
    rfl
  | cons e es ih =>
    cases h with
    | cons hx hxs =>
      simp only [List.map_cons, List.all_cons, Bool.and_eq_true] at hitems
      rw [List.map_cons, List.map_cons, List.mapM_cons, List.mapM_cons,
        hx.aggregateCell halign hitems.1, ih hxs hitems.2]

/-- A tuple and its environment give the same row. -/
theorem ItemsPlannedAs.row {env : Environment} {tuple : Tuple}
    (halign : Aligned c frames env (tuple :: outer)) (hes : ∀ e ∈ es, e.Agrees c s s₀)
    (h : ItemsPlannedAs c s₀.parameters frames es selected)
    (hitems : (selected.map SelectedItem.item).any Item.isAggregate = false) :
    (Projection.ofSelected selected).row s tuple outer =
      rowIn (es.map fun e => e.item c (e.meaning c s₀)) env := by
  cases h with
  | nil =>
    cases halign with
    | cons hsound haligns _ =>
      have hroot := haligns.record (Layout.number?_root _)
      rw [Projection.ofSelected, Projection.row, List.head?_eq_getElem?, hroot]
      rfl
  | cons hx hxs =>
    have hcells := ItemsPlannedAs.cells halign hes (.cons hx hxs) hitems
    rw [Projection.ofSelected, Projection.row, hcells]
    · rfl
    · simp

end Rows

/-! ## Bodies -/

/-- Statements whose conditions are the truths that they mean. -/
def StatementsAgree (c : Catalog) (s s₀ : Source) (xs : List (Statement Clause)) : Prop :=
  ∀ {frames : List Frame} {ys : List (Statement Predicate)},
    StatementsPlannedAs c s₀.parameters frames xs ys →
    List.Forall₂ (Statement.Rel fun p condition => ∀ env tuple outer,
      Aligned c frames env (tuple :: outer) → p.truth s tuple outer = condition env)
      ys (statementsMeaning c s₀ xs)

/-- Their combination is the combination of what they mean. -/
theorem StatementsAgree.combine {xs : List (Statement Clause)} (hxs : StatementsAgree c s s₀ xs)
    {frames : List Frame} {ys : List (Statement Predicate)}
    (h : StatementsPlannedAs c s₀.parameters frames xs ys) :
    Option.Rel (fun p condition => ∀ env tuple outer,
        Aligned c frames env (tuple :: outer) → p.truth s tuple outer = condition env)
      (Statement.combine .and .or ys) (Statement.combine .and .or (statementsMeaning c s₀ xs)) := by
  refine Statement.combine_rel ?_ ?_ (hxs h)
  · intro a b a' b' hab hab' env tuple outer h
    rw [Predicate.truth, hab env tuple outer h, hab' env tuple outer h]
    rfl
  · intro a b a' b' hab hab' env tuple outer h
    rw [Predicate.truth, hab env tuple outer h, hab' env tuple outer h]
    rfl

/-- The conditions of two filters keep the same tuples. -/
theorem AlignedAll.keep {frames : List Frame} {outer : List Tuple} {envs : List Environment}
    {tuples : List Tuple} (halign : AlignedAll c frames outer envs tuples)
    {xs : List (Statement Clause)} {ys : List (Statement Predicate)}
    (hxs : StatementsAgree c s s₀ xs) (h : StatementsPlannedAs c s₀.parameters frames xs ys) :
    Alike (AlignedAll c frames outer)
      (Condition.keep (Statement.combine .and .or (statementsMeaning c s₀ xs)) envs)
      (filterTuples s outer tuples (Statement.combine .and .or ys)) := by
  have hcombine := hxs.combine h
  -- Either both sides have no condition, or conditions of the same truth.
  revert hcombine
  generalize Statement.combine Predicate.and Predicate.or ys = filter
  generalize Statement.combine Condition.and Condition.or _ = condition
  intro hcombine
  cases hcombine with
  | none =>
    rw [filterTuples]
    exact halign
  | some hpc =>
    rw [filterTuples, Condition.keep]
    refine Alike.flatMapE halign fun env tuple h => ?_
    rw [hpc env tuple outer h]
    refine (Alike.refl _).bind fun a b hab => ?_
    subst hab
    by_cases htrue : a = some true
    · rw [if_pos htrue, if_pos htrue]
      exact List.Forall₂.cons h .nil
    · rw [if_neg htrue, if_neg htrue]
      exact List.Forall₂.nil

/-- Projecting the tuples that are kept gives the rows of the environments that are kept. -/
theorem AlignedAll.rows {frames : List Frame} {outer : List Tuple} {envs : List Environment}
    {tuples : List Tuple} (halign : AlignedAll c frames outer envs tuples) {es : List Expr}
    {selected : List SelectedItem} (hes : ∀ e ∈ es, e.Agrees c s s₀)
    (h : ItemsPlannedAs c s₀.parameters frames es selected)
    (hmix : (selected.map SelectedItem.item).any Item.isAggregate = true →
      (selected.map SelectedItem.item).all Item.isAggregate = true)
    {ts : List OrderTerm} {keys : List SortKey}
    (hkeys : List.Forall₂ (OrderTerm.PlannedAs c frames) ts keys) (distinct : Bool) :
    (if (Projection.ofSelected selected).isAggregate then do
        let row ← (Projection.ofSelected selected).aggregateRow tuples outer
        .ok [row]
      else do
        let tuples ← sortTuples .insertion keys tuples outer
        let rows ← tuples.mapM fun tuple => (Projection.ofSelected selected).row s tuple outer
        .ok (if distinct then distinctRows [] rows else rows)) =
      rowsOver (es.map fun e => e.item c (e.meaning c s₀)) ts distinct envs := by
  rw [rowsOver, Projection.ofSelected_isAggregate, h.isAggregate]
  cases hagg : (es.map fun e => e.item c (e.meaning c s₀)).any ItemMeaning.isAggregate with
  | true =>
    -- One aggregate makes all items aggregates, so no cell fails.
    have hitems := h.isAggregate.trans hagg
    have hcells := h.aggregateCells halign (hmix hitems)
    cases selected with
    | nil => cases hitems
    | cons x xs =>
      rw [if_pos rfl, if_pos rfl, Projection.ofSelected, Projection.aggregateRow, hcells]
      · generalize ((es.map fun e => e.item c (e.meaning c s₀)).mapM (·.cellOver envs) :
          Except StoreError (List Cell)) = cells
        cases cells with
        | error e => rfl
        | ok cells => rfl
      · simp
  | false =>
    obtain ⟨sorted, hsorted, hall⟩ := halign.sorted hkeys
    have hrows : sorted.mapM (fun tuple => (Projection.ofSelected selected).row s tuple outer) =
        (orderEnvironments ts envs).mapM
          (rowIn (es.map fun e => e.item c (e.meaning c s₀))) :=
      mapM_congr₂ hall.flip fun tuple env halign =>
        ItemsPlannedAs.row halign hes h (h.isAggregate.trans hagg)
    rw [if_neg Bool.false_ne_true, if_neg Bool.false_ne_true, hsorted, ← hrows]
    rfl

/-- The rows of a planned body are those that it means, given that its parts agree. -/
theorem Body.PlannedAs.rows_eq (hs : s.Extends s₀) {b : Body} {frames : List Frame}
    {env : Environment} {outer : List Tuple} {es : List Expr} {q : Plan}
    {selected : List SelectedItem} (halign : Aligned c frames env outer)
    (hes : ∀ e ∈ es, e.Agrees c s s₀) (hstatements : StatementsAgree c s s₀ b.statements)
    (h : b.PlannedAs c s₀.parameters frames es q selected) :
    q.rows s outer =
      b.meaning c s₀ (es.map fun e => e.item c (e.meaning c s₀)) (itemsRecords es) env := by
  cases h with
  | @intro _ _ _ _ g ys _ orderBy he hg hys hxs hmix hkeys =>
    have hbuilt := Body.frame?_built hg
    have hsound := hbuilt.sound he
    have hbind := (Body.layout_names hg).bind (t := s.tables) hsound
    rw [hbuilt.entity_eq] at hbind
    rw [Body.meaning_eq, Body.assemble, Plan.rows, ← hs.tables, hs.sorter]
    -- Step by step on both sides: the tuples bound, those kept, and their rows.
    refine Alike.eq (hbind.symm.bind fun tuples named hall => ?_)
    have htuples : AlignedAll c (g :: frames) outer
        (named.map fun tuple => (b.scope, (⟨b.layout c (itemsRecords es), tuple⟩ : Scene)) :: env)
        tuples := by
      unfold AlignedAll
      rw [List.forall₂_map_left_iff]
      refine hall.imp fun named tuple h => ?_
      rw [← hbuilt.scope_eq]
      exact .cons hsound h halign
    refine (htuples.keep hstatements hys).symm.bind fun kept kept' hkept => ?_
    rw [← AlignedAll.rows hkept hes hxs hmix hkeys b.distinct]
    exact .refl _

mutual

/-- An operand has the value that its expression means. -/
theorem Expr.agrees (hs : s.Extends s₀) (e : Expr) : e.Agrees c s s₀ := by
  intro frames o t env tuple outer h halign
  match e with
  | .path p =>
    cases h with
    | path htarget =>
      rw [Operand.value, Expr.meaning]
      exact (halign.field htarget).2.1
  | .literal v =>
    cases h
    rw [Operand.value, Expr.meaning]
  | .parameter name v =>
    cases h with
    | parameter hw hid =>
      rw [Operand.value, Expr.meaning, Source.parameter, Source.parameter, hw,
        hs.parameters _ _ hw]
  | .subquery body returns =>
    cases h with
    | subquery hnone hbody ho =>
      have hrows := hbody.rows_eq hs halign
        (fun e he => by
          rw [List.mem_singleton.mp he]
          exact Expr.agrees hs returns)
        (Body.statements_agree hs body)
      rw [Operand.value, Expr.meaning, hrows, itemsRecords_singleton]
      rfl
  | .aggregate f p => cases h
termination_by structural e

/-- A condition has the truth that its clause means. -/
theorem Clause.agrees (hs : s.Extends s₀) (clause : Clause) {frames : List Frame} {p : Predicate}
    {env : Environment} {tuple : Tuple} {outer : List Tuple}
    (h : clause.PlannedAs c s₀.parameters frames p)
    (halign : Aligned c frames env (tuple :: outer)) :
    p.truth s tuple outer = clause.meaning c s₀ env := by
  match clause with
  | .compare left op right =>
    cases h with
    | compare hleft hright _ =>
      rw [Predicate.truth, Clause.meaning, Expr.agrees hs left hleft halign,
        Expr.agrees hs right hright halign]
  | .like operand pattern negated =>
    cases h with
    | like ho _ =>
      rw [Predicate.truth, Clause.meaning]
      exact congrArg (· >>= _) (Expr.agrees hs operand ho halign)
  | .inList operand values negated =>
    cases h with
    | inList ho _ =>
      rw [Predicate.truth, Clause.meaning, Expr.agrees hs operand ho halign]
  | .inSubquery operand subquery negated =>
    cases h with
    | inSubquery ho hq _ =>
      rw [Predicate.truth, Clause.meaning, Expr.agrees hs operand ho halign]
      have hrows := Expr.rows_agree hs subquery hq halign
      rw [hrows]
      rfl
  | .isNull operand negated =>
    cases h with
    | isNull ho =>
      rw [Predicate.truth, Clause.meaning, Expr.agrees hs operand ho halign]
      beta_reduce
      -- Whether a value is null can be told from the meaning alone; a record behind a LEFT join
      -- cannot.
      rw [ho.isNull halign _ rfl]
      cases operand.meaning c s₀ env with
      | error e => rfl
      | ok v => rfl
    | isNullRelation htarget hp =>
      rw [Clause.meaning]
      -- A relation is tested by its key, which stands in for the record.
      exact halign.relationIsNull hs htarget hp
  | .isEmpty collection negated =>
    cases h with
    | isEmpty hcollected =>
      rw [Predicate.truth, Clause.meaning, halign.elements hs hcollected]
  | .isMember value collection negated =>
    cases h with
    | isMember hv hcollected _ =>
      rw [Predicate.truth, Clause.meaning, Expr.agrees hs value hv halign,
        halign.elements hs hcollected]
termination_by structural clause

/-- A nested query has the rows that it means. -/
theorem Expr.rows_agree (hs : s.Extends s₀) (e : Expr) {frames : List Frame} {q : Plan}
    {t : StaticType} {env : Environment} {tuple : Tuple} {outer : List Tuple}
    (h : e.PlannedAs c s₀.parameters frames (.query q) t)
    (halign : Aligned c frames env (tuple :: outer)) :
    q.rows s (tuple :: outer) = e.rowsMeaning c s₀ env := by
  match e with
  | .path p => cases h
  | .literal v => cases h
  | .parameter name v => cases h
  | .subquery body returns =>
    cases h with
    | subquery hnone hbody ho =>
      rw [Expr.rowsMeaning, ← itemsRecords_singleton]
      exact hbody.rows_eq hs halign
        (fun e he => by
          rw [List.mem_singleton.mp he]
          exact Expr.agrees hs returns)
        (Body.statements_agree hs body)
  | .aggregate f p => cases h
termination_by structural e

theorem statements_agree (hs : s.Extends s₀) (xs : List (Statement Clause)) :
    StatementsAgree c s s₀ xs := by
  intro frames ys h
  match xs with
  | [] =>
    cases h
    rw [statementsMeaning]
    exact .nil
  | .or :: xs =>
    cases h with
    | or hxs =>
      rw [statementsMeaning, statementMeaning]
      exact .cons .or (statements_agree hs xs hxs)
  | .clause x :: xs =>
    cases h with
    | clause hx hxs =>
      rw [statementsMeaning, statementMeaning]
      exact .cons (.clause fun env tuple outer halign => Clause.agrees hs x hx halign)
        (statements_agree hs xs hxs)
termination_by structural xs

theorem Body.statements_agree (hs : s.Extends s₀) (b : Body) :
    StatementsAgree c s s₀ b.statements := by
  match b with
  | ⟨scope, entity, statements, joins, selection, orderBy, distinct, assignments⟩ =>
    intro frames ys h
    exact EntityQuery.statements_agree hs statements h
termination_by structural b

end

/-- A plan gives the rows that its body means, under at least the parameters of the plan. -/
theorem Body.PlannedAs.rows_answer (hs : s.Extends s₀) {b : Body} {q : Plan}
    {selected : List SelectedItem}
    (h : b.PlannedAs c s₀.parameters [] (b.selection.getD []) q selected) :
    q.rows s [] = b.answer c s₀ :=
  h.rows_eq hs .nil (fun e _ => Expr.agrees hs e) (Body.statements_agree hs b)

theorem Body.fetch_eq_answer {b : Body} {planned : PlannedQuery} (h : b.plan c = .ok planned)
    (t : Tables) : t.fetch planned.plan = b.answer c ⟨t, planned.plan.parameters, .insertion⟩ := by
  obtain ⟨q, selected, hq, hplanned, -⟩ := Body.plan_plannedAs h
  rw [Tables.fetch_eq_rows hq]
  exact hplanned.rows_answer ⟨rfl, fun _ _ h => h, rfl⟩

end Agreement

end EntityQuery
