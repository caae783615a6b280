import EntityQuery.Proofs.Evaluation.Ordered
import EntityQuery.Proofs.Evaluation.Orderable
import EntityQuery.Proofs.Evaluation.Reads
import EntityQuery.Proofs.Statement

/-!
# Planned queries do not go wrong

On tables that conform to its catalog a planned query gives rows, or fails because an integer sum
overflows. The proof goes through bodies and their plans side by side: every operand has a value of
its static type, every condition a truth value, every item a cell of its type.
-/

namespace EntityQuery

/-- A source in which parameters have given values. -/
def Source.Provides (s : Source) (parameters : List (String × Value)) : Prop :=
  ∀ name v, parameters.lookup name = some v → s.parameters.lookup name = some v

/-- A cell for a selected item; that of a value has the type of the item. -/
def SelectedItem.AdmitsCell (x : SelectedItem) (cell : Cell) : Prop :=
  ∀ o, x.item = .expr o → ∃ v, cell = .value v ∧ x.type.Admits v

/-- A row with a cell for each selected item. -/
def Row.Fits (selected : List SelectedItem) (row : Row) : Prop :=
  selected ≠ [] → List.Forall₂ SelectedItem.AdmitsCell selected row.cells

section Progress

variable {c : Catalog} {parameters : List (String × Value)} {s : Source}

/-- An expression whose planned operands have values of their types. -/
def Expr.Evaluates (c : Catalog) (parameters : List (String × Value)) (s : Source) (e : Expr) :
    Prop :=
  ∀ {frames : List Frame} {o : Operand} {t : StaticType} {tuple : Tuple} {outer : List Tuple},
    e.PlannedAs c parameters frames o t → Tuple.FitAll c s.tables frames (tuple :: outer) →
    Safe s.sorter t.Admits (o.value s tuple outer)

/-! ## Columns and collections -/

section Reading

variable {frames : List Frame} {tuple : Tuple} {outer : List Tuple}

theorem Column.value_safe (hconf : s.tables.Conforms c)
    (hfit : Tuple.FitAll c s.tables frames (tuple :: outer)) {p : Path} {column : Column}
    {f : Field} (h : p.target? c frames = some (.field column f)) :
    Safe s.sorter (StaticType.field f.type).Admits (column.value tuple outer) := by
  obtain ⟨v, hv, hadmits⟩ := hfit.column hconf.typed h
  rw [hv]
  exact .ok hadmits

/-- The owner of a relation can be read. -/
theorem Tuple.FitAll.owner (hfit : Tuple.FitAll c s.tables frames (tuple :: outer)) {p : Path}
    {level slot : Nat} {r : Relation} (h : p.target? c frames = some (.relation level slot r)) :
    ∃ o, tuple.record outer level slot = .ok o := by
  obtain ⟨f, hf, owner, howner, -⟩ := hfit.target? h
  have hlevel : frames[level]? = some f := hf
  obtain ⟨o, ho, -⟩ := hfit.record hlevel howner
  exact ⟨o, ho⟩

theorem Source.relatedIdentities_safe (hconf : s.tables.Conforms c)
    (hfit : Tuple.FitAll c s.tables frames (tuple :: outer)) {p : Path} {level slot : Nat}
    {r : Relation} (h : p.target? c frames = some (.relation level slot r)) {rows : RelatedRows}
    (hrows : c.relatedRows level slot r = .ok rows) :
    Safe s.sorter (fun _ => True) (s.relatedIdentities rows tuple outer) := by
  obtain ⟨target, htarget, rfl⟩ := Catalog.relatedRows_ok.mp hrows
  obtain ⟨o, ho⟩ := hfit.owner h
  simp only [relatedIdentities, ho, hconf.table htarget, bind, Except.bind]
  split
  · exact .ok trivial
  · exact .ok trivial

/-- What is tested as a collection is one, or absent. -/
theorem Source.elements_safe (hconf : s.tables.Conforms c)
    (hfit : Tuple.FitAll c s.tables frames (tuple :: outer)) {p : Path} {collection : Collection}
    {element : FieldType} (h : p.CollectedAs c frames collection element) :
    Safe s.sorter (fun _ => True) (s.elements collection tuple outer) := by
  cases h with
  | stored htarget htype =>
    refine (Column.value_safe hconf hfit htarget).bind fun v hv => ?_
    split
    · exact .ok trivial
    · rename_i hnull
      rcases hv with rfl | hv
      · exact absurd rfl hnull
      · rw [htype] at hv
        obtain ⟨vs, hvs⟩ := FieldType.accepts_array hv
        rw [hvs]
        exact .ok trivial
  | related htarget hmany hto hidentity hrows =>
    exact Source.relatedIdentities_safe hconf hfit htarget hrows

/-- The test that a to-one relation leads nowhere has a truth value. -/
theorem Predicate.relationIsNull_safe (hconf : s.tables.Conforms c)
    (hfit : Tuple.FitAll c s.tables frames (tuple :: outer)) {path : Path} {level slot : Nat}
    {r : Relation} (h : path.target? c frames = some (.relation level slot r)) {negated : Bool}
    {p : Predicate} (hp : c.relationIsNull path level slot r negated = .ok p) :
    Safe s.sorter (fun _ => True) (p.truth s tuple outer) := by
  obtain ⟨owner, -, -, ⟨-, rfl⟩ | ⟨-, rows, hrows, rfl⟩⟩ := Catalog.relationIsNull_ok.mp hp
  · obtain ⟨o, ho⟩ := hfit.owner h
    simp only [truth, Operand.value, Column.value, ho, bind, Except.bind]
    exact .ok trivial
  · rw [truth]
    exact (Source.relatedIdentities_safe hconf hfit h hrows).bind fun _ _ => .ok trivial

end Reading

/-! ## Items -/

section Items

variable {frames : List Frame} {outer : List Tuple}

theorem Expr.PlannedAs.isAggregate {e : Expr} {o : Operand} {t : StaticType}
    (h : e.PlannedAs c parameters frames o t) : o.isAggregate = false := by
  cases h <;> rfl

/-- The cell of an item that does not aggregate. -/
theorem Item.cell_safe (hconf : s.tables.Conforms c) {tuple : Tuple}
    (hfit : Tuple.FitAll c s.tables frames (tuple :: outer)) {e : Expr} {x : SelectedItem}
    (he : e.Evaluates c parameters s) (h : e.SelectedAs c parameters frames x)
    (hitem : x.item.isAggregate = false) : Safe s.sorter x.AdmitsCell (x.item.cell s tuple outer) := by
  cases h with
  | path hext hselected =>
    cases hselected with
    | field htarget =>
      rw [Item.cell, Operand.value]
      refine (Column.value_safe hconf hfit (hext.target? htarget)).bind fun v hv => .ok ?_
      intro o ho
      exact ⟨v, rfl, hv⟩
    | related htarget hmany hf hjoin =>
      -- The slot that was found for the item is bound to the target in the last frames as well.
      obtain ⟨f, hf', owner, howner, hr⟩ := hfit.target? (hext.target? htarget)
      obtain ⟨g, hg, hfg⟩ := forall₂_getElem? hext hf
      obtain rfl : g = f := Option.some.inj (hg.symm.trans hf')
      obtain ⟨tuple', htuple', hfits⟩ := forall₂_getElem? hfit hf'
      have hslot := hfits.frame.entityOf?_joinAlong? howner hr (hfg.joinAlong? hjoin)
      have hlevel : frames[0]? = some g := hf'
      obtain ⟨o, ho, -⟩ := hfit.record hlevel hslot
      rw [Item.cell, ho]
      refine .ok fun o ho => ?_
      cases ho
    | record htarget =>
      obtain ⟨f, hf, hslot⟩ := hfit.target? (hext.target? htarget)
      have hlevel : frames[0]? = some f := hf
      obtain ⟨o, ho, -⟩ := hfit.record hlevel hslot
      rw [Item.cell, ho]
      refine .ok fun o ho => ?_
      cases ho
  | aggregate hplanned => cases hplanned <;> cases hitem
  | operand _ _ hplanned =>
    rw [Item.cell]
    refine (he hplanned hfit).bind fun v hv => .ok ?_
    intro o ho
    exact ⟨v, rfl, hv⟩

theorem itemCells_safe (hconf : s.tables.Conforms c) {tuple : Tuple}
    (hfit : Tuple.FitAll c s.tables frames (tuple :: outer)) {es : List Expr}
    {selected : List SelectedItem} (hes : ∀ e ∈ es, e.Evaluates c parameters s)
    (h : ItemsPlannedAs c parameters frames es selected)
    (hitems : (selected.map SelectedItem.item).any Item.isAggregate = false) :
    Safe s.sorter (List.Forall₂ SelectedItem.AdmitsCell selected)
      (itemCells s tuple outer (selected.map SelectedItem.item)) := by
  induction es generalizing selected with
  | nil =>
    cases h
    rw [List.map_nil, itemCells]
    exact .ok .nil
  | cons e es ih =>
    cases h with
    | cons hx hxs =>
      -- No item aggregates, so each is read from the tuple at hand.
      simp only [List.map_cons, List.any_cons, Bool.or_eq_false_iff] at hitems
      rw [List.map_cons, itemCells]
      refine (Item.cell_safe hconf hfit (hes e List.mem_cons_self) hx hitems.1).bind
        fun cell hcell => ?_
      refine (ih (fun e he => hes e (List.mem_cons_of_mem _ he)) hxs hitems.2).bind
        fun cells hcells => ?_
      exact .ok (.cons hcell hcells)

/-- The cell of an item that aggregates. -/
theorem Item.aggregateCell_safe (hconf : s.tables.Conforms c) {tuples : List Tuple}
    (hfit : ∀ tuple ∈ tuples, Tuple.FitAll c s.tables frames (tuple :: outer)) {e : Expr}
    {x : SelectedItem} (h : e.SelectedAs c parameters frames x)
    (hitem : x.item.isAggregate = true) :
    Safe s.sorter x.AdmitsCell (x.item.aggregateCell tuples outer) := by
  cases h with
  | path _ hselected => cases hselected <;> cases hitem
  | operand _ _ hplanned =>
    rw [Item.isAggregate, hplanned.isAggregate] at hitem
    cases hitem
  | aggregate hplanned =>
    cases hplanned with
    | rows => exact .ok fun o ho => ⟨_, rfl, .inr rfl⟩
    | column htarget htype =>
      refine Safe.bind (P := (StaticType.field _).Admits) ?_ fun v hv =>
        .ok fun o ho => ⟨v, rfl, hv⟩
      refine (Safe.mapM fun tuple htuple =>
        Column.value_safe hconf (hfit tuple htuple) htarget).bind fun vs hvs => ?_
      refine Aggregate.ofList_safe htype fun v hv => ?_
      -- Nulls are left out, so that only values of the type of the column are aggregated.
      obtain ⟨hmem, hnull⟩ := List.mem_filter.mp hv
      simp only [Bool.not_eq_true'] at hnull
      refine ⟨hnull, ?_⟩
      rcases hvs v hmem with rfl | haccepts
      · cases hnull
      · exact haccepts

theorem Projection.aggregateRow_safe (hconf : s.tables.Conforms c) {tuples : List Tuple}
    (hfit : ∀ tuple ∈ tuples, Tuple.FitAll c s.tables frames (tuple :: outer)) {es : List Expr}
    {selected : List SelectedItem} (h : ItemsPlannedAs c parameters frames es selected)
    (hitems : (selected.map SelectedItem.item).all Item.isAggregate = true) :
    Safe s.sorter (Row.Fits selected)
      ((items (selected.map SelectedItem.item)).aggregateRow tuples outer) := by
  have hcells : Safe s.sorter (List.Forall₂ SelectedItem.AdmitsCell selected)
      ((selected.map SelectedItem.item).mapM (·.aggregateCell tuples outer)) := by
    induction es generalizing selected with
    | nil =>
      cases h
      rw [List.map_nil, List.mapM_nil]
      exact .ok .nil
    | cons e es ih =>
      cases h with
      | cons hx hxs =>
        -- All items aggregate, so none asks for a single tuple.
        simp only [List.map_cons, List.all_cons, Bool.and_eq_true] at hitems
        rw [List.map_cons, List.mapM_cons]
        refine (Item.aggregateCell_safe hconf hfit hx hitems.1).bind fun cell hcell => ?_
        exact (ih hxs hitems.2).bind fun cells hcells => .ok (.cons hcell hcells)
  exact hcells.bind fun cells hcells => .ok fun _ => hcells

end Items

/-! ## Ordering -/

theorem Sorter.arrange_safe (sorter : Sorter) (keys : List SortKey)
    (keyed : List (List Value × Tuple)) :
    Safe sorter (fun sorted => sorted.Perm (keyed.map Prod.snd)) (sorter.arrange keys keyed) := by
  cases h : sorter.arrange keys keyed with
  | ok sorted => exact .ok (arrange_perm h)
  | error e =>
    rw [arrange] at h
    split at h
    case h_1 => cases h
    case h_2 hnone =>
      obtain rfl := Except.error.inj h
      refine .inr ⟨rfl, fun htotal => ?_⟩
      obtain ⟨sorted, hsorted⟩ := htotal (fun a b => orderKeys keys a.1 b.1) keyed
      cases hnone.symm.trans hsorted

theorem sortTuples_safe (hconf : s.tables.Conforms c) {frames : List Frame} {outer : List Tuple}
    {tuples : List Tuple}
    (hfit : ∀ tuple ∈ tuples, Tuple.FitAll c s.tables frames (tuple :: outer))
    {ts : List OrderTerm} {keys : List SortKey}
    (hkeys : List.Forall₂ (OrderTerm.PlannedAs c frames) ts keys) :
    Safe s.sorter (fun sorted => ∀ tuple ∈ sorted, tuple ∈ tuples)
      (sortTuples s.sorter keys tuples outer) := by
  refine (Safe.mapM (Q := fun keyed : List Value × Tuple => keyed.2 ∈ tuples)
    fun tuple htuple => ?_).bind fun keyed hkeyed => ?_
  · refine (Safe.mapM (Q := fun _ => True) fun key hkey => ?_).bind fun values _ => .ok htuple
    obtain ⟨i, hi⟩ := List.mem_iff_getElem?.mp hkey
    obtain ⟨t, -, p, column, f, -, htarget, -, -, rfl⟩ := forall₂_getElem? hkeys.flip hi
    exact (Column.value_safe hconf (hfit tuple htuple) htarget).mono fun _ _ => trivial
  · refine (s.sorter.arrange_safe keys keyed).mono fun sorted hperm tuple htuple => ?_
    obtain ⟨pair, hpair, rfl⟩ := List.mem_map.mp (hperm.mem_iff.mp htuple)
    exact hkeyed pair hpair

/-! ## Filters -/

/-- A filter keeps some of the tuples if its clauses can be evaluated for each of them. -/
theorem filterTuples_safe {outer tuples : List Tuple} {ys : List (Statement Predicate)}
    (hclauses : ∀ tuple ∈ tuples, ∀ p, .clause p ∈ ys →
      Safe s.sorter (fun _ => True) (p.truth s tuple outer)) :
    Safe s.sorter (fun kept => ∀ tuple ∈ kept, tuple ∈ tuples)
      (filterTuples s outer tuples (Statement.combine .and .or ys)) := by
  cases hcombine : Statement.combine Predicate.and Predicate.or ys with
  | none =>
    rw [filterTuples]
    exact .ok fun _ h => h
  | some p =>
    rw [filterTuples]
    refine Safe.flatMapE fun tuple htuple => ?_
    have hp : Safe s.sorter (fun _ => True) (p.truth s tuple outer) := by
      refine Statement.combine_induction
        (P := fun p => Safe s.sorter (fun _ => True) (p.truth s tuple outer)) ?_ ?_
        (hclauses tuple htuple) hcombine
      -- A connective does not look at its right side if the left one decides.
      all_goals
        intro a b ha hb
        rw [Predicate.truth]
        refine ha.bind fun x _ => ?_
        split
        · exact .ok trivial
        · exact hb.bind fun _ _ => .ok trivial
    refine hp.bind fun truth _ => .ok fun tuple' htuple' => ?_
    split at htuple'
    · obtain rfl := List.mem_singleton.mp htuple'
      exact htuple
    · cases htuple'

/-! ## Bodies -/

/-- The row of a tuple. -/
theorem Projection.row_safe (hconf : s.tables.Conforms c) {frames : List Frame} {tuple : Tuple}
    {outer : List Tuple} (hfit : Tuple.FitAll c s.tables frames (tuple :: outer)) {es : List Expr}
    {selected : List SelectedItem} (hes : ∀ e ∈ es, e.Evaluates c parameters s)
    (h : ItemsPlannedAs c parameters frames es selected)
    (hitems : (selected.map SelectedItem.item).any Item.isAggregate = false) :
    Safe s.sorter (Row.Fits selected) ((ofSelected selected).row s tuple outer) := by
  cases selected with
  | nil =>
    rw [ofSelected, row]
    exact .ok fun hne => absurd rfl hne
  | cons x xs =>
    rw [ofSelected, row]
    · exact (itemCells_safe hconf hfit hes h hitems).bind fun cells hcells => .ok fun _ => hcells
    · simp

/-- The rows of a planned body, given that its filter and its items can be evaluated. -/
theorem Body.PlannedAs.rows_safe (hconf : s.tables.Conforms c) {b : Body} {frames : List Frame}
    {outer : List Tuple} {es : List Expr} {q : Plan} {selected : List SelectedItem}
    (hfit : Tuple.FitAll c s.tables frames outer)
    (hes : ∀ e ∈ es, e.Evaluates c parameters s)
    (hstatements : ∀ {g : Frame} {ys : List (Statement Predicate)} {tuple : Tuple},
      StatementsPlannedAs c parameters (g :: frames) b.statements ys →
      Tuple.FitAll c s.tables (g :: frames) (tuple :: outer) →
      ∀ p, .clause p ∈ ys → Safe s.sorter (fun _ => True) (p.truth s tuple outer))
    (h : b.PlannedAs c parameters frames es q selected) :
    Safe s.sorter (fun rows => ∀ row ∈ rows, row.Fits selected) (q.rows s outer) := by
  cases h with
  | @intro _ _ _ _ g ys _ orderBy he hg hys hxs hmix hkeys =>
    have hbuilt := Body.frame?_built hg
    have hsound := hbuilt.sound he
    obtain ⟨tuples, hbind, htuples⟩ := hconf.bind_fits hsound
    rw [hbuilt.entity_eq] at hbind
    have hall : ∀ tuple ∈ tuples, Tuple.FitAll c s.tables (g :: frames) (tuple :: outer) :=
      fun tuple htuple => .cons (htuples tuple htuple) hfit
    have hfilter := filterTuples_safe fun tuple htuple => hstatements hys (hall tuple htuple)
    simp only [Body.assemble, Plan.rows, hbind]
    refine hfilter.bind fun kept hkept => ?_
    have hkept' : ∀ tuple ∈ kept, Tuple.FitAll c s.tables (g :: frames) (tuple :: outer) :=
      fun tuple htuple => hall tuple (hkept tuple htuple)
    rw [Projection.ofSelected_isAggregate]
    split
    · rename_i hagg
      cases selected with
      | nil => cases hagg
      | cons x xs =>
        refine (Projection.aggregateRow_safe hconf hkept' hxs (hmix hagg)).bind
          fun row hrow => .ok fun row' hrow' => ?_
        obtain rfl := List.mem_singleton.mp (mem_windowed hrow')
        exact hrow
    · rename_i hagg
      refine (sortTuples_safe hconf hkept' hkeys).bind fun sorted hsorted => ?_
      refine (Safe.mapM fun tuple htuple => Projection.row_safe hconf
        (hkept' tuple (hsorted tuple htuple)) hes hxs (by simpa using hagg)).bind
        fun rows hrows => .ok fun row hrow => ?_
      have hrow := mem_windowed hrow
      split at hrow
      · exact hrows row (mem_of_mem_distinctRows hrow)
      · exact hrows row hrow

mutual

/-- An operand has a value of its static type. -/
theorem Expr.evaluates (hconf : s.tables.Conforms c) (hs : s.Provides parameters) (e : Expr) :
    e.Evaluates c parameters s := by
  intro frames o t tuple outer h hfit
  match e with
  | .path p =>
    cases h with
    | path htarget =>
      rw [Operand.value]
      exact Column.value_safe hconf hfit htarget
  | .literal v =>
    cases h
    rw [Operand.value]
    exact .ok (.inr (.inl rfl))
  | .parameter name v =>
    cases h with
    | parameter hw hid =>
      rw [Operand.value, Source.parameter, hs _ _ hw]
      exact .ok (.inr hid)
  | .subquery body returns =>
    cases h with
    | @subquery _ _ _ _ x o hnone hbody ho =>
      have hrows := hbody.rows_safe hconf hfit
        (fun e he => by
          rw [List.mem_singleton.mp he]
          exact Expr.evaluates hconf hs returns)
        (fun hys hfit p hp => body.statements_safe hconf hs hys hfit p hp)
      rw [Operand.value]
      refine hrows.bind fun rows hrows => .ok ?_
      -- Without rows the value is null, and otherwise it is the only cell of the first row.
      cases rows with
      | nil => exact .inl rfl
      | cons row rows =>
        have hcells := hrows row List.mem_cons_self (by simp)
        obtain ⟨cells⟩ := row
        cases hcells with
        | cons hcell _ =>
          obtain ⟨v, rfl, hv⟩ := hcell o ho
          exact hv
  | .aggregate f p => cases h
termination_by structural e

/-- A condition has a truth value. -/
theorem Clause.truth_safe (hconf : s.tables.Conforms c) (hs : s.Provides parameters)
    (clause : Clause) {frames : List Frame} {p : Predicate} {tuple : Tuple} {outer : List Tuple}
    (h : clause.PlannedAs c parameters frames p)
    (hfit : Tuple.FitAll c s.tables frames (tuple :: outer)) :
    Safe s.sorter (fun _ => True) (p.truth s tuple outer) := by
  match clause with
  | .compare left op right =>
    cases h with
    | compare hleft hright _ =>
      -- Both sides are operands with values, and two values can always be compared.
      rw [Predicate.truth]
      refine (Expr.evaluates hconf hs left hleft hfit).bind fun a _ => ?_
      exact (Expr.evaluates hconf hs right hright hfit).bind fun b _ => .ok trivial
  | .like operand pattern negated =>
    cases h with
    | like ho htext =>
      rw [Predicate.truth]
      refine (Expr.evaluates hconf hs operand ho hfit).bind fun v hv => ?_
      -- What is matched is text or missing, so a pattern never meets another kind of value.
      rcases hv.text htext with rfl | ⟨text, rfl⟩
      · exact .ok trivial
      · exact .ok trivial
  | .inList operand values negated =>
    cases h with
    | inList ho _ =>
      rw [Predicate.truth]
      exact (Expr.evaluates hconf hs operand ho hfit).bind fun v _ => .ok trivial
  | .inSubquery operand subquery negated =>
    cases h with
    | inSubquery ho hq _ =>
      rw [Predicate.truth]
      refine (Expr.evaluates hconf hs operand ho hfit).bind fun v _ => ?_
      split
      · exact .ok trivial
      · -- The nested query has a value as an operand, and so it has rows.
        have hvalue := Expr.evaluates hconf hs subquery hq hfit
        rw [Operand.value] at hvalue
        exact hvalue.of_bind.bind fun rows _ => .ok trivial
  | .isNull operand negated =>
    cases h with
    | isNull ho =>
      rw [Predicate.truth]
      exact (Expr.evaluates hconf hs operand ho hfit).bind fun v _ => .ok trivial
    | isNullRelation htarget hp => exact Predicate.relationIsNull_safe hconf hfit htarget hp
  | .isEmpty collection negated =>
    cases h with
    | isEmpty hcollected =>
      rw [Predicate.truth]
      -- The collection is an attribute that holds arrays, or a relation whose table is there.
      exact (Source.elements_safe hconf hfit hcollected).bind fun vs _ => .ok trivial
  | .isMember value collection negated =>
    cases h with
    | isMember hv hcollected _ =>
      rw [Predicate.truth]
      refine (Expr.evaluates hconf hs value hv hfit).bind fun v _ => ?_
      -- A null value is no member of anything, and the collection is not looked at.
      split
      · exact .ok trivial
      · exact (Source.elements_safe hconf hfit hcollected).bind fun vs _ => .ok trivial
termination_by structural clause

/-- Every condition among statements has a truth value. -/
theorem statements_safe (hconf : s.tables.Conforms c) (hs : s.Provides parameters)
    (xs : List (Statement Clause)) {frames : List Frame} {ys : List (Statement Predicate)}
    {tuple : Tuple} {outer : List Tuple} (h : StatementsPlannedAs c parameters frames xs ys)
    (hfit : Tuple.FitAll c s.tables frames (tuple :: outer)) :
    ∀ p, .clause p ∈ ys → Safe s.sorter (fun _ => True) (p.truth s tuple outer) := by
  intro p hp
  match xs with
  | [] =>
    cases h
    cases hp
  | .or :: xs =>
    cases h with
    | or hxs =>
      rcases List.mem_cons.mp hp with hp | hp
      · cases hp
      · exact statements_safe hconf hs xs hxs hfit p hp
  | .clause x :: xs =>
    -- The only clause among the conditions behind a marker is one of the rest.
    cases h with
    | clause hx hxs =>
      rcases List.mem_cons.mp hp with hp | hp
      · cases hp
        exact Clause.truth_safe hconf hs x hx hfit
      · exact statements_safe hconf hs xs hxs hfit p hp
termination_by structural xs

theorem Body.statements_safe (hconf : s.tables.Conforms c) (hs : s.Provides parameters)
    (b : Body) {frames : List Frame} {ys : List (Statement Predicate)}
    {tuple : Tuple} {outer : List Tuple}
    (h : StatementsPlannedAs c parameters frames b.statements ys)
    (hfit : Tuple.FitAll c s.tables frames (tuple :: outer)) :
    ∀ p, .clause p ∈ ys → Safe s.sorter (fun _ => True) (p.truth s tuple outer) := by
  match b with
  | ⟨scope, entity, statements, joins, selection, orderBy, distinct, assignments⟩ =>
    exact EntityQuery.statements_safe hconf hs statements h hfit
termination_by structural b

end

end Progress

/-- What there is in place of rows: an integer sum has overflowed, or the sorter has given up. -/
theorem Body.plan_fetchBy {c : Catalog} {t : Tables} (hconf : t.Conforms c) {b : Body}
    {planned : PlannedQuery} (h : b.plan c = .ok planned) (sorter : Sorter) :
    Safe sorter (fun _ => True) (t.fetchBy sorter planned.plan) := by
  obtain ⟨q, selected, hplan, hplanned, -⟩ := Body.plan_plannedAs h
  have hprovides : Source.Provides ⟨t, planned.plan.parameters, sorter⟩ planned.plan.parameters :=
    fun _ _ h => h
  have hrows := hplanned.rows_safe hconf .nil
    (fun e _ => Expr.evaluates hconf hprovides e)
    (fun hys hfit p hp => b.statements_safe hconf hprovides hys hfit p hp)
  rw [Tables.fetchBy_eq_rows hplan]
  exact hrows.mono fun _ _ => trivial

/-- A query gives rows or fails because an integer sum overflows, if its sorter never gives up. -/
theorem Body.plan_fetchBy_total {c : Catalog} {t : Tables} (hconf : t.Conforms c) {b : Body}
    {planned : PlannedQuery} (h : b.plan c = .ok planned) {sorter : Sorter}
    (htotal : sorter.IsTotal) :
    (∃ rows, t.fetchBy sorter planned.plan = .ok rows) ∨
      t.fetchBy sorter planned.plan = .error (.evaluation .sumOverflow) := by
  rcases (plan_fetchBy hconf h sorter).cases with ⟨rows, hrows, -⟩ | herror | ⟨-, hpartial⟩
  · exact .inl ⟨rows, hrows⟩
  · exact .inr herror
  · exact absurd htotal hpartial

/-- Whatever the sorter, a planned query gives rows or fails because an integer sum overflows, or because
the sorter gives up; nothing else goes wrong. A sorter may only give up where keys are not a total
preorder: if they are in each sort that the query takes, it gives rows, or a sum overflows. So it does
in any case if the sorter never gives up. -/
theorem Body.plan_fetch_safe {c : Catalog} {t : Tables} (hconf : t.Conforms c) {b : Body}
    {planned : PlannedQuery} (h : b.plan c = .ok planned) (sorter : Sorter) :
    ((∃ rows, t.fetchBy sorter planned.plan = .ok rows) ∨
      t.fetchBy sorter planned.plan = .error (.evaluation .sumOverflow) ∨
      t.fetchBy sorter planned.plan = .error (.evaluation .unsorted)) ∧
    (sorter.IsTotal ∨
        planned.plan.SortsPreordered ⟨t, planned.plan.parameters, sorter⟩ [] →
      (∃ rows, t.fetchBy sorter planned.plan = .ok rows) ∨
        t.fetchBy sorter planned.plan = .error (.evaluation .sumOverflow)) := by
  constructor
  · rcases (plan_fetchBy hconf h sorter).cases with ⟨rows, hrows, -⟩ | herror | ⟨hunsorted, -⟩
    · exact .inl ⟨rows, hrows⟩
    · exact .inr (.inl herror)
    · exact .inr (.inr hunsorted)
  · rintro (htotal | hsorts)
    · exact plan_fetchBy_total hconf h htotal
    · -- Insertion does the same, and does not give up.
      rw [Tables.fetchBy_eq_fetch hsorts]
      exact plan_fetchBy_total hconf h Sorter.insertion_isTotal

namespace Sample

open Classical in
/-- A sorter that gives up where it can. -/
noncomputable def strict : Sorter where
  sort order keyed :=
    if TotalPreorderOn (· ∈ keyed) order then some (sortBy order keyed) else none
  perm h := by
    split at h
    · exact Option.some.inj h ▸ sortBy_perm ..
    · cases h
  stable h := if_pos h

/-- The users in Berlin are ordered by strings, and the tasks that are looked for are not ordered. -/
theorem busyInBerlin_preordered (sorter : Sorter) :
    ∃ planned, busyInBerlin.plan catalog = .ok planned ∧
      planned.plan.SortsPreordered ⟨tables, planned.plan.parameters, sorter⟩ [] := by
  obtain ⟨planned, hplan, h⟩ := exists_ok_and (x := busyInBerlin.plan catalog)
    (p := fun planned =>
      planned.plan.queries.all (fun r => r.orderBy.isEmpty && r.queries.isEmpty) &&
      (tables.bind planned.plan.entity planned.plan.joins).toOption.any fun bound =>
        planned.plan.orderBy.all fun key => bound.all fun tuple =>
          (key.column.value tuple []).toOption.any ScalarType.string.accepts)
    (by decide +kernel)
  -- The nested query has no keys and no queries of its own; the keys around it are strings.
  obtain ⟨hqueries, hbound⟩ := Bool.and_eq_true_iff.mp h
  simp only [List.all_eq_true, Bool.and_eq_true, List.isEmpty_iff] at hqueries
  refine ⟨planned, hplan, Plan.sortsPreordered (fun bound hbind => ?_) fun r hr tuple =>
    Plan.sortsPreordered_of_unordered (hqueries r hr).1 (hqueries r hr).2⟩
  obtain ⟨bound', hbind', hstrings⟩ := exists_ok_and hbound
  obtain rfl : bound' = bound := Except.ok.inj (hbind'.symm.trans hbind)
  refine orderTuples_totalPreorderOn_of_exact fun key hkey => ⟨.string, rfl, fun tuple htuple => ?_⟩
  have hkeys := List.all_eq_true.mp (List.all_eq_true.mp hstrings key hkey) tuple htuple
  obtain ⟨v, hv, haccepts⟩ := exists_ok_and hkeys
  exact ⟨v, hv, .inr haccepts⟩

end Sample

theorem Body.plan_fetch_safe_sample :
    Sample.tables.Conforms Sample.catalog ∧
      ∃ planned, Sample.busyInBerlin.plan Sample.catalog = .ok planned ∧
        planned.plan.orderBy ≠ [] ∧
        planned.plan.SortsPreordered ⟨Sample.tables, planned.plan.parameters, Sample.strict⟩ [] ∧
        ((∃ rows, Sample.tables.fetchBy Sample.strict planned.plan = .ok rows) ∨
          Sample.tables.fetchBy Sample.strict planned.plan = .error (.evaluation .sumOverflow)) := by
  obtain ⟨planned, h, hsorts⟩ := Sample.busyInBerlin_preordered Sample.strict
  have hkeys : planned.plan.orderBy ≠ [] := by
    obtain ⟨planned', -, -, h', -, -, -, -, hkeys, -⟩ := Sample.busyInBerlin_strings
    obtain rfl : planned' = planned := Except.ok.inj (h'.symm.trans h)
    exact hkeys
  obtain ⟨-, hsafe⟩ := Body.plan_fetch_safe Sample.tables_conforms h Sample.strict
  exact ⟨Sample.tables_conforms, planned, h, hkeys, hsorts, hsafe (.inr hsorts)⟩

end EntityQuery
