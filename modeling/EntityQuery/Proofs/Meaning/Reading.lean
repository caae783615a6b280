import EntityQuery.Proofs.Meaning.Agreement
import EntityQuery.Proofs.Meaning.Scoping
import EntityQuery.Proofs.Sample

/-!
# The records behind levels and slots

A body and its plan are evaluated side by side: in each situation that arises there is an environment
for the one, and a tuple with the tuples around it for the other. Wherever the body uses a path, the
plan has a level and a slot number, and in every situation both give the same record.
-/

namespace EntityQuery

/-! ## Situations -/

/-- The environments and tuples in which an expression and its operand are evaluated together. -/
abbrev Situations := Environment → List Tuple → Prop

namespace Situations

/-- Outside of all bodies nothing is bound. -/
inductive Outermost : Situations
  | intro : Outermost [] []

/-- The situations within a body: its tuples are taken one by one, with and without names. -/
inductive Within (c : Catalog) (t : Tables) (b : Body) (records : List Path) (x : Situations) :
    Situations
  | intro {env : Environment} {outer : List Tuple} {tuples : List NamedTuple} {tuple : NamedTuple} :
      x env outer → (b.layout c records).bind t = .ok tuples → tuple ∈ tuples →
      Within c t b records x ((b.scope, ⟨b.layout c records, tuple⟩) :: env)
        (tuple.map Prod.snd :: outer)

/-- In every situation a level and a slot number give the record that a path leads to. -/
def Read (x : Situations) (p : Path) (level slot : Nat) : Prop :=
  ∀ env tuple outer, x env (tuple :: outer) → tuple.record outer level slot = .ok (env.record p)

/-- In every situation a column gives the attribute of the record that a path leads to. -/
def ReadColumn (x : Situations) (p : Path) (column : Column) : Prop :=
  ∀ env tuple outer, x env (tuple :: outer) →
    tuple.record outer column.level column.slot = .ok (env.record p.holder) ∧
      p.hops.getLast? = some column.field

/-- In every situation a collection is the one of the record that a path leads to. -/
def ReadCollection (x : Situations) (p : Path) : Collection → Prop
  | .stored column => x.ReadColumn p column
  | .related rows => ∀ env tuple outer, x env (tuple :: outer) →
      tuple.record outer rows.level rows.slot = .ok (env.record p.holder) ∧
        p.hops.getLast? = some rows.relation

end Situations

/-! ## Bodies beside plans -/

/-- An ordering and its key. -/
def OrderTerm.ReadsAlike (x : Situations) (t : OrderTerm) (key : SortKey) : Prop :=
  ∃ p, t.expr = .path p ∧ x.ReadColumn p key.column ∧ key.direction = t.direction

mutual

/-- An expression and its operand, which read the same records in all situations. -/
inductive Expr.ReadsAlike (c : Catalog) (t : Tables) : Situations → Expr → Operand → Prop
  | path {x : Situations} {p : Path} {column : Column} : x.ReadColumn p column →
      Expr.ReadsAlike c t x (.path p) (.column column)
  | literal {x : Situations} {v : Value} : Expr.ReadsAlike c t x (.literal v) (.literal v)
  | parameter {x : Situations} {name : String} {v : Value} :
      Expr.ReadsAlike c t x (.parameter name v) (.parameter name)
  | subquery {x : Situations} {body : Body} {returns : Expr} {q : Plan} :
      Body.ReadsAlike c t x [returns] body q →
      Expr.ReadsAlike c t x (.subquery body returns) (.query q)

/-- A clause and its condition. -/
inductive Clause.ReadsAlike (c : Catalog) (t : Tables) : Situations → Clause → Predicate → Prop
  | compare {x : Situations} {left right : Expr} {op : Comparison} {l r : Operand} :
      Expr.ReadsAlike c t x left l → Expr.ReadsAlike c t x right r →
      Clause.ReadsAlike c t x (.compare left op right) (.compare l op r)
  | like {x : Situations} {operand : Expr} {pattern : String} {negated : Bool} {o : Operand} :
      Expr.ReadsAlike c t x operand o →
      Clause.ReadsAlike c t x (.like operand pattern negated) (.like o pattern negated)
  | inList {x : Situations} {operand : Expr} {values : List Value} {negated : Bool} {o : Operand} :
      Expr.ReadsAlike c t x operand o →
      Clause.ReadsAlike c t x (.inList operand values negated) (.inList o values negated)
  | inSubquery {x : Situations} {operand subquery : Expr} {negated : Bool} {o : Operand} {q : Plan} :
      Expr.ReadsAlike c t x operand o → Expr.ReadsAlike c t x subquery (.query q) →
      Clause.ReadsAlike c t x (.inSubquery operand subquery negated) (.inQuery o q negated)
  | isNull {x : Situations} {operand : Expr} {negated : Bool} {o : Operand} :
      Expr.ReadsAlike c t x operand o →
      Clause.ReadsAlike c t x (.isNull operand negated) (.isNull o negated)
  /-- A relation that is null if its key is. -/
  | isNullKey {x : Situations} {p : Path} {negated : Bool} {column : Column} :
      x.Read p.holder column.level column.slot →
      Clause.ReadsAlike c t x (.isNull (.path p) negated) (.isNull (.column column) negated)
  /-- A relation that is null if nothing is related. -/
  | isNullRelated {x : Situations} {p : Path} {negated : Bool} {rows : RelatedRows} :
      x.ReadCollection p (.related rows) →
      Clause.ReadsAlike c t x (.isNull (.path p) negated) (.isEmpty (.related rows) negated)
  | isEmpty {x : Situations} {p : Path} {negated : Bool} {collection : Collection} :
      x.ReadCollection p collection →
      Clause.ReadsAlike c t x (.isEmpty p negated) (.isEmpty collection negated)
  | isMember {x : Situations} {value : Expr} {p : Path} {negated : Bool} {v : Operand}
      {collection : Collection} : Expr.ReadsAlike c t x value v → x.ReadCollection p collection →
      Clause.ReadsAlike c t x (.isMember value p negated) (.isMember v collection negated)

inductive StatementsReadAlike (c : Catalog) (t : Tables) :
    Situations → List (Statement Clause) → List (Statement Predicate) → Prop
  | nil {x : Situations} : StatementsReadAlike c t x [] []
  | or {x : Situations} {xs : List (Statement Clause)} {ys : List (Statement Predicate)} :
      StatementsReadAlike c t x xs ys → StatementsReadAlike c t x (.or :: xs) (.or :: ys)
  | clause {x : Situations} {clause : Clause} {p : Predicate} {xs : List (Statement Clause)}
      {ys : List (Statement Predicate)} : Clause.ReadsAlike c t x clause p →
      StatementsReadAlike c t x xs ys →
      StatementsReadAlike c t x (.clause clause :: xs) (.clause p :: ys)

/-- Selected expressions and their items. -/
inductive ItemsReadAlike (c : Catalog) (t : Tables) : Situations → List Expr → List Item → Prop
  | nil {x : Situations} : ItemsReadAlike c t x [] []
  /-- A record as a whole. -/
  | record {x : Situations} {p : Path} {slot : Nat} {es : List Expr} {items : List Item} :
      x.Read p 0 slot → ItemsReadAlike c t x es items →
      ItemsReadAlike c t x (.path p :: es) (.record slot :: items)
  | expr {x : Situations} {e : Expr} {o : Operand} {es : List Expr} {items : List Item} :
      Expr.ReadsAlike c t x e o → ItemsReadAlike c t x es items →
      ItemsReadAlike c t x (e :: es) (.expr o :: items)
  | count {x : Situations} {es : List Expr} {items : List Item} : ItemsReadAlike c t x es items →
      ItemsReadAlike c t x (.aggregate .count none :: es) (.expr (.aggregate .count none) :: items)
  | aggregate {x : Situations} {f : Aggregate} {p : Path} {column : Column} {es : List Expr}
      {items : List Item} : x.ReadColumn p column → ItemsReadAlike c t x es items →
      ItemsReadAlike c t x (.aggregate f (some p) :: es)
        (.expr (.aggregate f (some column)) :: items)

/-- A body that selects expressions, and its plan. The plan binds the tuples of the body, without the
names of their records. -/
inductive Body.ReadsAlike (c : Catalog) (t : Tables) : Situations → List Expr → Body → Plan → Prop
  /-- Without items the record of the root is selected. -/
  | root {x : Situations} {b : Body} {q : Plan} {ys : List (Statement Predicate)} :
      ((b.layout c []).bind t).map (List.map (List.map Prod.snd)) = t.bind q.entity q.joins →
      StatementsReadAlike c t (.Within c t b [] x) b.statements ys →
      q.filter = Statement.combine .and .or ys → q.projection = .root →
      Situations.Read (.Within c t b [] x) ⟨b.scope, b.entity, .root, []⟩ 0 0 →
      List.Forall₂ (OrderTerm.ReadsAlike (.Within c t b [] x)) b.orderBy q.orderBy →
      Body.ReadsAlike c t x [] b q
  | items {x : Situations} {es : List Expr} {b : Body} {q : Plan} {items : List Item}
      {ys : List (Statement Predicate)} : es ≠ [] →
      ((b.layout c (itemsRecords es)).bind t).map (List.map (List.map Prod.snd)) =
        t.bind q.entity q.joins →
      StatementsReadAlike c t (.Within c t b (itemsRecords es) x) b.statements ys →
      q.filter = Statement.combine .and .or ys → q.projection = .items items →
      ItemsReadAlike c t (.Within c t b (itemsRecords es) x) es items →
      List.Forall₂ (OrderTerm.ReadsAlike (.Within c t b (itemsRecords es) x)) b.orderBy
        q.orderBy →
      Body.ReadsAlike c t x es b q

end

/-! ## Plans read what their bodies read -/

section Planned

variable {c : Catalog} {t : Tables} {parameters : List (String × Value)} {frames : List Frame}
  {x : Situations}

/-- Situations in which frames stand beside environments and tuples. -/
def Situations.In (c : Catalog) (frames : List Frame) (x : Situations) : Prop :=
  ∀ env tuples, x env tuples → Aligned c frames env tuples

/-- The tuples of a frame are those of its layout, without the names. -/
theorem Layout.Names.bind_map {l : Layout} {f : Frame} (h : l.Names f) (hf : f.Sound c) :
    (l.bind t).map (List.map (List.map Prod.snd)) = t.bind f.entity f.joins := by
  refine (h.bind (t := t) hf).map_eq fun named plain hall => ?_
  rw [← List.forall₂_eq_eq_eq, List.forall₂_map_left_iff]
  exact hall.imp fun _ _ haligns => haligns.records

namespace Situations.In

variable {p : Path}

theorem readColumn (hx : x.In c frames) {column : Column} {f : Field}
    (hp : p.target? c frames = some (.field column f)) : x.ReadColumn p column := by
  intro env tuple outer h
  obtain ⟨hrecord, -, hlast, -⟩ := (hx _ _ h).field hp
  exact ⟨hrecord, hlast⟩

theorem read (hx : x.In c frames) {level slot : Nat} {r : Relation}
    (hp : p.target? c frames = some (.relation level slot r)) : x.Read p.holder level slot :=
  fun _ _ _ h => ((hx _ _ h).relation hp).1

theorem readRelated (hx : x.In c frames) {level slot : Nat} {r : Relation}
    (hp : p.target? c frames = some (.relation level slot r)) {rows : RelatedRows}
    (hrows : c.relatedRows level slot r = .ok rows) : x.ReadCollection p (.related rows) := by
  obtain ⟨target, -, rfl⟩ := Catalog.relatedRows_ok.mp hrows
  intro env tuple outer h
  obtain ⟨hrecord, _, -, hlast, -⟩ := (hx _ _ h).holder hp
  exact ⟨hrecord, hlast⟩

theorem readCollection (hx : x.In c frames) {collection : Collection} {element : FieldType}
    (hp : p.CollectedAs c frames collection element) : x.ReadCollection p collection := by
  cases hp with
  | stored htarget _ => exact hx.readColumn htarget
  | related htarget _ _ _ hrows => exact hx.readRelated htarget hrows

theorem orderBy (hx : x.In c frames) {ts : List OrderTerm} {keys : List SortKey}
    (h : List.Forall₂ (OrderTerm.PlannedAs c frames) ts keys) :
    List.Forall₂ (OrderTerm.ReadsAlike x) ts keys := by
  refine h.imp fun term key hkey => ?_
  obtain ⟨p, column, f, hp, htarget, -, -, rfl⟩ := hkey
  exact ⟨p, hp, hx.readColumn htarget, rfl⟩

/-- Within a planned body its own frame stands beside its own tuples. -/
theorem within (hx : x.In c frames) {b : Body} {e : Entity} (he : c.entity? b.entity = some e)
    {records : List Path} {g : Frame} (hg : b.frame? c records = some g) :
    In c (g :: frames) (.Within c t b records x) := by
  intro env tuples h
  cases h with
  | @intro env outer tuples tuple hin htuples htuple =>
    have hbuilt := Body.frame?_built hg
    have hbind := (Body.layout_names hg).bind (t := t) (hbuilt.sound he)
    rw [htuples] at hbind
    -- The plan binds the same tuples; the one in question is at the same position there.
    obtain ⟨plain, -, hall⟩ := hbind.of_ok
    obtain ⟨i, hi⟩ := List.mem_iff_getElem?.mp htuple
    obtain ⟨tuple', -, haligns⟩ := forall₂_getElem? hall hi
    rw [← hbuilt.scope_eq, haligns.records]
    exact .cons (hbuilt.sound he) haligns (hx env outer hin)

end Situations.In

theorem ItemsPlannedAs.readAlike (hx : x.In c frames) {es : List Expr}
    {selected : List SelectedItem} (h : ItemsPlannedAs c parameters frames es selected)
    (hes : ∀ e ∈ es, ∀ {o : Operand} {type : StaticType}, e.PlannedAs c parameters frames o type →
      e.ReadsAlike c t x o) :
    ItemsReadAlike c t x es (selected.map SelectedItem.item) := by
  induction es generalizing selected with
  | nil =>
    cases h
    exact .nil
  | cons e es ih =>
    cases h with
    | cons hfirst hrest =>
      have hrest := ih hrest fun e he => hes e (List.mem_cons_of_mem _ he)
      cases hfirst with
      | path hext hselected =>
        cases hselected with
        | field htarget => exact .expr (.path (hx.readColumn (hext.target? htarget))) hrest
        | related htarget _ hf hjoin =>
          -- The record may be joined in an earlier frame, of which the last one is an extension.
          obtain ⟨g, hg, hfg⟩ := forall₂_getElem? hext hf
          refine .record (fun env tuple outer h => ?_) hrest
          exact (hx _ _ h).related (hext.target? htarget) hg (hfg.joinAlong? hjoin)
        | record htarget =>
          exact .record (fun env tuple outer h => ((hx _ _ h).record (hext.target? htarget)).1) hrest
      | aggregate hplanned =>
        cases hplanned with
        | rows => exact .count hrest
        | column htarget _ => exact .aggregate (hx.readColumn htarget) hrest
      | operand _ _ hplanned => exact .expr (hes e List.mem_cons_self hplanned) hrest

theorem Body.PlannedAs.readsAlike (hx : x.In c frames) {es : List Expr} {b : Body} {q : Plan}
    {selected : List SelectedItem} (h : b.PlannedAs c parameters frames es q selected)
    (hstatements : ∀ {frames : List Frame} {x : Situations} {ys : List (Statement Predicate)},
      x.In c frames → StatementsPlannedAs c parameters frames b.statements ys →
      StatementsReadAlike c t x b.statements ys)
    (hes : ∀ e ∈ es, ∀ {frames : List Frame} {x : Situations} {o : Operand} {type : StaticType},
      x.In c frames → e.PlannedAs c parameters frames o type → e.ReadsAlike c t x o)
    (more : List (String × Value)) :
    b.ReadsAlike c t x es { q with parameters := more } := by
  cases h with
  | @intro _ _ _ _ g ys _ orderBy he hg hys hxs _ hkeys =>
    have hwithin := hx.within (t := t) he hg
    have hbuilt := Body.frame?_built hg
    -- The layout binds as the frame joins.
    have hbind := (Body.layout_names hg).bind_map (t := t) (hbuilt.sound he)
    rw [hbuilt.entity_eq] at hbind
    cases hxs with
    | nil =>
      refine .root hbind (hstatements hwithin hys) rfl rfl ?_ (hwithin.orderBy hkeys)
      intro env tuple outer h
      have halign := hwithin _ _ h
      cases halign with
      | cons _ haligns _ =>
        -- Nothing is selected, so a row is the root record itself.
        have hroot := haligns.record (Layout.number?_root _)
        simp [Tuple.record, hroot, Environment.record, hbuilt.scope_eq, Layout.follow, Place.root]
    | cons hfirst hrest =>
      refine .items (List.cons_ne_nil _ _) hbind (hstatements hwithin hys) rfl rfl ?_
        (hwithin.orderBy hkeys)
      exact ItemsPlannedAs.readAlike hwithin (.cons hfirst hrest) fun e he => hes e he hwithin

mutual

theorem Expr.PlannedAs.readsAlike {frames : List Frame} {x : Situations} (e : Expr) {o : Operand}
    {type : StaticType} (hx : x.In c frames) (h : e.PlannedAs c parameters frames o type) :
    e.ReadsAlike c t x o := by
  match e with
  | .path p =>
    cases h with
    | path htarget => exact .path (hx.readColumn htarget)
  | .literal v =>
    cases h
    exact .literal
  | .parameter name v =>
    cases h
    exact .parameter
  | .subquery body returns =>
    cases h with
    | @subquery _ _ _ q _ _ _ hbody _ =>
      obtain ⟨entity, joins, filter, projection, distinct, orderBy, window, parameters⟩ := q
      exact .subquery (hbody.readsAlike hx (Body.statements_readAlike body)
        (fun e he => by
          rw [List.mem_singleton.mp he]
          exact Expr.PlannedAs.readsAlike returns) parameters)
  | .aggregate f p => cases h
termination_by structural e

theorem Clause.PlannedAs.readsAlike {frames : List Frame} {x : Situations} (clause : Clause)
    {p : Predicate} (hx : x.In c frames) (h : clause.PlannedAs c parameters frames p) :
    clause.ReadsAlike c t x p := by
  match clause with
  | .compare left op right =>
    cases h with
    | compare hleft hright _ =>
      exact .compare (Expr.PlannedAs.readsAlike left hx hleft)
        (Expr.PlannedAs.readsAlike right hx hright)
  | .like operand pattern negated =>
    cases h with
    | like ho _ => exact .like (Expr.PlannedAs.readsAlike operand hx ho)
  | .inList operand values negated =>
    cases h with
    | inList ho _ => exact .inList (Expr.PlannedAs.readsAlike operand hx ho)
  | .inSubquery operand subquery negated =>
    cases h with
    | inSubquery ho hq _ =>
      exact .inSubquery (Expr.PlannedAs.readsAlike operand hx ho)
        (Expr.PlannedAs.readsAlike subquery hx hq)
  | .isNull operand negated =>
    cases h with
    | isNull ho => exact .isNull (Expr.PlannedAs.readsAlike operand hx ho)
    | isNullRelation htarget hp =>
      obtain ⟨_, -, -, ⟨-, rfl⟩ | ⟨-, rows, hrows, rfl⟩⟩ := Catalog.relationIsNull_ok.mp hp
      · exact .isNullKey (hx.read htarget)
      · exact .isNullRelated (hx.readRelated htarget hrows)
  | .isEmpty collection negated =>
    cases h with
    | isEmpty hcollected => exact .isEmpty (hx.readCollection hcollected)
  | .isMember value collection negated =>
    cases h with
    | isMember hv hcollected _ =>
      exact .isMember (Expr.PlannedAs.readsAlike value hx hv) (hx.readCollection hcollected)
termination_by structural clause

theorem StatementsPlannedAs.readAlike {frames : List Frame} {x : Situations}
    (xs : List (Statement Clause)) {ys : List (Statement Predicate)} (hx : x.In c frames)
    (h : StatementsPlannedAs c parameters frames xs ys) : StatementsReadAlike c t x xs ys := by
  match xs with
  | [] =>
    cases h
    exact .nil
  | .or :: xs =>
    cases h with
    | or hxs => exact .or (StatementsPlannedAs.readAlike xs hx hxs)
  | .clause clause :: xs =>
    cases h with
    | clause hclause hxs =>
      exact .clause (Clause.PlannedAs.readsAlike clause hx hclause)
        (StatementsPlannedAs.readAlike xs hx hxs)
termination_by structural xs

theorem Body.statements_readAlike (b : Body) {frames : List Frame} {x : Situations}
    {ys : List (Statement Predicate)} (hx : x.In c frames)
    (h : StatementsPlannedAs c parameters frames b.statements ys) :
    StatementsReadAlike c t x b.statements ys := by
  match b with
  | ⟨scope, entity, statements, joins, selection, orderBy, distinct, assignments⟩ =>
    exact StatementsPlannedAs.readAlike statements hx h
termination_by structural b

end

/-- A plan reads the records that its body names, over whatever tables. -/
theorem Body.readsAlike_of_plan {b : Body} {planned : PlannedQuery}
    (h : b.plan c = .ok planned) (t : Tables) :
    b.ReadsAlike c t .Outermost (b.selection.getD []) planned.plan := by
  obtain ⟨q, selected, hq, hplanned, -⟩ := Body.plan_plannedAs h
  rw [hq]
  refine hplanned.readsAlike (fun env tuples h => ?_)
    (fun hx hys => StatementsPlannedAs.readAlike _ hx hys)
    (fun e _ _ _ _ _ hx he => Expr.PlannedAs.readsAlike e hx he) _
  cases h
  exact .nil

/-- Levels and slot numbers are resolved rightly: a body that has a plan is scoped, its plan reads the
records that the body names, and gives the rows that the body means or fails like it. -/
theorem Body.plan_correct {b : Body} {planned : PlannedQuery} (h : b.plan c = .ok planned) :
    b.Scoped [] ∧ ∀ t : Tables,
      b.ReadsAlike c t .Outermost (b.selection.getD []) planned.plan ∧
        t.fetch planned.plan = b.answer c ⟨t, planned.plan.parameters, .insertion⟩ := by
  refine ⟨Body.scoped_of_plan h, fun t => ⟨Body.readsAlike_of_plan h t, ?_⟩⟩
  exact Body.fetch_eq_answer h t

theorem Body.plan_correct_sample :
    ∃ planned, Sample.busyInBerlin.plan Sample.catalog = .ok planned ∧
      Sample.busyInBerlin.Scoped [] ∧ ∀ t : Tables,
        Sample.busyInBerlin.ReadsAlike Sample.catalog t .Outermost
            (Sample.busyInBerlin.selection.getD []) planned.plan ∧
          t.fetch planned.plan =
            Sample.busyInBerlin.answer Sample.catalog ⟨t, planned.plan.parameters, .insertion⟩ := by
  obtain ⟨planned, h⟩ := Sample.busyInBerlin_planned
  exact ⟨planned, h, Body.plan_correct h⟩

end Planned

end EntityQuery
