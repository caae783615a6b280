import EntityQuery.Proofs.Planning.Changes
import EntityQuery.Proofs.Planning.Planned
import EntityQuery.Proofs.Planning.SharedJoins
import EntityQuery.Proofs.Sample

/-!
# Paths in shared joins

Where the paths of a body lead can be read off the joins of its plan: a path goes from slot to slot,
each time along the first join on the relation of its next hop. All paths that take a relation from one
slot therefore get to one slot, wherever they stand in the body or in a body nested in it.
-/

namespace EntityQuery

/-! ## Following joins -/

/-- The slot that hops along relations lead to from a slot. -/
def Plan.follow? (q : Plan) (slot : Nat) : List String → Option Nat
  | [] => some slot
  | name :: rest => (q.joinAlong? slot name).bind fun next => q.follow? next rest

/-- Where a path leads in queries given with their scopes, from the innermost to the outermost: how many
queries out, and to which slot there. -/
def Path.reach? (p : Path) : List (Nat × Plan) → Option (Nat × Nat)
  | [] => none
  | (scope, q) :: around =>
    if scope = p.scope then (q.follow? p.origin.slot p.hops).map fun slot => (0, slot)
    else (p.reach? around).map fun (level, slot) => (level + 1, slot)

theorem Plan.follow?_concat {q : Plan} {slot slot' : Nat} {hops : List String}
    (h : q.follow? slot hops = some slot') (name : String) :
    q.follow? slot (hops ++ [name]) = q.joinAlong? slot' name := by
  induction hops generalizing slot with
  | nil =>
    cases h
    exact Option.bind_fun_some _
  | cons first rest ih =>
    obtain ⟨next, hnext, hrest⟩ := Option.bind_eq_some_iff.mp h
    rw [List.cons_append, follow?, hnext, Option.bind_some]
    exact ih hrest

/-- A path one hop further leads along the first join on that relation in the query that it has got
to. -/
theorem Path.reach?_child {p : Path} {around : List (Nat × Plan)} {level slot : Nat}
    (h : p.reach? around = some (level, slot)) :
    ∃ scope q, around[level]? = some (scope, q) ∧ ∀ name,
      (p.child name).reach? around = (q.joinAlong? slot name).map fun next => (level, next) := by
  induction around generalizing level with
  | nil => cases h
  | cons s around ih =>
    obtain ⟨scope, q⟩ := s
    unfold reach? at h
    split at h
    · -- The path is of this scope, so it goes on from where it has got to.
      rename_i hscope
      obtain ⟨slot', hfollow, heq⟩ := Option.map_eq_some_iff.mp h
      cases heq
      refine ⟨scope, q, rfl, fun name => ?_⟩
      rw [reach?, if_pos (show scope = (p.child name).scope from hscope)]
      exact congrArg _ (Plan.follow?_concat hfollow name)
    · rename_i hscope
      -- It is of a scope further out.
      obtain ⟨⟨level', slot'⟩, hreach, heq⟩ := Option.map_eq_some_iff.mp h
      cases heq
      obtain ⟨scope', q', hq', hchild⟩ := ih hreach
      refine ⟨scope', q', hq', fun name => ?_⟩
      rw [reach?, if_neg (show ¬scope = (p.child name).scope from hscope), hchild, Option.map_map]
      rfl

/-! ## Bodies beside the joins of their plans -/

/-- A path to a stored field, and its column. -/
def Path.ResolvedTo (p : Path) (around : List (Nat × Plan)) (column : Column) : Prop :=
  p.holder.reach? around = some (column.level, column.slot) ∧ p.hops.getLast? = some column.field

/-- A path to a relation that is not joined. -/
def Path.RelatedTo (p : Path) (around : List (Nat × Plan)) (rows : RelatedRows) : Prop :=
  p.holder.reach? around = some (rows.level, rows.slot) ∧ p.hops.getLast? = some rows.relation

def Path.CollectedTo (p : Path) (around : List (Nat × Plan)) : Collection → Prop
  | .related rows => p.RelatedTo around rows
  | .stored column => p.ResolvedTo around column

/-- An ordering and its key. -/
def OrderTerm.ResolvedTo (around : List (Nat × Plan)) (t : OrderTerm) (key : SortKey) : Prop :=
  ∃ p, t.expr = .path p ∧ p.ResolvedTo around key.column ∧ key.column.level = 0

mutual

/-- An expression and its operand in queries around them, each given with its scope: every path leads
in the joins of these queries to the slot of its column. -/
inductive Expr.ResolvedTo (c : Catalog) : List (Nat × Plan) → Expr → Operand → Prop
  | path {around : List (Nat × Plan)} {p : Path} {column : Column} : p.ResolvedTo around column →
      Expr.ResolvedTo c around (.path p) (.column column)
  | literal {around : List (Nat × Plan)} {v : Value} :
      Expr.ResolvedTo c around (.literal v) (.literal v)
  | parameter {around : List (Nat × Plan)} {name : String} {v : Value} :
      Expr.ResolvedTo c around (.parameter name v) (.parameter name)
  | subquery {around : List (Nat × Plan)} {body : Body} {returns : Expr} {q : Plan} :
      Body.ResolvedTo c around [returns] body q →
      Expr.ResolvedTo c around (.subquery body returns) (.query q)

/-- A clause and its condition. -/
inductive Clause.ResolvedTo (c : Catalog) : List (Nat × Plan) → Clause → Predicate → Prop
  | compare {around : List (Nat × Plan)} {left right : Expr} {op : Comparison} {l r : Operand} :
      Expr.ResolvedTo c around left l → Expr.ResolvedTo c around right r →
      Clause.ResolvedTo c around (.compare left op right) (.compare l op r)
  | like {around : List (Nat × Plan)} {operand : Expr} {pattern : String} {negated : Bool}
      {o : Operand} : Expr.ResolvedTo c around operand o →
      Clause.ResolvedTo c around (.like operand pattern negated) (.like o pattern negated)
  | inList {around : List (Nat × Plan)} {operand : Expr} {values : List Value} {negated : Bool}
      {o : Operand} : Expr.ResolvedTo c around operand o →
      Clause.ResolvedTo c around (.inList operand values negated) (.inList o values negated)
  | inSubquery {around : List (Nat × Plan)} {operand subquery : Expr} {negated : Bool}
      {o : Operand} {q : Plan} : Expr.ResolvedTo c around operand o →
      Expr.ResolvedTo c around subquery (.query q) →
      Clause.ResolvedTo c around (.inSubquery operand subquery negated) (.inQuery o q negated)
  | isNull {around : List (Nat × Plan)} {operand : Expr} {negated : Bool} {o : Operand} :
      Expr.ResolvedTo c around operand o →
      Clause.ResolvedTo c around (.isNull operand negated) (.isNull o negated)
  /-- A relation that is null if its key is. The key is a field of the record that has the relation. -/
  | isNullKey {around : List (Nat × Plan)} {p : Path} {negated : Bool} {column : Column} :
      p.holder.reach? around = some (column.level, column.slot) →
      Clause.ResolvedTo c around (.isNull (.path p) negated) (.isNull (.column column) negated)
  /-- A relation that is null if nothing is related. -/
  | isNullRelated {around : List (Nat × Plan)} {p : Path} {negated : Bool} {rows : RelatedRows} :
      p.RelatedTo around rows →
      Clause.ResolvedTo c around (.isNull (.path p) negated) (.isEmpty (.related rows) negated)
  | isEmpty {around : List (Nat × Plan)} {p : Path} {negated : Bool} {rows : Collection} :
      p.CollectedTo around rows →
      Clause.ResolvedTo c around (.isEmpty p negated) (.isEmpty rows negated)
  | isMember {around : List (Nat × Plan)} {value : Expr} {p : Path} {negated : Bool} {v : Operand}
      {rows : Collection} : Expr.ResolvedTo c around value v → p.CollectedTo around rows →
      Clause.ResolvedTo c around (.isMember value p negated) (.isMember v rows negated)

inductive StatementsResolvedTo (c : Catalog) :
    List (Nat × Plan) → List (Statement Clause) → List (Statement Predicate) → Prop
  | nil {around : List (Nat × Plan)} : StatementsResolvedTo c around [] []
  | or {around : List (Nat × Plan)} {xs : List (Statement Clause)}
      {ys : List (Statement Predicate)} : StatementsResolvedTo c around xs ys →
      StatementsResolvedTo c around (.or :: xs) (.or :: ys)
  | clause {around : List (Nat × Plan)} {x : Clause} {p : Predicate} {xs : List (Statement Clause)}
      {ys : List (Statement Predicate)} : Clause.ResolvedTo c around x p →
      StatementsResolvedTo c around xs ys →
      StatementsResolvedTo c around (.clause x :: xs) (.clause p :: ys)

/-- Selected expressions and their items. -/
inductive ItemsResolvedTo (c : Catalog) : List (Nat × Plan) → List Expr → List Item → Prop
  | nil {around : List (Nat × Plan)} : ItemsResolvedTo c around [] []
  /-- A record as a whole is one of the query itself, and its relation is joined. -/
  | record {around : List (Nat × Plan)} {p : Path} {slot : Nat} {es : List Expr}
      {items : List Item} : p.reach? around = some (0, slot) → ItemsResolvedTo c around es items →
      ItemsResolvedTo c around (.path p :: es) (.record slot :: items)
  | expr {around : List (Nat × Plan)} {e : Expr} {o : Operand} {es : List Expr}
      {items : List Item} : Expr.ResolvedTo c around e o → ItemsResolvedTo c around es items →
      ItemsResolvedTo c around (e :: es) (.expr o :: items)
  | count {around : List (Nat × Plan)} {es : List Expr} {items : List Item} :
      ItemsResolvedTo c around es items →
      ItemsResolvedTo c around (.aggregate .count none :: es)
        (.expr (.aggregate .count none) :: items)
  | aggregate {around : List (Nat × Plan)} {f : Aggregate} {p : Path} {column : Column}
      {es : List Expr} {items : List Item} : p.ResolvedTo around column →
      ItemsResolvedTo c around es items →
      ItemsResolvedTo c around (.aggregate f (some p) :: es)
        (.expr (.aggregate f (some column)) :: items)

/-- A body that selects expressions, and its plan, whose joins the paths of the body share. -/
inductive Body.ResolvedTo (c : Catalog) : List (Nat × Plan) → List Expr → Body → Plan → Prop
  | intro {around : List (Nat × Plan)} {es : List Expr} {b : Body} {q : Plan} {items : List Item}
      {ys : List (Statement Predicate)} : q.SharesJoins c b.joins →
      StatementsResolvedTo c ((b.scope, q) :: around) b.statements ys →
      q.filter = Statement.combine .and .or ys →
      ItemsResolvedTo c ((b.scope, q) :: around) es items →
      q.projection = (if items.isEmpty then .root else .items items) →
      List.Forall₂ (OrderTerm.ResolvedTo ((b.scope, q) :: around)) b.orderBy q.orderBy →
      Body.ResolvedTo c around es b q

end

/-! ## Plans beside frames -/

/-- The name that a path ends in, if it has hops. -/
def Resolved.name? : Resolved → Option String
  | field column _ => some column.field
  | relation _ _ r => some r.name
  | record .. => none

/-- A query, given with its scope, has the joins of a frame. -/
structure Frame.KeptBy (f : Frame) (s : Nat × Plan) : Prop where
  scope : f.scope = s.1
  joins : f.joins = s.2.joins
  slots : ∀ origin slot, f.slotOf? origin = some slot → slot = origin.slot

/-- What is traced in a frame is found along the joins of the query. -/
theorem Frame.KeptBy.follow? {c : Catalog} {f : Frame} {s : Nat × Plan} (h : f.KeptBy s)
    {level slot : Nat} {entity : String} {hops : List String} {r : Resolved}
    (htrace : f.trace? c level slot entity hops = some r) :
    s.2.follow? slot hops.dropLast = some r.slot ∧ hops.getLast? = r.name? := by
  induction hops generalizing slot entity with
  | nil =>
    cases htrace
    exact ⟨rfl, rfl⟩
  | cons name rest ih =>
    cases rest with
    | nil =>
      unfold Frame.trace? at htrace
      split at htrace
      · rename_i field hname
        cases htrace
        obtain ⟨e, -, hfield⟩ := Catalog.attribute?_field hname
        obtain rfl := (Entity.field?_mem hfield).2
        exact ⟨rfl, rfl⟩
      · rename_i r hname
        cases htrace
        obtain rfl := (Schema.relation?_name (Catalog.attribute?_relation hname)).2
        exact ⟨rfl, rfl⟩
      · cases htrace
    | cons next rest =>
      unfold Frame.trace? at htrace
      split at htrace
      · rename_i r hname
        split at htrace
        · rename_i slot' hslot
          rw [(Schema.relation?_name (Catalog.attribute?_relation hname)).2] at hslot
          -- The joins of the frame are those of the query.
          have hjoin : s.2.joinAlong? slot name = some slot' := by
            rw [Plan.joinAlong?, ← h.joins]
            exact hslot
          obtain ⟨hfollow, hlast⟩ := ih htrace
          refine ⟨?_, by rw [List.getLast?_cons_cons, hlast]⟩
          rw [List.dropLast_cons_cons, Plan.follow?, hjoin, Option.bind_some]
          exact hfollow
        · cases htrace
      · cases htrace

section Paths

variable {c : Catalog} {frames : List Frame} {around : List (Nat × Plan)} {p : Path}

/-- A path is followed in the query whose frame has its scope. -/
theorem Path.reach?_of_locate? (hframes : List.Forall₂ Frame.KeptBy frames around) {level : Nat}
    {f : Frame} (h : Frame.locate? p.scope frames = some (level, f)) :
    ∃ s, around[level]? = some s ∧ f.KeptBy s ∧
      p.reach? around = (s.2.follow? p.origin.slot p.hops).map fun slot => (level, slot) := by
  induction hframes generalizing level with
  | nil => cases h
  | @cons g s frames around hg _ ih =>
    unfold Frame.locate? at h
    unfold reach?
    rw [← hg.scope]
    split at h
    · rename_i hscope
      cases h
      rw [if_pos hscope]
      exact ⟨s, rfl, hg, rfl⟩
    · rename_i hscope
      -- Further out, levels are counted from the next frame.
      obtain ⟨⟨i, f'⟩, hf, heq⟩ := Option.map_eq_some_iff.mp h
      cases heq
      obtain ⟨s', hs', hkept, hreach⟩ := ih hf
      rw [if_neg hscope, hreach, Option.map_map]
      exact ⟨s', hs', hkept, rfl⟩

/-- What a path stands for is at the slot that it leads to without its last name. -/
theorem Path.reach?_target? (hframes : List.Forall₂ Frame.KeptBy frames around) {r : Resolved}
    (h : p.target? c frames = some r) :
    p.holder.reach? around = some (r.level, r.slot) ∧ p.hops.getLast? = r.name? := by
  obtain ⟨f, slot, entity, hlocate, hslot, -, htrace⟩ := target?_eq_some h
  obtain ⟨s, -, hkept, hreach⟩ := reach?_of_locate? (p := p.holder) hframes hlocate
  obtain rfl := hkept.slots _ _ hslot
  obtain ⟨hfollow, hlast⟩ := hkept.follow? htrace
  refine ⟨?_, hlast⟩
  rw [hreach, show s.2.follow? p.holder.origin.slot p.holder.hops = some r.slot from hfollow]
  rfl

theorem Path.target?_resolvedTo (hframes : List.Forall₂ Frame.KeptBy frames around)
    {column : Column} {f : Field} (h : p.target? c frames = some (.field column f)) :
    p.ResolvedTo around column :=
  reach?_target? hframes h

theorem Path.target?_relatedTo (hframes : List.Forall₂ Frame.KeptBy frames around)
    {level slot : Nat} {r : Relation} (h : p.target? c frames = some (.relation level slot r))
    {rows : RelatedRows} (hrows : c.relatedRows level slot r = .ok rows) :
    p.RelatedTo around rows := by
  obtain ⟨target, -, rfl⟩ := Catalog.relatedRows_ok.mp hrows
  exact reach?_target? hframes h

theorem Path.CollectedAs.collectedTo (hframes : List.Forall₂ Frame.KeptBy frames around)
    {rows : Collection} {element : FieldType} (h : p.CollectedAs c frames rows element) :
    p.CollectedTo around rows := by
  cases h with
  | stored htarget _ => exact target?_resolvedTo hframes htarget
  | related htarget _ _ _ hrows => exact target?_relatedTo hframes htarget hrows

/-- A path without hops leads to the record that it stands for. -/
theorem Path.reach?_record (hframes : List.Forall₂ Frame.KeptBy frames around) {level slot : Nat}
    {entity : String} (h : p.target? c frames = some (.record level slot entity)) :
    p.reach? around = some (level, slot) := by
  obtain ⟨hreach, hlast⟩ := reach?_target? hframes h
  have hself : p.holder = p := by
    rw [holder, List.getLast?_eq_none_iff.mp hlast]
    exact congrArg (Path.mk _ _ _) (List.getLast?_eq_none_iff.mp hlast).symm
  rwa [hself] at hreach

/-- A path to a relation that is joined leads to the slot of the join. -/
theorem Path.reach?_related (hframes : List.Forall₂ Frame.KeptBy frames around)
    {level parent slot : Nat} {r : Relation} {f : Frame}
    (h : p.target? c frames = some (.relation level parent r)) (hf : frames[level]? = some f)
    (hjoin : f.joinAlong? parent r.name = some slot) : p.reach? around = some (level, slot) := by
  obtain ⟨hreach, hlast⟩ := reach?_target? hframes h
  obtain ⟨scope, q, hq, hchild⟩ := reach?_child hreach
  obtain ⟨s, hs, hkept⟩ := forall₂_getElem? hframes hf
  cases hs.symm.trans hq
  have hself : p.holder.child r.name = p :=
    congrArg (Path.mk _ _ _) (List.dropLast_append_getLast? _ hlast)
  rw [← hself, hchild, Plan.joinAlong?, ← hkept.joins]
  exact congrArg (Option.map fun next => (level, next)) hjoin

theorem resolvedTo_orderBy (hframes : List.Forall₂ Frame.KeptBy frames around)
    {ts : List OrderTerm} {keys : List SortKey}
    (h : List.Forall₂ (OrderTerm.PlannedAs c frames) ts keys) :
    List.Forall₂ (OrderTerm.ResolvedTo around) ts keys := by
  refine h.imp fun t key hkey => ?_
  obtain ⟨p, column, f, hp, htarget, -, hlevel, rfl⟩ := hkey
  exact ⟨p, hp, Path.target?_resolvedTo hframes htarget, hlevel⟩

end Paths

/-! ## Planned bodies share joins -/

section Planned

variable {c : Catalog} {parameters : List (String × Value)} {frames : List Frame}
  {around : List (Nat × Plan)}

theorem ItemsPlannedAs.resolvedTo (hframes : List.Forall₂ Frame.KeptBy frames around)
    {es : List Expr} {selected : List SelectedItem}
    (h : ItemsPlannedAs c parameters frames es selected)
    (hes : ∀ e ∈ es, ∀ {o : Operand} {t : StaticType}, e.PlannedAs c parameters frames o t →
      e.ResolvedTo c around o) :
    ItemsResolvedTo c around es (selected.map SelectedItem.item) := by
  induction es generalizing selected with
  | nil =>
    cases h
    exact .nil
  | cons e es ih =>
    cases h with
    | cons hfirst hrest =>
      have hrest := ih hrest fun e he => hes e (List.mem_cons_of_mem _ he)
      cases hfirst with
      | path hext hselected =>
        cases hselected with
        | field htarget =>
          exact .expr (.path (Path.target?_resolvedTo hframes (hext.target? htarget))) hrest
        | related htarget _ hf hjoin =>
          -- The slot was joined when the record was selected, and the frame has only grown.
          obtain ⟨g, hg, hfg⟩ := forall₂_getElem? hext hf
          exact .record (Path.reach?_related hframes (hext.target? htarget) hg
            (hfg.joinAlong? hjoin)) hrest
        | record htarget => exact .record (Path.reach?_record hframes (hext.target? htarget)) hrest
      | aggregate hplanned =>
        cases hplanned with
        | rows => exact .count hrest
        | column htarget _ => exact .aggregate (Path.target?_resolvedTo hframes htarget) hrest
      | operand _ _ hplanned => exact .expr (hes e List.mem_cons_self hplanned) hrest

/-- Whatever parameters a planned query carries, its joins are those that its paths were planned in. -/
theorem Body.PlannedAs.resolvedTo (hframes : List.Forall₂ Frame.KeptBy frames around)
    {es : List Expr} {b : Body} {q : Plan} {selected : List SelectedItem}
    (h : b.PlannedAs c parameters frames es q selected)
    (hstatements : ∀ {frames : List Frame} {around : List (Nat × Plan)}
      {ys : List (Statement Predicate)}, List.Forall₂ Frame.KeptBy frames around →
      StatementsPlannedAs c parameters frames b.statements ys →
      StatementsResolvedTo c around b.statements ys)
    (hes : ∀ e ∈ es, ∀ {frames : List Frame} {around : List (Nat × Plan)} {o : Operand}
      {t : StaticType}, List.Forall₂ Frame.KeptBy frames around →
      e.PlannedAs c parameters frames o t → e.ResolvedTo c around o)
    (own : List (String × Value)) : b.ResolvedTo c around es { q with parameters := own } := by
  cases h with
  | @intro _ _ _ _ g ys selected orderBy he hg hys hxs _ hkeys =>
    have hbuilt := Body.frame?_built hg
    -- The frame after all parts keeps the joins of the query, whatever parameters it carries.
    have hkept : g.KeptBy (b.scope, { b.assemble g ys selected orderBy with parameters := own }) :=
      ⟨hbuilt.scope_eq, rfl, fun _ _ hslot => hbuilt.slotOf?_eq hslot⟩
    have hframes' := List.Forall₂.cons hkept hframes
    refine .intro (hbuilt.sharesJoins hbuilt.entity_eq.symm rfl) (hstatements hframes' hys) rfl
      (hxs.resolvedTo hframes' fun e he => hes e he hframes') ?_ (resolvedTo_orderBy hframes' hkeys)
    cases selected <;> rfl

mutual

theorem Expr.PlannedAs.resolvedTo {frames : List Frame} {around : List (Nat × Plan)} (e : Expr)
    {o : Operand} {t : StaticType} (hframes : List.Forall₂ Frame.KeptBy frames around)
    (h : e.PlannedAs c parameters frames o t) : e.ResolvedTo c around o := by
  match e with
  | .path p =>
    cases h with
    | path htarget => exact .path (Path.target?_resolvedTo hframes htarget)
  | .literal v =>
    cases h
    exact .literal
  | .parameter name v =>
    cases h
    exact .parameter
  | .subquery body returns =>
    cases h with
    | @subquery _ _ _ q _ _ _ hbody _ =>
      obtain ⟨entity, joins, filter, projection, distinct, orderBy, window, own⟩ := q
      exact .subquery (hbody.resolvedTo hframes (Body.statements_resolvedTo body)
        (fun e he => by
          rw [List.mem_singleton.mp he]
          exact Expr.PlannedAs.resolvedTo returns) own)
  | .aggregate f p => cases h
termination_by structural e

theorem Clause.PlannedAs.resolvedTo {frames : List Frame} {around : List (Nat × Plan)}
    (clause : Clause) {p : Predicate} (hframes : List.Forall₂ Frame.KeptBy frames around)
    (h : clause.PlannedAs c parameters frames p) : clause.ResolvedTo c around p := by
  match clause with
  | .compare left op right =>
    cases h with
    | compare hleft hright _ =>
      exact .compare (Expr.PlannedAs.resolvedTo left hframes hleft)
        (Expr.PlannedAs.resolvedTo right hframes hright)
  | .like operand pattern negated =>
    cases h with
    | like ho _ => exact .like (Expr.PlannedAs.resolvedTo operand hframes ho)
  | .inList operand values negated =>
    cases h with
    | inList ho _ => exact .inList (Expr.PlannedAs.resolvedTo operand hframes ho)
  | .inSubquery operand subquery negated =>
    cases h with
    | inSubquery ho hq _ =>
      exact .inSubquery (Expr.PlannedAs.resolvedTo operand hframes ho)
        (Expr.PlannedAs.resolvedTo subquery hframes hq)
  | .isNull operand negated =>
    cases h with
    | isNull ho => exact .isNull (Expr.PlannedAs.resolvedTo operand hframes ho)
    | isNullRelation htarget hnull =>
      obtain ⟨_, -, -, ⟨-, rfl⟩ | ⟨-, rows, hrows, rfl⟩⟩ := Catalog.relationIsNull_ok.mp hnull
      · exact .isNullKey (Path.reach?_target? hframes htarget).1
      · exact .isNullRelated (Path.target?_relatedTo hframes htarget hrows)
  | .isEmpty collection negated =>
    cases h with
    | isEmpty hcollected => exact .isEmpty (hcollected.collectedTo hframes)
  | .isMember value collection negated =>
    cases h with
    | isMember hv hcollected _ =>
      exact .isMember (Expr.PlannedAs.resolvedTo value hframes hv)
        (hcollected.collectedTo hframes)
termination_by structural clause

theorem StatementsPlannedAs.resolvedTo {frames : List Frame} {around : List (Nat × Plan)}
    (xs : List (Statement Clause)) {ys : List (Statement Predicate)}
    (hframes : List.Forall₂ Frame.KeptBy frames around)
    (h : StatementsPlannedAs c parameters frames xs ys) : StatementsResolvedTo c around xs ys := by
  match xs with
  | [] =>
    cases h
    exact .nil
  | .or :: xs =>
    cases h with
    | or hxs => exact .or (StatementsPlannedAs.resolvedTo xs hframes hxs)
  | .clause x :: xs =>
    cases h with
    | clause hx hxs =>
      exact .clause (Clause.PlannedAs.resolvedTo x hframes hx)
        (StatementsPlannedAs.resolvedTo xs hframes hxs)
termination_by structural xs

theorem Body.statements_resolvedTo (b : Body) {frames : List Frame} {around : List (Nat × Plan)}
    {ys : List (Statement Predicate)} (hframes : List.Forall₂ Frame.KeptBy frames around)
    (h : StatementsPlannedAs c parameters frames b.statements ys) :
    StatementsResolvedTo c around b.statements ys := by
  match b with
  | ⟨scope, entity, statements, joins, selection, orderBy, distinct, assignments⟩ =>
    exact StatementsPlannedAs.resolvedTo statements hframes h
termination_by structural b

end

end Planned

/-! ## Whole plans -/

section Plans

variable {c : Catalog} {b : Body}

/-- The joins and paths of a planned query do not depend on the parameters that it carries. -/
theorem Body.resolvedTo_of_plan {planned : PlannedQuery} (h : b.plan c = .ok planned)
    (own : List (String × Value)) :
    b.ResolvedTo c [] (b.selection.getD []) { planned.plan with parameters := own } := by
  obtain ⟨q, selected, hq, hplanned, -⟩ := Body.plan_plannedAs h
  rw [hq]
  exact hplanned.resolvedTo .nil (fun hframes => StatementsPlannedAs.resolvedTo _ hframes)
    (fun e _ _ _ _ _ hframes => Expr.PlannedAs.resolvedTo e hframes) own

/-- A change declares no joins, and its filter is that of a query without joins. -/
theorem Body.resolvedTo_of_planChange {parts : ChangeParts} (h : b.planChange c = .ok parts) :
    b.joins = [] ∧
      b.clauses.ResolvedTo c [] [] { Plan.all b.entity with filter := parts.filter } := by
  obtain ⟨-, -, -, -, hjoins, -⟩ := planChange_ok h
  obtain ⟨planned, hplanned, hplan, -⟩ := planChange_clauses h
  have hresolved := resolvedTo_of_plan hplanned []
  rw [hplan] at hresolved
  exact ⟨hjoins, hresolved⟩

/-- A relation with a declared join leads to the first such join. -/
theorem Path.reach?_declared {p : Path} {around : List (Nat × Plan)} {level : Nat} {scope : Nat}
    {q : Plan} {ds : List JoinDeclaration} (hq : around[level]? = some (scope, q))
    (hshares : q.SharesJoins c ds) {k : Nat} {d : JoinDeclaration} (hd : ds[k]? = some d)
    (hfirst : ∀ i d', i < k → ds[i]? = some d' → d'.parent = d.parent → d'.relation ≠ d.relation)
    (hreach : p.reach? around = some (level, d.parent.slot)) :
    (p.child d.relation).reach? around = some (level, k + 1) := by
  obtain ⟨scope', q', hq', hchild⟩ := reach?_child hreach
  cases hq.symm.trans hq'
  rw [hchild, hshares.first k d hd hfirst, Option.map_some]

/-- Every plan of a body, and every plan nested in it, has the declared joins in their order, and then
inner joins along to-one relations, none of them along the relation of another join of its parent. The
paths of the body, and of the bodies nested in it, lead along these joins. So they do in the filter of a
change, which is that of a query without joins. Paths that take a relation from one slot get to one
slot, and if a join along it is declared, to that of the first one. -/
theorem Body.joins_shared (c : Catalog) (b : Body) :
    (∀ planned, b.plan c = .ok planned →
      b.ResolvedTo c [] (b.selection.getD []) planned.plan) ∧
    (∀ parts, b.planChange c = .ok parts →
      b.joins = [] ∧
        b.clauses.ResolvedTo c [] [] { Plan.all b.entity with filter := parts.filter }) ∧
    ∀ (around : List (Nat × Plan)) (p : Path) (level slot : Nat) (relation : String),
      p.reach? around = some (level, slot) →
      (∀ p' : Path, p'.reach? around = some (level, slot) →
        (p'.child relation).reach? around = (p.child relation).reach? around) ∧
      ∀ (scope : Nat) (q : Plan) (ds : List JoinDeclaration) (k : Nat) (d : JoinDeclaration),
        around[level]? = some (scope, q) → q.SharesJoins c ds → ds[k]? = some d →
        d.parent.slot = slot → d.relation = relation →
        (∀ i d', i < k → ds[i]? = some d' → d'.parent = d.parent → d'.relation ≠ d.relation) →
        (p.child relation).reach? around = some (level, k + 1) := by
  refine ⟨fun planned h => ?_, fun _ => resolvedTo_of_planChange,
    fun around p level slot relation hreach => ⟨fun p' hreach' => ?_, ?_⟩⟩
  · obtain ⟨⟨entity, joins, filter, projection, distinct, orderBy, window, own⟩, shapes, types⟩ :=
      planned
    exact resolvedTo_of_plan h own
  · -- Where the path has got to is one slot of one query, so what comes next is decided there.
    obtain ⟨scope, q, hq, hchild⟩ := Path.reach?_child hreach
    obtain ⟨scope', q', hq', hchild'⟩ := Path.reach?_child hreach'
    cases hq.symm.trans hq'
    rw [hchild, hchild']
  · rintro scope q ds k d hq hshares hd rfl rfl hfirst
    exact Path.reach?_declared hq hshares hd hfirst hreach

/-- An address that is joined once is read by a path from the join and by one from the root; a nested
body joins in the query around it; a change has a nested body. -/
theorem Body.joins_shared_sample :
    (∃ planned, Sample.placed.plan Sample.catalog = .ok planned ∧
      Sample.placed.ResolvedTo Sample.catalog [] (Sample.placed.selection.getD []) planned.plan ∧
      (⟨1, "User", .root, ["address"]⟩ : Path).reach? [(1, planned.plan)] = some (0, 2)) ∧
    (∃ planned, Sample.busyInBerlin.plan Sample.catalog = .ok planned ∧
      Sample.busyInBerlin.ResolvedTo Sample.catalog [] (Sample.busyInBerlin.selection.getD [])
        planned.plan) ∧
    ∃ parts, (ChangeStep.body "User" Sample.relogin).planChange Sample.catalog = .ok parts ∧
      (ChangeStep.body "User" Sample.relogin).clauses.ResolvedTo Sample.catalog [] []
        { Plan.all "User" with filter := parts.filter } := by
  obtain ⟨hplan, -, hpaths⟩ := joins_shared Sample.catalog Sample.placed
  obtain ⟨planned, h⟩ : ∃ planned, Sample.placed.plan Sample.catalog = .ok planned :=
    Sample.exists_ok (by decide +kernel)
  obtain ⟨berlin, hberlin⟩ := Sample.busyInBerlin_planned
  obtain ⟨parts, hparts⟩ := Sample.exists_ok
    (show ((ChangeStep.body "User" Sample.relogin).planChange Sample.catalog).toBool = true by
      decide +kernel)
  obtain ⟨-, hresolved⟩ :=
    (joins_shared Sample.catalog (ChangeStep.body "User" Sample.relogin)).2.1 parts hparts
  refine ⟨⟨planned, h, hplan planned h, ?_⟩,
    ⟨berlin, hberlin, (joins_shared _ _).1 berlin hberlin⟩, parts, hparts, hresolved⟩
  -- The join of the path is the second one that is declared.
  have hshares : planned.plan.SharesJoins Sample.catalog Sample.placed.joins := by
    cases hplan planned h with
    | intro hshares => exact hshares
  refine (hpaths [(1, planned.plan)] ⟨1, "User", .root, []⟩ 0 0 "address" rfl).2 1 planned.plan
    Sample.placed.joins 1 ⟨.root, "address", "Address", false, .inner⟩ rfl hshares rfl rfl rfl ?_
  intro i d' hi hd' _
  obtain rfl : i = 0 := by omega
  obtain rfl := Option.some.inj hd'
  decide +kernel

end Plans

end EntityQuery
