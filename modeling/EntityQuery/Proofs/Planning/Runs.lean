import EntityQuery.Planning

/-!
# Successful planning steps

What a step of the planner did if it succeeded: the runs of its parts, the checks that passed, and
the state it left. Later modules read planner runs through these lemmas only and open no step again.
-/

namespace EntityQuery

namespace Planner

variable {α β : Type} {s s' : Scopes}

/-! ## The planner as a monad -/

theorem run_bind_ok {x : Planner α} {f : α → Planner β} {b : β} :
    (x >>= f).run s = .ok (b, s') ↔
      ∃ a s₁, x.run s = .ok (a, s₁) ∧ (f a).run s₁ = .ok (b, s') := by
  rw [StateT.run_bind]
  cases x.run s with
  | error e => simp [bind, Except.bind]
  | ok r =>
    obtain ⟨a, s₁⟩ := r
    constructor
    · intro h
      exact ⟨a, s₁, rfl, h⟩
    · rintro ⟨_, _, h, hf⟩
      cases h
      exact hf

theorem run_bind_of_ok {x : Planner α} {f : α → Planner β} {a : α} (h : x.run s = .ok (a, s')) :
    (x >>= f).run s = (f a).run s' := by
  rw [StateT.run_bind, h]
  rfl

theorem run_pure_ok {a b : α} :
    (pure a : Planner α).run s = .ok (b, s') ↔ a = b ∧ s = s' := by
  constructor
  · intro h
    cases h
    exact ⟨rfl, rfl⟩
  · rintro ⟨rfl, rfl⟩
    rfl

theorem run_get_ok {r : Scopes} :
    (get : Planner Scopes).run s = .ok (r, s') ↔ s = r ∧ s = s' := by
  simp [get, getThe, MonadStateOf.get, StateT.run, StateT.get, pure, Except.pure]

theorem run_set_ok {r : Scopes} {u : Unit} :
    (set r : Planner Unit).run s = .ok (u, s') ↔ r = s' := by
  constructor
  · intro h
    cases h
    rfl
  · rintro rfl
    rfl

theorem run_modify_ok {f : Scopes → Scopes} {u : Unit} :
    (modify f : Planner Unit).run s = .ok (u, s') ↔ f s = s' := by
  constructor
  · intro h
    cases h
    rfl
  · rintro rfl
    rfl

theorem run_lift_ok {x : Except QueryError α} {a : α} :
    (liftM x : Planner α).run s = .ok (a, s') ↔ x = .ok a ∧ s = s' := by
  cases x with
  | error e => simp [liftM, monadLift, MonadLift.monadLift, StateT.lift, StateT.run, bind, Except.bind]
  | ok b => simp [liftM, monadLift, MonadLift.monadLift, StateT.lift, StateT.run, bind, Except.bind,
      pure, Except.pure]

theorem run_failPath_ok {entity path : String} {fault : PathFault} {a : α} :
    (failPath entity path fault : Planner α).run s = .ok (a, s') ↔ False := by
  constructor
  · intro h
    cases h
  · exact False.elim

theorem run_failMismatch_ok {path expected found : String} {a : α} :
    (failMismatch path expected found : Planner α).run s = .ok (a, s') ↔ False := by
  constructor
  · intro h
    cases h
  · exact False.elim

/-! ## State -/

theorem run_modifyFrame_ok {level : Nat} {f : Frame → Frame} {u : Unit} :
    (modifyFrame level f).run s = .ok (u, s') ↔
      s' = { s with frames := s.frames.modify level f } := by
  rw [modifyFrame, run_modify_ok, eq_comm]

/-- A scope is opened with its frame in front and closed with the frame that is in front then. -/
theorem run_inScope_ok {f : Frame} {step : Planner α} {a : α} {g : Frame} :
    (inScope f step).run s = .ok ((a, g), s') ↔
      step.run ⟨f :: s.frames, s.parameters⟩ = .ok (a, ⟨g :: s'.frames, s'.parameters⟩) := by
  simp only [inScope, run_bind_ok, run_modify_ok, run_get_ok]
  constructor
  · rintro ⟨_, _, rfl, b, s₁, hstep, _, _, ⟨rfl, rfl⟩, h⟩
    obtain ⟨frames, parameters⟩ := s₁
    cases frames with
    -- Without a frame in front the scope cannot be closed.
    | nil => exact absurd h (by simp [run_failPath_ok])
    | cons g' frames =>
      simp only [run_bind_ok, run_set_ok, run_pure_ok, Prod.mk.injEq] at h
      obtain ⟨_, _, rfl, ⟨rfl, rfl⟩, rfl⟩ := h
      exact hstep
  · intro h
    refine ⟨(), _, rfl, a, _, h, _, _, ⟨rfl, rfl⟩, ?_⟩
    simp only [run_bind_ok, run_set_ok, run_pure_ok]
    exact ⟨(), _, rfl, trivial, rfl⟩

theorem run_isOptional_ok {level slot : Nat} {b : Bool} :
    (isOptional level slot).run s = .ok (b, s') ↔
      (s.frames[level]?.any fun f => f.optionalSlots.contains slot) = b ∧ s = s' := by
  simp only [isOptional, run_bind_ok, run_get_ok, run_pure_ok]
  constructor
  · rintro ⟨_, _, ⟨rfl, rfl⟩, h⟩
    exact h
  · intro h
    exact ⟨s, s, ⟨rfl, rfl⟩, h⟩

theorem run_scopeEntity_ok {entity : String} :
    scopeEntity.run s = .ok (entity, s') ↔
      ((s.frames.head?.map Frame.entity).getD "") = entity ∧ s = s' := by
  simp only [scopeEntity, run_bind_ok, run_get_ok, run_pure_ok]
  constructor
  · rintro ⟨_, _, ⟨rfl, rfl⟩, h⟩
    exact h
  · intro h
    exact ⟨s, s, ⟨rfl, rfl⟩, h⟩

/-- A parameter is bound behind all others, or is bound already to an identical value. -/
theorem run_bindParameter_ok {name : String} {v : Value} {u : Unit}
    (h : (bindParameter name v).run s = .ok (u, s')) :
    (s.parameters.lookup name = none ∧
        s' = { s with parameters := s.parameters ++ [(name, v)] }) ∨
      ∃ w, s.parameters.lookup name = some w ∧ w.identical v = true ∧ s' = s := by
  simp only [bindParameter, run_bind_ok, run_get_ok] at h
  obtain ⟨_, _, ⟨rfl, rfl⟩, h⟩ := h
  split at h
  · rename_i hnone
    rw [run_set_ok] at h
    exact .inl ⟨hnone, h.symm⟩
  · rename_i w hsome
    split at h
    · rename_i hid
      rw [run_pure_ok] at h
      exact .inr ⟨w, hsome, hid, h.2.symm⟩
    · rw [run_failMismatch_ok] at h
      exact h.elim

/-! ## Checks

A check that passes leaves the state as it is. -/

theorem run_checkComparable_ok {label : String} {op : Comparison} {left right : StaticType}
    {u : Unit} :
    (checkComparable label op left right).run s = .ok (u, s') ↔
      StaticType.conflict? op left right = none ∧ s = s' := by
  rw [checkComparable]
  split
  · rw [run_pure_ok]
    simp [*]
  · rw [run_failMismatch_ok]
    simp [*]

end Planner

namespace StaticType

/-- Whether LIKE applies to operands of a type. -/
def isText : StaticType → Bool
  | field t => t.isText
  | value v => v.isNull || v.string?.isSome
  | unknown => true

/-- Whether values can be compared with operands of a type. -/
def admitsAll (values : List Value) : StaticType → Bool
  | field t => values.all fun v => v.isNull || t.accepts v
  | _ => true

/-- Whether operands of a type can be elements of a collection. -/
def fitsElement (element : FieldType) : StaticType → Bool
  | value v => v.isNull || element.accepts v
  | _ => true

/-- Attributes can be compared if their types are comparable, and orderable where an order is asked
for. -/
theorem conflict?_fields {op : Comparison} {a b : FieldType} :
    conflict? op (field a) (field b) = none ↔
      (op.isOrdering = true → a.isOrderable = true ∧ b.isOrderable = true) ∧
        a.comparableWith b = true := by
  cases hop : op.isOrdering <;> cases ha : a.isOrderable <;> cases hb : b.isOrderable <;>
    cases hab : a.comparableWith b <;> simp [conflict?, unorderable?, hop, ha, hb, hab]

/-- A value can be compared with an attribute if it is null or one that the attribute may hold, and the
attribute is orderable where an order is asked for. -/
theorem conflict?_value {op : Comparison} {t : FieldType} {v : Value} :
    conflict? op (field t) (value v) = none ↔
      (op.isOrdering = true → t.isOrderable = true) ∧ (v.isNull = true ∨ t.accepts v = true) := by
  cases hop : op.isOrdering <;> cases ht : t.isOrderable <;> cases hnull : v.isNull <;>
    cases hv : t.accepts v <;> simp [conflict?, unorderable?, hop, ht, hnull, hv]

end StaticType

/-- The projection of planned items; the root record without items. -/
def Projection.ofSelected : List SelectedItem → Projection
  | [] => .root
  | selected => .items (selected.map SelectedItem.item)

theorem Projection.ofSelected_isAggregate (selected : List SelectedItem) :
    (ofSelected selected).isAggregate = (selected.map SelectedItem.item).any Item.isAggregate := by
  cases selected <;> rfl

namespace Planner

variable {s s' : Scopes}

theorem run_checkText_ok {label : String} {t : StaticType} {u : Unit} :
    (checkText label t).run s = .ok (u, s') ↔ t.isText = true ∧ s = s' := by
  cases t with
  | field t =>
    simp only [checkText, StaticType.isText]
    split
    · rw [run_pure_ok]
      simp [*]
    · rw [run_failMismatch_ok]
      simp [*]
  | value v =>
    simp only [checkText, StaticType.isText]
    split
    · rw [run_pure_ok]
      simp [*]
    · rw [run_failMismatch_ok]
      simp [*]
  | unknown => simp only [checkText, run_pure_ok, true_and, StaticType.isText]

theorem run_checkCandidates_ok {label : String} {values : List Value} {t : StaticType} {u : Unit} :
    (checkCandidates label values t).run s = .ok (u, s') ↔ t.admitsAll values = true ∧ s = s' := by
  cases t with
  | field t =>
    simp only [checkCandidates, StaticType.admitsAll]
    split
    · rename_i v hv
      have hbad := List.find?_some hv
      have hmem := List.mem_of_find?_eq_some hv
      simp only [Bool.and_eq_true, Bool.not_eq_true'] at hbad
      simp only [run_failMismatch_ok, false_iff, not_and, List.all_eq_true, Bool.or_eq_true]
      -- The value that is found fits in neither way.
      intro hall
      rcases hall v hmem with h | h
      · simp [hbad.1] at h
      · simp [hbad.2] at h
    · rename_i hnone
      rw [List.find?_eq_none] at hnone
      simp only [run_pure_ok, true_and, List.all_eq_true, Bool.or_eq_true]
      refine ⟨fun hs => ⟨fun v hv => ?_, hs⟩, fun h => h.2⟩
      have := hnone v hv
      cases hn : v.isNull <;> simp_all
  | value v => simp only [checkCandidates, run_pure_ok, true_and, StaticType.admitsAll]
  | unknown => simp only [checkCandidates, run_pure_ok, true_and, StaticType.admitsAll]

theorem run_checkElement_ok {label : String} {element : FieldType} {t : StaticType} {u : Unit} :
    (checkElement label element t).run s = .ok (u, s') ↔
      t.fitsElement element = true ∧ s = s' := by
  cases t with
  | value v =>
    simp only [checkElement, StaticType.fitsElement]
    split
    · rw [run_pure_ok]
      simp [*]
    · rw [run_failMismatch_ok]
      simp [*]
  | field t => simp only [checkElement, run_pure_ok, true_and, StaticType.fitsElement]
  | unknown => simp only [checkElement, run_pure_ok, true_and, StaticType.fitsElement]

theorem run_checkReturned_ok {entity label : String} {selected : SelectedItem} {u : Unit} :
    (checkReturned entity label selected).run s = .ok (u, s') ↔
      (∃ o, selected.item = .expr o) ∧ s = s' := by
  rw [checkReturned]
  split
  · rw [run_failPath_ok]
    simp [*]
  · rw [run_pure_ok]
    simp [*]

theorem run_checkAggregates_ok {entity : String} {labels : List String} {items : List Item}
    {u : Unit} :
    (checkAggregates entity labels items).run s = .ok (u, s') ↔
      (items.any Item.isAggregate = true → items.all Item.isAggregate = true) ∧ s = s' := by
  rw [checkAggregates]
  cases items.any Item.isAggregate <;> cases items.all Item.isAggregate
  · simp [run_pure_ok, -StateT.run_pure]
  · simp [run_pure_ok, -StateT.run_pure]
  · simp [run_failPath_ok]
  · simp [run_pure_ok, -StateT.run_pure]

/-- A projection is the root record, or planned items that all aggregate or none does. -/
theorem run_projection_ok {entity : String} {labels : List String} {selected : List SelectedItem}
    {r : Projection × List Shape × List StaticType}
    (h : (projection entity labels selected).run s = .ok (r, s')) :
    s = s' ∧ r.1 = Projection.ofSelected selected ∧
      ((selected.map SelectedItem.item).any Item.isAggregate = true →
        (selected.map SelectedItem.item).all Item.isAggregate = true) ∧
      (selected ≠ [] → r.2.1 = selected.map SelectedItem.shape ∧
        r.2.2 = selected.map SelectedItem.type) := by
  cases selected with
  | nil =>
    simp only [projection, run_pure_ok] at h
    obtain ⟨rfl, rfl⟩ := h
    simp [Projection.ofSelected]
  | cons x xs =>
    simp only [projection, run_bind_ok, run_checkAggregates_ok, run_pure_ok] at h
    obtain ⟨_, _, ⟨hmix, rfl⟩, rfl, rfl⟩ := h
    exact ⟨rfl, rfl, hmix, fun _ => ⟨rfl, rfl⟩⟩

theorem run_projection_of {entity : String} {labels : List String} {selected : List SelectedItem}
    (hmix : (selected.map SelectedItem.item).any Item.isAggregate = true →
      (selected.map SelectedItem.item).all Item.isAggregate = true) :
    ∃ r, (projection entity labels selected).run s = .ok (r, s) := by
  cases selected with
  | nil => exact ⟨_, rfl⟩
  | cons x xs =>
    refine ⟨_, run_bind_ok.mpr ⟨(), s, run_checkAggregates_ok.mpr ⟨hmix, rfl⟩, rfl⟩⟩

end Planner

/-! ## Paths -/

section Paths

variable {c : Catalog} {s s' : Scopes}

/-- A hop takes the first join along its relation, or binds the next slot to it. -/
theorem Path.run_hop_ok {p : Path} {level parent slot : Nat} {r : Relation}
    (h : (p.hop level parent r).run s = .ok (slot, s')) :
    ∃ f, s.frames[level]? = some f ∧
      ((f.joinAlong? parent r.name = some slot ∧ s' = s) ∨
        (f.joinAlong? parent r.name = none ∧ r.isToMany = false ∧ slot = f.nextSlot ∧
          s' = { s with frames := s.frames.modify level (·.pushJoin parent r .inner) })) := by
  simp only [hop, Planner.run_bind_ok, Planner.run_get_ok] at h
  obtain ⟨_, _, ⟨rfl, rfl⟩, h⟩ := h
  split at h
  · rw [Planner.run_failPath_ok] at h
    exact h.elim
  · rename_i f hf
    refine ⟨f, hf, ?_⟩
    split at h
    · -- The relation is joined already, by the body or by an earlier path.
      rename_i slot' hjoin
      rw [Planner.run_pure_ok] at h
      obtain ⟨rfl, rfl⟩ := h
      exact .inl ⟨hjoin, rfl⟩
    · rename_i hjoin
      split at h
      · rw [Planner.run_failPath_ok] at h
        exact h.elim
      · -- A new hop is bound last, and only along a relation to one.
        rename_i hmany
        simp only [Planner.run_bind_ok, Planner.run_modifyFrame_ok, Planner.run_pure_ok] at h
        obtain ⟨_, _, rfl, rfl, rfl⟩ := h
        exact .inr ⟨hjoin, by simpa using hmany, rfl, rfl⟩

/-- A path is followed from the slot of its origin in the frame of its scope. -/
theorem Path.run_resolve_ok {p : Path} {r : Resolved} :
    (p.resolve c).run s = .ok (r, s') ↔
      ∃ level f slot entity, Frame.locate? p.scope s.frames = some (level, f) ∧
        f.slotOf? p.origin = some slot ∧ f.entityOf? slot = some entity ∧
        (p.follow c level slot entity p.hops).run s = .ok (r, s') := by
  simp only [resolve, Planner.run_bind_ok, Planner.run_get_ok]
  constructor
  · -- Each of the three lookups fails the path when it finds nothing.
    rintro ⟨_, _, ⟨rfl, rfl⟩, h⟩
    split at h
    · exact (Planner.run_failPath_ok.mp h).elim
    · rename_i level f hf
      split at h
      · exact (Planner.run_failPath_ok.mp h).elim
      · rename_i slot hslot
        split at h
        · exact (Planner.run_failPath_ok.mp h).elim
        · rename_i entity hentity
          exact ⟨level, f, slot, entity, hf, hslot, hentity, h⟩
  · rintro ⟨level, f, slot, entity, hf, hslot, hentity, h⟩
    refine ⟨s, s, ⟨rfl, rfl⟩, ?_⟩
    simp only [hf, hslot, hentity]
    exact h

theorem Path.run_operand_ok {p : Path} {o : Operand} {t : StaticType} :
    (p.operand c).run s = .ok ((o, t), s') ↔
      ∃ column f, (p.resolve c).run s = .ok (.field column f, s') ∧
        o = .column column ∧ t = .field f.type := by
  simp only [operand, Planner.run_bind_ok]
  constructor
  · rintro ⟨r, s₁, hr, h⟩
    cases r with
    | field column f =>
      simp only [Planner.run_pure_ok, Prod.mk.injEq] at h
      obtain ⟨⟨rfl, rfl⟩, rfl⟩ := h
      exact ⟨column, f, hr, rfl, rfl⟩
    | relation level slot r => exact (Planner.run_failPath_ok.mp h).elim
    | record level slot entity => exact (Planner.run_failPath_ok.mp h).elim
  · rintro ⟨column, f, hr, rfl, rfl⟩
    exact ⟨_, s', hr, Planner.run_pure_ok.mpr ⟨rfl, rfl⟩⟩

theorem Catalog.entity_ok {name : String} {e : Entity} :
    c.entity name = .ok e ↔ c.entity? name = some e := by
  rw [entity]
  split <;> simp [*]

/-- Related rows copy a relation to a known entity. -/
theorem Catalog.relatedRows_ok {level slot : Nat} {r : Relation} {rows : RelatedRows} :
    c.relatedRows level slot r = .ok rows ↔
      ∃ target, c.entity? r.toEntity = some target ∧
        rows = ⟨level, slot, r.name, r.toEntity, r.fromField, r.toField, target.identityField⟩ := by
  unfold relatedRows
  cases htarget : c.entity? r.toEntity with
  | none => simp [Catalog.entity, htarget, bind, Except.bind]
  | some target =>
    simp [Catalog.entity, htarget, bind, Except.bind, pure, Except.pure, eq_comm]

/-- A to-one relation is null if its key is, or if there is no related row. -/
theorem Catalog.relationIsNull_ok {path : Path} {level slot : Nat} {r : Relation}
    {negated : Bool} {p : Predicate} :
    c.relationIsNull path level slot r negated = .ok p ↔
      ∃ owner, c.entity? r.fromEntity = some owner ∧ r.isToMany = false ∧
        ((r.fromField ≠ owner.identityField ∧
            p = .isNull (.column ⟨level, slot, r.fromField⟩) negated) ∨
          (r.fromField = owner.identityField ∧ ∃ rows, c.relatedRows level slot r = .ok rows ∧
            p = .isEmpty (.related rows) negated)) := by
  unfold relationIsNull
  cases howner : c.entity? r.fromEntity with
  | none => simp [Catalog.entity, howner, bind, Except.bind]
  | some owner =>
    simp only [Catalog.entity, howner, bind, Except.bind, Option.some.injEq, exists_eq_left']
    cases r.isToMany with
    | true => simp [throw, throwThe, MonadExceptOf.throw]
    | false =>
      -- A relation that starts from the identity has its key on the other side.
      by_cases hfield : r.fromField = owner.identityField
      · cases hrows : c.relatedRows level slot r with
        | error e => simp [hfield]
        | ok rows => simp [hfield, pure, Except.pure, eq_comm]
      · simp [hfield, pure, Except.pure, eq_comm]

/-- A collection is a stored one, or the rows of a to-many relation. -/
theorem Path.run_collection_ok {p : Path} {collection : Collection} {element : FieldType}
    (h : (p.collection c).run s = .ok ((collection, element), s')) :
    (∃ column f t, (p.resolve c).run s = .ok (.field column f, s') ∧ f.type = .array t ∧
        collection = .stored column ∧ element = .scalar t) ∨
      ∃ level slot r target identity rows,
        (p.resolve c).run s = .ok (.relation level slot r, s') ∧ r.isToMany = true ∧
        c.entity? r.toEntity = some target ∧ target.identity? = some identity ∧
        c.relatedRows level slot r = .ok rows ∧
        collection = .related rows ∧ element = identity.type := by
  simp only [Path.collection, Planner.run_bind_ok] at h
  obtain ⟨r, s₁, hr, h⟩ := h
  cases r with
  | field column f =>
    left
    simp only at h
    split at h
    · rename_i t ht
      simp only [Planner.run_pure_ok, Prod.mk.injEq] at h
      obtain ⟨⟨rfl, rfl⟩, rfl⟩ := h
      exact ⟨column, f, t, hr, ht, rfl, rfl⟩
    · exact (Planner.run_failMismatch_ok.mp h).elim
  | relation level slot r =>
    right
    simp only at h
    split at h
    · rename_i hmany
      simp only [Planner.run_bind_ok, Planner.run_lift_ok, Planner.run_pure_ok, Prod.mk.injEq] at h
      obtain ⟨target, _, ⟨htarget, rfl⟩, t, _, ⟨ht, rfl⟩, rows, _, ⟨hrows, rfl⟩, ⟨rfl, rfl⟩, rfl⟩ := h
      -- The elements have the type of the identity that the relation leads to.
      rw [Catalog.entity_ok] at htarget
      cases hid : target.identity? with
      | none => simp [Catalog.identityType, hid, throw, throwThe, MonadExceptOf.throw] at ht
      | some identity =>
        simp only [Catalog.identityType, hid, pure, Except.pure, Except.ok.injEq] at ht
        exact ⟨level, slot, r, target, identity, rows, hr, hmany, htarget, hid, hrows, rfl, ht.symm⟩
    · exact (Planner.run_failMismatch_ok.mp h).elim
  | record level slot entity => exact (Planner.run_failMismatch_ok.mp h).elim

/-- An aggregate is a count of rows, or one over a column whose type allows it. -/
theorem Aggregate.run_plan_ok {f : Aggregate} {path : Option Path} {o : Operand} {t : StaticType}
    (h : (f.plan c path).run s = .ok ((o, t), s')) :
    (path = none ∧ f = .count ∧ o = .aggregate .count none ∧ t = .field (.scalar .int64) ∧
        s' = s) ∨
      ∃ p column field ft entity label, path = some p ∧
        (p.resolve c).run s = .ok (.field column field, s') ∧
        f.type entity label (some field.type) = .ok ft ∧
        o = .aggregate f (some column) ∧ t = .field ft := by
  simp only [Aggregate.plan, Planner.run_bind_ok, Planner.run_scopeEntity_ok] at h
  obtain ⟨entity, _, ⟨hentity, rfl⟩, h⟩ := h
  cases path with
  | none =>
    left
    simp only [Planner.run_bind_ok, Planner.run_lift_ok, Planner.run_pure_ok, Prod.mk.injEq] at h
    obtain ⟨ft, _, ⟨hft, rfl⟩, ⟨rfl, rfl⟩, rfl⟩ := h
    -- Only a count does without a column.
    cases f with
    | count =>
      cases hft
      exact ⟨rfl, rfl, rfl, rfl, rfl⟩
    | sum | avg | min | max => cases hft
  | some p =>
    right
    simp only [Planner.run_bind_ok] at h
    obtain ⟨r, s₁, hr, h⟩ := h
    cases r with
    | field column field =>
      simp only [Planner.run_bind_ok, Planner.run_lift_ok, Planner.run_pure_ok, Prod.mk.injEq] at h
      obtain ⟨ft, _, ⟨hft, rfl⟩, ⟨rfl, rfl⟩, rfl⟩ := h
      exact ⟨p, column, field, ft, entity, _, rfl, hr, hft, rfl, rfl⟩
    | relation level slot r => exact (Planner.run_failPath_ok.mp h).elim
    | record level slot entity => exact (Planner.run_failPath_ok.mp h).elim

/-! ## Selected items -/

/-- The shape of a cell in a slot of the frame so many levels out: nullable if rows may lack the
slot. -/
def Shape.inSlot (frames : List Frame) (level slot : Nat) (shape : Shape) : Shape :=
  if frames[level]?.any fun f => f.optionalSlots.contains slot then shape.optional else shape

theorem run_selectRecord_ok {slot : Nat} {entity : String} {x : SelectedItem} :
    (selectRecord slot entity).run s = .ok (x, s') ↔
      x = ⟨.record slot, (Shape.record entity).inSlot s.frames 0 slot, .unknown⟩ ∧ s = s' := by
  simp only [selectRecord, Planner.run_bind_ok, Planner.run_isOptional_ok, Planner.run_pure_ok,
    Shape.inSlot]
  constructor
  · rintro ⟨b, _, ⟨rfl, rfl⟩, rfl, rfl⟩
    exact ⟨rfl, rfl⟩
  · rintro ⟨rfl, rfl⟩
    exact ⟨_, s, ⟨rfl, rfl⟩, rfl, rfl⟩

/-- A path selects a field, the record that a to-one relation of the query itself leads to, or a
record of the query itself. -/
theorem Path.run_select_ok {p : Path} {x : SelectedItem}
    (h : (p.select c).run s = .ok (x, s')) :
    (∃ column f, (p.resolve c).run s = .ok (.field column f, s') ∧
        x = ⟨.expr (.column column),
          (Shape.ofFieldType f.type).inSlot s'.frames column.level column.slot,
          .field f.type⟩) ∨
      (∃ parent r slot s₁, (p.resolve c).run s = .ok (.relation 0 parent r, s₁) ∧
        r.isToMany = false ∧ (p.hop 0 parent r).run s₁ = .ok (slot, s') ∧
        x = ⟨.record slot, (Shape.record r.toEntity).inSlot s'.frames 0 slot, .unknown⟩) ∨
      ∃ slot entity, (p.resolve c).run s = .ok (.record 0 slot entity, s') ∧
        x = ⟨.record slot, (Shape.record entity).inSlot s'.frames 0 slot, .unknown⟩ := by
  simp only [select, Planner.run_bind_ok] at h
  obtain ⟨r, s₁, hr, h⟩ := h
  cases r with
  | field column f =>
    left
    simp only [Planner.run_bind_ok, Planner.run_isOptional_ok, Planner.run_pure_ok] at h
    obtain ⟨b, _, ⟨rfl, rfl⟩, rfl, rfl⟩ := h
    exact ⟨column, f, hr, rfl⟩
  | relation level parent r =>
    right
    left
    simp only at h
    split at h
    · exact (Planner.run_failPath_ok.mp h).elim
    · rename_i hmany
      split at h
      · exact (Planner.run_failPath_ok.mp h).elim
      · rename_i hlevel
        -- A record of an enclosing query is not selected.
        obtain rfl : level = 0 := by omega
        simp only [Planner.run_bind_ok, run_selectRecord_ok] at h
        obtain ⟨slot, _, hhop, rfl, rfl⟩ := h
        exact ⟨parent, r, slot, s₁, hr, by simpa using hmany, hhop, rfl⟩
  | record level slot entity =>
    right
    right
    simp only at h
    split at h
    · exact (Planner.run_failPath_ok.mp h).elim
    · rename_i hlevel
      obtain rfl : level = 0 := by omega
      rw [run_selectRecord_ok] at h
      obtain ⟨rfl, rfl⟩ := h
      exact ⟨slot, entity, hr, rfl⟩

/-- The key of an ordering is a column of the query itself whose type is ordered. -/
theorem Planner.run_orderTerm_ok {entity : String} {t : OrderTerm} {key : SortKey}
    (h : (orderTerm c entity t).run s = .ok (key, s')) :
    ∃ p column f, t.expr = .path p ∧ (p.resolve c).run s = .ok (.field column f, s') ∧
      f.type.isOrderable = true ∧ column.level = 0 ∧ key = ⟨column, t.direction⟩ := by
  rw [orderTerm] at h
  split at h
  · rename_i p hp
    simp only [run_bind_ok] at h
    obtain ⟨⟨o, type⟩, s₁, hop, h⟩ := h
    obtain ⟨column, f, hr, rfl, rfl⟩ := Path.run_operand_ok.mp hop
    -- Only orderable types of the innermost query are left.
    simp only [StaticType.unorderable?] at h
    split at h
    · exact (run_failMismatch_ok.mp h).elim
    · rename_i hord
      split at h
      · rename_i hlevel
        rw [run_pure_ok] at h
        obtain ⟨rfl, rfl⟩ := h
        exact ⟨p, column, f, hp, hr, by simpa using hord, hlevel, rfl⟩
      · exact (run_failPath_ok.mp h).elim
  · exact (run_failPath_ok.mp h).elim

end Paths

end EntityQuery
