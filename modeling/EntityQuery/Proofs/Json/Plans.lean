import EntityQuery.Proofs.Json.Values

/-!
# Plans that are read back

A plan is read back from its document if its slots, levels and bounds are words of 32 bits, its floats
are finite and finite floats are read back. The reader finds the fields of a structure by their names,
tells alternatives apart by their tags, and goes as deep as the document does.
-/

namespace EntityQuery

/-! ## Parts without nested queries -/

theorem Aggregate.ofJson?_toJson (f : Aggregate) : ofJson? f.toJson = some f := by
  cases f <;> rfl

theorem JoinKind.ofJson?_toJson (k : JoinKind) : ofJson? k.toJson = some k := by
  cases k <;> rfl

theorem Comparison.ofJson?_toJson (op : Comparison) : ofJson? op.toJson = some op := by
  cases op <;> rfl

theorem Direction.ofJson?_toJson (d : Direction) : ofJson? d.toJson = some d := by
  cases d <;> rfl

/-- Nothing is written as null, and all else is told from it. -/
theorem Json.optionalField?_elim {α : Type} {read : Json → Option α} {write : α → Json} {a : Option α}
    (hnull : ∀ b, write b ≠ .null) (h : ∀ b ∈ a, read (write b) = some b) :
    optionalField? read (some (a.elim .null write)) = some a := by
  cases a with
  | none => rfl
  | some b =>
    show (write b).optional? read = some (some b)
    rw [optional?, h b rfl]
    · rfl
    · exact hnull b

theorem Json.plain_elim {α : Type} {write : α → Json} {a : Option α}
    (h : ∀ b ∈ a, (write b).Plain) : (a.elim .null write).Plain := by
  cases a with
  | none => exact trivial
  | some b => exact h b rfl

namespace Join

/-- The slots of a join are words of 32 bits. -/
@[mk_iff]
structure Portable (j : Join) : Prop where
  slot : j.slot < 0x100000000
  parent : j.parent < 0x100000000

variable {j : Join}

theorem ofJson?_toJson (h : j.Portable) : ofJson? j.toJson = some j := by
  show (Json.ofNat j.slot).word32?.bind _ = _
  rw [Json.word32?_ofNat h.slot]
  show (Json.ofNat j.parent).word32?.bind _ = _
  rw [Json.word32?_ofNat h.parent]
  show (JoinKind.ofJson? j.kind.toJson).bind _ = _
  rw [j.kind.ofJson?_toJson]
  rfl

theorem plain_toJson (h : j.Portable) : j.toJson.Plain := by
  refine ⟨Json.plain_ofNat h.slot, Json.plain_ofNat h.parent, trivial, trivial, trivial, trivial, ?_,
    trivial⟩
  cases j.kind <;> exact trivial

end Join

namespace Column

/-- The level and the slot of a column are words of 32 bits. -/
@[mk_iff]
structure Portable (c : Column) : Prop where
  level : c.level < 0x100000000
  slot : c.slot < 0x100000000

variable {c : Column}

theorem ofJson?_toJson (h : c.Portable) : ofJson? c.toJson = some c := by
  show (Json.ofNat c.level).word32?.bind _ = _
  rw [Json.word32?_ofNat h.level]
  show (Json.ofNat c.slot).word32?.bind _ = _
  rw [Json.word32?_ofNat h.slot]
  rfl

theorem plain_toJson (h : c.Portable) : c.toJson.Plain :=
  ⟨Json.plain_ofNat h.level, Json.plain_ofNat h.slot, trivial, trivial⟩

theorem toJson_ne_null (c : Column) : c.toJson ≠ .null := by
  rintro ⟨⟩

end Column

namespace RelatedRows

/-- The level and the slot that rows are related to are words of 32 bits. -/
structure Portable (r : RelatedRows) : Prop where
  level : r.level < 0x100000000
  slot : r.slot < 0x100000000

variable {r : RelatedRows}

theorem ofJson?_toJson (h : r.Portable) : ofJson? r.toJson = some r := by
  show (Json.ofNat r.level).word32?.bind _ = _
  rw [Json.word32?_ofNat h.level]
  show (Json.ofNat r.slot).word32?.bind _ = _
  rw [Json.word32?_ofNat h.slot]
  rfl

theorem plain_toJson (h : r.Portable) : r.toJson.Plain :=
  ⟨Json.plain_ofNat h.level, Json.plain_ofNat h.slot, trivial, trivial, trivial, trivial, trivial,
    trivial⟩

end RelatedRows

namespace Collection

def Portable : Collection → Prop
  | related rows => rows.Portable
  | stored column => column.Portable

variable {c : Collection}

theorem ofJson?_toJson (h : c.Portable) : ofJson? c.toJson = some c := by
  cases c with
  | related rows => exact congrArg (Option.map related) (RelatedRows.ofJson?_toJson h)
  | stored column => exact congrArg (Option.map stored) (Column.ofJson?_toJson h)

theorem plain_toJson (h : c.Portable) : c.toJson.Plain := by
  cases c with
  | related rows => exact ⟨RelatedRows.plain_toJson h, trivial⟩
  | stored column => exact ⟨Column.plain_toJson h, trivial⟩

end Collection

namespace SortKey

variable {k : SortKey}

theorem ofJson?_toJson (h : k.column.Portable) : ofJson? k.toJson = some k := by
  show (Column.ofJson? k.column.toJson).bind _ = _
  rw [Column.ofJson?_toJson h]
  show (Direction.ofJson? k.direction.toJson).bind _ = _
  rw [k.direction.ofJson?_toJson]
  rfl

theorem plain_toJson (h : k.column.Portable) : k.toJson.Plain := by
  refine ⟨Column.plain_toJson h, ?_, trivial⟩
  cases k.direction <;> exact trivial

end SortKey

namespace Window

/-- The bounds of a window are words of 32 bits. -/
@[mk_iff]
structure Portable (w : Window) : Prop where
  limit : w.limit < 0x100000000
  offset : w.offset < 0x100000000

variable {w : Window}

theorem ofJson?_toJson (h : w.Portable) : ofJson? w.toJson = some w := by
  show (Json.ofNat w.limit).word32?.bind _ = _
  rw [Json.word32?_ofNat h.limit]
  show (Json.ofNat w.offset).word32?.bind _ = _
  rw [Json.word32?_ofNat h.offset]
  rfl

theorem plain_toJson (h : w.Portable) : w.toJson.Plain :=
  ⟨Json.plain_ofNat h.limit, Json.plain_ofNat h.offset, trivial⟩

theorem toJson_ne_null (w : Window) : w.toJson ≠ .null := by
  rintro ⟨⟩

end Window

/-! ## Portable plans

A plan is portable if its slots, levels and bounds are words of 32 bits, and neither a NaN nor an
infinite float is in it, at any depth. -/

mutual

def Plan.Portable (q : Plan) : Prop :=
  match q with
  | ⟨_, joins, filter, projection, _, orderBy, window, parameters⟩ =>
    (∀ j ∈ joins, j.Portable) ∧ FilterPortable filter ∧ projection.Portable ∧
      (∀ key ∈ orderBy, key.column.Portable) ∧ (∀ w ∈ window, w.Portable) ∧
      ∀ p ∈ parameters, p.2.Finite
termination_by structural q

def FilterPortable (filter : Option Predicate) : Prop :=
  match filter with
  | none => True
  | some p => p.Portable
termination_by structural filter

def Operand.Portable (o : Operand) : Prop :=
  match o with
  | .column column => column.Portable
  | .literal v => v.Finite
  | .parameter _ => True
  | .query q => q.Portable
  | .aggregate _ column => ∀ c ∈ column, c.Portable
termination_by structural o

def Predicate.Portable (p : Predicate) : Prop :=
  match p with
  | .compare left _ right => left.Portable ∧ right.Portable
  | .like operand .. => operand.Portable
  | .inList operand values _ => operand.Portable ∧ ∀ v ∈ values, v.Finite
  | .inQuery operand q _ => operand.Portable ∧ q.Portable
  | .isNull operand _ => operand.Portable
  | .isEmpty collection _ => collection.Portable
  | .isMember value collection _ => value.Portable ∧ collection.Portable
  | .and left right => left.Portable ∧ right.Portable
  | .or left right => left.Portable ∧ right.Portable
termination_by structural p

def Projection.Portable (p : Projection) : Prop :=
  match p with
  | .root => True
  | .items xs => ItemsPortable xs
termination_by structural p

def ItemsPortable (xs : List Item) : Prop :=
  match xs with
  | [] => True
  | x :: xs => x.Portable ∧ ItemsPortable xs
termination_by structural xs

def Item.Portable (x : Item) : Prop :=
  match x with
  | .record slot => slot < 0x100000000
  | .expr operand => operand.Portable
termination_by structural x

end

/-! ## Reading

The induction is on what was written. The document of a part is not as deep as the one around it, so
that the reader has fuel left for it. -/

section Forms

variable {form : FloatForm}

mutual

theorem Plan.read?_toJsonIn (hform : form.Exact) (q : Plan) (h : q.Portable) (fuel : Nat)
    (hfuel : (q.toJsonIn form).depth < fuel) : Plan.read? form fuel (q.toJsonIn form) = some q := by
  obtain ⟨fuel, rfl⟩ : ∃ n, fuel = n + 1 := ⟨fuel - 1, by omega⟩
  match q with
  | ⟨entity, joins, filter, projection, distinct, orderBy, window, parameters⟩ =>
    obtain ⟨hjoins, hfilter, hprojection, horderBy, hwindow, hparameters⟩ := h
    simp only [Plan.toJsonIn, Json.depth, Json.depthObject] at hfuel
    have hfilter' := optionalField?_filterToJsonIn hform filter hfilter fuel (by omega)
    have hprojection' := Projection.read?_toJsonIn hform projection hprojection fuel (by omega)
    -- The fields are read in the order in which they are written.
    show ((Json.array (joins.map Join.toJson)).listOf? Join.ofJson?).bind _ = _
    rw [Json.listOf?_map fun j hj => Join.ofJson?_toJson (hjoins j hj)]
    show (Json.optionalField? (Predicate.read? form fuel)
      (some (filterToJsonIn form filter))).bind _ = _
    rw [hfilter']
    show (Projection.read? form fuel (projection.toJsonIn form)).bind _ = _
    rw [hprojection']
    show ((Json.array (orderBy.map SortKey.toJson)).listOf? SortKey.ofJson?).bind _ = _
    rw [Json.listOf?_map fun k hk => SortKey.ofJson?_toJson (horderBy k hk)]
    show (Json.optionalField? Window.ofJson? (some (window.elim .null Window.toJson))).bind _ = _
    rw [Json.optionalField?_elim Window.toJson_ne_null
      fun w hw => Window.ofJson?_toJson (hwindow w hw)]
    show ((Json.ofParameters form parameters).parameters? form).bind _ = _
    rw [Json.parameters?_ofParameters hform hparameters]
    rfl
termination_by structural q

theorem optionalField?_filterToJsonIn (hform : form.Exact) (filter : Option Predicate)
    (h : FilterPortable filter) (fuel : Nat) (hfuel : (filterToJsonIn form filter).depth < fuel) :
    Json.optionalField? (Predicate.read? form fuel) (some (filterToJsonIn form filter)) =
      some filter := by
  match filter with
  | none => rfl
  | some p =>
    have hp := Predicate.read?_toJsonIn hform p h fuel hfuel
    show (p.toJsonIn form).optional? (Predicate.read? form fuel) = _
    rw [Json.optional?, hp]
    · rfl
    · cases p <;> rintro ⟨⟩
termination_by structural filter

theorem Operand.read?_toJsonIn (hform : form.Exact) (o : Operand) (h : o.Portable) (fuel : Nat)
    (hfuel : (o.toJsonIn form).depth < fuel) : Operand.read? form fuel (o.toJsonIn form) = some o := by
  obtain ⟨fuel, rfl⟩ : ∃ n, fuel = n + 1 := ⟨fuel - 1, by omega⟩
  match o with
  | .column c => exact congrArg (Option.map Operand.column) (Column.ofJson?_toJson h)
  | .literal v => exact congrArg (Option.map Operand.literal) (Value.ofJsonIn?_toJsonIn hform h)
  | .parameter name => rfl
  | .query q =>
    simp only [Operand.toJsonIn, Json.tagged, Json.depth, Json.depthObject] at hfuel
    have hq := Plan.read?_toJsonIn hform q h fuel (by omega)
    exact congrArg (Option.map Operand.query) hq
  | .aggregate f column =>
    show (Aggregate.ofJson? f.toJson).bind _ = _
    rw [f.ofJson?_toJson]
    show (Json.optionalField? Column.ofJson? (some (column.elim .null Column.toJson))).bind _ = _
    rw [Json.optionalField?_elim Column.toJson_ne_null fun c hc => Column.ofJson?_toJson (h c hc)]
    rfl
termination_by structural o

theorem Predicate.read?_toJsonIn (hform : form.Exact) (p : Predicate) (h : p.Portable) (fuel : Nat)
    (hfuel : (p.toJsonIn form).depth < fuel) :
    Predicate.read? form fuel (p.toJsonIn form) = some p := by
  -- The fuel of a part is above its depth, because the part is nested one level deeper at least.
  obtain ⟨fuel, rfl⟩ : ∃ n, fuel = n + 1 := ⟨fuel - 1, by omega⟩
  match p with
  | .compare left op right =>
    simp only [Predicate.toJsonIn, Json.tagged, Json.depth, Json.depthObject] at hfuel
    have hleft := Operand.read?_toJsonIn hform left h.1 fuel (by omega)
    have hright := Operand.read?_toJsonIn hform right h.2 fuel (by omega)
    show (Operand.read? form fuel (left.toJsonIn form)).bind _ = _
    rw [hleft]
    show (Comparison.ofJson? op.toJson).bind _ = _
    rw [op.ofJson?_toJson]
    show (Operand.read? form fuel (right.toJsonIn form)).bind _ = _
    rw [hright]
    rfl
  | .like operand pattern negated =>
    simp only [Predicate.toJsonIn, Json.tagged, Json.depth, Json.depthObject] at hfuel
    have hoperand := Operand.read?_toJsonIn hform operand h fuel (by omega)
    show (Operand.read? form fuel (operand.toJsonIn form)).bind _ = _
    rw [hoperand]
    rfl
  | .inList operand values negated =>
    simp only [Predicate.toJsonIn, Json.tagged, Json.depth, Json.depthObject] at hfuel
    have hoperand := Operand.read?_toJsonIn hform operand h.1 fuel (by omega)
    show (Operand.read? form fuel (operand.toJsonIn form)).bind _ = _
    rw [hoperand]
    show ((Json.array (values.map (Value.toJsonIn form))).listOf? (Value.ofJsonIn? form)).bind _ = _
    rw [Json.listOf?_map fun v hv => Value.ofJsonIn?_toJsonIn hform (h.2 v hv)]
    rfl
  | .inQuery operand q negated =>
    simp only [Predicate.toJsonIn, Json.tagged, Json.depth, Json.depthObject] at hfuel
    have hoperand := Operand.read?_toJsonIn hform operand h.1 fuel (by omega)
    have hq := Plan.read?_toJsonIn hform q h.2 fuel (by omega)
    show (Operand.read? form fuel (operand.toJsonIn form)).bind _ = _
    rw [hoperand]
    show (Plan.read? form fuel (q.toJsonIn form)).bind _ = _
    rw [hq]
    rfl
  | .isNull operand negated =>
    simp only [Predicate.toJsonIn, Json.tagged, Json.depth, Json.depthObject] at hfuel
    have hoperand := Operand.read?_toJsonIn hform operand h fuel (by omega)
    show (Operand.read? form fuel (operand.toJsonIn form)).bind _ = _
    rw [hoperand]
    rfl
  | .isEmpty collection negated =>
    show (Collection.ofJson? collection.toJson).bind _ = _
    rw [Collection.ofJson?_toJson h]
    rfl
  | .isMember value collection negated =>
    simp only [Predicate.toJsonIn, Json.tagged, Json.depth, Json.depthObject] at hfuel
    have hvalue := Operand.read?_toJsonIn hform value h.1 fuel (by omega)
    show (Operand.read? form fuel (value.toJsonIn form)).bind _ = _
    rw [hvalue]
    show (Collection.ofJson? collection.toJson).bind _ = _
    rw [Collection.ofJson?_toJson h.2]
    rfl
  | .and left right | .or left right =>
    simp only [Predicate.toJsonIn, Json.tagged, Json.depth, Json.depthObject, Json.depthArray] at hfuel
    have hleft := Predicate.read?_toJsonIn hform left h.1 fuel (by omega)
    have hright := Predicate.read?_toJsonIn hform right h.2 fuel (by omega)
    show (Predicate.read? form fuel (left.toJsonIn form)).bind _ = _
    rw [hleft]
    show (Predicate.read? form fuel (right.toJsonIn form)).bind _ = _
    rw [hright]
    rfl
termination_by structural p

theorem Projection.read?_toJsonIn (hform : form.Exact) (p : Projection) (h : p.Portable) (fuel : Nat)
    (hfuel : (p.toJsonIn form).depth < fuel) :
    Projection.read? form fuel (p.toJsonIn form) = some p := by
  obtain ⟨fuel, rfl⟩ : ∃ n, fuel = n + 1 := ⟨fuel - 1, by omega⟩
  match p with
  | .root => rfl
  | .items xs =>
    simp only [Projection.toJsonIn, Json.tagged, Json.depth, Json.depthObject] at hfuel
    have hxs := mapM_itemsToJsonIn hform xs h fuel (by omega)
    exact congrArg (Option.map Projection.items) hxs
termination_by structural p

theorem mapM_itemsToJsonIn (hform : form.Exact) (xs : List Item) (h : ItemsPortable xs) (fuel : Nat)
    (hfuel : Json.depthArray (itemsToJsonIn form xs) < fuel) :
    (itemsToJsonIn form xs).mapM (Item.read? form fuel) = some xs := by
  match xs with
  | [] => rfl
  | x :: xs =>
    simp only [itemsToJsonIn, Json.depthArray] at hfuel
    have hx := Item.read?_toJsonIn hform x h.1 fuel (by omega)
    have hxs := mapM_itemsToJsonIn hform xs h.2 fuel (by omega)
    rw [itemsToJsonIn, List.mapM_cons, hx, hxs]
    rfl
termination_by structural xs

theorem Item.read?_toJsonIn (hform : form.Exact) (x : Item) (h : x.Portable) (fuel : Nat)
    (hfuel : (x.toJsonIn form).depth < fuel) : Item.read? form fuel (x.toJsonIn form) = some x := by
  obtain ⟨fuel, rfl⟩ : ∃ n, fuel = n + 1 := ⟨fuel - 1, by omega⟩
  match x with
  | .record slot => exact congrArg (Option.map Item.record) (Json.word32?_ofNat h)
  | .expr operand =>
    simp only [Item.toJsonIn, Json.tagged, Json.depth, Json.depthObject] at hfuel
    have hoperand := Operand.read?_toJsonIn hform operand h fuel (by omega)
    exact congrArg (Option.map Item.expr) hoperand
termination_by structural x

end

theorem Plan.ofJsonIn?_toJsonIn (hform : form.Exact) {q : Plan} (h : q.Portable) :
    ofJsonIn? form (q.toJsonIn form) = some q :=
  read?_toJsonIn hform q h _ (Nat.lt_succ_self _)

/-! ## Texts -/

mutual

theorem Plan.plain_toJsonIn (hform : form.Plain) (q : Plan) (h : q.Portable) :
    (q.toJsonIn form).Plain := by
  match q with
  | ⟨_, joins, filter, projection, _, orderBy, window, parameters⟩ =>
    obtain ⟨hjoins, hfilter, hprojection, horderBy, hwindow, hparameters⟩ := h
    exact ⟨trivial, Json.plain_array_map fun j hj => Join.plain_toJson (hjoins j hj),
      plain_filterToJsonIn hform filter hfilter, projection.plain_toJsonIn hform hprojection, trivial,
      Json.plain_array_map fun k hk => SortKey.plain_toJson (horderBy k hk),
      Json.plain_elim fun w hw => Window.plain_toJson (hwindow w hw),
      Json.plain_ofParameters hform hparameters, trivial⟩
termination_by structural q

theorem plain_filterToJsonIn (hform : form.Plain) (filter : Option Predicate)
    (h : FilterPortable filter) :
    (filterToJsonIn form filter).Plain := by
  match filter with
  | none => exact trivial
  | some p => exact p.plain_toJsonIn hform h
termination_by structural filter

theorem Operand.plain_toJsonIn (hform : form.Plain) (o : Operand) (h : o.Portable) :
    (o.toJsonIn form).Plain := by
  match o with
  | .column c => exact ⟨Column.plain_toJson h, trivial⟩
  | .literal v => exact ⟨Value.plain_toJsonIn hform h, trivial⟩
  | .parameter _ => exact ⟨trivial, trivial⟩
  | .query q => exact ⟨q.plain_toJsonIn hform h, trivial⟩
  | .aggregate f column =>
    have hcolumn := Json.plain_elim fun c hc => Column.plain_toJson (h c hc)
    refine ⟨⟨?_, hcolumn, trivial⟩, trivial⟩
    cases f <;> exact trivial
termination_by structural o

theorem Predicate.plain_toJsonIn (hform : form.Plain) (p : Predicate) (h : p.Portable) :
    (p.toJsonIn form).Plain := by
  match p with
  | .compare left op right =>
    refine ⟨⟨left.plain_toJsonIn hform h.1, ?_, right.plain_toJsonIn hform h.2, trivial⟩, trivial⟩
    cases op <;> exact trivial
  | .like operand .. => exact ⟨⟨operand.plain_toJsonIn hform h, trivial, trivial, trivial⟩, trivial⟩
  | .inList operand values _ =>
    have hvalues := Json.plain_array_map fun v hv => Value.plain_toJsonIn hform (h.2 v hv)
    exact ⟨⟨operand.plain_toJsonIn hform h.1, hvalues, trivial, trivial⟩, trivial⟩
  | .inQuery operand q _ =>
    exact ⟨⟨operand.plain_toJsonIn hform h.1, q.plain_toJsonIn hform h.2, trivial, trivial⟩, trivial⟩
  | .isNull operand _ => exact ⟨⟨operand.plain_toJsonIn hform h, trivial, trivial⟩, trivial⟩
  | .isEmpty collection _ => exact ⟨⟨Collection.plain_toJson h, trivial, trivial⟩, trivial⟩
  | .isMember value collection _ =>
    exact ⟨⟨value.plain_toJsonIn hform h.1, Collection.plain_toJson h.2, trivial, trivial⟩, trivial⟩
  | .and left right | .or left right =>
    exact ⟨⟨left.plain_toJsonIn hform h.1, right.plain_toJsonIn hform h.2, trivial⟩, trivial⟩
termination_by structural p

theorem Projection.plain_toJsonIn (hform : form.Plain) (p : Projection) (h : p.Portable) :
    (p.toJsonIn form).Plain := by
  match p with
  | .root => exact trivial
  | .items xs => exact ⟨plainArray_itemsToJsonIn hform xs h, trivial⟩
termination_by structural p

theorem plainArray_itemsToJsonIn (hform : form.Plain) (xs : List Item) (h : ItemsPortable xs) :
    Json.PlainArray (itemsToJsonIn form xs) := by
  match xs with
  | [] => exact trivial
  | x :: xs => exact ⟨x.plain_toJsonIn hform h.1, plainArray_itemsToJsonIn hform xs h.2⟩
termination_by structural xs

theorem Item.plain_toJsonIn (hform : form.Plain) (x : Item) (h : x.Portable) :
    (x.toJsonIn form).Plain := by
  match x with
  | .record _ => exact ⟨⟨Json.plain_ofNat h, trivial⟩, trivial⟩
  | .expr operand => exact ⟨operand.plain_toJsonIn hform h, trivial⟩
termination_by structural x

end

end Forms

end EntityQuery
