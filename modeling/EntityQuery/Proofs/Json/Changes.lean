import EntityQuery.Change.Json
import EntityQuery.Proofs.Json.Plans
import EntityQuery.Sample

/-!
# Changes that are read back

A change is read back as a plan is. What can be read back is told apart by what is written for it, be
it the document or the text. A document is read back however deep it is nested, a text up to a limit.
-/

namespace EntityQuery

/-! ## Changes -/

/-- A condition that stands alone is read as deep as its own document. -/
theorem Predicate.optionalField?_ofJsonIn? (form : FloatForm) (x : Json) :
    Json.optionalField? (ofJsonIn? form) (some x) =
      Json.optionalField? (read? form (x.depth + 1)) (some x) := by
  cases x <;> rfl

namespace Assignment

variable {form : FloatForm} {a : Assignment}

theorem ofJsonIn?_toJsonIn (hform : form.Exact) (h : a.value.Finite) :
    ofJsonIn? form (a.toJsonIn form) = some a := by
  show (Value.ofJsonIn? form (a.value.toJsonIn form)).bind _ = _
  rw [Value.ofJsonIn?_toJsonIn hform h]
  rfl

theorem plain_toJsonIn (hform : form.Plain) (h : a.value.Finite) : (a.toJsonIn form).Plain :=
  ⟨trivial, Value.plain_toJsonIn hform h, trivial⟩

end Assignment

namespace Change

/-- A change is portable if its condition is, and neither a NaN nor an infinite float is assigned or
bound to a parameter. -/
def Portable : Change → Prop
  | update _ assignments filter parameters =>
    (∀ a ∈ assignments, a.value.Finite) ∧ FilterPortable filter ∧ ∀ p ∈ parameters, p.2.Finite
  | delete _ filter parameters => FilterPortable filter ∧ ∀ p ∈ parameters, p.2.Finite

variable {form : FloatForm} {c : Change}

theorem ofJsonIn?_toJsonIn (hform : form.Exact) (h : c.Portable) :
    ofJsonIn? form (c.toJsonIn form) = some c := by
  cases c with
  | update entity assignments filter parameters =>
    obtain ⟨hassignments, hfilter, hparameters⟩ := h
    -- The members are read in the order in which they were written, each from what stands under its
    -- name.
    show ((Json.array (assignments.map (Assignment.toJsonIn form))).listOf?
      (Assignment.ofJsonIn? form)).bind _ = _
    rw [Json.listOf?_map fun a ha => Assignment.ofJsonIn?_toJsonIn hform (hassignments a ha)]
    show (Json.optionalField? (Predicate.ofJsonIn? form)
      (some (filterToJsonIn form filter))).bind _ = _
    rw [Predicate.optionalField?_ofJsonIn?,
      optionalField?_filterToJsonIn hform filter hfilter _ (Nat.lt_succ_self _)]
    show ((Json.ofParameters form parameters).parameters? form).bind _ = _
    rw [Json.parameters?_ofParameters hform hparameters]
    rfl
  | delete entity filter parameters =>
    obtain ⟨hfilter, hparameters⟩ := h
    show (Json.optionalField? (Predicate.ofJsonIn? form)
      (some (filterToJsonIn form filter))).bind _ = _
    rw [Predicate.optionalField?_ofJsonIn?,
      optionalField?_filterToJsonIn hform filter hfilter _ (Nat.lt_succ_self _)]
    show ((Json.ofParameters form parameters).parameters? form).bind _ = _
    rw [Json.parameters?_ofParameters hform hparameters]
    rfl

theorem plain_toJsonIn (hform : form.Plain) (h : c.Portable) : (c.toJsonIn form).Plain := by
  cases c with
  | update entity assignments filter parameters =>
    obtain ⟨hassignments, hfilter, hparameters⟩ := h
    have hvalues := Json.plain_array_map fun a ha =>
      Assignment.plain_toJsonIn hform (hassignments a ha)
    exact ⟨⟨trivial, hvalues, plain_filterToJsonIn hform filter hfilter,
      Json.plain_ofParameters hform hparameters, trivial⟩, trivial⟩
  | delete entity filter parameters =>
    exact ⟨⟨trivial, plain_filterToJsonIn hform filter h.1, Json.plain_ofParameters hform h.2,
      trivial⟩, trivial⟩

end Change

/-! ## Floats by their bits -/

theorem Plan.ofJson?_toJson {q : Plan} (h : q.Portable) : ofJson? q.toJson = some q :=
  ofJsonIn?_toJsonIn FloatForm.finite_exact h

theorem Change.ofJson?_toJson {c : Change} (h : c.Portable) : ofJson? c.toJson = some c :=
  ofJsonIn?_toJsonIn FloatForm.finite_exact h

/-! ## Texts -/

section Texts

variable {form : FloatForm}

/-- A plan is read back from its text unless the text is nested too deep. -/
theorem Plan.ofTextIn?_render (hform : form.Exact) (hplain : form.Plain) {q : Plan}
    (h : q.Portable) : ofTextIn? form (q.toJsonIn form).render =
      if (q.toJsonIn form).depth ≤ Json.nestingLimit then some q else none := by
  rw [ofTextIn?, Json.ofNestedText?_render (q.plain_toJsonIn hplain h)]
  split
  · exact ofJsonIn?_toJsonIn hform h
  · rfl

theorem Change.ofTextIn?_render (hform : form.Exact) (hplain : form.Plain) {c : Change}
    (h : c.Portable) : ofTextIn? form (c.toJsonIn form).render =
      if (c.toJsonIn form).depth ≤ Json.nestingLimit then some c else none := by
  rw [ofTextIn?, Json.ofNestedText?_render (plain_toJsonIn hplain h)]
  split
  · exact ofJsonIn?_toJsonIn hform h
  · rfl

/-- A change has one member, a plan has eight. -/
theorem Plan.toJsonIn_ne_change (q : Plan) (c : Change) : q.toJsonIn form ≠ c.toJsonIn form := by
  obtain ⟨⟩ := q
  cases c
  all_goals
    intro heq
    have hlength := congrArg List.length (Json.object.inj heq)
    cases hlength

end Texts

/-! ## A sample

A query three levels deep, and a change with the same condition. -/

namespace Sample

/-- The float 0.1 by its decimal digits, all others by their bits. -/
def decimal : FloatForm where
  single := .ofFloat32
  double x := if x.toBits = 0x3fb999999999999a then .number "0.1" else .ofFloat64 x
  single? := Json.float32?
  double? x := match x with
    | .number "0.1" => some (float64 0x3fb999999999999a)
    | x => x.float64?

/-- The importance of the most important task of the user that a task two levels out belongs to. -/
def highest : Plan where
  entity := "Todo"
  joins := []
  filter := some (.compare (.column ⟨0, 0, "user_id"⟩) .eq (.column ⟨2, 0, "user_id"⟩))
  projection := .items [.expr (.aggregate .max (some ⟨0, 0, "importance"⟩))]
  distinct := false
  orderBy := []
  window := none
  parameters := []

/-- The users with a role that is given by a parameter, or with a condition on that importance. -/
def responsible : Plan where
  entity := "User"
  joins := []
  filter := some (.or
    (.inList (.query highest) [.null, .float64 (float64 0x3fb999999999999a), .bytes [0, 255]] true)
    (.isMember (.parameter "role") (.stored ⟨0, 0, "roles"⟩) false))
  projection := .items [.expr (.column ⟨0, 0, "id"⟩)]
  distinct := true
  orderBy := []
  window := none
  parameters := []

/-- The tasks of such users. -/
def entrusted : Predicate :=
  .and (.inQuery (.column ⟨0, 0, "user_id"⟩) responsible false)
    (.like (.column ⟨0, 0, "name"⟩) "\\%\"\n" true)

def bindings : List (String × Value) :=
  [("role", .string "a \"quoted\"\tpart\\"), ("least", .int64 (-9223372036854775808))]

/-- Such tasks, each with its owner. -/
def attended : Plan where
  entity := "Todo"
  joins := [⟨1, 0, "owner", "User", "user_id", "id", .left⟩]
  filter := some entrusted
  projection := .items [.expr (.column ⟨0, 0, "name"⟩), .record 1]
  distinct := false
  orderBy := [⟨⟨0, 0, "importance"⟩, .desc⟩]
  window := some ⟨4294967295, 1⟩
  parameters := bindings

/-- Renames such tasks. -/
def relabelling : Change :=
  .update "Todo" [⟨"name", .string "é\u0001😀"⟩, ⟨"importance", .int32 (-2147483648)⟩]
    (some entrusted) bindings

/-- Conditions on so many tasks, one behind the other. -/
def chained : Nat → Predicate
  | 0 => .isNull (.column ⟨0, 0, "user_id"⟩) false
  | count + 1 => .and (chained count) (.isNull (.column ⟨0, 0, "name"⟩) true)

/-- The tasks that pass so many conditions. -/
def chain (count : Nat) : Plan where
  entity := "Todo"
  joins := []
  filter := some (chained count)
  projection := .root
  distinct := false
  orderBy := []
  window := none
  parameters := []

theorem decimal_exact : decimal.Exact where
  single x h := Json.float32?_ofFloat32 h
  double x h := by
    show decimal.double? (if x.toBits = 0x3fb999999999999a then .number "0.1" else .ofFloat64 x) = _
    split
    case isTrue hbits =>
      show some (Float.ofBits 0x3fb999999999999a) = some x
      rw [← hbits, Float.ofBits_toBits]
    case isFalse => exact Json.float64?_ofFloat64 h

theorem decimal_plain : decimal.Plain where
  single x _ := trivial
  double x _ := by
    show Json.Plain (if x.toBits = 0x3fb999999999999a then .number "0.1" else .ofFloat64 x)
    split
    case isTrue =>
      refine ⟨⟨'0', ['.', '1'], rfl, .inr rfl⟩, fun cs hcs => ?_⟩
      have hdigits := Json.Parser.digits?_toDigits 1 fun c hc => (hcs.ends hc).1
      have hfraction : Json.Parser.fraction? ('.' :: '1' :: cs) = some (['.', '1'], cs) := by
        show (Json.Parser.digits? (Nat.toDigits 10 1 ++ cs)).map _ = _
        rw [hdigits]
        rfl
      show (Json.Parser.fraction? ('.' :: '1' :: cs)).bind _ = _
      rw [hfraction]
      show (Json.Parser.exponent? cs).bind _ = _
      rw [hcs.exponent?]
      rfl
    case isFalse => exact trivial

theorem depth_chained (form : FloatForm) (count : Nat) :
    ((chained count).toJsonIn form).depth = 2 * count + 4 := by
  induction count with
  | zero => rfl
  | succ count ih =>
    have hlast : ((Predicate.isNull (.column ⟨0, 0, "name"⟩) true).toJsonIn form).depth = 4 := rfl
    show max (max ((chained count).toJsonIn form).depth (max _ 0) + 1) 0 + 1 = 2 * (count + 1) + 4
    rw [ih, hlast]
    omega

theorem depth_chain (form : FloatForm) (count : Nat) :
    ((chain count).toJsonIn form).depth = 2 * count + 5 := by
  show max 0 (max 1 (max ((chained count).toJsonIn form).depth 1)) + 1 = _
  rw [depth_chained]
  omega

theorem chained_portable (count : Nat) : (chained count).Portable := by
  induction count with
  | zero => exact ⟨by decide, by decide⟩
  | succ count ih => exact ⟨ih, ⟨by decide, by decide⟩⟩

theorem chain_portable (count : Nat) : (chain count).Portable :=
  ⟨List.forall_mem_nil _, chained_portable count, trivial, List.forall_mem_nil _, by rintro w ⟨⟩,
    List.forall_mem_nil _⟩

theorem highest_portable : highest.Portable := by
  simp [highest, Plan.Portable, FilterPortable, Predicate.Portable, Operand.Portable,
    Projection.Portable, ItemsPortable, Item.Portable, Column.portable_iff]

theorem responsible_portable : responsible.Portable := by
  have hfinite : (float64 0x3fb999999999999a).isFinite = true := by decide
  simp [responsible, Plan.Portable, FilterPortable, Predicate.Portable, Operand.Portable,
    Collection.Portable, Projection.Portable, ItemsPortable, Item.Portable, Column.portable_iff,
    Value.Finite, highest_portable, hfinite]

theorem entrusted_portable : entrusted.Portable := by
  simp [entrusted, Predicate.Portable, Operand.Portable, Column.portable_iff, responsible_portable]

theorem bindings_finite : ∀ p ∈ bindings, p.2.Finite := by
  simp [bindings, Value.Finite]

theorem attended_portable : attended.Portable := by
  refine ⟨?_, entrusted_portable, ?_, ?_, ?_, bindings_finite⟩
  all_goals
    simp [Projection.Portable, ItemsPortable, Item.Portable, Operand.Portable, Join.portable_iff,
      Column.portable_iff, Window.portable_iff]

theorem relabelling_portable : relabelling.Portable :=
  ⟨by simp [Value.Finite], entrusted_portable, bindings_finite⟩

end Sample

/-! ## Writing and reading -/

/-- Where finite floats are read back, so are the plans and changes that hold none but them, from
documents of any depth. No two of them have the same document, nor have a plan and a change. Where
floats have a text, the same holds of the texts, of which only those are read that are not nested too
deep. -/
theorem Json.writing_reversible {form : FloatForm} (hform : form.Exact) :
    (∀ q : Plan, q.Portable → Plan.ofJsonIn? form (q.toJsonIn form) = some q) ∧
    (∀ c : Change, c.Portable → Change.ofJsonIn? form (c.toJsonIn form) = some c) ∧
    (∀ q q' : Plan, q.Portable → q'.Portable → q ≠ q' → q.toJsonIn form ≠ q'.toJsonIn form) ∧
    (∀ c c' : Change, c.Portable → c'.Portable → c ≠ c' → c.toJsonIn form ≠ c'.toJsonIn form) ∧
    (∀ (q : Plan) (c : Change), q.toJsonIn form ≠ c.toJsonIn form) ∧
    (form.Plain →
      (∀ q : Plan, q.Portable → Plan.ofTextIn? form (q.toJsonIn form).render =
        if (q.toJsonIn form).depth ≤ nestingLimit then some q else none) ∧
      (∀ c : Change, c.Portable → Change.ofTextIn? form (c.toJsonIn form).render =
        if (c.toJsonIn form).depth ≤ nestingLimit then some c else none) ∧
      (∀ q q' : Plan, q.Portable → q'.Portable → q ≠ q' →
        (q.toJsonIn form).render ≠ (q'.toJsonIn form).render) ∧
      (∀ c c' : Change, c.Portable → c'.Portable → c ≠ c' →
        (c.toJsonIn form).render ≠ (c'.toJsonIn form).render) ∧
      ∀ (q : Plan) (c : Change), q.Portable → c.Portable →
        (q.toJsonIn form).render ≠ (c.toJsonIn form).render) := by
  have hplans : ∀ q q' : Plan, q.Portable → q'.Portable → q ≠ q' →
      q.toJsonIn form ≠ q'.toJsonIn form :=
    fun q q' h h' => write_ne (Plan.ofJsonIn?_toJsonIn hform h) (Plan.ofJsonIn?_toJsonIn hform h')
  have hchanges : ∀ c c' : Change, c.Portable → c'.Portable → c ≠ c' →
      c.toJsonIn form ≠ c'.toJsonIn form :=
    fun c c' h h' => write_ne (Change.ofJsonIn?_toJsonIn hform h) (Change.ofJsonIn?_toJsonIn hform h')
  refine ⟨fun q => Plan.ofJsonIn?_toJsonIn hform, fun c => Change.ofJsonIn?_toJsonIn hform, hplans,
    hchanges, Plan.toJsonIn_ne_change, fun hplain => ?_⟩
  -- Documents that differ have texts that differ.
  refine ⟨fun q => Plan.ofTextIn?_render hform hplain, fun c => Change.ofTextIn?_render hform hplain,
    fun q q' h h' hne => ?_, fun c c' h h' hne => ?_, fun q c h h' => ?_⟩
  · exact render_ne (q.plain_toJsonIn hplain h) (q'.plain_toJsonIn hplain h') (hplans q q' h h' hne)
  · exact render_ne (Change.plain_toJsonIn hplain h) (Change.plain_toJsonIn hplain h')
      (hchanges c c' h h' hne)
  · exact render_ne (q.plain_toJsonIn hplain h) (Change.plain_toJsonIn hplain h')
      (q.toJsonIn_ne_change c)

theorem Json.writing_reversible_decimal :
    Sample.decimal.Exact ∧ Sample.decimal.Plain ∧
      Sample.decimal.double (Sample.float64 0x3fb999999999999a) = .number "0.1" ∧
      Plan.ofTextIn? Sample.decimal (Sample.attended.toJsonIn Sample.decimal).render =
        some Sample.attended ∧
      Change.ofTextIn? Sample.decimal (Sample.relabelling.toJsonIn Sample.decimal).render =
        some Sample.relabelling ∧
      (Sample.attended.toJsonIn Sample.decimal).render ≠
        (Sample.highest.toJsonIn Sample.decimal).render ∧
      Sample.relabelling.toJsonIn Sample.decimal ≠
        (Change.delete "Todo" none []).toJsonIn Sample.decimal ∧
      Plan.ofJsonIn? Sample.decimal ((Sample.chain 62).toJsonIn Sample.decimal) =
        some (Sample.chain 62) ∧
      Plan.ofTextIn? Sample.decimal ((Sample.chain 62).toJsonIn Sample.decimal).render = none := by
  -- Two documents are within the limit of nesting, and the chain is one level beyond it.
  obtain ⟨hplan, -, -, hchanges, -, htexts⟩ := writing_reversible Sample.decimal_exact
  obtain ⟨hplanText, hchangeText, hplansText, -⟩ := htexts Sample.decimal_plain
  have hq := Sample.attended_portable
  have hc := Sample.relabelling_portable
  have hdelete : (Change.delete "Todo" none []).Portable := ⟨trivial, List.forall_mem_nil _⟩
  have hchain := Sample.chain_portable 62
  refine ⟨Sample.decimal_exact, Sample.decimal_plain, rfl, ?_, ?_, ?_, ?_, hplan _ hchain, ?_⟩
  · exact (hplanText _ hq).trans (if_pos (by decide))
  · exact (hchangeText _ hc).trans (if_pos (by decide))
  · exact hplansText _ _ hq Sample.highest_portable (by rintro ⟨⟩)
  · exact hchanges _ _ hc hdelete (by rintro ⟨⟩)
  · exact (hplanText _ hchain).trans (if_neg (by rw [Sample.depth_chain]; decide))

end EntityQuery
