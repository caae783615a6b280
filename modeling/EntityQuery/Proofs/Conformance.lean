import EntityQuery.Proofs.Catalog
import EntityQuery.Proofs.Evaluation.Outcomes
import EntityQuery.Proofs.Planning.Runs

/-!
# Conforming records

Tables are typed when their records hold, for every declared field, a value of the type of the field,
and they conform to a catalog when moreover every entity has a table. The static type of an operand then says which values it can
have, and the type of an aggregate which values it gives.
-/

namespace EntityQuery

/-! ## Tables -/

/-- A record with a value of the right type for every declared field. -/
def Record.Conforms (e : Entity) (r : Record) : Prop :=
  ∀ f ∈ e.fields, ∃ v, r.get? f.name = some v ∧ f.type.accepts v = true

/-- Tables with a table of conforming records for every entity of a catalog. -/
def Tables.Conforms (c : Catalog) (t : Tables) : Prop :=
  ∀ name e, c.entity? name = some e →
    ∃ records, t.table? name = some records ∧ ∀ r ∈ records, r.Conforms e

/-- Tables all of whose records hold, for every declared field, a value of its type. An entity may be
without a table. -/
def Tables.Typed (c : Catalog) (t : Tables) : Prop :=
  ∀ name e, c.entity? name = some e → ∀ r ∈ t.records name, r.Conforms e

/-- Tables conform if they are typed and no entity is without a table. -/
theorem Tables.conforms_iff {c : Catalog} {t : Tables} :
    t.Conforms c ↔
      t.Typed c ∧ ∀ name e, c.entity? name = some e → (t.table? name).isSome = true := by
  constructor
  · intro h
    refine ⟨fun name e he r hr => ?_, fun name e he => ?_⟩
    · obtain ⟨records, htable, hconforms⟩ := h name e he
      have hrecords : t.records name = records := by simp [Tables.records, htable]
      exact hconforms r (hrecords ▸ hr)
    · obtain ⟨records, htable, -⟩ := h name e he
      simp [htable]
  · rintro ⟨htyped, htables⟩ name e he
    obtain ⟨records, htable⟩ := Option.isSome_iff_exists.mp (htables name e he)
    have hrecords : t.records name = records := by simp [Tables.records, htable]
    exact ⟨records, htable, fun r hr => htyped name e he r (hrecords ▸ hr)⟩

namespace Tables.Conforms

variable {c : Catalog} {t : Tables} {entity : String} {e : Entity}

theorem typed (h : t.Conforms c) : t.Typed c :=
  (conforms_iff.mp h).1

theorem table (h : t.Conforms c) (he : c.entity? entity = some e) :
    t.table entity = .ok (t.records entity) := by
  obtain ⟨records, hrecords, -⟩ := h entity e he
  simp [Tables.table, Tables.records, hrecords]

/-- Whether tables conform can be seen entity by entity. -/
theorem of_all (h : (c.schema.entities.all fun (name, e) => (t.table? name).any fun records =>
    records.all fun r => e.fields.all fun f => (r.get? f.name).any f.type.accepts) = true) :
    t.Conforms c := by
  intro name e he
  have hmem : (name, e) ∈ c.schema.entities := mem_of_lookup he
  have hentity := List.all_eq_true.mp h _ hmem
  obtain ⟨records, hrecords, hall⟩ := (Option.any_eq_true ..).mp hentity
  refine ⟨records, hrecords, fun r hr f hf => ?_⟩
  exact (Option.any_eq_true ..).mp (List.all_eq_true.mp (List.all_eq_true.mp hall r hr) f hf)

end Tables.Conforms

/-- A declared field holds a value of its type. -/
theorem Tables.Typed.field {c : Catalog} {t : Tables} (h : t.Typed c) {entity name : String}
    {f : Field} (hf : c.attribute? entity name = some (.field f)) {r : Record}
    (hr : r ∈ t.records entity) : f.type.accepts (fieldValue (some r) f.name) = true := by
  obtain ⟨e, he, hf⟩ := Catalog.attribute?_field hf
  obtain ⟨v, hv, haccepts⟩ := h entity e he r hr f (Entity.field?_mem hf).1
  simp only [fieldValue, Option.bind_some, hv, Option.getD_some]
  exact haccepts

/-! ## Static types -/

/-- The values of operands of a type. Null is one of them whatever the type: a column is null where
an outer join found no record. -/
def StaticType.Admits (t : StaticType) (v : Value) : Prop :=
  v = .null ∨
    match t with
    | field t => t.accepts v = true
    | value w => v = w ∨ v.identical w = true
    | unknown => False

namespace Value

theorem isNull_iff {v : Value} : v.isNull = true ↔ v = .null := by
  cases v <;> simp [isNull]

theorem eq_string {v : Value} (h : v.string?.isSome = true) : ∃ s, v = .string s := by
  cases v with
  | string s => exact ⟨s, rfl⟩
  | _ => cases h

/-- What is identical to a string is a string. -/
theorem identical_string {v : Value} {s : String} (h : v.identical (string s) = true) :
    ∃ s', v = .string s' := by
  cases v with
  | string s' => exact ⟨s', rfl⟩
  | _ => cases h

theorem identical_null {v : Value} (h : v.identical null = true) : v = .null := by
  cases v with
  | null => rfl
  | _ => cases h

end Value

theorem ScalarType.accepts_integer {s : ScalarType} (hs : s = .int32 ∨ s = .int64) {v : Value}
    (hv : s.accepts v = true) : v.isInteger = true := by
  rcases hs with rfl | rfl
  · cases v with
    | int32 => rfl
    | _ => cases hv
  · cases v with
    | int32 | int64 => rfl
    | _ => cases hv

namespace FieldType

/-- Texts are strings. -/
theorem accepts_text {t : FieldType} {v : Value} (ht : t.isText = true) (hv : t.accepts v = true) :
    v = .null ∨ ∃ s, v = .string s := by
  unfold accepts at hv
  split at hv
  · rename_i hnull
    exact .inl (Value.isNull_iff.mp hnull)
  · right
    cases t with
    | scalar s | optionalScalar s =>
      obtain rfl : s = .string := by simpa [isText] using ht
      cases v with
      | string s => exact ⟨s, rfl⟩
      | _ => cases hv
    | array s => cases ht
    | enumeration name variants | optionalEnumeration name variants =>
      cases v with
      | string s => exact ⟨s, rfl⟩
      | _ => cases hv

/-- Arrays are collections, and not null. -/
theorem accepts_array {s : ScalarType} {v : Value} (hv : (array s).accepts v = true) :
    ∃ vs, v.elements? = some vs := by
  cases v with
  | boolArray | int32Array | int64Array | float64Array | stringArray | uuidArray =>
    exact ⟨_, rfl⟩
  | null => cases hv
  | _ => cases s <;> cases hv

/-- Being made nullable takes no value from a type. -/
theorem accepts_optional {t : FieldType} {v : Value} (hv : t.accepts v = true) :
    t.optional.accepts v = true := by
  unfold accepts at hv ⊢
  cases t with
  | scalar s | array s | optionalScalar s =>
    split at hv <;> simp_all [optional, isNullable]
  | enumeration name variants | optionalEnumeration name variants =>
    split at hv <;> simp_all [optional, isNullable]

end FieldType

/-- LIKE meets strings and nulls only. -/
theorem StaticType.Admits.text {t : StaticType} {v : Value} (h : t.Admits v)
    (ht : t.isText = true) : v = .null ∨ ∃ s, v = .string s := by
  rcases h with rfl | h
  · exact .inl rfl
  · cases t with
    | field t => exact FieldType.accepts_text ht h
    | value w =>
      simp only [isText, Bool.or_eq_true] at ht
      rcases ht with ht | ht
      · obtain rfl := Value.isNull_iff.mp ht
        rcases h with rfl | h
        · exact .inl rfl
        · exact .inl (Value.identical_null h)
      · obtain ⟨s, rfl⟩ := Value.eq_string ht
        rcases h with rfl | h
        · exact .inr ⟨s, rfl⟩
        · exact .inr (Value.identical_string h)
    | unknown => exact h.elim

/-! ## Aggregates -/

namespace Value

/-- An extreme value is one of the values. -/
theorem extreme_mem (beyond : Ordering) (best : Value) (vs : List Value) :
    extreme beyond best vs ∈ best :: vs := by
  induction vs generalizing best with
  | nil => simp [extreme]
  | cons v vs ih =>
    rw [extreme, List.foldl_cons]
    have := ih (if (order v best).getD .eq = beyond then v else best)
    rw [extreme] at this
    rcases List.mem_cons.mp this with h | h
    · rw [h]
      split
      · simp
      · simp
    · simp [h]

end Value

namespace Aggregate

variable {f : Aggregate} {t ft : FieldType} {entity label : String}

/-- The type of a sum or mean is that of its numbers. -/
theorem type_number_ok (hf : f = .sum ∨ f = .avg)
    (h : f.type entity label (some t) = .ok ft) :
    ∃ s, (t = .scalar s ∨ t = .optionalScalar s) ∧ s.isNumeric = true ∧
      ((f = .sum ∧ (s = .int32 ∨ s = .int64) ∧ ft = .optionalScalar .int64) ∨
        ft = .optionalScalar .float64) := by
  -- Nullable or not, the scalar alone decides.
  have hnumber : ∀ s, t.isArray = false → t.scalar? = some s → s.isNumeric = true ∧
      ((f = .sum ∧ (s = .int32 ∨ s = .int64) ∧ ft = .optionalScalar .int64) ∨
        ft = .optionalScalar .float64) := by
    intro s harray hs
    rcases hf with rfl | rfl
    · simp only [type, harray, hs] at h
      split at h
      · rename_i hnumeric
        refine ⟨hnumeric, ?_⟩
        split at h
        · cases h
          exact .inl ⟨rfl, .inl rfl, rfl⟩
        · cases h
          exact .inl ⟨rfl, .inr rfl, rfl⟩
        · cases h
          exact .inr rfl
      · cases h
    · simp only [type, harray, hs] at h
      split at h
      · rename_i hnumeric
        cases h
        exact ⟨hnumeric, .inr rfl⟩
      · cases h
  cases t with
  | scalar s => exact ⟨s, .inl rfl, hnumber s rfl rfl⟩
  | optionalScalar s => exact ⟨s, .inr rfl, hnumber s rfl rfl⟩
  | array | enumeration | optionalEnumeration => rcases hf with rfl | rfl <;> cases h

theorem type_extreme_ok (hf : f = .min ∨ f = .max)
    (h : f.type entity label (some t) = .ok ft) : ft = t.optional := by
  rcases hf with rfl | rfl
  · simp only [type] at h
    split at h
    · cases h
      rfl
    · cases h
  · simp only [type] at h
    split at h
    · cases h
      rfl
    · cases h

/-- An aggregate of values of a type has the type of the aggregate, unless a sum overflows. -/
theorem ofList_safe {sorter : Sorter} (h : f.type entity label (some t) = .ok ft) {vs : List Value}
    (hvs : ∀ v ∈ vs, v.isNull = false ∧ t.accepts v = true) :
    Safe sorter (StaticType.field ft).Admits (f.ofList vs) := by
  cases vs with
  | nil =>
    cases f with
    | count =>
      cases h
      exact .inr rfl
    | sum | avg | min | max => exact .inl rfl
  | cons v vs =>
    cases f with
    | count =>
      cases h
      exact .inr rfl
    | sum =>
      obtain ⟨s, ht, hs, hft⟩ := type_number_ok (.inl rfl) h
      simp only [ofList, ofValues]
      split
      · split
        · rcases hft with ⟨-, -, rfl⟩ | rfl
          · exact .inr rfl
          · exact .inr rfl
        · exact .inl rfl
      · rename_i hints
        -- What is no integer is no value of an integer type.
        rcases hft with ⟨-, hs', rfl⟩ | rfl
        · exfalso
          apply hints
          rw [List.all_eq_true]
          intro w hw
          obtain ⟨hnull, haccepts⟩ := hvs w hw
          refine ScalarType.accepts_integer hs' ?_
          rcases ht with rfl | rfl <;> simpa [FieldType.accepts, hnull] using haccepts
        · exact .inr rfl
    | avg =>
      obtain ⟨s, -, -, hft⟩ := type_number_ok (.inr rfl) h
      rcases hft with ⟨hsum, -⟩ | rfl
      · cases hsum
      · exact .inr rfl
    | min =>
      rw [type_extreme_ok (.inl rfl) h]
      exact .inr (FieldType.accepts_optional (hvs _ (Value.extreme_mem .lt v vs)).2)
    | max =>
      rw [type_extreme_ok (.inr rfl) h]
      exact .inr (FieldType.accepts_optional (hvs _ (Value.extreme_mem .gt v vs)).2)

end Aggregate

end EntityQuery
