import EntityQuery.Proofs.Evaluation.FloatOrder
import EntityQuery.Proofs.Evaluation.Sorting

/-!
# The order in which values sort

The values of an orderable type sort by a number or a text, null before them. This is a total preorder
on them, but for two gaps. A NaN is on one level with every number, and so may stand between two that
are not. And integers are compared exactly with each other, but as floats with a float, so the float
that two of them become is on one level with both.
-/

namespace EntityQuery

/-! ## What values sort by -/

/-- What a value sorts by: an integer is kept exact until it meets a float. -/
inductive Ordinate where
  | integer (n : Int)
  | float (x : Float)
  | text (s : String)

namespace Ordinate

def order : Ordinate → Ordinate → Option Ordering
  | integer m, integer n => some (compare m n)
  | integer m, float y => Number.order (Number.ofInt m) y
  | float x, integer n => Number.order x (Number.ofInt n)
  | float x, float y => Number.order x y
  | text s, text s' => some (compare s s')
  | _, _ => none

/-- A number as a float. -/
def float? : Ordinate → Option Float
  | integer n => some (Number.ofInt n)
  | float x => some x
  | text _ => none

/-- Integers are those of 64 bits. -/
def InRange : Ordinate → Prop
  | integer n => n.natAbs < 2 ^ 64
  | _ => True

variable {a b c : Ordinate} {o o' : Ordering} {x y z : Float}

theorem order_swap (a b : Ordinate) : b.order a = (a.order b).map Ordering.swap := by
  cases a <;> cases b
  case integer.integer m n => exact congrArg some Std.OrientedCmp.eq_swap
  case text.text s s' => exact congrArg some Std.OrientedCmp.eq_swap
  case integer.float | float.integer | float.float => exact Number.order_swap _ _
  all_goals rfl

/-- Numbers that are ordered are ordered the same way as floats, if not as strictly. -/
theorem order_float (ha : a.InRange) (hb : b.InRange) (hx : a.float? = some x)
    (hy : b.float? = some y) (h : a.order b = some o) (ho : o.isLE = true) :
    ∃ o', Number.order x y = some o' ∧ o'.isLE = true := by
  cases a <;> cases b <;> cases hx <;> cases hy
  case integer.integer m n =>
    obtain rfl := Option.some.inj h
    refine ⟨_, Number.order_ofInt ha hb, ?_⟩
    rw [Std.isLE_compare] at ho ⊢
    exact Number.nearest_mono ho
  all_goals exact ⟨o, h, ho⟩

def isNaN : Ordinate → Bool
  | float x => x.isNaN
  | _ => false

theorem isNaN_of_float? (ha : a.InRange) (hx : a.float? = some x) : x.isNaN = a.isNaN := by
  cases a <;> cases hx
  case integer n => exact Number.isNaN_ofInt ha
  case float => rfl

/-- Numbers are ordered unless one of them is a NaN. -/
theorem order_eq_none_iff (ha : a.InRange) (hb : b.InRange) (hx : a.float? = some x)
    (hy : b.float? = some y) : a.order b = none ↔ a.isNaN = true ∨ b.isNaN = true := by
  rw [← isNaN_of_float? ha hx, ← isNaN_of_float? hb hy]
  cases a <;> cases b <;> cases hx <;> cases hy
  case integer.integer m n =>
    rw [Number.isNaN_ofInt ha, Number.isNaN_ofInt hb]
    exact iff_of_false nofun (by decide)
  all_goals exact Number.order_eq_none_iff

/-- Numbers that descend though as floats they do not are integers. -/
theorem integers_of_descending (hx : a.float? = some x) (hy : b.float? = some y)
    (h : a.order b = some .gt) (hxy : Number.order x y = some o) (ho : o.isLE = true) :
    ∃ m n, a = integer m ∧ b = integer n ∧ n < m := by
  cases a <;> cases b <;> cases hx <;> cases hy
  case integer.integer m n => exact ⟨m, n, rfl, rfl, compare_gt_iff_gt.mp (Option.some.inj h)⟩
  all_goals
    obtain rfl : o = .gt := Option.some.inj (hxy.symm.trans h)
    cases ho

/-- If the first of three numbers comes after the last, but neither after the one in the middle nor
that one after the last, then the middle is a NaN or the float of two integers. -/
theorem blurred_of_descending (ha : a.InRange) (hb : b.InRange) (hc : c.InRange)
    (hx : a.float? = some x) (hy : b.float? = some y) (hz : c.float? = some z)
    (hab : ((a.order b).getD .eq).isLE = true) (hbc : ((b.order c).getD .eq).isLE = true)
    (hac : a.order c = some .gt) :
    b.isNaN = true ∨ ∃ m n, a = integer m ∧ b = float y ∧ c = integer n ∧ n < m ∧
      Number.ofInt m == y ∧ Number.ofInt n == y := by
  rw [or_iff_not_imp_left]
  intro hnan
  have hends : ¬ (a.isNaN = true ∨ c.isNaN = true) := by
    rw [← order_eq_none_iff ha hc hx hz, hac]
    exact nofun
  obtain ⟨o₁, h₁⟩ : ∃ o, a.order b = some o :=
    Option.ne_none_iff_exists'.mp fun h => ((order_eq_none_iff ha hb hx hy).mp h).elim
      (fun h => hends (.inl h)) hnan
  obtain ⟨o₂, h₂⟩ : ∃ o, b.order c = some o :=
    Option.ne_none_iff_exists'.mp fun h => ((order_eq_none_iff hb hc hy hz).mp h).elim hnan
      fun h => hends (.inr h)
  rw [h₁, Option.getD_some] at hab
  rw [h₂, Option.getD_some] at hbc
  have hca : c.order a = some .lt := by
    rw [order_swap, hac]
    rfl
  -- As floats the three are on one level.
  obtain ⟨_, hxy, hle₁⟩ := order_float ha hb hx hy h₁ hab
  obtain ⟨_, hyz, hle₂⟩ := order_float hb hc hy hz h₂ hbc
  obtain ⟨_, hzx, hle₃⟩ := order_float hc ha hz hx hca rfl
  obtain ⟨_, hxz, hle⟩ := Number.order_trans hxy hyz hle₁ hle₂
  obtain ⟨_, hyx, hle'⟩ := Number.order_trans hyz hzx hle₂ hle₃
  obtain ⟨_, hzy, hle''⟩ := Number.order_trans hzx hxy hle₃ hle₁
  obtain ⟨m, n, rfl, rfl, hlt⟩ := integers_of_descending hx hz hac hxz hle
  cases hx
  cases hz
  have hfloat : b = float y := by
    cases b <;> cases hy
    case integer k =>
      -- Three integers are compared exactly.
      obtain rfl := Option.some.inj h₁
      obtain rfl := Option.some.inj h₂
      rw [Std.isLE_compare] at hab hbc
      omega
    case float => rfl
  exact ⟨m, n, rfl, hfloat, rfl, hlt, Number.beq_of_isLE hxy hyx hle₁ hle',
    Number.beq_of_isLE hzy hyz hle'' hle₂⟩

end Ordinate

namespace Value

/-- What a value that can be ordered sorts by. -/
def ordinate? : Value → Option Ordinate
  | int32 n => some (.integer n.toInt)
  | int64 n => some (.integer n.toInt)
  | timestamp n => some (.integer n.toInt)
  | float32 x => some (.float (Number.widen x))
  | float64 x => some (.float x)
  | string s => some (.text s)
  | _ => none

variable {s : ScalarType} {v w u : Value} {a b : Ordinate}

theorem inRange_of_ordinate? (h : v.ordinate? = some a) : a.InRange := by
  cases v <;> cases h
  case int32 n =>
    have hlt := n.toInt_lt
    have hle := n.le_toInt
    show n.toInt.natAbs < 2 ^ 64
    omega
  case int64 n | timestamp n =>
    have hlt := n.toInt_lt
    have hle := n.le_toInt
    show n.toInt.natAbs < 2 ^ 64
    omega
  all_goals trivial

theorem string_of_accepts (h : ScalarType.string.accepts v = true) : ∃ t, v = string t := by
  cases v with
  | string t => exact ⟨t, rfl⟩
  | _ => cases h

/-- What orderable types other than that of strings accept sorts by a number. -/
theorem ordinate_of_accepts (hs : s.isOrderable = true) (hstring : s ≠ .string)
    (hv : s.accepts v = true) : ∃ a x, v.ordinate? = some a ∧ a.float? = some x := by
  cases v with
  | int32 n | int64 n | timestamp n => exact ⟨_, _, rfl, rfl⟩
  | float32 x | float64 x => exact ⟨_, _, rfl, rfl⟩
  | string t => cases s <;> first | exact absurd rfl hstring | cases hv
  | _ => cases s <;> first | (cases hs; done) | cases hv

/-- Values of types that can be compared are ordered by what they sort by. -/
theorem order_eq_of_comparableWith {s' : ScalarType} (hss : s.comparableWith s' = true)
    (hv : s.accepts v = true) (hw : s'.accepts w = true) (ha : v.ordinate? = some a)
    (hb : w.ordinate? = some b) : v.order w = a.order b := by
  cases v <;> cases ha <;> cases w <;> cases hb
  -- A timestamp is comparable with no type that accepts a number other than a 64-bit integer.
  case timestamp.refl.int32.refl | timestamp.refl.float32.refl | timestamp.refl.float64.refl =>
    cases s <;> first
      | (cases hv; done)
      | (cases s' <;> first | (cases hw; done) | cases hss)
  case int32.refl.timestamp.refl | float32.refl.timestamp.refl | float64.refl.timestamp.refl =>
    cases s' <;> first
      | (cases hw; done)
      | (cases s <;> first | (cases hv; done) | cases hss)
  all_goals rfl

theorem order_eq (hv : s.accepts v = true) (hw : s.accepts w = true) (ha : v.ordinate? = some a)
    (hb : w.ordinate? = some b) : v.order w = a.order b :=
  order_eq_of_comparableWith (by cases s <;> rfl) hv hw ha hb

/-- A value that an attribute of a type may hold: null, or one that the type accepts. -/
def StoredAs (s : ScalarType) (v : Value) : Prop :=
  v = null ∨ s.accepts v = true

/-- Three values of which the first comes after the last, but is not after the one in the middle, nor
is that one after the last. -/
inductive Blurs (v w u : Value) : Prop
  /-- The middle one is a NaN. -/
  | nan {x : Float} : w.ordinate? = some (.float x) → x.isNaN = true → v.order u = some .gt →
      Blurs v w u
  /-- Both integers become the float in the middle. -/
  | rounded {m n : Int} {x : Float} : v.ordinate? = some (.integer m) →
      w.ordinate? = some (.float x) → u.ordinate? = some (.integer n) → n < m →
      Number.ofInt m == x → Number.ofInt n == x → Blurs v w u

theorem ne_null_of_accepts (h : s.accepts v = true) : v ≠ null := by
  rintro rfl
  cases s <;> cases h

theorem accepts_of_ordinate? (hv : v.StoredAs s) (h : v.ordinate? = some a) :
    s.accepts v = true := by
  rcases hv with rfl | hv
  · cases h
  · exact hv

theorem exists_ordinate (hs : s.isOrderable = true) (hv : s.accepts v = true) :
    ∃ a, v.ordinate? = some a := by
  by_cases hstring : s = .string
  · subst hstring
    obtain ⟨t, rfl⟩ := string_of_accepts hv
    exact ⟨_, rfl⟩
  · obtain ⟨a, x, ha, -⟩ := ordinate_of_accepts hs hstring hv
    exact ⟨a, ha⟩

theorem null_sortOrder (hv : v ≠ null) : null.sortOrder v = .lt := by
  cases v <;> first | exact absurd rfl hv | rfl

theorem sortOrder_null (hv : v ≠ null) : v.sortOrder null = .gt := by
  cases v <;> first | exact absurd rfl hv | rfl

theorem eq_null_of_isLE (h : (v.sortOrder null).isLE = true) : v = null := by
  by_contra hv
  rw [sortOrder_null hv] at h
  cases h

theorem sortOrder_of_ne_null (hv : v ≠ null) (hw : w ≠ null) :
    v.sortOrder w = (v.order w).getD .eq := by
  fun_cases sortOrder v w
  case case1 | case2 => exact absurd rfl hv
  case case3 => exact absurd rfl hw
  case case4 => rfl

theorem sortOrder_swap (hs : s.isOrderable = true) (hv : v.StoredAs s) (hw : w.StoredAs s) :
    w.sortOrder v = (v.sortOrder w).swap := by
  by_cases hv' : v = null
  · subst hv'
    cases w <;> rfl
  by_cases hw' : w = null
  · subst hw'
    rw [null_sortOrder hv', sortOrder_null hv']
    rfl
  have hv := hv.resolve_left hv'
  have hw := hw.resolve_left hw'
  obtain ⟨a, ha⟩ := exists_ordinate hs hv
  obtain ⟨b, hb⟩ := exists_ordinate hs hw
  rw [sortOrder_of_ne_null hv' hw', sortOrder_of_ne_null hw' hv', order_eq hv hw ha hb,
    order_eq hw hv hb ha, Ordinate.order_swap]
  cases a.order b <;> rfl

theorem Blurs.order_eq_gt (h : Blurs v w u) (hv : v.StoredAs s) (hu : u.StoredAs s) :
    v.order u = some .gt := by
  cases h with
  | nan _ _ h => exact h
  | @rounded m n x hm _ hn hlt _ _ =>
    rw [order_eq (accepts_of_ordinate? hv hm) (accepts_of_ordinate? hu hn) hm hn]
    exact congrArg some (compare_gt_iff_gt.mpr hlt)

/-- Values of a type that has a NaN are on one level with it. -/
theorem sortOrder_nan {x : Float} (hs : s.isOrderable = true) (hv : s.accepts v = true)
    (hw : s.accepts w = true) (hx : w.ordinate? = some (.float x)) (hnan : x.isNaN = true) :
    v.sortOrder w = .eq ∧ w.sortOrder v = .eq := by
  have hstring : s ≠ .string := by
    rintro rfl
    obtain ⟨t, rfl⟩ := string_of_accepts hw
    cases hx
  obtain ⟨a, y, ha, hy⟩ := ordinate_of_accepts hs hstring hv
  have ha' := inRange_of_ordinate? ha
  have hx' := inRange_of_ordinate? hx
  have hvw : v.order w = none := by
    rw [order_eq hv hw ha hx]
    exact (Ordinate.order_eq_none_iff ha' hx' hy rfl).mpr (.inr hnan)
  have hwv : w.order v = none := by
    rw [order_eq hw hv hx ha]
    exact (Ordinate.order_eq_none_iff hx' ha' rfl hy).mpr (.inl hnan)
  rw [sortOrder_of_ne_null (ne_null_of_accepts hv) (ne_null_of_accepts hw),
    sortOrder_of_ne_null (ne_null_of_accepts hw) (ne_null_of_accepts hv), hvw, hwv]
  exact ⟨rfl, rfl⟩

/-- A value that blurs two others is on one level with both. -/
theorem Blurs.sortOrder_eq (hs : s.isOrderable = true) (h : Blurs v w u) (hv : v.StoredAs s)
    (hw : w.StoredAs s) (hu : u.StoredAs s) : v.sortOrder w = .eq ∧ w.sortOrder u = .eq := by
  have hvu := h.order_eq_gt hv hu
  cases h with
  | @nan x hx hnan _ =>
    -- Null is ordered with nothing, so none of the three is null.
    have hw' := accepts_of_ordinate? hw hx
    have hv' := hv.resolve_left (by rintro rfl; cases hvu)
    have hu' := hu.resolve_left (by rintro rfl; cases v <;> cases hvu)
    exact ⟨(sortOrder_nan hs hv' hw' hx hnan).1, (sortOrder_nan hs hu' hw' hx hnan).2⟩
  | @rounded m n x hm hx hn _ hmx hnx =>
    have hv' := accepts_of_ordinate? hv hm
    have hw' := accepts_of_ordinate? hw hx
    have hu' := accepts_of_ordinate? hu hn
    -- The float in the middle is what both integers are rounded to.
    have hvw : v.order w = some .eq := by
      rw [order_eq hv' hw' hm hx]
      exact eq_of_beq hmx
    have hwu : w.order u = some .eq := by
      have huw : (Ordinate.integer n).order (.float x) = some .eq := eq_of_beq hnx
      rw [order_eq hw' hu' hx hn, Ordinate.order_swap, huw]
      rfl
    rw [sortOrder_of_ne_null (ne_null_of_accepts hv') (ne_null_of_accepts hw'),
      sortOrder_of_ne_null (ne_null_of_accepts hw') (ne_null_of_accepts hu'), hvw, hwu]
    exact ⟨rfl, rfl⟩

/-- The first of three values, none of them null, comes after the last although it is not after the one
in the middle, nor that one after the last, only where the middle one blurs the others. -/
theorem blurs_of_descending (hs : s.isOrderable = true) (hv : s.accepts v = true)
    (hw : s.accepts w = true) (hu : s.accepts u = true)
    (hvw : ((v.order w).getD .eq).isLE = true) (hwu : ((w.order u).getD .eq).isLE = true)
    (hvu : v.order u = some .gt) : Blurs v w u := by
  -- Strings are in a total order, and what other types accept are numbers.
  by_cases hstring : s = .string
  · subst hstring
    obtain ⟨t, rfl⟩ := string_of_accepts hv
    obtain ⟨t', rfl⟩ := string_of_accepts hw
    obtain ⟨t'', rfl⟩ := string_of_accepts hu
    have htrans : (compare t t'').isLE = true :=
      Std.TransOrd.isLE_trans (hvw : (compare t t').isLE = true) hwu
    have hgt : compare t t'' = .gt := Option.some.inj hvu
    rw [hgt] at htrans
    cases htrans
  · obtain ⟨a, x, ha, hx⟩ := ordinate_of_accepts hs hstring hv
    obtain ⟨b, y, hb, hy⟩ := ordinate_of_accepts hs hstring hw
    obtain ⟨c, z, hc, hz⟩ := ordinate_of_accepts hs hstring hu
    rw [order_eq hv hw ha hb] at hvw
    rw [order_eq hw hu hb hc] at hwu
    have hac := hvu
    rw [order_eq hv hu ha hc] at hac
    rcases Ordinate.blurred_of_descending (inRange_of_ordinate? ha) (inRange_of_ordinate? hb)
      (inRange_of_ordinate? hc) hx hy hz hvw hwu hac with
      hnan | ⟨m, n, rfl, rfl, rfl, hlt, hmy, hny⟩
    · cases b with
      | float y' => exact .nan hb hnan hvu
      | _ => cases hnan
    · exact .rounded ha hb hc hlt hmy hny

/-- The order is transitive but for values that blur others. -/
theorem sortOrder_isLE_iff (hs : s.isOrderable = true) (hv : v.StoredAs s) (hw : w.StoredAs s)
    (hu : u.StoredAs s) (hvw : (v.sortOrder w).isLE = true) (hwu : (w.sortOrder u).isLE = true) :
    (v.sortOrder u).isLE = true ↔ ¬ Blurs v w u := by
  by_cases hv' : v = null
  · subst hv'
    refine iff_of_true (by cases u <;> rfl) fun h => ?_
    cases h.order_eq_gt hv hu
  -- Null is the least value, so what is at or after another value is not null.
  have hw' : w ≠ null := by
    rintro rfl
    exact hv' (eq_null_of_isLE hvw)
  have hu' : u ≠ null := by
    rintro rfl
    exact hw' (eq_null_of_isLE hwu)
  rw [sortOrder_of_ne_null hv' hw'] at hvw
  rw [sortOrder_of_ne_null hw' hu'] at hwu
  rw [sortOrder_of_ne_null hv' hu']
  constructor
  · intro hle hblurs
    rw [hblurs.order_eq_gt hv hu] at hle
    cases hle
  · intro hclear
    by_contra hgt
    have hvu : v.order u = some .gt := by
      rcases horder : v.order u with _ | _ | _ | _
      case some.gt => rfl
      all_goals
        rw [horder] at hgt
        exact absurd rfl hgt
    exact hclear (blurs_of_descending hs (hv.resolve_left hv') (hw.resolve_left hw')
      (hu.resolve_left hu') hvw hwu hvu)

/-- Only types of floats have values that blur others. -/
theorem Blurs.float_type (h : Blurs v w u) (hw : w.StoredAs s) : s = .float32 ∨ s = .float64 := by
  obtain ⟨x, hx⟩ : ∃ x, w.ordinate? = some (.float x) := by
    cases h with
    | nan hx => exact ⟨_, hx⟩
    | rounded _ hx => exact ⟨_, hx⟩
  have hw := accepts_of_ordinate? hw hx
  cases w <;> cases hx
  case float32 => cases s <;> first | exact .inl rfl | exact .inr rfl | cases hw
  case float64 => cases s <;> first | exact .inr rfl | cases hw

/-- Without a NaN only integers of more than 53 bits are blurred. -/
theorem Blurs.extreme (h : Blurs v w u) :
    (∃ x, w.ordinate? = some (.float x) ∧ x.isNaN = true) ∨
      ∃ n, (v.ordinate? = some (.integer n) ∨ u.ordinate? = some (.integer n)) ∧
        2 ^ 53 < n.natAbs := by
  cases h with
  | nan hx hnan _ => exact .inl ⟨_, hx, hnan⟩
  | @rounded m n x hm _ hn hlt hmx hnx =>
    right
    by_cases hmlarge : 2 ^ 53 < m.natAbs
    · exact ⟨m, .inl hm, hmlarge⟩
    refine ⟨n, .inr hn, ?_⟩
    by_contra hnsmall
    have hmx : Number.order (Number.ofInt m) x = some .eq := eq_of_beq hmx
    have hxn : Number.order x (Number.ofInt n) = some .eq := by
      have hnx : Number.order (Number.ofInt n) x = some .eq := eq_of_beq hnx
      rw [Number.order_swap, hnx]
      rfl
    obtain ⟨o, hmn, hle⟩ := Number.order_trans hmx hxn rfl rfl
    -- As floats the integers would be ordered as they are themselves.
    rw [Number.order_ofInt (by omega) (by omega), Number.nearest_of_natAbs_le (by omega),
      Number.nearest_of_natAbs_le (by omega)] at hmn
    obtain rfl := Option.some.inj hmn
    rw [Std.isLE_compare] at hle
    omega

/-- Values of an orderable type are ordered by a total preorder if none of them blurs others. -/
theorem sortOrder_totalPreorderOn_iff {S : Value → Prop} (hs : s.isOrderable = true)
    (hS : ∀ v, S v → v.StoredAs s) :
    TotalPreorderOn S sortOrder ↔ ∀ v w u, S v → S w → S u → ¬ Blurs v w u := by
  constructor
  · intro h v w u hv hw hu hblurs
    obtain ⟨hvw, hwu⟩ := hblurs.sortOrder_eq hs (hS v hv) (hS w hw) (hS u hu)
    have hvw : (v.sortOrder w).isLE = true := by rw [hvw]; rfl
    have hwu : (w.sortOrder u).isLE = true := by rw [hwu]; rfl
    exact (sortOrder_isLE_iff hs (hS v hv) (hS w hw) (hS u hu) hvw hwu).mp
      (h.trans hv hw hu hvw hwu) hblurs
  · intro h
    constructor
    · exact fun hv hw => sortOrder_swap hs (hS _ hv) (hS _ hw)
    · intro v w u hv hw hu hvw hwu
      exact (sortOrder_isLE_iff hs (hS v hv) (hS w hw) (hS u hu) hvw hwu).mpr (h v w u hv hw hu)

end Value

end EntityQuery
