import EntityQuery.Json.Parser
import Mathlib

/-!
# Digits that are read back

Hexadecimal digits of a fixed number denote the number that they were written for, and so do decimal
digits with nothing else behind them that a number could go on with.
-/

namespace EntityQuery

/-! ## Hexadecimal digits -/

namespace Hex

theorem value?_digit {n : Nat} (h : n < 16) : value? (digit n) = some n := by
  have hall : ∀ n < 16, value? (digit n) = some n := by decide
  exact hall n h

theorem length_digits (count n : Nat) : (digits count n).length = count := by
  induction count generalizing n with
  | zero => rfl
  | succ count ih =>
    rw [digits, List.length_append, ih]
    rfl

theorem ofDigits?_append (cs : List Char) (c : Char) :
    ofDigits? (cs ++ [c]) = (ofDigits? cs).bind fun n => (value? c).map (16 * n + ·) := by
  rw [ofDigits?, List.foldlM_append]
  simp [ofDigits?]

theorem ofDigits?_digits (count n : Nat) : ofDigits? (digits count n) = some (n % 16 ^ count) := by
  induction count generalizing n with
  | zero => rw [Nat.pow_zero, Nat.mod_one]; rfl
  | succ count ih =>
    rw [digits, ofDigits?_append, ih, value?_digit (Nat.mod_lt n (by decide))]
    show some (16 * (n / 16 % 16 ^ count) + n % 16) = some (n % 16 ^ (count + 1))
    rw [Nat.pow_succ', Nat.mod_mul, Nat.add_comm]

/-- A number that has so many digits is read back from them. -/
theorem read?_digits {count n : Nat} (h : n < 16 ^ count) :
    read? count (String.ofList (digits count n)) = some n := by
  have hlength : (String.ofList (digits count n)).length = count := by
    rw [String.length_ofList, length_digits]
  rw [read?, if_pos hlength, String.toList_ofList, ofDigits?_digits, Nat.mod_eq_of_lt h]

end Hex

namespace Json.Parser

/-! ## Decimal digits -/

theorem natOfDigits_toDigits (n : Nat) : natOfDigits (Nat.toDigits 10 n) = n :=
  Nat.ofDigitChars_ten_toDigits

theorem head?_toDigits {n : Nat} (hn : n ≠ 0) : ∀ c ∈ (Nat.toDigits 10 n).head?, c ≠ '0' := by
  induction n using Nat.strongRecOn with
  | _ n ih =>
    obtain hsmall | hlarge := Nat.lt_or_ge n 10
    · have hall : ∀ n < 10, n ≠ 0 → n.digitChar ≠ '0' := by decide
      rw [Nat.toDigits_of_lt_base hsmall]
      rintro c ⟨⟩
      exact hall n hsmall hn
    · have hsome : (Nat.toDigits 10 (n / 10)).head?.isSome = true :=
        List.isSome_head?.mpr Nat.toDigits_ne_nil
      rw [Nat.toDigits_of_base_le (by decide) hlarge, List.head?_append, Option.or_of_isSome hsome]
      exact ih (n / 10) (by omega) (by omega)

/-- A number is written as a digit and more of them; the first is a zero only for zero itself. -/
theorem exists_toDigits (n : Nat) :
    ∃ d ds, Nat.toDigits 10 n = d :: ds ∧ d.isDigit = true ∧ (n ≠ 0 → d ≠ '0') := by
  have hdigit : ∀ c ∈ Nat.toDigits 10 n, c.isDigit = true :=
    fun c hc => Nat.isDigit_of_mem_toDigits (by decide) (by decide) hc
  have hhead := @head?_toDigits n
  cases hds : Nat.toDigits 10 n with
  | nil => exact absurd hds Nat.toDigits_ne_nil
  | cons d ds =>
    rw [hds] at hdigit hhead
    exact ⟨d, ds, rfl, hdigit d List.mem_cons_self, fun hn => hhead hn d rfl⟩

theorem digits?_toDigits (n : Nat) {cs : List Char} (hcs : ∀ c ∈ cs.head?, c.isDigit = false) :
    digits? (Nat.toDigits 10 n ++ cs) = some (Nat.toDigits 10 n, cs) := by
  have hdigit : ∀ c ∈ Nat.toDigits 10 n, c.isDigit = true :=
    fun c hc => Nat.isDigit_of_mem_toDigits (by decide) (by decide) hc
  have hrest : cs.takeWhile Char.isDigit = [] ∧ cs.dropWhile Char.isDigit = cs := by
    cases cs with
    | nil => exact ⟨rfl, rfl⟩
    | cons c cs => simp [hcs c rfl]
  have hspan : (Nat.toDigits 10 n ++ cs).span Char.isDigit = (Nat.toDigits 10 n, cs) := by
    rw [List.span_eq_takeWhile_dropWhile, List.takeWhile_append_of_pos hdigit,
      List.dropWhile_append_of_pos hdigit, hrest.1, hrest.2, List.append_nil]
  obtain ⟨d, ds, hds, -⟩ := exists_toDigits n
  rw [digits?, hspan, hds]

theorem wholePart?_toDigits (n : Nat) {cs : List Char} (hcs : ∀ c ∈ cs.head?, c.isDigit = false) :
    wholePart? (Nat.toDigits 10 n ++ cs) = some (Nat.toDigits 10 n, cs) := by
  by_cases hn : n = 0
  · subst hn
    cases cs with
    | nil => rfl
    | cons c cs =>
      show (if c.isDigit then none else some (['0'], c :: cs)) = _
      rw [if_neg (by rw [hcs c rfl]; decide)]
      rfl
  · obtain ⟨d, ds, hds, -, hzero⟩ := exists_toDigits n
    have hdigits := digits?_toDigits n hcs
    rw [hds] at hdigits ⊢
    rw [List.cons_append, wholePart?]
    · exact hdigits
    · rintro c cs' heq
      exact hzero hn (List.cons.inj heq).1

/-! ## Numbers -/

/-- Behind a document stands nothing, or the comma or the bracket of what the document is in. -/
def Delimited (cs : List Char) : Prop :=
  ∀ c ∈ cs.head?, c = ',' ∨ c = ']' ∨ c = '\x7d'

namespace Delimited

variable {cs : List Char}

theorem cons {c : Char} (h : c = ',' ∨ c = ']' ∨ c = '\x7d') (cs : List Char) :
    Delimited (c :: cs) := by
  rintro _ ⟨⟩
  exact h

/-- No number goes on there. -/
theorem ends (h : Delimited cs) {c : Char} (hc : c ∈ cs.head?) :
    c.isDigit = false ∧ c ≠ '.' ∧ c ≠ 'e' ∧ c ≠ 'E' := by
  rcases h c hc with rfl | rfl | rfl <;> decide

theorem fraction? (h : Delimited cs) : fraction? cs = some ([], cs) := by
  cases cs with
  | nil => rfl
  | cons c cs =>
    rw [Parser.fraction?]
    rintro _ heq
    exact (h.ends rfl).2.1 (List.cons.inj heq).1

theorem exponent? (h : Delimited cs) : exponent? cs = some ([], cs) := by
  cases cs with
  | nil => rfl
  | cons c cs =>
    rw [Parser.exponent?]
    · rintro _ heq
      exact (h.ends rfl).2.2.1 (List.cons.inj heq).1
    · rintro _ heq
      exact (h.ends rfl).2.2.2 (List.cons.inj heq).1

end Delimited

theorem unsigned?_toDigits (negative : Bool) (n : Nat) {cs : List Char} (hcs : Delimited cs) :
    unsigned? negative (Nat.toDigits 10 n ++ cs) =
      some (numberOf negative (Nat.toDigits 10 n) [] [], cs) := by
  have hwhole := wholePart?_toDigits n fun c hc => (hcs.ends hc).1
  simp [unsigned?, hwhole, hcs.fraction?, hcs.exponent?]

/-- A number as a text has it that is read as it is written, whatever document stands behind it. -/
def IsNumber (text : String) : Prop :=
  (∃ c cs, text.toList = c :: cs ∧ (c = '-' ∨ c.isDigit = true)) ∧
    ∀ cs, Delimited cs → number? (text.toList ++ cs) = some (.number text, cs)

/-- The integers of 64 bits, with or without a sign. -/
def IsWord (n : Int) : Prop :=
  -0x8000000000000000 ≤ n ∧ n < 0x10000000000000000

theorem toList_repr_negSucc (n : Nat) :
    (Int.negSucc n).repr.toList = '-' :: Nat.toDigits 10 (n + 1) := by
  show ("-" ++ (n + 1).repr).toList = _
  rw [String.toList_append, Nat.toList_repr]
  rfl

theorem exists_repr (n : Int) :
    ∃ c cs, n.repr.toList = c :: cs ∧ (c = '-' ∨ c.isDigit = true) := by
  cases n with
  | ofNat n =>
    obtain ⟨d, ds, hds, hdigit, -⟩ := exists_toDigits n
    exact ⟨d, ds, Nat.toList_repr.trans hds, .inr hdigit⟩
  | negSucc n => exact ⟨'-', _, toList_repr_negSucc n, .inl rfl⟩

/-- An integer of 64 bits is read back from its digits. -/
theorem number?_repr {n : Int} (h : IsWord n) {cs : List Char} (hcs : Delimited cs) :
    number? (n.repr.toList ++ cs) = some (.int n, cs) := by
  obtain ⟨hlow, hhigh⟩ := h
  cases n with
  | ofNat n =>
    rw [Int.ofNat_eq_natCast] at hhigh
    have hnumber : numberOf false (Nat.toDigits 10 n) [] [] = .int n := by
      rw [numberOf, natOfDigits_toDigits]
      exact if_pos (decide_eq_true (by omega))
    have hunsigned := unsigned?_toDigits false n hcs
    obtain ⟨d, ds, hds, hdigit, -⟩ := exists_toDigits n
    rw [hnumber, hds] at hunsigned
    show number? (n.repr.toList ++ cs) = _
    rw [Nat.toList_repr, hds, List.cons_append, number?]
    · exact hunsigned
    · rintro cs' heq
      rw [(List.cons.inj heq).1] at hdigit
      cases hdigit
  | negSucc n =>
    -- The reader counts no zero with a sign among the integers, and none is written.
    have hnumber : numberOf true (Nat.toDigits 10 (n + 1)) [] [] = .int (Int.negSucc n) := by
      rw [numberOf, natOfDigits_toDigits]
      exact (if_neg Bool.false_ne_true).trans (if_pos (by simp; omega))
    rw [toList_repr_negSucc]
    show unsigned? true (Nat.toDigits 10 (n + 1) ++ cs) = _
    rw [unsigned?_toDigits true (n + 1) hcs, hnumber]

end Json.Parser

end EntityQuery
