import EntityQuery.Like
import Mathlib.Data.List.Forall2
import Mathlib.Logic.ExistsUnique

/-!
# What patterns stand for

A pattern spells a list of tokens, and a text is like it if the text can be cut into pieces, one for
each token in order. The matcher takes the pattern token by token and tries every end of a run, so it
finds such a cut if there is one. Only a pattern that ends in a backslash with nothing behind it spells
no tokens, and no text is like it.
-/

namespace EntityQuery.Like

/-! ## Tokens -/

/-- What a part of a pattern stands for. -/
inductive Token where
  /-- Any run of characters, also the empty one. -/
  | run
  /-- One character, whichever it is. -/
  | one
  /-- A character that stands for itself. -/
  | char (c : Char)

namespace Token

/-- How a token is written in a pattern. Behind a backslash every character stands for itself. -/
inductive WrittenAs : Token → List Char → Prop
  | run : WrittenAs run ['%']
  | one : WrittenAs one ['_']
  | escaped (c : Char) : WrittenAs (char c) ['\\', c]
  | char {c : Char} : c ≠ '%' → c ≠ '_' → c ≠ '\\' → WrittenAs (char c) [c]

/-- The pieces of text that a token stands for. -/
def StandsFor : Token → List Char → Prop
  | run, _ => True
  | one, piece => piece.length = 1
  | char c, piece => piece = [c]

/-- No way to write a token is the beginning of another. -/
theorem WrittenAs.eq_of_append {t t' : Token} {part part' rest rest' : List Char}
    (h : t.WrittenAs part) (h' : t'.WrittenAs part') (heq : part ++ rest = part' ++ rest') :
    t = t' ∧ rest = rest' := by
  -- The first character tells the ways to write a token apart.
  cases h <;> cases h' <;> grind

theorem WrittenAs.append_ne {t : Token} {part : List Char} (h : t.WrittenAs part)
    (rest : List Char) : part ++ rest ≠ ['\\'] := by
  intro heq
  cases h with
  | run | one | escaped => cases heq
  | char _ _ hescape => exact hescape (List.head_eq_of_cons_eq heq)

end Token

/-- A text in pieces, one for each token in order. -/
def Splits (R : Token → List Char → Prop) (tokens : List Token) (text : List Char) : Prop :=
  ∃ pieces, List.Forall₂ R tokens pieces ∧ pieces.flatten = text

section Splits

variable {R : Token → List Char → Prop} {tokens : List Token} {text : List Char}

theorem splits_nil : Splits R [] text ↔ text = [] := by
  constructor
  · rintro ⟨pieces, hpieces, rfl⟩
    cases hpieces
    rfl
  · rintro rfl
    exact ⟨[], .nil, rfl⟩

theorem splits_cons {t : Token} :
    Splits R (t :: tokens) text ↔
      ∃ piece rest, R t piece ∧ Splits R tokens rest ∧ piece ++ rest = text := by
  constructor
  · rintro ⟨pieces, hpieces, rfl⟩
    cases hpieces with
    | @cons _ piece _ pieces hpiece hpieces =>
      exact ⟨piece, pieces.flatten, hpiece, ⟨pieces, hpieces, rfl⟩, rfl⟩
  · rintro ⟨piece, rest, hpiece, ⟨pieces, hpieces, rfl⟩, rfl⟩
    exact ⟨piece :: pieces, .cons hpiece hpieces, rfl⟩

end Splits

/-! ## Patterns as tokens -/

/-- A pattern whose last character is a backslash that escapes nothing and is not escaped. -/
def EndsOpen (pattern : List Char) : Prop :=
  ∃ front tokens, Splits Token.WrittenAs tokens front ∧ pattern = front ++ ['\\']

/-- A pattern that is not empty begins with a token, unless it is a lone backslash. -/
theorem exists_writtenAs (c : Char) (pattern : List Char) :
    c :: pattern = ['\\'] ∨ ∃ (t : Token) (part rest : List Char),
      t.WrittenAs part ∧ c :: pattern = part ++ rest ∧ rest.length ≤ pattern.length := by
  by_cases hrun : c = '%'
  · subst hrun
    exact .inr ⟨.run, _, pattern, .run, rfl, Nat.le_refl _⟩
  by_cases hone : c = '_'
  · subst hone
    exact .inr ⟨.one, _, pattern, .one, rfl, Nat.le_refl _⟩
  by_cases hescape : c = '\\'
  · subst hescape
    cases pattern with
    | nil => exact .inl rfl
    | cons d rest => exact .inr ⟨.char d, _, rest, .escaped d, rfl, Nat.le_succ _⟩
  · exact .inr ⟨.char c, _, pattern, .char hrun hone hescape, rfl, Nat.le_refl _⟩

/-- Only a lone backslash at the end keeps a pattern from spelling tokens. -/
theorem exists_tokens (pattern : List Char) :
    (∃ tokens, Splits Token.WrittenAs tokens pattern) ∨ EndsOpen pattern := by
  match pattern with
  | [] => exact .inl ⟨[], splits_nil.mpr rfl⟩
  | c :: pattern =>
    rcases exists_writtenAs c pattern with hlone | ⟨t, part, rest, ht, heq, hlength⟩
    · exact .inr ⟨[], [], splits_nil.mpr rfl, hlone⟩
    · rw [heq]
      rcases exists_tokens rest with ⟨tokens, h⟩ | ⟨front, tokens, h, rfl⟩
      · exact .inl ⟨t :: tokens, splits_cons.mpr ⟨part, rest, ht, h, rfl⟩⟩
      · refine .inr ⟨part ++ front, t :: tokens, splits_cons.mpr ⟨part, front, ht, h, rfl⟩, ?_⟩
        rw [List.append_assoc]
termination_by pattern.length

/-- The tokens of a pattern are the only ones that it spells. -/
theorem tokens_unique {tokens tokens' : List Token} {pattern : List Char}
    (h : Splits Token.WrittenAs tokens pattern) (h' : Splits Token.WrittenAs tokens' pattern) :
    tokens = tokens' := by
  induction tokens generalizing tokens' pattern with
  | nil =>
    obtain rfl := splits_nil.mp h
    cases tokens' with
    | nil => rfl
    | cons t' tokens' =>
      obtain ⟨part', rest', ht', -, heq⟩ := splits_cons.mp h'
      cases ht' <;> cases heq
  | cons t tokens ih =>
    obtain ⟨part, rest, ht, hrest, rfl⟩ := splits_cons.mp h
    cases tokens' with
    | nil =>
      have heq := splits_nil.mp h'
      cases ht <;> cases heq
    | cons t' tokens' =>
      obtain ⟨part', rest', ht', hrest', heq⟩ := splits_cons.mp h'
      -- Two tokens that begin one text are the same and take the same part of it.
      obtain ⟨rfl, rfl⟩ := ht.eq_of_append ht' heq.symm
      rw [ih hrest hrest']

/-- What ends in a lone backslash spells no tokens. -/
theorem EndsOpen.not_splits {pattern : List Char} (h : EndsOpen pattern) (tokens : List Token) :
    ¬ Splits Token.WrittenAs tokens pattern := by
  obtain ⟨front, before, hfront, rfl⟩ := h
  induction before generalizing front tokens with
  | nil =>
    obtain rfl := splits_nil.mp hfront
    intro htokens
    cases tokens with
    | nil => cases splits_nil.mp htokens
    | cons t tokens =>
      -- A token that begins with a backslash takes one character more, and there is none.
      obtain ⟨part, rest, ht, -, heq⟩ := splits_cons.mp htokens
      exact ht.append_ne rest heq
  | cons t before ih =>
    obtain ⟨part, rest, ht, hrest, rfl⟩ := splits_cons.mp hfront
    intro htokens
    cases tokens with
    | nil =>
      have hnil := splits_nil.mp htokens
      cases ht <;> cases hnil
    | cons t' tokens =>
      obtain ⟨part', rest', ht', hrest', heq⟩ := splits_cons.mp htokens
      rw [List.append_assoc] at heq
      -- The first tokens are the same, so the lone backslash is behind both.
      obtain ⟨-, rfl⟩ := ht'.eq_of_append ht heq
      exact ih tokens rest hrest hrest'

/-! ## Matching -/

theorem anySuffix_iff {test : List Char → Bool} {text : List Char} :
    anySuffix test text = true ↔ ∃ piece rest, test rest = true ∧ piece ++ rest = text := by
  induction text with
  | nil =>
    simp [anySuffix]
  | cons c text ih =>
    rw [anySuffix, Bool.or_eq_true, ih]
    constructor
    · rintro (h | ⟨piece, rest, h, rfl⟩)
      · exact ⟨[], c :: text, h, rfl⟩
      · exact ⟨c :: piece, rest, h, rfl⟩
    · rintro ⟨piece, rest, h, heq⟩
      cases piece with
      | nil => exact .inl (heq ▸ h)
      | cons d piece =>
        cases heq
        exact .inr ⟨piece, rest, h, rfl⟩

/-- The matcher takes one token at a time: the text begins with a piece that the token stands for. -/
theorem fits_writtenAs {t : Token} {part : List Char} (h : t.WrittenAs part)
    (pattern text : List Char) :
    fits (part ++ pattern) text = true ↔
      ∃ piece rest, t.StandsFor piece ∧ fits pattern rest = true ∧ piece ++ rest = text := by
  cases h with
  | run =>
    show anySuffix (fits pattern) text = true ↔ _
    simp only [anySuffix_iff, Token.StandsFor, true_and]
  | one =>
    cases text with
    | nil => simp [fits, Token.StandsFor]
    | cons d text => simp [fits, Token.StandsFor, List.length_eq_one_iff]
  | escaped c =>
    cases text with
    | nil => simp [fits, Token.StandsFor]
    | cons d text => simp [fits, Token.StandsFor, and_comm]
  | @char c hrun hone hescape =>
    cases text with
    | nil => simp [fits, Token.StandsFor, hescape]
    | cons d text => simp [fits, Token.StandsFor, hescape, and_comm]

/-- A text fits a pattern if it splits as the tokens of the pattern ask. -/
theorem fits_iff {tokens : List Token} {pattern : List Char}
    (h : Splits Token.WrittenAs tokens pattern) (text : List Char) :
    fits pattern text = true ↔ Splits Token.StandsFor tokens text := by
  induction tokens generalizing pattern text with
  | nil =>
    obtain rfl := splits_nil.mp h
    rw [fits, splits_nil, List.isEmpty_iff]
  | cons t tokens ih =>
    obtain ⟨part, rest, ht, hrest, rfl⟩ := splits_cons.mp h
    rw [fits_writtenAs ht, splits_cons]
    simp only [ih hrest]

/-- Nothing fits a pattern that ends in a lone backslash. -/
theorem EndsOpen.fits_eq_false {pattern : List Char} (h : EndsOpen pattern) (text : List Char) :
    fits pattern text = false := by
  obtain ⟨front, tokens, hfront, rfl⟩ := h
  induction tokens generalizing front text with
  | nil =>
    obtain rfl := splits_nil.mp hfront
    rfl
  | cons t tokens ih =>
    obtain ⟨part, rest, ht, hrest, rfl⟩ := splits_cons.mp hfront
    rw [List.append_assoc, Bool.eq_false_iff]
    intro hfits
    obtain ⟨piece, text', -, htext', -⟩ := (fits_writtenAs ht _ text).mp hfits
    rw [ih text' rest hrest] at htext'
    cases htext'

/-- A string is like a pattern if it can be cut into pieces for the tokens that the pattern spells. A
pattern spells one list of tokens, unless it ends in a lone backslash, and then no string is like it. -/
theorem holds_correct (pattern text : String) :
    (holds pattern text = true ↔ ∃ tokens, Splits Token.WrittenAs tokens pattern.toList ∧
      Splits Token.StandsFor tokens text.toList) ∧
    ((∃! tokens, Splits Token.WrittenAs tokens pattern.toList) ↔ ¬ EndsOpen pattern.toList) ∧
    (EndsOpen pattern.toList → holds pattern text = false) := by
  refine ⟨⟨fun h => ?_, ?_⟩, ⟨?_, fun h => ?_⟩, fun h => h.fits_eq_false text.toList⟩
  · rcases exists_tokens pattern.toList with ⟨tokens, htokens⟩ | hopen
    · exact ⟨tokens, htokens, (fits_iff htokens text.toList).mp h⟩
    · exact absurd h (Bool.eq_false_iff.mp (hopen.fits_eq_false text.toList))
  · rintro ⟨tokens, htokens, htext⟩
    exact (fits_iff htokens text.toList).mpr htext
  · rintro ⟨tokens, htokens, -⟩ hopen
    exact hopen.not_splits tokens htokens
  · obtain ⟨tokens, htokens⟩ := (exists_tokens pattern.toList).resolve_right h
    exact ⟨tokens, htokens, fun _ h' => tokens_unique h' htokens⟩

/-- A backslash after an escaped one escapes nothing, but a percent sign is escaped by it. -/
theorem holds_correct_escaped :
    EndsOpen "%\\\\\\".toList ∧ holds "%\\\\\\" "50\\" = false ∧
      holds "%\\\\\\%_%" "50\\% off" = true := by
  have hopen : EndsOpen "%\\\\\\".toList :=
    ⟨['%', '\\', '\\'], [.run, .char '\\'],
      ⟨[['%'], ['\\', '\\']], .cons .run (.cons (.escaped _) .nil), rfl⟩, by decide⟩
  have hpattern : Splits Token.WrittenAs [.run, .char '\\', .char '%', .one, .run]
      "%\\\\\\%_%".toList :=
    ⟨[['%'], ['\\', '\\'], ['\\', '%'], ['_'], ['%']],
      .cons .run (.cons (.escaped _) (.cons (.escaped _) (.cons .one (.cons .run .nil)))), by decide⟩
  have htext : Splits Token.StandsFor [.run, .char '\\', .char '%', .one, .run]
      "50\\% off".toList :=
    ⟨[['5', '0'], ['\\'], ['%'], [' '], ['o', 'f', 'f']],
      .cons trivial (.cons rfl (.cons rfl (.cons rfl (.cons trivial .nil)))), by decide⟩
  exact ⟨hopen, (holds_correct _ "50\\").2.2 hopen, (holds_correct _ _).1.mpr ⟨_, hpattern, htext⟩⟩

end EntityQuery.Like
