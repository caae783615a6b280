import EntityQuery.Json.Printer
import EntityQuery.Proofs.Json.Digits

/-!
# Texts that are read back

The text of a document is read back as that document, whatever characters stand in its strings and
however deep it is nested. The reader has as much fuel as there are characters, and each step that it
takes leaves at least one of them behind.
-/

namespace EntityQuery.Json

/-! ## Strings -/

theorem toList_quote (s : String) : (quote s).toList = '"' :: (s.toList.flatMap escape ++ ['"']) := by
  simp [quote]

theorem escape_ne_nil (c : Char) : escape c ≠ [] := by
  fun_cases escape c <;> exact List.cons_ne_nil _ _

namespace Parser

theorem codeUnit?_digits {n : Nat} (h : n < 16 ^ 4) (cs : List Char) :
    codeUnit? (Hex.digits 4 n ++ cs) = some (n, cs) := by
  have hdigits : Hex.ofDigits? (Hex.digits 4 n) = some n := by
    rw [Hex.ofDigits?_digits, Nat.mod_eq_of_lt h]
  obtain ⟨a, b, c, d, heq⟩ : ∃ a b c d, Hex.digits 4 n = [a, b, c, d] := ⟨_, _, _, _, rfl⟩
  rw [heq] at hdigits ⊢
  show (Hex.ofDigits? [a, b, c, d]).map (·, cs) = _
  rw [hdigits]
  rfl

/-- However a character is written, it is read in one step. -/
theorem stringBody?_escape (c : Char) {fuel : Nat} {cs text rest : List Char}
    (h : stringBody? fuel cs = some (some text, rest)) :
    stringBody? (fuel + 1) (escape c ++ cs) = some (some (c :: text), rest) := by
  -- The cases are a quote, a backslash, any other control character, and what stands for itself.
  unfold escape
  split
  case isTrue hquote =>
    subst hquote
    show (stringBody? fuel cs).bind _ = _
    rw [h]
    rfl
  case isFalse hquote =>
    split
    case isTrue hbackslash =>
      subst hbackslash
      show (stringBody? fuel cs).bind _ = _
      rw [h]
      rfl
    case isFalse hbackslash =>
      split
      case isTrue hcontrol =>
        have hcode : codeUnit? (Hex.digits 4 c.toNat ++ cs) = some (c.toNat, cs) :=
          codeUnit?_digits (by omega) cs
        have hchar : character c.toNat cs = (some c, cs) := by
          rw [character, if_neg (by omega), if_neg (by omega), Char.ofNat_toNat]
        have hescaped : escaped? ('u' :: Hex.digits 4 c.toNat ++ cs) = some (some c, cs) := by
          show (codeUnit? (Hex.digits 4 c.toNat ++ cs)).map _ = _
          rw [hcode, ← hchar]
          rfl
        show (escaped? ('u' :: Hex.digits 4 c.toNat ++ cs)).bind _ = _
        rw [hescaped]
        show (stringBody? fuel cs).bind _ = _
        rw [h]
        rfl
      case isFalse hcontrol =>
        show stringBody? (fuel + 1) (c :: cs) = _
        rw [stringBody?, if_neg hquote, if_neg hbackslash, if_neg hcontrol, h]
        rfl

theorem stringBody?_quoted (text cs : List Char) {fuel : Nat}
    (h : (text.flatMap escape).length < fuel) :
    stringBody? fuel (text.flatMap escape ++ '"' :: cs) = some (some text, cs) := by
  induction text generalizing fuel with
  | nil =>
    obtain ⟨fuel, rfl⟩ : ∃ n, fuel = n + 1 := ⟨fuel - 1, by omega⟩
    rfl
  | cons c text ih =>
    obtain ⟨fuel, rfl⟩ : ∃ n, fuel = n + 1 := ⟨fuel - 1, by omega⟩
    have hc : 0 < (escape c).length := List.length_pos_iff.mpr (escape_ne_nil c)
    rw [List.flatMap_cons, List.length_append] at h
    rw [List.flatMap_cons, List.append_assoc]
    exact stringBody?_escape c (ih (by omega))

/-- A string is read back from between its quotes. -/
theorem string?_quote (s : String) (cs : List Char) :
    string? ((quote s).toList ++ cs) = some (some s, cs) := by
  rw [toList_quote, List.cons_append, List.append_assoc]
  show (stringBody? (s.toList.flatMap escape ++ '"' :: cs).length
    (s.toList.flatMap escape ++ '"' :: cs)).map _ = _
  rw [stringBody?_quoted s.toList cs (by rw [List.length_append, List.length_cons]; omega)]
  show some (some (String.ofList s.toList), cs) = _
  rw [String.ofList_toList]

end Parser

/-! ## Texts of documents -/

mutual

/-- A document whose integers have 64 bits, whose other numbers are written as numbers, and in which
nothing is unreadable. -/
def Plain (x : Json) : Prop :=
  match x with
  | null | bool _ | string _ => True
  | int n => Parser.IsWord n
  | number text => Parser.IsNumber text
  | unreadable => False
  | array xs => PlainArray xs
  | object members => PlainObject members
termination_by structural x

def PlainArray (xs : List Json) : Prop :=
  match xs with
  | [] => True
  | x :: xs => x.Plain ∧ PlainArray xs
termination_by structural xs

def PlainObject (members : List (String × Json)) : Prop :=
  match members with
  | [] => True
  | (_, x) :: members => x.Plain ∧ PlainObject members
termination_by structural members

end

theorem plainArray_iff {xs : List Json} : PlainArray xs ↔ ∀ x ∈ xs, x.Plain := by
  induction xs with
  | nil => exact iff_of_true trivial (by rintro x ⟨⟩)
  | cons x xs ih => rw [PlainArray, ih, List.forall_mem_cons]

/-- The elements of an array as they stand between its brackets. -/
@[irreducible]
def elementsText (xs : List Json) : List Char :=
  (",".intercalate (renderArray xs)).toList

def memberText (name : String) (x : Json) : List Char :=
  (quote name).toList ++ ':' :: x.render.toList

/-- The members of an object as they stand between its braces. -/
@[irreducible]
def membersText (members : List (String × Json)) : List Char :=
  (",".intercalate (renderObject members)).toList

theorem toList_render_array (xs : List Json) :
    (array xs).render.toList = '[' :: (elementsText xs ++ [']']) := by
  rw [render, String.toList_append, String.toList_append, elementsText]
  rfl

theorem toList_render_object (members : List (String × Json)) :
    (object members).render.toList = '\x7b' :: (membersText members ++ ['\x7d']) := by
  rw [render, String.toList_append, String.toList_append, membersText]
  rfl

theorem elementsText_singleton (x : Json) : elementsText [x] = x.render.toList := by
  rw [elementsText, renderArray, renderArray, String.intercalate_singleton]

theorem elementsText_cons_cons (x y : Json) (xs : List Json) :
    elementsText (x :: y :: xs) = x.render.toList ++ ',' :: elementsText (y :: xs) := by
  rw [elementsText, elementsText, renderArray, renderArray, String.intercalate_cons_cons,
    String.toList_append, String.toList_append, List.append_assoc]
  rfl

theorem membersText_singleton (name : String) (x : Json) :
    membersText [(name, x)] = memberText name x := by
  rw [membersText, renderObject, renderObject, String.intercalate_singleton]
  simp [memberText]

theorem membersText_cons_cons (name : String) (x : Json) (m : String × Json)
    (members : List (String × Json)) :
    membersText ((name, x) :: m :: members) =
      memberText name x ++ ',' :: membersText (m :: members) := by
  rw [membersText, membersText, renderObject, renderObject, String.intercalate_cons_cons]
  simp [memberText]

namespace Parser

/-! ## First characters -/

/-- What a number starts with is no blank, and starts and closes nothing else. -/
theorem ne_of_startsNumber {c : Char} (h : c = '-' ∨ c.isDigit = true) : isBlank c = false ∧
    c ≠ 'n' ∧ c ≠ 't' ∧ c ≠ 'f' ∧ c ≠ '"' ∧ c ≠ '[' ∧ c ≠ '\x7b' ∧ c ≠ ']' := by
  obtain rfl | hdigit := h
  · decide
  · have hne : ∀ other : Char, other.isDigit = false → c ≠ other := by
      rintro other hother rfl
      rw [hdigit] at hother
      cases hother
    refine ⟨?_, hne _ rfl, hne _ rfl, hne _ rfl, hne _ rfl, hne _ rfl, hne _ rfl, hne _ rfl⟩
    simp [isBlank, hne ' ' rfl, hne '\n' rfl, hne '\t' rfl, hne '\r' rfl]

theorem exists_render {x : Json} (hx : x.Plain) :
    ∃ c cs, x.render.toList = c :: cs ∧ isBlank c = false ∧ c ≠ ']' := by
  cases x with
  | null => exact ⟨'n', _, rfl, rfl, by decide⟩
  | bool b => cases b <;> exact ⟨_, _, rfl, rfl, by decide⟩
  | int n =>
    obtain ⟨c, cs, hcs, hc⟩ := exists_repr n
    obtain ⟨hblank, -, -, -, -, -, -, hclose⟩ := ne_of_startsNumber hc
    exact ⟨c, cs, hcs, hblank, hclose⟩
  | number text =>
    obtain ⟨⟨c, cs, hcs, hc⟩, -⟩ := hx
    obtain ⟨hblank, -, -, -, -, -, -, hclose⟩ := ne_of_startsNumber hc
    exact ⟨c, cs, hcs, hblank, hclose⟩
  | string s => exact ⟨'"', _, toList_quote s, rfl, by decide⟩
  | array xs => exact ⟨'[', _, toList_render_array xs, rfl, by decide⟩
  | object members => exact ⟨'\x7b', _, toList_render_object members, rfl, by decide⟩
  | unreadable => exact hx.elim

theorem exists_elementsText {xs : List Json} (hxs : PlainArray xs) (hne : xs ≠ []) :
    ∃ c cs, elementsText xs = c :: cs ∧ isBlank c = false ∧ c ≠ ']' := by
  match xs with
  | [] => exact absurd rfl hne
  | [x] =>
    rw [elementsText_singleton]
    exact exists_render hxs.1
  | x :: y :: ys =>
    obtain ⟨c, cs, hcs, hc⟩ := exists_render hxs.1
    exact ⟨c, cs ++ ',' :: elementsText (y :: ys), by rw [elementsText_cons_cons, hcs]; rfl, hc⟩

theorem exists_membersText {members : List (String × Json)} (hne : members ≠ []) :
    ∃ cs, membersText members = '"' :: cs := by
  match members with
  | [] => exact absurd rfl hne
  | [(name, x)] =>
    rw [membersText_singleton, memberText, toList_quote]
    exact ⟨_, rfl⟩
  | (name, x) :: m :: members =>
    rw [membersText_cons_cons, memberText, toList_quote]
    exact ⟨_, rfl⟩

/-! ## Single steps of the reader -/

theorem skipBlanks_cons {c : Char} (h : isBlank c = false) (cs : List Char) :
    skipBlanks (c :: cs) = c :: cs := by
  rw [skipBlanks, List.dropWhile_cons, h]
  rfl

theorem skipBlanks_quote (s : String) (cs : List Char) :
    skipBlanks ((quote s).toList ++ cs) = (quote s).toList ++ cs := by
  rw [toList_quote]
  exact skipBlanks_cons rfl _

theorem document?_number {c : Char} (h : c = '-' ∨ c.isDigit = true) (fuel : Nat) (cs : List Char) :
    document? (fuel + 1) (c :: cs) = number? (c :: cs) := by
  have hne := ne_of_startsNumber h
  rw [document?, skipBlanks_cons hne.1]
  split
  case h_7 => rfl
  -- All other documents start with a character that starts no number.
  all_goals
    rename_i heq
    obtain ⟨rfl, -⟩ := List.cons.inj heq
    simp at hne

theorem document?_quote (fuel : Nat) (s : String) (cs : List Char) :
    document? (fuel + 1) ((quote s).toList ++ cs) = some (string s, cs) := by
  have hs := string?_quote s cs
  rw [toList_quote, List.cons_append] at hs ⊢
  rw [document?, skipBlanks_cons rfl]
  show (string? _).map _ = _
  rw [hs]
  rfl

theorem document?_array {fuel : Nat} {xs ys : List Json} {cs rest : List Char} (hxs : PlainArray xs)
    (hne : xs ≠ []) (h : elements? fuel (elementsText xs ++ ']' :: cs) = some (ys, rest)) :
    document? (fuel + 1) ('[' :: (elementsText xs ++ ']' :: cs)) = some (array ys, rest) := by
  obtain ⟨c, text, htext, hblank, hclose⟩ := exists_elementsText hxs hne
  rw [htext, List.cons_append] at h ⊢
  rw [document?, skipBlanks_cons rfl]
  simp only
  rw [skipBlanks_cons hblank]
  -- No element starts with the bracket that closes an empty array.
  split
  next heq => exact absurd (List.cons.inj heq).1 hclose
  next => rw [h]; rfl

theorem document?_object {fuel : Nat} {ms ms' : List (String × Json)} {cs rest : List Char}
    (hne : ms ≠ []) (h : members? fuel (membersText ms ++ '\x7d' :: cs) = some (some ms', rest)) :
    document? (fuel + 1) ('\x7b' :: (membersText ms ++ '\x7d' :: cs)) = some (object ms', rest) := by
  obtain ⟨text, htext⟩ := exists_membersText hne
  rw [htext, List.cons_append] at h ⊢
  rw [document?, skipBlanks_cons rfl]
  simp only
  rw [skipBlanks_cons rfl]
  show (members? fuel ('"' :: (text ++ '\x7d' :: cs))).map _ = _
  rw [h]
  rfl

theorem elements?_last {fuel : Nat} {x : Json} {cs : List Char}
    (h : document? fuel (x.render.toList ++ ']' :: cs) = some (x, ']' :: cs)) :
    elements? (fuel + 1) (x.render.toList ++ ']' :: cs) = some ([x], cs) := by
  rw [elements?, h]
  rfl

theorem elements?_cons {fuel : Nat} {x : Json} {xs : List Json} {text cs : List Char}
    (h : document? fuel (x.render.toList ++ ',' :: text) = some (x, ',' :: text))
    (hxs : elements? fuel text = some (xs, cs)) :
    elements? (fuel + 1) (x.render.toList ++ ',' :: text) = some (x :: xs, cs) := by
  rw [elements?, h]
  show (elements? fuel text).bind _ = _
  rw [hxs]
  rfl

theorem members?_last {fuel : Nat} {name : String} {x : Json} {cs : List Char}
    (h : document? fuel (x.render.toList ++ '\x7d' :: cs) = some (x, '\x7d' :: cs)) :
    members? (fuel + 1) (memberText name x ++ '\x7d' :: cs) = some (some [(name, x)], cs) := by
  rw [memberText, List.append_assoc, members?, skipBlanks_quote, string?_quote]
  show (document? fuel (x.render.toList ++ '\x7d' :: cs)).bind _ = _
  rw [h]
  rfl

theorem members?_cons {fuel : Nat} {name : String} {x : Json} {members : List (String × Json)}
    {text cs : List Char}
    (h : document? fuel (x.render.toList ++ ',' :: text) = some (x, ',' :: text))
    (hmembers : members? fuel text = some (some members, cs)) :
    members? (fuel + 1) (memberText name x ++ ',' :: text) =
      some (some ((name, x) :: members), cs) := by
  rw [memberText, List.append_assoc, members?, skipBlanks_quote, string?_quote]
  show (document? fuel (x.render.toList ++ ',' :: text)).bind _ = _
  rw [h]
  show (members? fuel text).bind _ = _
  rw [hmembers]
  rfl

/-! ## Documents -/

mutual

/-- A document is read back from its text, which is fuel enough, and what stands behind it is left. -/
theorem document?_render (x : Json) (hx : x.Plain) (fuel : Nat)
    (hfuel : x.render.toList.length ≤ fuel) {cs : List Char} (hcs : Delimited cs) :
    document? fuel (x.render.toList ++ cs) = some (x, cs) := by
  -- A text has a first character, so there is fuel for one step; the rest is enough for the parts.
  obtain ⟨fuel, rfl⟩ : ∃ n, fuel = n + 1 := by
    obtain ⟨c, text, htext, -⟩ := exists_render hx
    rw [htext, List.length_cons] at hfuel
    exact ⟨fuel - 1, by omega⟩
  match x with
  | .null => rfl
  | .bool true => rfl
  | .bool false => rfl
  | .int n =>
    obtain ⟨c, text, htext, hc⟩ := exists_repr n
    have hn := number?_repr hx hcs
    show document? (fuel + 1) (n.repr.toList ++ cs) = _
    rw [htext] at hn ⊢
    exact (document?_number hc fuel _).trans hn
  | .number text =>
    obtain ⟨⟨c, text', htext, hc⟩, hread⟩ := hx
    have hn := hread cs hcs
    show document? (fuel + 1) (text.toList ++ cs) = _
    rw [htext] at hn ⊢
    exact (document?_number hc fuel _).trans hn
  | .string s => exact document?_quote fuel s cs
  | .array [] => rfl
  | .array (y :: ys) =>
    rw [toList_render_array, List.length_cons, List.length_append, List.length_singleton] at hfuel
    have hys := elements?_render (y :: ys) hx (List.cons_ne_nil _ _) fuel (by omega) cs
    rw [toList_render_array, List.cons_append, List.append_assoc]
    exact document?_array hx (List.cons_ne_nil _ _) hys
  | .object [] => rfl
  | .object ((name, y) :: members) =>
    rw [toList_render_object, List.length_cons, List.length_append, List.length_singleton] at hfuel
    have hmembers :=
      members?_render ((name, y) :: members) hx (List.cons_ne_nil _ _) fuel (by omega) cs
    rw [toList_render_object, List.cons_append, List.append_assoc]
    exact document?_object (List.cons_ne_nil _ _) hmembers
  | .unreadable => exact hx.elim
termination_by structural x

theorem elements?_render (xs : List Json) (hxs : PlainArray xs) (hne : xs ≠ []) (fuel : Nat)
    (hfuel : (elementsText xs).length < fuel) (cs : List Char) :
    elements? fuel (elementsText xs ++ ']' :: cs) = some (xs, cs) := by
  obtain ⟨fuel, rfl⟩ : ∃ n, fuel = n + 1 := ⟨fuel - 1, by omega⟩
  match xs with
  | [] => exact absurd rfl hne
  | [x] =>
    rw [elementsText_singleton] at hfuel ⊢
    exact elements?_last (document?_render x hxs.1 fuel (Nat.le_of_lt_succ hfuel)
      (.cons (.inr (.inl rfl)) cs))
  | x :: y :: ys =>
    rw [elementsText_cons_cons, List.length_append, List.length_cons] at hfuel
    have hx := document?_render x hxs.1 fuel (by omega)
      (.cons (.inl rfl) (elementsText (y :: ys) ++ ']' :: cs))
    have hys := elements?_render (y :: ys) hxs.2 (List.cons_ne_nil _ _) fuel (by omega) cs
    rw [elementsText_cons_cons, List.append_assoc]
    exact elements?_cons hx hys
termination_by structural xs

theorem members?_render (members : List (String × Json)) (hmembers : PlainObject members)
    (hne : members ≠ []) (fuel : Nat) (hfuel : (membersText members).length < fuel)
    (cs : List Char) :
    members? fuel (membersText members ++ '\x7d' :: cs) = some (some members, cs) := by
  -- Each member takes one step, and its text is shorter than that of all.
  obtain ⟨fuel, rfl⟩ : ∃ n, fuel = n + 1 := ⟨fuel - 1, by omega⟩
  match members with
  | [] => exact absurd rfl hne
  | [(name, x)] =>
    rw [membersText_singleton, memberText, List.length_append, List.length_cons] at hfuel
    have hx := document?_render x hmembers.1 fuel (by omega) (.cons (.inr (.inr rfl)) cs)
    rw [membersText_singleton]
    exact members?_last hx
  | (name, x) :: m :: members =>
    rw [membersText_cons_cons, memberText, List.length_append, List.length_append, List.length_cons,
      List.length_cons] at hfuel
    have hx := document?_render x hmembers.1 fuel (by omega)
      (.cons (.inl rfl) (membersText (m :: members) ++ '\x7d' :: cs))
    have hrest := members?_render (m :: members) hmembers.2 (List.cons_ne_nil _ _) fuel (by omega) cs
    rw [membersText_cons_cons, List.append_assoc]
    exact members?_cons hx hrest
termination_by structural members

end

end Parser

/-- A document is read back from its text. -/
theorem ofText?_render {x : Json} (hx : x.Plain) : ofText? x.render = some x := by
  have hend : Parser.Delimited [] := by rintro c ⟨⟩
  have hread := Parser.document?_render x hx (x.render.toList.length + 1) (Nat.le_succ _) hend
  rw [List.append_nil] at hread
  show (Parser.document? (x.render.toList.length + 1) x.render.toList).bind _ = _
  rw [hread]
  rfl

/-- A text that is nested too deep is not read as a whole. -/
theorem ofNestedText?_render {x : Json} (hx : x.Plain) :
    ofNestedText? x.render = if x.depth ≤ nestingLimit then some x else none := by
  rw [ofNestedText?, ofText?_render hx]
  split
  case isTrue h => exact if_pos (decide_eq_true h)
  case isFalse h => exact if_neg (by simpa using h)

/-- What is read back is told apart by what is written for it. -/
theorem write_ne {α β : Type} {read : β → Option α} {write : α → β} {a b : α}
    (ha : read (write a) = some a) (hb : read (write b) = some b) (hne : a ≠ b) :
    write a ≠ write b := by
  intro heq
  rw [heq, hb] at ha
  exact hne (Option.some.inj ha).symm

theorem render_ne {x y : Json} (hx : x.Plain) (hy : y.Plain) (hne : x ≠ y) : x.render ≠ y.render :=
  write_ne (ofText?_render hx) (ofText?_render hy) hne

end EntityQuery.Json
