import EntityQuery.Body.Statement
import Mathlib.Data.List.Forall2

/-!
# Properties of combined statements

What holds of every clause and is kept by both connectives holds of the condition that statements make
up. The same goes for relations between two kinds of clauses.
-/

namespace EntityQuery.Statement

variable {α β : Type}

theorem clause_of_mem_tagFrom {next : Connective} {statements : List (Statement α)}
    {x : Connective × α} (h : x ∈ tagFrom next statements) : .clause x.2 ∈ statements := by
  induction statements generalizing next with
  | nil => cases h
  | cons statement rest ih =>
    cases statement with
    | or => exact List.mem_cons_of_mem _ (ih h)
    | clause c =>
      rcases List.mem_cons.mp h with rfl | h
      · exact List.mem_cons_self
      · exact List.mem_cons_of_mem _ (ih h)

/-- What both connectives keep holds of a condition if it holds of the clauses in it. -/
theorem combine_induction {P : α → Prop} {and or : α → α → α}
    (hand : ∀ a b, P a → P b → P (and a b)) (hor : ∀ a b, P a → P b → P (or a b))
    {statements : List (Statement α)} (hclauses : ∀ c, .clause c ∈ statements → P c) {c : α}
    (h : combine and or statements = some c) : P c := by
  -- The fold keeps the property from its first clause on.
  have hfold : ∀ (rest : List (Connective × α)) (c : α), P c → (∀ x ∈ rest, P x.2) →
      P (rest.foldl (link and or) c) := by
    intro rest
    induction rest with
    | nil => exact fun c hc _ => hc
    | cons x rest ih =>
      intro c hc hrest
      refine ih _ ?_ fun y hy => hrest y (List.mem_cons_of_mem _ hy)
      have hx := hrest x List.mem_cons_self
      obtain ⟨_ | _, d⟩ := x
      · exact hand c d hc hx
      · exact hor c d hc hx
  have htag : ∀ x ∈ tag statements, P x.2 := fun x hx =>
    hclauses x.2 (clause_of_mem_tagFrom hx)
  unfold combine fold at h
  split at h
  · cases h
  · rename_i first rest heq
    cases h
    rw [heq] at htag
    exact hfold rest _ (htag _ List.mem_cons_self) fun x hx => htag x (List.mem_cons_of_mem _ hx)

/-- Statements whose clauses are related. -/
inductive Rel (R : α → β → Prop) : Statement α → Statement β → Prop
  | or : Rel R .or .or
  | clause {a : α} {b : β} : R a b → Rel R (.clause a) (.clause b)

/-- Clauses of two lists that are related by what both connectives keep. -/
theorem combine_rel {R : α → β → Prop} {and or : α → α → α} {and' or' : β → β → β}
    (hand : ∀ a b a' b', R a b → R a' b' → R (and a a') (and' b b'))
    (hor : ∀ a b a' b', R a b → R a' b' → R (or a a') (or' b b'))
    {xs : List (Statement α)} {ys : List (Statement β)} (h : List.Forall₂ (Rel R) xs ys) :
    Option.Rel R (combine and or xs) (combine and' or' ys) := by
  -- Markers stand at the same places, so related clauses have the same connectives.
  have htag : ∀ next, List.Forall₂ (fun x y => x.1 = y.1 ∧ R x.2 y.2) (tagFrom next xs)
      (tagFrom next ys) := by
    induction h with
    | nil => exact fun _ => .nil
    | cons hxy _ ih =>
      intro next
      cases hxy with
      | or => exact ih .or
      | clause hab => exact .cons ⟨rfl, hab⟩ (ih .and)
  have hfold : ∀ {rest rest'} {a : α} {b : β}, R a b →
      List.Forall₂ (fun x y => x.1 = y.1 ∧ R x.2 y.2) rest rest' →
      R (rest.foldl (link and or) a) (rest'.foldl (link and' or') b) := by
    intro rest rest' a b hab hrest
    induction hrest generalizing a b with
    | nil => exact hab
    | @cons x y _ _ hxy _ ih =>
      refine ih ?_
      obtain ⟨connective, a'⟩ := x
      obtain ⟨connective', b'⟩ := y
      obtain ⟨rfl, hab'⟩ := hxy
      cases connective with
      | and => exact hand a b a' b' hab hab'
      | or => exact hor a b a' b' hab hab'
  have hboth := htag .and
  unfold combine tag
  generalize tagFrom .and xs = tagged at hboth
  generalize tagFrom .and ys = tagged' at hboth
  cases hboth with
  | nil => exact .none
  | cons hxy hrest => exact .some (hfold hxy.2 hrest)

end EntityQuery.Statement
