import EntityQuery.Proofs.Evaluation.Outcomes
import Mathlib.Data.List.Perm.Basic

/-!
# Lists up to order

Results whose order is not fixed are compared element by element once one side is reordered, so each
element counts as often as it stands there.
-/

namespace EntityQuery

/-- Lists whose elements are related one by one, once those of the first are reordered. -/
def Matched {α β : Type} (R : α → β → Prop) (xs : List α) (ys : List β) : Prop :=
  ∃ between, xs.Perm between ∧ List.Forall₂ R between ys

namespace Matched

variable {α β γ δ ε : Type} {R : α → β → Prop} {S : γ → δ → Prop} {xs xs' : List α}
  {ys ys' : List β}

theorem perm_left (h : Matched R xs ys) (hperm : xs.Perm xs') : Matched R xs' ys := by
  obtain ⟨between, hbetween, hys⟩ := h
  exact ⟨between, hperm.symm.trans hbetween, hys⟩

theorem perm_right (h : Matched R xs ys) (hperm : ys.Perm ys') : Matched R xs ys' := by
  obtain ⟨between, hbetween, hys⟩ := h
  obtain ⟨again, hagain, hys'⟩ : Relation.Comp List.Perm (List.Forall₂ R) between ys' := by
    rw [← List.forall₂_comp_perm_eq_perm_comp_forall₂]
    exact ⟨ys, hys, hperm⟩
  exact ⟨again, hbetween.trans hagain, hys'⟩

/-- Lists that match by equality have the same elements, each as often. -/
theorem perm_of_eq {T : α → α → Prop} {zs : List α} (h : Matched T xs zs)
    (heq : ∀ x y, T x y → x = y) : xs.Perm zs := by
  obtain ⟨between, hbetween, hzs⟩ := h
  have hsame : List.Forall₂ Eq between zs := hzs.imp heq
  rw [List.forall₂_eq_eq_eq] at hsame
  rwa [hsame] at hbetween

/-- Lists with the same images, each as often, match by their images. -/
theorem of_map {f : α → γ} {g : β → γ} (h : (xs.map f).Perm (ys.map g)) :
    Matched (fun x y => f x = g y) xs ys := by
  have hmap : Matched (fun x z => f x = z) xs (xs.map f) := by
    refine ⟨xs, .refl xs, ?_⟩
    rw [List.forall₂_map_right_iff]
    exact List.forall₂_same.mpr fun x _ => rfl
  obtain ⟨between, hbetween, hys⟩ := hmap.perm_right h
  exact ⟨between, hbetween, List.forall₂_map_right_iff.mp hys⟩

theorem map {f : α → γ} {g : β → δ} (h : Matched R xs ys) (hfg : ∀ x y, R x y → S (f x) (g y)) :
    Matched S (xs.map f) (ys.map g) := by
  obtain ⟨between, hbetween, hys⟩ := h
  refine ⟨between.map f, hbetween.map f, ?_⟩
  rw [List.forall₂_map_left_iff, List.forall₂_map_right_iff]
  exact hys.imp hfg

theorem filter {p : α → Bool} {q : β → Bool} (h : Matched R xs ys)
    (hpq : ∀ x y, R x y → p x = q y) : Matched R (xs.filter p) (ys.filter q) := by
  obtain ⟨between, hbetween, hys⟩ := h
  refine ⟨between.filter p, hbetween.filter p, ?_⟩
  clear hbetween
  induction hys with
  | nil => exact .nil
  | @cons x y _ _ hxy _ ih =>
    rw [List.filter_cons, List.filter_cons, hpq x y hxy]
    split
    · exact .cons hxy ih
    · exact ih

/-- Results for the elements match if all elements have one. -/
theorem mapM {f : α → Except ε γ} {g : β → Except ε δ} {zs : List γ} {ws : List δ}
    (h : Matched R xs ys) (hfg : ∀ x y, R x y → Alike S (f x) (g y)) (hxs : xs.mapM f = .ok zs)
    (hys : ys.mapM g = .ok ws) : Matched S zs ws := by
  obtain ⟨between, hbetween, hR⟩ := h
  obtain ⟨zs', hzs', hperm⟩ : Relation.Comp (List.Forall₂ fun x z => f x = .ok z) List.Perm
      between zs := by
    rw [List.forall₂_comp_perm_eq_perm_comp_forall₂]
    exact ⟨xs, hbetween.symm, mapM_eq_ok.mp hxs⟩
  refine ⟨zs', hperm.symm, ?_⟩
  have halike := Alike.mapM hR hfg
  rw [hys, mapM_eq_ok.mpr hzs'] at halike
  exact halike

end Matched

end EntityQuery
