import Mathlib.Data.List.Forall2
import Mathlib.Data.List.Nodup

/-!
# Aligned lists

Two lists are aligned where their items are related one by one. Every item of the second list has a
partner in the first one; where partners are unique, different items on the left have different ones
on the right.
-/

namespace ArchiveExport

variable {α β : Type} {relation : α → β → Prop} {xs : List α} {ys : List β}

theorem exists_of_forall₂ (h : List.Forall₂ relation xs ys) {y : β} (hy : y ∈ ys) :
    ∃ x ∈ xs, relation x y := by
  induction h with
  | nil => simp at hy
  | @cons x z xs ys hxz _ ih =>
      rcases List.mem_cons.mp hy with rfl | hrest
      · exact ⟨x, List.mem_cons_self, hxz⟩
      · obtain ⟨found, hfound, hrelated⟩ := ih hrest
        exact ⟨found, List.mem_cons_of_mem _ hfound, hrelated⟩

theorem forall₂_comp {γ : Type} {zs : List γ} {relation' : β → γ → Prop} {composed : α → γ → Prop}
    (hcompose : ∀ x y z, relation x y → relation' y z → composed x z)
    (h : List.Forall₂ relation xs ys) (h' : List.Forall₂ relation' ys zs) :
    List.Forall₂ composed xs zs := by
  induction h generalizing zs with
  | nil =>
      cases h'
      exact .nil
  | cons hxy _ ih =>
      cases h' with
      | cons hyz hrest => exact .cons (hcompose _ _ _ hxy hyz) (ih hrest)

theorem nodup_of_forall₂ (h : List.Forall₂ relation xs ys) (hxs : xs.Nodup)
    (hsame : ∀ x x' y, relation x y → relation x' y → x = x') : ys.Nodup := by
  induction h with
  | nil => exact .nil
  | @cons x y xs ys hxy hrest ih =>
      obtain ⟨hnew, hxs⟩ := List.nodup_cons.mp hxs
      refine List.nodup_cons.mpr ⟨fun hmem => hnew ?_, ih hxs⟩
      obtain ⟨found, hfound, hrelated⟩ := exists_of_forall₂ hrest hmem
      rwa [hsame x found y hxy hrelated]

end ArchiveExport
