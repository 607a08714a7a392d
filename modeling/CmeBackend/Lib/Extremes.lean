import Mathlib.Order.Lattice
import Mathlib.Tactic.Basic

/-!
# The best element of a list

The loop that keeps the best element so far, where `zero` stands for none: `best`. What is better is
given by an order (`order x < order y`), so the same loop finds a least or a greatest element.

* `best_spec`: the loop ends with an element of the list that no other one is better than.
-/

namespace Extremes

variable {α κ : Type} [DecidableEq α] [LinearOrder κ]

/-- One round of the loop. -/
def pick (zero : α) (better : α → α → Prop) [DecidableRel better] (acc x : α) : α :=
  if acc = zero ∨ better x acc then x else acc

/-- The loop over a list. -/
def best (zero : α) (better : α → α → Prop) [DecidableRel better] (acc : α) (xs : List α) : α :=
  xs.foldl (pick zero better) acc

variable {zero acc : α} {better : α → α → Prop} [DecidableRel better] {order : α → κ} {xs : List α}

/-- The loop that has an element already. -/
theorem best_of_ne (hbetter : ∀ x y, better x y ↔ order x < order y) (hacc : acc ≠ zero)
    (hne : ∀ x ∈ xs, x ≠ zero) :
    best zero better acc xs ∈ acc :: xs ∧ ∀ x ∈ acc :: xs,
      order (best zero better acc xs) ≤ order x := by
  induction xs generalizing acc with
  | nil =>
    refine ⟨List.mem_cons_self, fun x hx => ?_⟩
    obtain rfl := List.mem_singleton.1 hx
    exact le_rfl
  | cons x xs ih =>
    obtain ⟨hx, hxs⟩ := List.forall_mem_cons.1 hne
    have hround : best zero better acc (x :: xs) = best zero better (pick zero better acc x) xs :=
      rfl
    rw [hround, pick]
    by_cases h : better x acc
    · rw [if_pos (.inr h)]
      obtain ⟨hmem, hle⟩ := ih hx hxs
      refine ⟨List.mem_cons_of_mem _ hmem, fun y hy => ?_⟩
      rcases List.mem_cons.1 hy with rfl | hy
      · exact le_trans (hle x List.mem_cons_self) (le_of_lt ((hbetter x y).1 h))
      · exact hle y hy
    · rw [if_neg (not_or.2 ⟨hacc, h⟩)]
      obtain ⟨hmem, hle⟩ := ih hacc hxs
      have hleacc := hle acc List.mem_cons_self
      have hworse : order acc ≤ order x := not_lt.1 fun hlt => h ((hbetter x acc).2 hlt)
      refine ⟨?_, fun y hy => ?_⟩
      · rcases List.mem_cons.1 hmem with heq | hmem
        · rw [heq]
          exact List.mem_cons_self
        · exact List.mem_cons_of_mem _ (List.mem_cons_of_mem _ hmem)
      · rcases List.mem_cons.1 hy with rfl | hy
        · exact hleacc
        rcases List.mem_cons.1 hy with rfl | hy
        · exact le_trans hleacc hworse
        · exact hle y (List.mem_cons_of_mem _ hy)

/-- The loop from `zero` ends with an element that is as good as every other one. -/
theorem best_spec (hbetter : ∀ x y, better x y ↔ order x < order y) (hsome : xs ≠ [])
    (hne : ∀ x ∈ xs, x ≠ zero) :
    best zero better zero xs ∈ xs ∧ ∀ x ∈ xs, order (best zero better zero xs) ≤ order x := by
  match xs, hsome with
  | x :: xs, _ =>
    obtain ⟨hx, hxs⟩ := List.forall_mem_cons.1 hne
    have hround : best zero better zero (x :: xs) = best zero better x xs := by
      show best zero better (pick zero better zero x) xs = _
      rw [pick, if_pos (.inl rfl)]
    rw [hround]
    exact best_of_ne hbetter hx hxs

end Extremes
