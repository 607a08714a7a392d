import Mathlib.Algebra.Order.Group.Nat
import Mathlib.Data.List.Induction
import Mathlib.Tactic.Ring

/-!
# Fields of a number

A number in fields of one size, with the highest first: `join b` reads a list of digits to the base
`b`, and `split b width` cuts a number into `width` digits. On numbers below `b ^ width` they are
inverse to each other (`split_join`, `join_split`), so no digit is lost or shared.
-/

namespace Fields

variable {b : ℕ} {ds : List ℕ}

def join (b : ℕ) (ds : List ℕ) : ℕ := ds.foldl (fun n d => b * n + d) 0

def split (b : ℕ) : ℕ → ℕ → List ℕ
  | 0, _ => []
  | width + 1, n => split b width (n / b) ++ [n % b]

theorem join_concat (b : ℕ) (ds : List ℕ) (d : ℕ) : join b (ds ++ [d]) = b * join b ds + d := by
  simp [join]

@[simp] theorem length_split (b width n : ℕ) : (split b width n).length = width := by
  induction width generalizing n with
  | zero => rfl
  | succ width ih => rw [split, List.length_append, ih, List.length_singleton]

theorem split_join (h : ∀ d ∈ ds, d < b) : split b ds.length (join b ds) = ds := by
  induction ds using List.reverseRecOn with
  | nil => rfl
  | append_singleton ds d ih =>
    have hd : d < b := h d (List.mem_append_right _ (List.mem_singleton_self d))
    have hb : 0 < b := by omega
    rw [List.length_append, List.length_singleton, split, join_concat, Nat.mul_add_div hb,
      Nat.div_eq_of_lt hd, Nat.add_zero, Nat.mul_add_mod, Nat.mod_eq_of_lt hd,
      ih fun d hd => h d (List.mem_append_left _ hd)]

theorem join_split {width n : ℕ} (h : n < b ^ width) : join b (split b width n) = n := by
  induction width generalizing n with
  | zero =>
    rw [Nat.pow_zero, Nat.lt_one_iff] at h
    rw [h]
    rfl
  | succ width ih =>
    have hdiv : n / b < b ^ width := Nat.div_lt_of_lt_mul (by rwa [Nat.pow_succ'] at h)
    rw [split, join_concat, ih hdiv, Nat.div_add_mod]

theorem join_lt (h : ∀ d ∈ ds, d < b) : join b ds < b ^ ds.length := by
  induction ds using List.reverseRecOn with
  | nil => exact Nat.one_pos
  | append_singleton ds d ih =>
    have hd : d < b := h d (List.mem_append_right _ (List.mem_singleton_self d))
    have hds := ih fun d hd => h d (List.mem_append_left _ hd)
    rw [join_concat, List.length_append, List.length_singleton, Nat.pow_succ']
    calc b * join b ds + d < b * join b ds + b := by omega
      _ = b * (join b ds + 1) := by ring
      _ ≤ b * b ^ ds.length := Nat.mul_le_mul_left b hds

end Fields
