import Mathlib.Algebra.Order.Field.Basic
import Mathlib.Algebra.Order.Floor.Ring
import Mathlib.Tactic.Positivity

/-!
# Rounded shares

`share q n`: the share `q` of `n` things, rounded half up, but not more than all of them. Numbers are
exact.

* `share_nonneg`, `share_le`: between none and all.
* `share_one`, `share_zero`: all of them, and a share of nothing.
* `share_mono`: a greater share is not smaller when it is rounded.
-/

namespace Shares

variable {K : Type} [Field K] [LinearOrder K] [FloorRing K]

/-- The nearest integer, half up. -/
def nearest (x : K) : ℤ := ⌊x + 1 / 2⌋

/-- The share of `n` things. -/
def share (q : K) (n : ℤ) : ℤ :=
  let count := nearest (n * q)
  if count ≤ n then count else n

variable {q q' x y : K} {n : ℤ}

theorem share_eq_min (q : K) (n : ℤ) : share q n = min (nearest (n * q)) n := by
  unfold share
  by_cases h : nearest (n * q) ≤ n
  · rw [if_pos h, min_eq_left h]
  · rw [if_neg h, min_eq_right (le_of_not_ge h)]

theorem share_le (q : K) (n : ℤ) : share q n ≤ n := by
  rw [share_eq_min]
  exact min_le_right _ _

variable [IsStrictOrderedRing K]

theorem nearest_int (n : ℤ) : nearest (n : K) = n := by
  rw [nearest, add_comm, Int.floor_add_intCast]
  have hhalf : ⌊(1 / 2 : K)⌋ = 0 := Int.floor_eq_zero_iff.2 ⟨by positivity, one_half_lt_one⟩
  rw [hhalf, zero_add]

theorem nearest_mono (h : x ≤ y) : nearest x ≤ nearest y :=
  Int.floor_le_floor (add_le_add_left h _)

theorem nearest_nonneg (h : 0 ≤ x) : 0 ≤ nearest x :=
  Int.floor_nonneg.2 (add_nonneg h (by positivity))

theorem share_nonneg (hq : 0 ≤ q) (hn : 0 ≤ n) : 0 ≤ share q n := by
  rw [share_eq_min]
  exact le_min (nearest_nonneg (mul_nonneg (Int.cast_nonneg hn) hq)) hn

@[simp] theorem share_one (n : ℤ) : share (1 : K) n = n := by
  rw [share_eq_min, mul_one, nearest_int, min_self]

@[simp] theorem share_zero (q : K) : share q 0 = 0 := by
  have hzero : nearest ((0 : ℤ) : K) = 0 := nearest_int 0
  rw [share_eq_min, Int.cast_zero, zero_mul, ← Int.cast_zero, hzero, min_self]

theorem share_mono (hq : q ≤ q') (hn : 0 ≤ n) : share q n ≤ share q' n := by
  rw [share_eq_min, share_eq_min]
  exact min_le_min_right _ (nearest_mono (mul_le_mul_of_nonneg_left hq (Int.cast_nonneg hn)))

end Shares
