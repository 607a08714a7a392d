import Mathlib.Algebra.BigOperators.Group.List.Basic
import Mathlib.Algebra.Order.Ring.Int

/-!
# A price that several stocks pay

`charge price stocks` takes the price from the stocks, one after the other: from each what it has,
until the price is paid. A stock at or below zero pays nothing.

* `sum_charge`: what is paid is the price, or all that the stocks have.
* `sum_charge_of_le`: the whole price, if the stocks add up to it.
-/

namespace Charge

/-- What is left in the stocks. -/
def charge (price : ℤ) : List ℤ → List ℤ
  | [] => []
  | x :: xs =>
    if 0 < price ∧ 0 < x then (x - min x price) :: charge (price - min x price) xs
    else x :: charge price xs

/-- What the stocks can pay. -/
def payable (xs : List ℤ) : ℤ := (xs.map fun x => max x 0).sum

variable {price : ℤ} {xs : List ℤ}

theorem payable_nonneg (xs : List ℤ) : 0 ≤ payable xs := by
  induction xs with
  | nil => exact le_rfl
  | cons x xs ih =>
    have hcons : payable (x :: xs) = max x 0 + payable xs := List.sum_cons
    omega

theorem sum_le_payable (xs : List ℤ) : xs.sum ≤ payable xs := by
  induction xs with
  | nil => exact le_rfl
  | cons x xs ih =>
    have hcons : payable (x :: xs) = max x 0 + payable xs := List.sum_cons
    rw [List.sum_cons]
    omega

theorem sum_charge (h : 0 ≤ price) : (charge price xs).sum = xs.sum - min price (payable xs) := by
  induction xs generalizing price with
  | nil =>
    show (0 : ℤ) = 0 - min price 0
    omega
  | cons x xs ih =>
    have hcons : payable (x :: xs) = max x 0 + payable xs := List.sum_cons
    have hpayable := payable_nonneg xs
    unfold charge
    split
    next hpay =>
      have hrest := @ih (price - min x price) (by omega)
      rw [List.sum_cons, List.sum_cons, hrest]
      omega
    next hpay =>
      have hrest := ih h
      rw [List.sum_cons, List.sum_cons, hrest]
      omega

/-- Stocks that add up to the price pay it. -/
theorem sum_charge_of_le (h : 0 ≤ price) (hle : price ≤ xs.sum) :
    (charge price xs).sum = xs.sum - price := by
  rw [sum_charge h, min_eq_left (hle.trans (sum_le_payable xs))]

end Charge
