import Mathlib.Data.List.Basic
import Mathlib.Data.List.Forall2
import Mathlib.Data.List.TakeWhile

/-!
# Working off a list from its front

A list is worked off in batches. A batch has the first elements that are due, at most `n`, and what
is left is the list behind it. Where the elements that are due come before the others (`Front`), as
they do in a list in the order of its times, a batch leaves out no element in favour of a later one.

* `batch_append_rest`, `batches_append_left`: nothing is lost, and the order is kept.
* `countP_rest`, `countP_left`: how many elements of a kind are left.
-/

namespace Batches

variable {α τ : Type} {n : ℕ} {p q : α → Bool} {l : List α}

/-- The elements with `p` come before those without. -/
def Front (p : α → Bool) (l : List α) : Prop := l.Pairwise fun x y => p y = true → p x = true

/-- At most `n` elements that are due, from the front. -/
def batch (n : ℕ) (p : α → Bool) (l : List α) : List α := (l.take n).takeWhile p

/-- What is behind a batch. -/
def rest (n : ℕ) (p : α → Bool) (l : List α) : List α := l.drop (batch n p l).length

/-! ## One batch -/

theorem batch_append_rest (n : ℕ) (p : α → Bool) (l : List α) : batch n p l ++ rest n p l = l := by
  have hprefix : batch n p l <+: l := (List.takeWhile_prefix p).trans (List.take_prefix n l)
  obtain ⟨t, ht⟩ := hprefix
  have hdrop : ∀ b : List α, b ++ t = l → l.drop b.length = t := by
    rintro b rfl
    exact List.drop_left
  rw [rest, hdrop _ ht, ht]

theorem of_mem_batch {x : α} (h : x ∈ batch n p l) : p x = true :=
  List.mem_takeWhile_imp h

theorem Front.rest (h : Front q l) : Front q (rest n p l) := List.Pairwise.drop h

/-- Behind an element without `q` there is none with it. -/
theorem Front.countP_eq_zero {x : α} (h : Front q (x :: l)) (hx : q x = false) :
    l.countP q = 0 := by
  refine List.countP_eq_zero.2 fun y hy hq => ?_
  have hx' := (List.pairwise_cons.1 h).1 y hy hq
  rw [hx] at hx'
  cases hx'

/-- A batch of what is due takes the elements that come first. -/
theorem batch_eq_filter (h : Front p l) : batch n p l = (l.take n).filter p := by
  unfold batch
  have htake : Front p (l.take n) := h.sublist (List.take_sublist n l)
  generalize l.take n = l at htake ⊢
  induction l with
  | nil => rfl
  | cons x l ih =>
    cases hx : p x with
    | true =>
      rw [List.takeWhile_cons_of_pos hx, List.filter_cons_of_pos hx, ih (List.pairwise_cons.1 htake).2]
    | false =>
      have hnone : l.filter p = [] := by
        rw [← List.length_eq_zero_iff, ← List.countP_eq_length_filter]
        exact htake.countP_eq_zero hx
      simp [hx, hnone]

/-- Of the elements with `q`, all of which are due, a batch takes `n`, or all. -/
theorem countP_rest (h : Front q l) (hdue : ∀ x, q x = true → p x = true) :
    (rest n p l).countP q = l.countP q - n := by
  induction l generalizing n with
  | nil => simp [rest]
  | cons x l ih =>
    cases n with
    | zero => simp [rest, batch]
    | succ n =>
      have hl : Front q l := (List.pairwise_cons.1 h).2
      cases hp : p x with
      | true =>
        have hrest : rest (n + 1) p (x :: l) = rest n p l := by
          simp [rest, batch, hp]
        rw [hrest, ih hl, List.countP_cons]
        cases hq : q x with
        | true =>
          simp
        | false =>
          rw [h.countP_eq_zero hq]
          simp
      | false =>
        have hq : q x = false := by
          by_contra hq
          rw [hdue x (by simpa using hq)] at hp
          cases hp
        have hrest : rest (n + 1) p (x :: l) = x :: l := by
          simp [rest, batch, hp]
        rw [hrest, List.countP_cons, h.countP_eq_zero hq]
        simp [hq]

/-! ## One batch after the other -/

section Runs

variable {due : τ → α → Bool}

/-- The batches at the times `ts`. -/
def batches (n : ℕ) (due : τ → α → Bool) : List τ → List α → List (List α)
  | [], _ => []
  | t :: ts, l => batch n (due t) l :: batches n due ts (rest n (due t) l)

/-- What is left behind them. -/
def left (n : ℕ) (due : τ → α → Bool) : List τ → List α → List α
  | [], l => l
  | t :: ts, l => left n due ts (rest n (due t) l)

theorem batches_append_left (n : ℕ) (due : τ → α → Bool) (ts : List τ) (l : List α) :
    (batches n due ts l).flatten ++ left n due ts l = l := by
  induction ts generalizing l with
  | nil => rfl
  | cons t ts ih =>
    rw [batches, left, List.flatten_cons, List.append_assoc, ih, batch_append_rest]

/-- What is in a batch is due at its time. -/
theorem due_of_batches (n : ℕ) (ts : List τ) (l : List α) :
    List.Forall₂ (fun t b => ∀ x ∈ b, x ∈ l ∧ due t x = true) ts (batches n due ts l) := by
  induction ts generalizing l with
  | nil => exact .nil
  | cons t ts ih =>
    refine .cons (fun x hx => ⟨?_, of_mem_batch hx⟩) ((ih _).imp fun t b hb x hx => ?_)
    · exact List.mem_of_mem_take ((List.takeWhile_prefix _).subset hx)
    · obtain ⟨hmem, hdue⟩ := hb x hx
      exact ⟨List.mem_of_mem_drop hmem, hdue⟩

/-- Each time at which the elements with `q` are due takes `n` of them, or all. -/
theorem countP_left {late : τ → Bool} (h : Front q l)
    (hdue : ∀ t, late t = true → ∀ x, q x = true → due t x = true) (ts : List τ) :
    (left n due ts l).countP q ≤ l.countP q - n * ts.countP late := by
  induction ts generalizing l with
  | nil => simp [left]
  | cons t ts ih =>
    have hrest := ih (h.rest (n := n) (p := due t))
    rw [left, List.countP_cons]
    cases hlate : late t with
    | true =>
      rw [countP_rest h (hdue t hlate)] at hrest
      simp only [if_true, Nat.mul_add, Nat.mul_one]
      omega
    | false =>
      have hle : (Batches.rest n (due t) l).countP q ≤ l.countP q :=
        List.Sublist.countP_le (List.drop_sublist _ _)
      simp only [Bool.false_eq_true, if_false, Nat.add_zero]
      omega

end Runs

end Batches
