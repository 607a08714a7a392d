import Mathlib.Algebra.BigOperators.Group.List.Basic
import Mathlib.Tactic.Ring

/-!
# Token games

A rule takes tokens from places and puts tokens into places. A marking says how many tokens are in
each place, and `Fires r m m'` that the rule `r` leads from the marking `m` to `m'`.

* `value c m`: the sum of the tokens with weights. A firing changes it by the gain of the rule
  (`Fires.value`), so a weighting with no gain is an invariant of every net of such rules.
* `FiresAt r j m m'`: many individuals play the same game, each with a marking of its own, and the
  rule fires in that of `j`.
-/

namespace Petri

variable {π ι : Type} [DecidableEq π] [DecidableEq ι]

structure Rule (π : Type) where
  consumed : List π
  produced : List π
  deriving DecidableEq

/-- The rule that changes nothing. -/
def idle : Rule π := ⟨[], []⟩

/-- Tokens are lost. -/
def drop (x : π) : Rule π := ⟨[x], []⟩

/-- The rule `r` leads from `m` to `m'`. -/
def Fires (r : Rule π) (m m' : π → ℕ) : Prop :=
  ∀ x, m' x + r.consumed.count x = m x + r.produced.count x

/-- The rule `r` fires in the marking of `j`. -/
def FiresAt (r : Rule π) (j : ι) (m m' : ι → π → ℕ) : Prop :=
  ∀ i x, m' i x + (if i = j then r.consumed.count x else 0) =
    m i x + if i = j then r.produced.count x else 0

/-! ## Weights -/

/-- The sum of the tokens of some places, each with a weight. -/
def value (c : List (π × ℤ)) (m : π → ℕ) : ℤ := (c.map fun p => p.2 * (m p.1 : ℤ)).sum

/-- What a rule adds to the sum. -/
def Rule.gain (c : List (π × ℤ)) (r : Rule π) : ℤ :=
  (c.map fun p => p.2 * ((r.produced.count p.1 : ℤ) - r.consumed.count p.1)).sum

variable {r : Rule π} {m m' : π → ℕ}

theorem Fires.value (h : Fires r m m') (c : List (π × ℤ)) : value c m' = value c m + r.gain c := by
  induction c with
  | nil => rfl
  | cons p rest ih =>
    have hp : (m' p.1 : ℤ) + r.consumed.count p.1 = m p.1 + r.produced.count p.1 := by
      exact_mod_cast h p.1
    have hcount : (m' p.1 : ℤ) =
        m p.1 + ((r.produced.count p.1 : ℤ) - r.consumed.count p.1) := by
      omega
    unfold Petri.value Rule.gain at ih ⊢
    rw [List.map_cons, List.map_cons, List.map_cons, List.sum_cons, List.sum_cons, List.sum_cons,
      ih, hcount]
    ring

omit [DecidableEq π] in
theorem value_eq_zero (h : ∀ x, m x = 0) (c : List (π × ℤ)) : value c m = 0 := by
  unfold value
  refine List.sum_eq_zero fun y hy => ?_
  obtain ⟨p, -, rfl⟩ := List.mem_map.1 hy
  rw [h, Nat.cast_zero, mul_zero]

/-- A rule that takes a token from a place and puts none there finds one. -/
theorem Fires.pos (h : Fires r m m') {x : π} (hx : x ∈ r.consumed) (hx' : x ∉ r.produced) :
    0 < m x := by
  have hcount := h x
  have hpos := List.count_pos_iff.2 hx
  rw [List.count_eq_zero.2 hx'] at hcount
  omega

/-! ## Many individuals -/

variable {j i : ι} {n n' : ι → π → ℕ}

theorem FiresAt.self (h : FiresAt r j n n') : Fires r (n j) (n' j) := by
  intro x
  have hx := h j x
  rwa [if_pos rfl, if_pos rfl] at hx

theorem FiresAt.of_ne (h : FiresAt r j n n') (hi : i ≠ j) : n' i = n i := by
  funext x
  have hx := h i x
  rwa [if_neg hi, if_neg hi] at hx

/-- A marking that stays as it is. -/
theorem FiresAt.idle (h : n' = n) (j : ι) : FiresAt idle j n n' := by
  subst h
  exact fun i x => rfl

end Petri
