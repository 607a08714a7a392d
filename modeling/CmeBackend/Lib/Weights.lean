import Mathlib.Algebra.BigOperators.Group.List.Basic

/-!
# Sums of weights

`weigh w l` is the sum of a weight over a list: the number of workers at some place, of messages
about some subject, or how much all of them carry together. An invariant that counts is an equation
between such sums, and a step moves one element.

* `weigh_set`: one worker moves.
* `weigh_append_singleton`: one is added.
* `forall_mem_set`: a property of all workers after one has moved.
-/

namespace Weights

variable {α M : Type}

/-- The sum of the weights of a list. -/
def weigh [AddCommMonoid M] (w : α → M) (l : List α) : M := (l.map w).sum

section Monoid

variable [AddCommMonoid M] {w : α → M} {l : List α} {a b : α} {i : ℕ}

@[simp] theorem weigh_nil : weigh w [] = 0 := rfl

@[simp] theorem weigh_cons : weigh w (a :: l) = w a + weigh w l := by simp [weigh]

theorem weigh_append (l' : List α) : weigh w (l ++ l') = weigh w l + weigh w l' := by
  simp [weigh]

theorem weigh_append_singleton : weigh w (l ++ [a]) = weigh w l + w a := by
  rw [weigh_append, weigh_cons, weigh_nil, add_zero]

theorem weigh_eq_zero (h : ∀ a ∈ l, w a = 0) : weigh w l = 0 := by
  induction l with
  | nil => rfl
  | cons a l ih =>
    obtain ⟨ha, hl⟩ := List.forall_mem_cons.1 h
    rw [weigh_cons, ha, ih hl, add_zero]

/-- An element that moves takes its weight along. -/
theorem weigh_set (h : l[i]? = some a) : weigh w (l.set i b) + w a = weigh w l + w b := by
  induction l generalizing i with
  | nil => cases h
  | cons x l ih =>
    cases i with
    | zero =>
      obtain rfl : x = a := Option.some.inj h
      rw [List.set_cons_zero, weigh_cons, weigh_cons, add_right_comm, add_comm (w b),
        add_right_comm, add_comm (w x)]
    | succ i =>
      rw [List.set_cons_succ, weigh_cons, weigh_cons, add_assoc, ih h, add_assoc]

end Monoid

section Nat

variable {w : α → ℕ} {l : List α} {a : α} {i : ℕ}

/-- One weight is at most the sum. -/
theorem le_weigh (h : a ∈ l) : w a ≤ weigh w l := by
  induction l with
  | nil => cases h
  | cons x l ih =>
    rw [weigh_cons]
    rcases List.mem_cons.1 h with rfl | h
    · exact Nat.le_add_right _ _
    · exact Nat.le_trans (ih h) (Nat.le_add_left _ _)

theorem le_weigh_get (h : l[i]? = some a) : w a ≤ weigh w l :=
  le_weigh (List.mem_of_getElem? h)

theorem weigh_eq_zero_iff : weigh w l = 0 ↔ ∀ a ∈ l, w a = 0 := by
  constructor
  · intro h a ha
    exact Nat.le_zero.1 (h ▸ le_weigh ha)
  · exact weigh_eq_zero

/-- Two weights are at most the sum. -/
theorem add_le_weigh {j : ℕ} {b : α} (ha : l[i]? = some a) (hb : l[j]? = some b) (hij : i ≠ j) :
    w a + w b ≤ weigh w l := by
  induction l generalizing i j with
  | nil => cases ha
  | cons x l ih =>
    rw [weigh_cons]
    match i, j, ha, hb, hij with
    | 0, 0, _, _, hij => exact absurd rfl hij
    | 0, j + 1, ha, hb, _ =>
      obtain rfl : x = a := Option.some.inj ha
      have hle : w b ≤ weigh w l := le_weigh_get (i := j) hb
      omega
    | i + 1, 0, ha, hb, _ =>
      obtain rfl : x = b := Option.some.inj hb
      have hle : w a ≤ weigh w l := le_weigh_get (i := i) ha
      omega
    | i + 1, j + 1, ha, hb, hij =>
      have hle : w a + w b ≤ weigh w l :=
        ih (i := i) (j := j) ha hb fun h => hij (congrArg _ h)
      omega

end Nat

/-- An element that moves, where the weights of the others stay as they are. -/
theorem weigh_set_of_ne {w w' : α → ℕ} {l : List α} {a b : α} {i : ℕ} (h : l[i]? = some a)
    (hother : ∀ j x, j ≠ i → l[j]? = some x → w' x = w x) :
    weigh w' (l.set i b) + w a = weigh w l + w' b := by
  induction l generalizing i with
  | nil => cases h
  | cons x l ih =>
    cases i with
    | zero =>
      obtain rfl : x = a := Option.some.inj h
      have hrest : weigh w' l = weigh w l := congrArg List.sum (List.map_congr_left fun y hy => by
        obtain ⟨j, hj⟩ := List.mem_iff_getElem?.1 hy
        exact hother (j + 1) y (Nat.succ_ne_zero j) hj)
      rw [List.set_cons_zero, weigh_cons, weigh_cons, hrest]
      omega
    | succ i =>
      have hfirst : w' x = w x := hother 0 x (Nat.succ_ne_zero i).symm rfl
      have hrest : weigh w' (l.set i b) + w a = weigh w l + w' b :=
        ih h fun j y hj hy => hother (j + 1) y (fun heq => hj (Nat.succ.inj heq)) hy
      rw [List.set_cons_succ, weigh_cons, weigh_cons, hfirst]
      omega

/-- What holds of all workers and of the one that has moved holds after the move. -/
theorem forall_mem_set {P : α → Prop} {l : List α} {i : ℕ} {b : α} (h : ∀ a ∈ l, P a) (hb : P b) :
    ∀ a ∈ l.set i b, P a := by
  intro a ha
  rcases List.mem_or_eq_of_mem_set ha with ha | rfl
  · exact h a ha
  · exact hb

/-- A worker after one has been added is one of those before, or the new one. -/
theorem getElem?_concat_cases {l : List α} {j : ℕ} {a b : α} (h : (l ++ [b])[j]? = some a) :
    l[j]? = some a ∨ a = b := by
  rw [List.getElem?_append] at h
  split at h
  · exact .inl h
  · exact .inr (List.mem_singleton.1 (List.mem_of_getElem? h))

/-- A worker after one has moved is the one that has moved or one of the others. -/
theorem getElem?_set_cases {l : List α} {i j : ℕ} {a b : α} (h : (l.set i b)[j]? = some a) :
    j = i ∧ a = b ∨ j ≠ i ∧ l[j]? = some a := by
  by_cases hji : j = i
  · subst hji
    rw [List.getElem?_set_self'] at h
    obtain ⟨x, -, rfl⟩ := Option.map_eq_some_iff.1 h
    exact .inl ⟨rfl, rfl⟩
  · rw [List.getElem?_set_ne (Ne.symm hji)] at h
    exact .inr ⟨hji, h⟩

/-- The same, where the other workers are known to be others. -/
theorem forall_mem_set_of_ne {P : α → Prop} {l : List α} {i : ℕ} {b : α}
    (h : ∀ j a, j ≠ i → l[j]? = some a → P a) (hb : P b) : ∀ a ∈ l.set i b, P a := by
  intro a ha
  obtain ⟨j, hj⟩ := List.mem_iff_getElem?.1 ha
  rcases getElem?_set_cases hj with ⟨-, rfl⟩ | ⟨hji, hj⟩
  · exact hb
  · exact h j a hji hj

/-- The workers after one has moved: the one that has moved, and the others. -/
theorem mem_set_iff {l : List α} {i : ℕ} {a b x : α} (h : l[i]? = some a) (hx : x ≠ a) :
    x ∈ l.set i b ↔ x = b ∨ x ∈ l := by
  induction l generalizing i with
  | nil => cases h
  | cons y l ih =>
    cases i with
    | zero =>
      obtain rfl : y = a := Option.some.inj h
      simp [hx]
    | succ i =>
      rw [List.set_cons_succ, List.mem_cons, List.mem_cons, ih h]
      exact or_left_comm

/-- A list counts what it lists. -/
theorem count_filterMap {β : Type} [DecidableEq β] (f : α → Option β) (l : List α) (b : β) :
    (l.filterMap f).count b = weigh (fun a => if f a = some b then 1 else 0) l := by
  induction l with
  | nil => rfl
  | cons a l ih =>
    rw [weigh_cons, List.filterMap_cons]
    cases hf : f a with
    | none => simpa using ih
    | some c =>
      by_cases hc : c = b
      · subst hc
        simp [ih, add_comm]
      · simp [ih, hc]

end Weights
