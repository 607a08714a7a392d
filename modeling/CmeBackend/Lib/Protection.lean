import Mathlib.Order.Basic

/-!
# Protection that ends at a time

Keys act on each other. An act may protect its target up to a time, and a key that acts may lose its
own protection. A store keeps one time for each key, and an act is let through if the time of its
target has come (`Follows`).

* `Covers`: the store knows of every protection that has not been lost.
* `Spaced`: an act on a protected key comes when the protection is over, or after the key has acted
  itself.
* `Covers.follows`, `Spaced.follows`: one more act keeps both, although the store has no room for
  more than one time.
-/

namespace Protection

variable {κ τ : Type}

structure Act (κ τ : Type) where
  source : κ
  target : κ
  /-- The time at which the act is let through. -/
  checked : τ
  /-- The time up to which the target is protected from now on. -/
  shield : Option τ

/-- No act later than the `i`-th and earlier than the `j`-th is one of the key. -/
def Rests (acts : List (Act κ τ)) (k : κ) (i j : ℕ) : Prop :=
  ∀ n, i < n → n < j → ∀ a ∈ acts[n]?, a.source ≠ k

variable {acts : List (Act κ τ)} {a : Act κ τ}

/-- An act of the list is one of the longer list. -/
theorem getElem?_concat {n : ℕ} {b : Act κ τ} (h : b ∈ acts[n]?) : b ∈ (acts ++ [a])[n]? := by
  obtain ⟨hn, -⟩ := List.getElem?_eq_some_iff.1 h
  rw [List.getElem?_append_left hn]
  exact h

/-- An act of the longer list is one of the list, or the last one. -/
theorem mem_concat {n : ℕ} {b : Act κ τ} (h : b ∈ (acts ++ [a])[n]?) :
    b ∈ acts[n]? ∨ n = acts.length ∧ b = a := by
  rcases Nat.lt_trichotomy n acts.length with hn | rfl | hn
  · rw [List.getElem?_append_left hn] at h
    exact .inl h
  · rw [List.getElem?_concat_length] at h
    exact .inr ⟨rfl, (Option.some.inj h).symm⟩
  · rw [List.getElem?_eq_none (by rw [List.length_append]; exact hn)] at h
    cases h

theorem Rests.of_concat {k : κ} {i j : ℕ} (h : Rests (acts ++ [a]) k i j) : Rests acts k i j :=
  fun n hi hj b hb => h n hi hj b (getElem?_concat hb)

section Order

variable [LE τ]

/-- An act on a protected key comes when the protection is over, unless the key has acted since. -/
def Spaced (acts : List (Act κ τ)) : Prop :=
  ∀ i j, i < j → ∀ a ∈ acts[i]?, ∀ b ∈ acts[j]?, b.target = a.target →
    Rests acts a.target i j → ∀ t ∈ a.shield, t ≤ b.checked

/-- The store has at least the time of every protection whose key has not acted since. -/
def Covers (deadline : κ → Option τ) (acts : List (Act κ τ)) : Prop :=
  ∀ i, ∀ a ∈ acts[i]?, Rests acts a.target i acts.length →
    ∀ t ∈ a.shield, ∀ e ∈ deadline a.target, t ≤ e

/-- An act that the store lets through, and the store after it. -/
structure Follows (deadline : κ → Option τ) (a : Act κ τ) (deadline' : κ → Option τ) : Prop where
  other : a.source ≠ a.target
  passes : ∃ e ∈ deadline a.target, e ≤ a.checked
  kept : ∀ k, k ≠ a.source → ∀ e' ∈ deadline' k, ∃ e ∈ deadline k, e ≤ e'
  shields : ∀ t ∈ a.shield, ∀ e' ∈ deadline' a.target, t ≤ e'

end Order

variable [Preorder τ] {deadline deadline' : κ → Option τ}

theorem covers_nil (deadline : κ → Option τ) : Covers deadline [] := by
  intro i a ha
  cases ha

theorem spaced_nil : Spaced ([] : List (Act κ τ)) := by
  intro i j _ a ha
  cases ha

/-- A store whose times do not go back still covers. -/
theorem Covers.mono (h : Covers deadline acts)
    (hle : ∀ a ∈ acts, ∀ e' ∈ deadline' a.target, ∃ e ∈ deadline a.target, e ≤ e') :
    Covers deadline' acts := by
  intro i a ha hrests t ht e' he'
  obtain ⟨e, he, hee'⟩ := hle a (List.mem_of_getElem? ha) e' he'
  exact (h i a ha hrests t ht e he).trans hee'

theorem Covers.follows (h : Covers deadline acts) (ha : Follows deadline a deadline') :
    Covers deadline' (acts ++ [a]) := by
  intro i b hb hrests t ht e' he'
  rw [List.length_append, List.length_singleton] at hrests
  rcases mem_concat hb with hb | ⟨rfl, rfl⟩
  · -- The target has not acted, so that its time has only grown.
    have hi : i < acts.length := (List.getElem?_eq_some_iff.1 hb).1
    have hsource : a.source ≠ b.target :=
      hrests _ hi (Nat.lt_succ_self _) a (List.getElem?_concat_length ..)
    obtain ⟨e, he, hee'⟩ := ha.kept b.target hsource.symm e' he'
    refine (h i b hb (fun n hin hn => ?_) t ht e he).trans hee'
    exact hrests.of_concat n hin (Nat.lt_succ_of_lt hn)
  · exact ha.shields t ht e' he'

theorem Spaced.follows (h : Spaced acts) (hcovers : Covers deadline acts)
    (ha : Follows deadline a deadline') : Spaced (acts ++ [a]) := by
  intro i j hij b hb c hc htarget hrests t ht
  rcases mem_concat hc with hc | ⟨rfl, rfl⟩
  · rcases mem_concat hb with hb | ⟨rfl, -⟩
    · exact h i j hij b hb c hc htarget hrests.of_concat t ht
    · exact absurd (List.getElem?_eq_some_iff.1 hc).1 (Nat.lt_asymm hij)
  · rcases mem_concat hb with hb | ⟨rfl, -⟩
    · obtain ⟨e, he, hle⟩ := ha.passes
      exact (hcovers i b hb hrests.of_concat t ht e (htarget ▸ he)).trans hle
    · exact absurd hij (Nat.lt_irrefl _)

end Protection
