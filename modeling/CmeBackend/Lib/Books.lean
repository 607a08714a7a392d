import CmeBackend.Lib.Runs
import Mathlib.Algebra.BigOperators.Pi
import Mathlib.Algebra.BigOperators.Ring.Finset
import Mathlib.Data.Fintype.BigOperators
import Mathlib.Logic.Relation

/-!
# Books

A book says what each of several accounts holds. Amounts only go from one account to another, along
the routes that a system has.

* `transfer`: one amount from one account to another. It changes no total (`total_transfer`).
* `Moves route`: one book becomes another by transfers along the routes. The total stays
  (`Moves.total_eq`).
* `moves_of_reach`: a system whose steps are such moves.
-/

namespace Books

variable {κ M : Type} [DecidableEq κ] [AddCommGroup M] {route : κ → κ → Prop} {b b' b'' : κ → M}

/-- `amount` goes from the account `source` to the account `target`. -/
def transfer (b : κ → M) (source target : κ) (amount : M) : κ → M :=
  b + Pi.single source (-amount) + Pi.single target amount

/-- One book becomes another by transfers along the routes. -/
def Moves (route : κ → κ → Prop) : (κ → M) → (κ → M) → Prop :=
  Relation.ReflTransGen fun b b' =>
    ∃ source target amount, route source target ∧ b' = transfer b source target amount

theorem Moves.refl : Moves route b b := Relation.ReflTransGen.refl

theorem Moves.of_eq (h : b' = b) : Moves route b b' := h ▸ .refl

theorem Moves.trans (h : Moves route b b') (h' : Moves route b' b'') : Moves route b b'' :=
  Relation.ReflTransGen.trans h h'

/-- A book that differs by one amount on two accounts. -/
theorem Moves.of_transfer {source target : κ} {amount : M} (hroute : route source target)
    (h : b' = transfer b source target amount) : Moves route b b' :=
  Relation.ReflTransGen.single ⟨source, target, amount, hroute, h⟩

/-- What one account loses, another one gains. -/
theorem Moves.of_accounts {source target : κ} {amount : M} (hroute : route source target)
    (hne : source ≠ target) (hsource : b' source = b source + -amount)
    (htarget : b' target = b target + amount)
    (hother : ∀ a, a ≠ source → a ≠ target → b' a = b a) : Moves route b b' := by
  have heq : b' = transfer b source target amount := by
    funext a
    rw [transfer, Pi.add_apply, Pi.add_apply]
    by_cases hs : a = source
    · subst hs
      rw [hsource, Pi.single_eq_same, Pi.single_eq_of_ne hne, add_zero]
    · by_cases ht : a = target
      · subst ht
        rw [htarget, Pi.single_eq_same, Pi.single_eq_of_ne hs, add_zero]
      · rw [hother a hs ht, Pi.single_eq_of_ne hs, Pi.single_eq_of_ne ht, add_zero, add_zero]
  exact .of_transfer hroute heq

/-- What the accounts hold together. -/
def total [Fintype κ] (b : κ → M) : M := ∑ a, b a

/-- A transfer changes no total. -/
theorem total_transfer [Fintype κ] (b : κ → M) (source target : κ) (amount : M) :
    total (transfer b source target amount) = total b := by
  simp only [total, transfer, Pi.add_apply, Finset.sum_add_distrib, Finset.sum_pi_single',
    Finset.mem_univ, if_true]
  rw [add_assoc, neg_add_cancel, add_zero]

theorem Moves.total_eq [Fintype κ] (h : Moves route b b') : total b' = total b := by
  induction h with
  | refl => rfl
  | tail _ hstep ih =>
    obtain ⟨source, target, amount, -, rfl⟩ := hstep
    rw [total_transfer, ih]

/-- A system that keeps an invariant, and whose steps move amounts along the routes. -/
theorem moves_of_reach {σ α : Type} {step : σ → α → σ → Prop} {ok : σ → α → Prop} {s₀ s : σ}
    {I : σ → Prop} {book : σ → κ → M} (h : Runs.Reach step ok s₀ s) (h0 : I s₀)
    (hstep : ∀ s a s', I s → ok s a → step s a s' → I s' ∧ Moves route (book s) (book s')) :
    I s ∧ Moves route (book s₀) (book s) := by
  refine h.inv (I := fun s => I s ∧ Moves route (book s₀) (book s)) ⟨h0, .refl⟩ ?_
  rintro s a s' ⟨hs, hmoves⟩ hok hst
  obtain ⟨hs', hmoves'⟩ := hstep s a s' hs hok hst
  exact ⟨hs', hmoves.trans hmoves'⟩

end Books
