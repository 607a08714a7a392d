import CmeBackend.Lib.Runs

/-!
# Work that runs out

A system whose steps are driven by work: a request brings work, and a step that does something does
away with some of it. So as much can be done as has been asked for, whatever the order of the steps.

* `spent`: what the steps of a run cost together.
* `spent_add_le`: a run does away with the work that it starts with and with what it gains.
* `spent_add_le_work`: with no more than it starts with, if nothing is gained.
* `exists_rest`: if some steps do away with work wherever there is any, a run comes to rest.
-/

namespace Work

open Runs

variable {σ α : Type} {f : σ → α → σ} {s : σ}

/-- The sum of a cost over the steps of a run. -/
def spent (f : σ → α → σ) (cost : σ → α → ℕ) : σ → List α → ℕ
  | _, [] => 0
  | s, a :: as => cost s a + spent f cost (f s a) as

theorem spent_add (cost cost' : σ → α → ℕ) (as : List α) :
    spent f (fun s a => cost s a + cost' s a) s as = spent f cost s as + spent f cost' s as := by
  induction as generalizing s with
  | nil => simp [spent]
  | cons a as ih =>
    simp only [spent, ih]
    omega

theorem spent_mul (cost : σ → α → ℕ) (n : ℕ) (as : List α) :
    spent f (fun s a => n * cost s a) s as = n * spent f cost s as := by
  induction as generalizing s with
  | nil => simp [spent]
  | cons a as ih => simp only [spent, ih, Nat.mul_add]

/-- A run does away with the work that it starts with and with what it gains. -/
theorem spent_add_le (I : σ → Prop) (work : σ → ℕ) {cost gain : σ → α → ℕ} (hI : ∀ s a, I s → I (f s a))
    (hstep : ∀ s a, I s → work (f s a) + cost s a ≤ work s + gain s a) (h : I s) (as : List α) :
    spent f cost s as + work (as.foldl f s) ≤ work s + spent f gain s as := by
  induction as generalizing s with
  | nil => simp [spent]
  | cons a as ih =>
    have hfirst := hstep s a h
    have hrest := ih (hI s a h)
    simp only [spent, List.foldl_cons]
    omega

/-- A run without a gain does away with the work that it starts with. -/
theorem spent_add_le_work (I : σ → Prop) (work : σ → ℕ) {cost : σ → α → ℕ}
    (hI : ∀ s a, I s → I (f s a)) (hstep : ∀ s a, I s → work (f s a) + cost s a ≤ work s) (h : I s)
    (as : List α) : spent f cost s as + work (as.foldl f s) ≤ work s := by
  have hle := @spent_add_le _ _ f s I work cost (fun s a => 0 * cost s a) hI
    (fun s a hs => Nat.le_add_right_of_le (hstep s a hs)) h as
  rwa [spent_mul, Nat.zero_mul, Nat.add_zero] at hle

/-- A run comes to rest if some actions do away with work wherever there is any. -/
theorem exists_rest (I : σ → Prop) (work : σ → ℕ) (ok : α → Prop) (hI : ∀ s a, I s → I (f s a))
    (hprogress : ∀ s, I s → work s ≠ 0 → ∃ as : List α, (∀ a ∈ as, ok a) ∧
      work (as.foldl f s) < work s) (h : I s) :
    ∃ as : List α, (∀ a ∈ as, ok a) ∧ work (as.foldl f s) = 0 := by
  induction hn : work s using Nat.strongRecOn generalizing s with
  | ind n ih =>
    by_cases hzero : work s = 0
    · exact ⟨[], by simp, hzero⟩
    · obtain ⟨as, has, hlt⟩ := hprogress s h hzero
      obtain ⟨bs, hbs, hrest⟩ := ih _ (hn ▸ hlt) (foldl_inv h hI as) rfl
      refine ⟨as ++ bs, List.forall_mem_append.2 ⟨has, hbs⟩, ?_⟩
      rwa [List.foldl_append]

end Work
