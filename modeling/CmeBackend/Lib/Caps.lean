import Mathlib.Data.List.Count

/-!
# Rows with a cap on their number

The rows of a table fall into classes, which may overlap, and each class has a cap: so many seats
of a flight, so many items of an owner. `Capped` says that no class has more rows than its cap.

* `capped_concat_iff`: one more row keeps the caps exactly if no class that it falls into is full.
  This is what a check before the insert has to be about.
* `Capped.sublist`: rows that go.
-/

namespace Caps

variable {ι α : Type} {cap : ι → ℕ} {within : ι → α → Bool} {rows : List α} {a : α}

/-- No class has more rows than its cap. -/
def Capped (cap : ι → ℕ) (within : ι → α → Bool) (rows : List α) : Prop :=
  ∀ i, rows.countP (within i) ≤ cap i

theorem countP_concat (p : α → Bool) :
    (rows ++ [a]).countP p = rows.countP p + if p a then 1 else 0 := by
  rw [List.countP_append, List.countP_singleton]

/-- A class with a single row. -/
theorem eq_of_countP_le_one {p : α → Bool} {b : α} (h : rows.countP p ≤ 1) (ha : a ∈ rows)
    (hb : b ∈ rows) (hpa : p a) (hpb : p b) : a = b := by
  have hmema : a ∈ rows.filter p := List.mem_filter.2 ⟨ha, hpa⟩
  have hmemb : b ∈ rows.filter p := List.mem_filter.2 ⟨hb, hpb⟩
  rw [List.countP_eq_length_filter] at h
  cases hfilter : rows.filter p with
  | nil =>
    rw [hfilter] at hmema
    exact absurd hmema List.not_mem_nil
  | cons c rest =>
    have hrest : rest = [] := by
      rw [hfilter, List.length_cons] at h
      exact List.length_eq_zero_iff.1 (by omega)
    subst hrest
    rw [hfilter] at hmema hmemb
    exact (List.mem_singleton.1 hmema).trans (List.mem_singleton.1 hmemb).symm

/-- One more row fits exactly if its classes have room. -/
theorem capped_concat_iff (h : Capped cap within rows) :
    Capped cap within (rows ++ [a]) ↔ ∀ i, within i a → rows.countP (within i) < cap i := by
  refine forall_congr' fun i => ?_
  have hi := h i
  rw [countP_concat]
  by_cases ha : within i a
  · rw [if_pos ha, imp_iff_right ha]
    exact Nat.succ_le_iff
  · rw [if_neg ha]
    exact iff_of_true hi fun h => absurd h ha

/-- Rows that go make room. -/
theorem Capped.sublist {rows' : List α} (h : Capped cap within rows) (hsub : rows'.Sublist rows) :
    Capped cap within rows' :=
  fun i => Nat.le_trans hsub.countP_le (h i)

end Caps
