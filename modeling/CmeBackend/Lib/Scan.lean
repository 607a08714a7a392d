import Mathlib.Order.Lattice

/-!
# Scans

A scan goes from one element to the next until it meets an element to stop at, or one that is not
used (`Ends`). It compares what lies in between if `next` is the successor in an order (`Successor`):
an element is passed over only if it is used, and no element to stop at (`Ends.passed`).

* `Ends.le_of_ends`: a scan goes no further than an element that would end it.
-/

namespace Scan

variable {α κ : Type} [LinearOrder κ]

/-- The scan from an element ends at another one. -/
inductive Ends (next : α → α) (stop used : α → Prop) : α → α → Prop
  | here {p : α} : stop p ∨ ¬used p → Ends next stop used p p
  | next {p q : α} : ¬stop p → used p → Ends next stop used (next p) q → Ends next stop used p q

/-- Within `S`, no element is between one and the next. -/
structure Successor (S : α → Prop) (order : α → κ) (next : α → α) : Prop where
  closed : ∀ p, S p → S (next p)
  lt : ∀ p, S p → order p < order (next p)
  gap : ∀ p q, S p → S q → order p < order q → order (next p) ≤ order q
  inj : ∀ p q, S p → S q → order p = order q → p = q

variable {next : α → α} {stop used S : α → Prop} {order : α → κ} {p q r : α}

/-- A scan ends because of the element it ends at. -/
theorem Ends.final (h : Ends next stop used p q) : stop q ∨ ¬used q := by
  induction h with
  | here h => exact h
  | next _ _ _ ih => exact ih

theorem Ends.mem (hs : Successor S order next) (h : Ends next stop used p q) (hp : S p) : S q := by
  induction h with
  | here _ => exact hp
  | next _ _ _ ih => exact ih (hs.closed _ hp)

theorem Ends.le (hs : Successor S order next) (h : Ends next stop used p q) (hp : S p) :
    order p ≤ order q := by
  induction h with
  | here _ => exact le_rfl
  | next _ _ _ ih => exact (hs.lt _ hp).le.trans (ih (hs.closed _ hp))

/-- What a scan passes over is used, and no element to stop at. -/
theorem Ends.passed (hs : Successor S order next) (h : Ends next stop used p q) (hp : S p)
    (hr : S r) (hpr : order p ≤ order r) (hrq : order r < order q) : ¬stop r ∧ used r := by
  induction h with
  | here _ => exact absurd (hpr.trans_lt hrq) (lt_irrefl _)
  | @next p q hstop hused _ ih =>
    rcases hpr.eq_or_lt with heq | hlt
    · obtain rfl := hs.inj p r hp hr heq
      exact ⟨hstop, hused⟩
    · exact ih (hs.closed _ hp) (hs.gap p r hp hr hlt) hrq

/-- A scan does not pass an element that would end it. -/
theorem Ends.le_of_ends (hs : Successor S order next) (h : Ends next stop used p q) (hp : S p)
    (hr : S r) (hpr : order p ≤ order r) (hend : stop r ∨ ¬used r) : order q ≤ order r := by
  refine le_of_not_gt fun hlt => ?_
  obtain ⟨hstop, hused⟩ := h.passed hs hp hr hpr hlt
  exact hend.elim hstop fun hunused => hunused hused

end Scan
