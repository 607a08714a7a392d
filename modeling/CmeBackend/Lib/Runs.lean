import Mathlib.Data.List.Induction

/-!
# Runs of a system

A system is a step relation `step s a s'`: from the state `s` the action `a` leads to `s'`. An
action carries everything the system does not choose itself: the request, the order, the
failures. A property of every run is proved as an inductive invariant (`Reach.inv`).

`Reach step ok s₀ s`: a run from `s₀` reaches `s` by steps that all meet the condition `ok`. The
condition sees the state before the step and the action. With `ok := always` it is every run.

A deterministic system is the graph of a function (`graph f`), and its runs are folds
(`Reach.foldl`, `Reach.meets`).

`Reply` is how a call to another system ends.
-/

namespace Runs

variable {σ α : Type}

/-- How a call ends. -/
inductive Reply where
  | ok
  /-- The call fails, and has no effect. -/
  | refused
  /-- The call has its effect, and its caller hears of an error. -/
  | lost
  deriving DecidableEq

/-- No condition on the steps of a run. -/
def always : σ → α → Prop := fun _ _ => True

/-- The states that runs from `s₀` reach by steps that meet `ok`. -/
inductive Reach (step : σ → α → σ → Prop) (ok : σ → α → Prop) (s₀ : σ) : σ → Prop
  | refl : Reach step ok s₀ s₀
  | step {s s' : σ} {a : α} : Reach step ok s₀ s → ok s a → step s a s' → Reach step ok s₀ s'

/-- The step relation of a deterministic system. -/
def graph (f : σ → α → σ) : σ → α → σ → Prop := fun s a s' => s' = f s a

variable {step : σ → α → σ → Prop} {ok : σ → α → Prop} {s₀ s : σ}

/-- An invariant that every step keeps holds in every state that a run reaches. -/
theorem Reach.inv {I : σ → Prop} (h : Reach step ok s₀ s) (h0 : I s₀)
    (hstep : ∀ s a s', I s → ok s a → step s a s' → I s') : I s := by
  induction h with
  | refl => exact h0
  | step _ hok hst ih => exact hstep _ _ _ ih hok hst

/-- One more step of a deterministic system. -/
theorem Reach.next {f : σ → α → σ} (h : Reach (graph f) ok s₀ s) (a : α) (hok : ok s a) :
    Reach (graph f) ok s₀ (f s a) :=
  .step h hok rfl

/-- The run of a deterministic system along a list of actions. -/
theorem Reach.foldl {f : σ → α → σ} (as : List α) (h : Reach (graph f) always s₀ s) :
    Reach (graph f) always s₀ (as.foldl f s) := by
  induction as generalizing s with
  | nil => exact h
  | cons a as ih => exact ih (h.next a trivial)

/-- What every step of a deterministic system keeps, holds after every run. -/
theorem foldl_inv {f : σ → α → σ} {I : σ → Prop} (h0 : I s₀) (hstep : ∀ s a, I s → I (f s a))
    (as : List α) : I (as.foldl f s₀) := by
  refine (Reach.refl.foldl (f := f) as).inv (I := I) h0 ?_
  rintro s a s' hs - rfl
  exact hstep s a hs

/-- A list of actions of which all meet the condition. -/
def Meets (f : σ → α → σ) (ok : σ → α → Prop) : σ → List α → Prop
  | _, [] => True
  | s, a :: as => ok s a ∧ Meets f ok (f s a) as

instance decidableMeets (f : σ → α → σ) (ok : σ → α → Prop) [∀ s a, Decidable (ok s a)] :
    ∀ s as, Decidable (Meets f ok s as)
  | _, [] => isTrue trivial
  | s, a :: as =>
    have := decidableMeets f ok (f s a) as
    inferInstanceAs (Decidable (_ ∧ _))

/-- The run along a list of actions that meet the condition. -/
theorem Reach.meets {f : σ → α → σ} {as : List α} (h : Reach (graph f) ok s₀ s)
    (hok : Meets f ok s as) : Reach (graph f) ok s₀ (as.foldl f s) := by
  induction as generalizing s with
  | nil => exact h
  | cons a as ih => exact ih (h.next a hok.1) hok.2

/-- What every step that meets the condition keeps, holds after a run of such steps. -/
theorem Meets.inv {f : σ → α → σ} {as : List α} {I : σ → Prop} (h : Meets f ok s₀ as) (h0 : I s₀)
    (hstep : ∀ s a, I s → ok s a → I (f s a)) : I (as.foldl f s₀) := by
  refine (Reach.refl.meets h).inv (I := I) h0 ?_
  rintro s a s' hs hok rfl
  exact hstep s a hs hok

theorem meets_concat {f : σ → α → σ} {as : List α} {a : α} :
    Meets f ok s (as ++ [a]) ↔ Meets f ok s as ∧ ok (as.foldl f s) a := by
  induction as generalizing s with
  | nil => exact ⟨fun h => ⟨trivial, h.1⟩, fun h => ⟨h.2, trivial⟩⟩
  | cons b as ih =>
    show ok s b ∧ Meets f ok (f s b) (as ++ [a]) ↔ (ok s b ∧ Meets f ok (f s b) as) ∧ _
    rw [ih, and_assoc]
    rfl

/-- A property of runs that holds at the start, and that a step keeps exactly if it meets the
condition, holds of exactly the runs whose steps all meet the condition. -/
theorem iff_meets {f : σ → α → σ} {P : List α → Prop} (hnil : P [])
    (hinit : ∀ as a, P (as ++ [a]) → P as)
    (hstep : ∀ as a, P as → (P (as ++ [a]) ↔ ok (as.foldl f s) a)) (as : List α) :
    P as ↔ Meets f ok s as := by
  induction as using List.reverseRecOn with
  | nil => exact iff_of_true hnil trivial
  | append_singleton as a ih =>
    rw [meets_concat, ← ih]
    constructor
    · intro h
      exact ⟨hinit as a h, (hstep as a (hinit as a h)).1 h⟩
    · rintro ⟨h, hok⟩
      exact (hstep as a h).2 hok

/-- What holds at every point of a run and one step later. -/
theorem forall_prefix_concat {as : List α} {a : α} {P : List α → Prop} :
    (∀ bs, bs <+: as ++ [a] → P bs) ↔ (∀ bs, bs <+: as → P bs) ∧ P (as ++ [a]) := by
  constructor
  · intro h
    exact ⟨fun bs hbs => h bs (hbs.trans (List.prefix_append as [a])), h _ List.prefix_rfl⟩
  · rintro ⟨h, hlast⟩ bs hbs
    rcases List.prefix_concat_iff.1 hbs with rfl | hbs
    · exact hlast
    · exact h bs hbs

/-- Under an invariant, a property of states that a step keeps exactly if it meets the condition
holds at every point of exactly the runs whose steps all meet the condition. -/
theorem holds_iff_meets {f : σ → α → σ} {I P : σ → Prop} (hinv₀ : I s₀)
    (hinv : ∀ s a, I s → I (f s a)) (h₀ : P s₀)
    (hstep : ∀ s a, I s → P s → (P (f s a) ↔ ok s a)) (as : List α) :
    (∀ bs, bs <+: as → P (bs.foldl f s₀)) ↔ Meets f ok s₀ as := by
  have hrun : ∀ as : List α, I (as.foldl f s₀) := foldl_inv hinv₀ hinv
  refine iff_meets (P := fun as => ∀ bs, bs <+: as → P (bs.foldl f s₀)) ?_ (fun as a has => ?_)
    (fun as a has => ?_) as
  · intro bs hbs
    rw [List.prefix_nil.1 hbs]
    exact h₀
  · exact fun bs hbs => has bs (hbs.trans (List.prefix_append as [a]))
  · rw [forall_prefix_concat (P := fun bs => P (bs.foldl f s₀)), List.foldl_append, List.foldl_cons,
      List.foldl_nil, hstep _ a (hrun as) (has as List.prefix_rfl)]
    exact and_iff_right has

end Runs
