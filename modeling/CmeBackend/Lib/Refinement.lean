import Mathlib.Data.List.Basic

/-!
# Steps that are runs of smaller steps

A system whose steps are coarse, and one whose steps are fine. The coarse one is a refinement of the
fine one if every step of it is a run of the fine one by actions of some kind.

* `Leads`: a run by actions of a kind.
* `leads_foldl`: a run of coarse steps is a run of fine ones.
-/

namespace Refinement

variable {σ τ α β : Type} {f : σ → α → σ} {ok : α → Prop} {s s' s'' : σ}

/-- A run by actions that are all `ok` leads from one state to the other. -/
def Leads (f : σ → α → σ) (ok : α → Prop) (s s' : σ) : Prop :=
  ∃ as : List α, (∀ a ∈ as, ok a) ∧ as.foldl f s = s'

theorem Leads.refl : Leads f ok s s := ⟨[], by simp, rfl⟩

theorem Leads.one {a : α} (ha : ok a) : Leads f ok s (f s a) :=
  ⟨[a], List.forall_mem_singleton.2 ha, rfl⟩

theorem Leads.trans (h : Leads f ok s s') (h' : Leads f ok s' s'') : Leads f ok s s'' := by
  obtain ⟨as, has, rfl⟩ := h
  obtain ⟨bs, hbs, rfl⟩ := h'
  exact ⟨as ++ bs, List.forall_mem_append.2 ⟨has, hbs⟩, List.foldl_append⟩

theorem Leads.next (h : Leads f ok s s') {a : α} (ha : ok a) : Leads f ok s (f s' a) :=
  h.trans (.one ha)

/-- If every coarse step from related states is a run of fine steps to related states, so is a run of
coarse steps. The coarse system has an invariant. -/
theorem leads_foldl {g : τ → β → τ} {I : τ → Prop} {R : σ → τ → Prop} {kind : β → Prop}
    (hI : ∀ t b, I t → kind b → I (g t b))
    (hstep : ∀ s t b, I t → kind b → R s t → ∃ s', Leads f ok s s' ∧ R s' (g t b))
    {bs : List β} (hbs : ∀ b ∈ bs, kind b) {t : τ} (hinv : I t) (hR : R s t) :
    ∃ s', Leads f ok s s' ∧ R s' (bs.foldl g t) := by
  induction bs generalizing s t with
  | nil => exact ⟨s, .refl, hR⟩
  | cons b bs ih =>
    obtain ⟨hb, hbs⟩ := List.forall_mem_cons.1 hbs
    obtain ⟨s', hleads, hR'⟩ := hstep s t b hinv hb hR
    obtain ⟨s'', hleads', hR''⟩ := ih hbs (hI t b hinv hb) hR'
    exact ⟨s'', hleads.trans hleads', hR''⟩

end Refinement
