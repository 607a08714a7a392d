import CmeBackend.Lib.Runs
import CmeBackend.Storage.Transfer
import Mathlib.Algebra.Group.Pi.Lemmas
import Mathlib.Logic.Relation
import Mathlib.Tactic.Abel

/-!
# What a vault conserves

* `Holdings`: a village and a vault, with what each holds of every resource. What a vault is for is
  `Holdings.move`: some of one resource goes from the one to the other, so no total changes.
* `Passes.holdings_step`: what a transfer does to the holdings. The vault row gets the amount
  whatever type it has, and every row of the requested type in the village loses it.
* `Passes.refines`: the transfers that are a `Holdings.move`. `step_conserves_iff` says that these
  are all that keep the totals.
* `vault_conserved`: runs of such transfers.
-/

namespace Cme.Storage

open Runs

/-! ## Holdings -/

/-- What a village and a vault hold of each resource. -/
@[ext] structure Holdings (T : Type) where
  village : T → ℤ
  vault : T → ℤ

namespace Holdings

variable {T : Type}

/-- How much there is of each resource. -/
def total (h : Holdings T) : T → ℤ := h.village + h.vault

variable [DecidableEq T]

/-- `n` of the resource `t` goes from the village to the vault. -/
def move (h : Holdings T) (t : T) (n : ℤ) : Holdings T where
  village := h.village + Pi.single t (-n)
  vault := h.vault + Pi.single t n

/-- A move changes no total. -/
theorem total_move (h : Holdings T) (t : T) (n : ℤ) : (h.move t n).total = h.total := by
  simp only [total, move, Pi.single_neg]
  abel

/-- One holding becomes another by moves. -/
def Moves : Holdings T → Holdings T → Prop :=
  Relation.ReflTransGen fun h h' => ∃ t n, h' = h.move t n

theorem Moves.total_eq {h h' : Holdings T} (hm : Moves h h') : h'.total = h.total := by
  induction hm with
  | refl => rfl
  | tail _ hstep ih =>
    obtain ⟨t, n, rfl⟩ := hstep
    rw [total_move, ih]

/-- What is added to one resource here and to one there makes no difference in total exactly if it
is the same resource and the amounts cancel, or both are 0. -/
theorem single_add_single_eq_zero {t u : T} {a b : ℤ} :
    (Pi.single t a + Pi.single u b : T → ℤ) = 0 ↔
      (t = u ∧ a + b = 0) ∨ (t ≠ u ∧ a = 0 ∧ b = 0) := by
  by_cases h : t = u
  · subst h
    simp [← Pi.single_add]
  · constructor
    · intro heq
      have ht := congrFun heq t
      have hu := congrFun heq u
      rw [Pi.add_apply, Pi.single_eq_same, Pi.single_eq_of_ne h] at ht
      rw [Pi.add_apply, Pi.single_eq_same, Pi.single_eq_of_ne (Ne.symm h)] at hu
      exact .inr ⟨h, by simpa using ht, by simpa using hu⟩
    · rintro (⟨heq, -⟩ | ⟨-, rfl, rfl⟩)
      · exact absurd heq h
      · simp

end Holdings

/-! ## Transfers as moves -/

variable {C : Catalog} {d d₀ : Db C} {v f : ℕ} {req : Request} {facility : Facility} {t : C.Ref}
  {n : ℤ} {k : TransferType}

/-- What the vault row of a facility has of a resource type. -/
def storedOf (d : Db C) (facilityId : ℕ) (t : C.Ref) : ℤ :=
  match storageOf d facilityId with
  | none => 0
  | some s => if s.resourceType = t then s.count else 0

/-- The holdings of a village and of a facility. -/
def holdings (d : Db C) (villageId facilityId : ℕ) : Holdings C.Ref where
  village := d.totalOf villageId
  vault := storedOf d facilityId

theorem storedOf_eq (t : C.Ref) :
    storedOf d f = Pi.single (vaultType d f t) (storedCount d f) := by
  funext u
  unfold storedOf vaultType storedCount
  cases storageOf d f with
  | none => simp
  | some s => simp [Pi.single_apply, eq_comm]

/-- What a transfer does to the holdings. -/
theorem Passes.holdings_step (h : Passes d v f req facility t n) :
    holdings (step v f d req) v f =
      { village := (holdings d v f).village +
          Pi.single t ((d.rowsOfType v t).length * req.transferType.intoVillage n)
        vault := (holdings d v f).vault +
          Pi.single (vaultType d f t) (req.transferType.intoVault n) } := by
  obtain rfl := h.facility_id
  rw [step_of_passes h]
  refine Holdings.ext ?_ ?_
  · funext u
    show Db.totalOf _ _ _ = _
    unfold Db.totalOf Db.rowsOfType
    rw [rowsOf_move, ← h.type_eq]
    apply (totalOf_saveResources_one u).trans
    simp only [holdings, Pi.add_apply, Pi.single_apply, ← intoVillage_eq_added]
    rfl
  · show storedOf _ _ = storedOf d _ + _
    rw [storedOf_eq t, storedOf_eq t, vaultType_move, storedCount_move, Pi.single_add]

/-- The condition under which a request conserves every resource: if it passes, it requests nothing,
or it is a deposit or a withdrawal, its type has one row in the village, and the vault has no row
yet or one of this type. -/
def Conserving (v f : ℕ) (d : Db C) (req : Request) : Prop :=
  ∀ facility t n, Passes d v f req facility t n →
    req.resource.count = 0 ∨
      (req.transferType.Declared ∧ (d.rowsOfType v t).length = 1 ∧
        ∀ s, storageOf d f = some s → s.resourceType = t)

theorem TransferType.intoVault_eq_zero_iff (k : TransferType) : k.intoVault n = 0 ↔ n = 0 := by
  unfold TransferType.intoVault
  split <;> omega

theorem vaultType_eq_self_iff :
    vaultType d f t = t ↔ ∀ s, storageOf d f = some s → s.resourceType = t := by
  unfold vaultType
  cases storageOf d f <;> simp

/-- A request that passes and meets the condition moves one resource. -/
theorem Passes.refines (hp : Passes d v f req facility t n) (h : Conserving v f d req) :
    holdings (step v f d req) v f =
      (holdings d v f).move t (req.transferType.intoVault n) := by
  rw [hp.holdings_step, Holdings.move]
  rcases h facility t n hp with hzero | ⟨hk, hrows, hvault⟩
  · rw [hp.allowed.eq_zero_iff.2 hzero]
    simp [TransferType.intoVault, TransferType.intoVillage]
  · rw [hrows, vaultType_eq_self_iff.2 hvault]
    rcases hk with hk | hk <;> simp [hk]

/-- The amounts cancel if nothing is moved, or if one row of the village takes what the vault gives
or gives what it takes. -/
theorem TransferType.cancels_iff {rows : ℕ} (hrows : 0 < rows) :
    rows * k.intoVillage n + k.intoVault n = 0 ↔
      n = 0 ∨ k.Declared ∧ rows = 1 := by
  unfold TransferType.Declared
  have hmul : rows * n = n ↔ n = 0 ∨ rows = 1 := by
    rw [mul_left_eq_self₀, or_comm, Nat.cast_eq_one]
  cases k with
  | deposit =>
    have hzero : -(rows * n) + n = 0 ↔ rows * n = n := by omega
    simpa [hzero] using hmul
  | withdraw =>
    have hzero : rows * n + -n = 0 ↔ rows * n = n := by omega
    simpa [hzero] using hmul
  | other k =>
    -- Both sides grow.
    have hsucc : rows * n + n = 0 ↔ n = 0 := by
      rw [← add_one_mul, mul_eq_zero, or_iff_right (by omega)]
    simpa using hsucc

/-- The condition is exact: a request keeps the total of every resource if and only if it meets
it. -/
theorem step_conserves_iff :
    (holdings (step v f d req) v f).total = (holdings d v f).total ↔ Conserving v f d req := by
  constructor
  · intro htotal facility t n hp
    obtain ⟨r, hr, -⟩ := hp.enough
    have hsum : (Pi.single t ((d.rowsOfType v t).length * req.transferType.intoVillage n) +
        Pi.single (vaultType d f t) (req.transferType.intoVault n) : C.Ref → ℤ) = 0 := by
      rw [hp.holdings_step, Holdings.total, Holdings.total, add_add_add_comm] at htotal
      exact left_eq_add.1 htotal.symm
    rw [← hp.allowed.eq_zero_iff, ← vaultType_eq_self_iff]
    rcases Holdings.single_add_single_eq_zero.1 hsum with ⟨htype, hamount⟩ | ⟨-, -, hvault⟩
    · rcases (TransferType.cancels_iff (rowsOfType_length_pos hr)).1 hamount with h | ⟨hk, hrows⟩
      · exact .inl h
      · exact .inr ⟨hk, hrows, htype.symm⟩
    · exact .inl (req.transferType.intoVault_eq_zero_iff.1 hvault)
  · intro h
    rcases step_cases d v f req with heq | ⟨facility, t, n, hp⟩
    · rw [heq]
    · rw [hp.refines h, Holdings.total_move]

/-- In a run of requests that all meet the condition, resources only move between the village and
the vault. -/
theorem reach_refines (h : Reach (graph (step v f)) (Conserving v f) d₀ d) :
    (holdings d₀ v f).Moves (holdings d v f) := by
  refine h.inv (I := fun d => (holdings d₀ v f).Moves (holdings d v f)) .refl ?_
  intro d req d' hd hok hstep
  rw [show d' = _ from hstep]
  rcases step_cases d v f req with heq | ⟨facility, t, n, hp⟩
  · rwa [heq]
  · exact hd.tail ⟨t, _, hp.refines hok⟩

/-- **Vault conservation.** In a run of requests that all meet the condition, what the village and
the vault together have of each resource stays what it was. -/
theorem vault_conserved (h : Reach (graph (step v f)) (Conserving v f) d₀ d) (t : C.Ref) :
    d.totalOf v t + storedOf d f t = d₀.totalOf v t + storedOf d₀ f t :=
  congrFun (reach_refines h).total_eq t

theorem conserving_sampleDeposit (n : ℤ) : Conserving 1 1 sampleDb (sampleDeposit n) := by
  intro facility t m hp
  obtain rfl := hp.eq_mkc rfl
  exact .inr ⟨.inl rfl, by decide, fun s hs => by cases hs⟩

theorem vault_conserved_sample :
    storedOf (step 1 1 sampleDb (sampleDeposit 10)) 1 mkc = 10 ∧
      (step 1 1 sampleDb (sampleDeposit 10)).totalOf 1 mkc +
          storedOf (step 1 1 sampleDb (sampleDeposit 10)) 1 mkc =
        sampleDb.totalOf 1 mkc + storedOf sampleDb 1 mkc :=
  ⟨by decide +kernel, vault_conserved (Reach.refl.next _ (conserving_sampleDeposit 10)) mkc⟩

/-- A vault with 10 mkc gives 5 food, which were nowhere before. -/
theorem food_withdrawn_from_mkc :
    ¬∀ (C : Catalog) (v f : ℕ) (d₀ d : Db C),
      Reach (graph (step v f)) (fun _ req => req.transferType.Declared) d₀ d →
        ∀ t, d.totalOf v t + storedOf d f t = d₀.totalOf v t + storedOf d₀ f t := by
  intro hall
  have hdeposit : Reach (graph (step 1 1)) (fun _ req => req.transferType.Declared) sampleDb
      (step 1 1 sampleDb (sampleDeposit 10)) := Reach.refl.next _ (.inl rfl)
  have hfood := hall _ 1 1 _ _ (hdeposit.next (sampleWithdrawal "food" 5) (.inr rfl)) food
  exact absurd hfood (by decide +kernel)

end Cme.Storage
