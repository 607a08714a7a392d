import CmeBackend.Blockchain.Amounts

/-!
# The wallet ledger

In every state of every run a user's balance is what the settled deposits brought in less what
the settled withdrawals took out (`balance_eq_settled`). The balance and the status of a transfer
are written by separate statements; that both count or neither does is the atomicity of the batch.
-/

namespace Cme.Blockchain

open Runs Transaction

/-- A settled transfer of a user. -/
def WalletTransfer.Settled (u : Nat) (type : TransferType) (t : WalletTransfer) : Prop :=
  t.userId = u ∧ t.type = type ∧ t.status = .done

instance (u : Nat) (type : TransferType) (t : WalletTransfer) : Decidable (t.Settled u type) :=
  inferInstanceAs (Decidable (_ ∧ _ ∧ _))

namespace MkcRelay

/-- The ledger equation of a user. -/
def Balanced (R : Ethers) (u : Nat) (d : WalletDb) : Prop :=
  balanceOf R d u = amountOf R (·.Settled u .toGameWallet) d -
    amountOf R (·.Settled u .toExternalWallet) d

variable {R : Relay} {d d' : WalletDb} {u : Nat} {t : SelectedTransfer} {type : TransferType}

/-- Settling an open transfer adds its amount to the settled ones of its user and type. -/
theorem amountOf_settled_done {hf} (ht : t.toWalletTransfer ∈ d.transfers.rows) (hopen : t.Open) :
    amountOf R.toEthers (·.Settled u type)
        (d.updateTransfer t.id (fun r => { r with status := .done }) hf) =
      amountOf R.toEthers (·.Settled u type) d +
        if t.userId = u ∧ t.type = type then R.wei t.mkcAmount else 0 := by
  have hbefore : ¬t.Settled u type := by
    rintro ⟨-, -, hd⟩
    rcases hopen with h | h <;> simp [h] at hd
  apply (amountOf_updateTransfer ht rfl).trans
  rw [if_neg hbefore]
  simp [WalletTransfer.Settled]

/-- A transfer that does not become settled does not count. -/
theorem amountOf_settled_open {f : WalletTransfer → WalletTransfer} {hf}
    (ht : t.toWalletTransfer ∈ d.transfers.rows) (hopen : t.Open)
    (hamount : (f t.toWalletTransfer).mkcAmount = t.mkcAmount)
    (hstatus : (f t.toWalletTransfer).status ≠ .done) :
    amountOf R.toEthers (·.Settled u type) (d.updateTransfer t.id f hf) =
      amountOf R.toEthers (·.Settled u type) d := by
  have hbefore : ¬t.Settled u type := by
    rintro ⟨-, -, hd⟩
    rcases hopen with h | h <;> simp [h] at hd
  have hafter : ¬(f t.toWalletTransfer).Settled u type := fun h => hstatus h.2.2
  apply (amountOf_updateTransfer ht hamount).trans
  rw [if_neg hbefore, if_neg hafter]
  omega

/-- A row that stays open or fails leaves the equation alone. -/
theorem Balanced.update {f : WalletTransfer → WalletTransfer} {hf} (h : Balanced R.toEthers u d)
    (ht : t.toWalletTransfer ∈ d.transfers.rows) (hopen : t.Open)
    (hamount : (f t.toWalletTransfer).mkcAmount = t.mkcAmount)
    (hstatus : (f t.toWalletTransfer).status ≠ .done) :
    Balanced R.toEthers u (d.updateTransfer t.id f hf) := by
  unfold Balanced
  rw [amountOf_settled_open ht hopen hamount hstatus, amountOf_settled_open ht hopen hamount hstatus,
    balanceOf_updateTransfer]
  exact h

/-- Settling a transfer keeps the equation if its wallet moves by the amount. -/
theorem Balanced.settle {hf} (h : Balanced R.toEthers u d) (hopen : t.Open)
    (ht : t.toWalletTransfer ∈ d.transfers.rows) (htransfers : d'.transfers = d.transfers)
    (hbalance : balanceOf R.toEthers d' u = balanceOf R.toEthers d u +
      (if t.userId = u ∧ t.type = .toGameWallet then R.wei t.mkcAmount else 0) -
      if t.userId = u ∧ t.type = .toExternalWallet then R.wei t.mkcAmount else 0) :
    Balanced R.toEthers u (d'.updateTransfer t.id (fun r => { r with status := .done }) hf) := by
  have ht' : t.toWalletTransfer ∈ d'.transfers.rows := htransfers ▸ ht
  unfold Balanced at *
  rw [amountOf_settled_done ht' hopen, amountOf_settled_done ht' hopen, balanceOf_updateTransfer,
    amountOf_of_transfers htransfers, amountOf_of_transfers htransfers, hbalance, h]
  omega

/-- One transfer's processing keeps the equation. -/
theorem Balanced.handled {o : ChainOutcome} (ht : t.toWalletTransfer ∈ d.transfers.rows)
    (hopen : t.Open) (h : Balanced R.toEthers u d) (hd : Handled R t o d d') :
    Balanced R.toEthers u d' := by
  cases hd with
  | wait => exact h
  | submit => exact h.update ht hopen rfl (by simp)
  | credit htype _ hc =>
    refine h.settle hopen ht hc.transfers ?_
    rw [hc.balanceOf]
    by_cases hu : u = t.userId
    · simp [hu, htype]
    · simp [hu, htype, Ne.symm hu]
  | debit htype _ hc =>
    refine h.settle hopen ht hc.transfers ?_
    rw [hc.balanceOf]
    by_cases hu : u = t.userId
    · simp [hu, htype]
    · simp [hu, htype, Ne.symm hu]
  | revert _ hr =>
    cases hr with
    | retry =>
      refine h.update ht hopen rfl ?_
      rcases hopen with h | h <;> simp [h]
    | release _ _ _ hl =>
      -- The reserve is released; the balance is not touched.
      have hb : Balanced R.toEthers u _ := h
      unfold Balanced at hb
      rw [← hl.balanceOf, ← amountOf_of_transfers hl.transfers,
        ← amountOf_of_transfers hl.transfers] at hb
      exact Balanced.update hb (hl.transfers ▸ ht) hopen rfl (by simp)
    | fail => exact h.update ht hopen rfl (by simp)

/-- A new transfer is pending, so it does not count. -/
theorem Balanced.step {w : World} {a : Action} (h : Balanced R.toEthers u w.db) :
    Balanced R.toEthers u (step R w a).db := by
  refine step_inv h (fun user amount hash => ?_) (fun v address amount faults d' _ hr => ?_)
    fun t o d d' ht hopen hI hd => hI.handled ht hopen hd
  · unfold insertDeposit
    split
    · exact h
    · unfold Balanced at *
      rw [amountOf_insertTransfer, amountOf_insertTransfer, balanceOf_insertTransfer]
      simpa [WalletTransfer.Settled] using h
  · unfold Balanced at *
    rw [hr.amountOf, hr.amountOf, hr.balanceOf]
    simpa [WalletTransfer.Settled] using h

/-- **The ledger equation.** From a user without transfers and without balance, every state of
every run has the balance that the settled transfers account for. -/
theorem balance_eq_settled {w₀ w : World} (hnone : ∀ t ∈ w₀.db.transfers.rows, t.userId ≠ u)
    (hzero : balanceOf R.toEthers w₀.db u = 0) (h : Reach (graph (step R)) always w₀ w) :
    balanceOf R.toEthers w.db u =
      amountOf R.toEthers (·.Settled u .toGameWallet) w.db -
        amountOf R.toEthers (·.Settled u .toExternalWallet) w.db := by
  have h0 : Balanced R.toEthers u w₀.db := by
    have hsum : ∀ type, amountOf R.toEthers (·.Settled u type) w₀.db = 0 := fun type =>
      amountOf_eq_zero fun t ht hs => hnone t ht hs.1
    unfold Balanced
    rw [hzero, hsum, hsum]
    rfl
  exact h.inv (I := fun w => Balanced R.toEthers u w.db) h0 fun w a w' hw _ hst => hst ▸ hw.step

/-- A deposit of 3 MKC that is forwarded and settled, and a withdrawal of 1 MKC. -/
def depositAndWithdrawal : List Action :=
  [.transferListener ⟨sampleAddress, 3 * 10 ^ 18, "0xdef", 0⟩ Faults.none,
    sampleBatch 1 sampleSuccess, sampleBatch 1 sampleSuccess,
    .transferToExternalWallet 2 sampleAddress "1" Faults.none,
    sampleBatch 2 sampleSuccess, sampleBatch 2 sampleSuccess]

theorem balance_eq_settled_sample :
    balanceOf sampleRelay.toEthers (depositAndWithdrawal.foldl (step sampleRelay) sampleWorld).db 2 =
      amountOf sampleRelay.toEthers (·.Settled 2 .toGameWallet)
          (depositAndWithdrawal.foldl (step sampleRelay) sampleWorld).db -
        amountOf sampleRelay.toEthers (·.Settled 2 .toExternalWallet)
          (depositAndWithdrawal.foldl (step sampleRelay) sampleWorld).db :=
  balance_eq_settled (by decide) (by decide) (Reach.foldl depositAndWithdrawal .refl)

/-- They leave 2 MKC. -/
example : balanceOf sampleRelay.toEthers
    (depositAndWithdrawal.foldl (step sampleRelay) sampleWorld).db 2 = 2 * 10 ^ 18 := by
  decide +kernel

end MkcRelay

end Cme.Blockchain
