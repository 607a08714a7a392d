import CmeBackend.Blockchain.Amounts

/-!
# The reserve for withdrawals

`balance_pending_withdrawal` reserves the amounts of a user's open withdrawals.

* `reserve_eq_withheld`: in every state the reserve is the sum over the open withdrawals and those
  that failed after they were submitted. The guard of `incrementTransferRetriesOrRevert` releases
  the reserve of a pending withdrawal only: one that was submitted may still be paid.
* `solvent_of_nonneg`: the reserve covers the open withdrawals and the balance covers the reserve,
  in every run in which no withdrawal of the user has a negative amount. The service does not
  check the sign, and `parseEther` accepts a minus sign (`negative_withdrawal`).
-/

namespace Cme.Blockchain

open Runs Transaction

/-- An open withdrawal of a user. -/
def WalletTransfer.OpenWithdrawal (u : Nat) (t : WalletTransfer) : Prop :=
  t.userId = u ∧ t.type = .toExternalWallet ∧ t.Open

/-- A withdrawal of a user that is open, or failed after it was submitted. -/
def WalletTransfer.Withheld (u : Nat) (t : WalletTransfer) : Prop :=
  t.userId = u ∧ t.type = .toExternalWallet ∧
    (t.Open ∨ t.status = .failed ∧ t.transactionHash ≠ none)

instance (u : Nat) (t : WalletTransfer) : Decidable (t.OpenWithdrawal u) :=
  inferInstanceAs (Decidable (_ ∧ _ ∧ _))

instance (u : Nat) (t : WalletTransfer) : Decidable (t.Withheld u) :=
  inferInstanceAs (Decidable (_ ∧ _ ∧ (_ ∨ _ ∧ _)))

namespace MkcRelay

variable {R : Relay} {d d' : WalletDb} {u : Nat} {t : SelectedTransfer} {o : ChainOutcome}

/-! ## What the reserve withholds -/

/-- The reserve of a user is what is withheld from them. The transaction hash tells the
withdrawals that were submitted from those that were not. -/
structure Reserved (R : Ethers) (u : Nat) (d : WalletDb) : Prop where
  pending : pendingOf R d u = amountOf R (·.Withheld u) d
  hash_none : ∀ t ∈ d.transfers.rows, t.userId = u → t.type = .toExternalWallet →
    t.status = .pending → t.transactionHash = none
  hash_some : ∀ t ∈ d.transfers.rows, t.userId = u → t.type = .toExternalWallet →
    t.status = .inProgress → t.transactionHash ≠ none

/-- The processing of one row keeps the reserve if the wallet moves by what the row no longer
withholds. -/
theorem Reserved.update {f : WalletTransfer → WalletTransfer} {hf} (h : Reserved R.toEthers u d)
    (ht : t.toWalletTransfer ∈ d.transfers.rows) (htransfers : d'.transfers = d.transfers)
    (hamount : (f t.toWalletTransfer).mkcAmount = t.mkcAmount)
    (hpending : pendingOf R.toEthers d' u = pendingOf R.toEthers d u -
      (if t.Withheld u then R.wei t.mkcAmount else 0) +
      if (f t.toWalletTransfer).Withheld u then R.wei t.mkcAmount else 0)
    (hnone : (f t.toWalletTransfer).userId = u → (f t.toWalletTransfer).type = .toExternalWallet →
      (f t.toWalletTransfer).status = .pending → (f t.toWalletTransfer).transactionHash = none)
    (hsome : (f t.toWalletTransfer).userId = u → (f t.toWalletTransfer).type = .toExternalWallet →
      (f t.toWalletTransfer).status = .inProgress →
      (f t.toWalletTransfer).transactionHash ≠ none) :
    Reserved R.toEthers u (d'.updateTransfer t.id f hf) := by
  have ht' : t.toWalletTransfer ∈ d'.transfers.rows := htransfers ▸ ht
  refine ⟨?_, ?_, ?_⟩
  · rw [pendingOf_updateTransfer, hpending, h.pending]
    refine Eq.trans ?_ (amountOf_updateTransfer ht' hamount).symm
    rw [amountOf_of_transfers htransfers]
  · refine Table.forall_mem_update hf ht' rfl hnone fun x hx _ => h.hash_none x (htransfers ▸ hx)
  · refine Table.forall_mem_update hf ht' rfl hsome fun x hx _ => h.hash_some x (htransfers ▸ hx)

/-- One transfer's processing keeps the reserve. -/
theorem Reserved.handled (ht : t.toWalletTransfer ∈ d.transfers.rows) (hopen : t.Open)
    (h : Reserved R.toEthers u d) (hd : Handled R t o d d') : Reserved R.toEthers u d' := by
  have hnone := h.hash_none _ ht
  have hsome := h.hash_some _ ht
  cases hd with
  | wait => exact h
  | submit hash hst =>
    refine h.update ht rfl rfl ?_ (by simp) (by simp)
    simp [WalletTransfer.Withheld, WalletTransfer.Open, hst]
  | credit htype hst hc =>
    refine h.update ht hc.transfers rfl ?_ (by simp) (by simp)
    simp [WalletTransfer.Withheld, htype, hc.pendingOf]
  | debit htype hst hc =>
    refine h.update ht hc.transfers rfl ?_ (by simp) (by simp)
    rw [hc.pendingOf]
    simp [WalletTransfer.Withheld, WalletTransfer.Open, htype, hst, eq_comm]
  | revert _ hr =>
    cases hr with
    | retry =>
      refine h.update ht rfl rfl ?_ hnone hsome
      exact (sub_add_cancel _ _).symm
    | release _ htype hst hl =>
      refine h.update ht hl.transfers rfl ?_ (by simp) (by simp)
      rw [hl.pendingOf]
      by_cases hu : t.userId = u
      · simp [WalletTransfer.Withheld, WalletTransfer.Open, htype, hst, hu, hnone hu htype hst]
      · simp [WalletTransfer.Withheld, hu, Ne.symm hu]
    | fail _ hne =>
      refine h.update ht rfl rfl ?_ (by simp) (by simp)
      -- A withdrawal that fails here was in progress, so it has a transaction hash.
      by_cases hext : t.userId = u ∧ t.type = .toExternalWallet
      · have hst : t.status = .inProgress := hopen.resolve_left fun hp => hne ⟨hext.2, hp⟩
        simp [WalletTransfer.Withheld, WalletTransfer.Open, hext.1, hext.2, hst,
          hsome hext.1 hext.2 hst]
      · simp only [WalletTransfer.Withheld, ← and_assoc, hext, false_and, if_false]
        omega

/-- A step keeps the reserve. -/
theorem Reserved.step {w : World} {a : Action} (h : Reserved R.toEthers u w.db) :
    Reserved R.toEthers u (step R w a).db := by
  refine step_inv h (fun user amount hash => ?_) (fun v address amount faults d' _ hr => ?_)
    fun t o d d' ht hopen hI hd => hI.handled ht hopen hd
  · unfold insertDeposit
    split
    · exact h
    · refine ⟨?_, ?_, ?_⟩
      · rw [amountOf_insertTransfer, pendingOf_insertTransfer, h.pending]
        simp [WalletTransfer.Withheld]
      all_goals
        intro t ht hu htype
        rcases Table.mem_insert.1 ht with ht | rfl
        · first | exact h.hash_none t ht hu htype | exact h.hash_some t ht hu htype
        · simp at htype
  · refine ⟨?_, ?_, ?_⟩
    · rw [hr.amountOf, hr.pendingOf, h.pending]
      simp [WalletTransfer.Withheld, WalletTransfer.Open, eq_comm]
    · intro t ht hu htype hst
      rcases hr.mem_transfers.1 ht with ht | rfl
      · exact h.hash_none t ht hu htype hst
      · rfl
    · intro t ht hu htype hst
      rcases hr.mem_transfers.1 ht with ht | rfl
      · exact h.hash_some t ht hu htype hst
      · simp at hst

/-- **The reserve.** From a user without withdrawals and without a reserve, every state of every
run has in reserve what is withheld. -/
theorem reserve_eq_withheld {w₀ w : World}
    (hnone : ∀ t ∈ w₀.db.transfers.rows, t.userId = u → t.type ≠ .toExternalWallet)
    (hzero : pendingOf R.toEthers w₀.db u = 0) (h : Reach (graph (step R)) always w₀ w) :
    pendingOf R.toEthers w.db u = amountOf R.toEthers (·.Withheld u) w.db := by
  have h0 : Reserved R.toEthers u w₀.db := by
    refine ⟨?_, fun t ht hu htype => absurd htype (hnone t ht hu),
      fun t ht hu htype => absurd htype (hnone t ht hu)⟩
    rw [hzero, amountOf_eq_zero fun t ht hw => hnone t ht hw.1 hw.2.1]
  exact (h.inv (I := fun w => Reserved R.toEthers u w.db) h0
    fun w a w' hw _ hst => hst ▸ hw.step).pending

/-- A withdrawal that is submitted, and fails when its receipt cannot be read six times. -/
def failedWithdrawal : List Action :=
  .transferToExternalWallet 1 sampleAddress "1" Faults.none :: sampleBatch 1 sampleSuccess ::
    List.replicate 6 (sampleBatch 1 sampleFailure)

/-- The failed withdrawal is no longer open, and its 1 MKC is still withheld. -/
theorem reserve_eq_withheld_failed :
    pendingOf sampleRelay.toEthers (failedWithdrawal.foldl (step sampleRelay) sampleWorld).db 1 =
      amountOf sampleRelay.toEthers (·.Withheld 1)
        (failedWithdrawal.foldl (step sampleRelay) sampleWorld).db :=
  reserve_eq_withheld (by decide) (by decide) (Reach.foldl failedWithdrawal .refl)

/-- The reserve is not the sum over the open withdrawals: a withdrawal that fails after it was
submitted leaves its amount in reserve. -/
theorem reserve_ne_open :
    ¬∀ w₀ w : World, (∃ row, w₀.db.wallets.rows.filter (·.userId == 1) = [row]) →
      (∀ t ∈ w₀.db.transfers.rows, t.userId = 1 → t.type ≠ .toExternalWallet) →
      pendingOf sampleRelay.toEthers w₀.db 1 = 0 →
      Reach (graph (step sampleRelay)) always w₀ w →
      pendingOf sampleRelay.toEthers w.db 1 =
        amountOf sampleRelay.toEthers (·.OpenWithdrawal 1) w.db := by
  intro h
  have heq := h sampleWorld _ ⟨_, rfl⟩ (by decide) (by decide) (Reach.foldl failedWithdrawal .refl)
  exact absurd heq (by decide)

/-! ## Solvency -/

/-- The steps of a user's money: those of the relay, and a credit in a transaction of its own. -/
inductive WalletAction where
  | relay (a : Action)
  | incrementBalance (userId : Nat) (amount : String) (faults : Faults)

/-- A step of the wallets. -/
def walletStep (R : Relay) (w : World) : WalletAction → World
  | .relay a => step R w a
  | .incrementBalance userId amount faults =>
    w.run faults (IngameMkc.incrementBalance R.toEthers userId amount)

/-- No withdrawal that is requested, and no credit, has a negative amount. -/
def NonNegative (R : Relay) (u : Nat) : WalletAction → Prop
  | .relay (.transferToExternalWallet v address amount _) =>
    v = u → R.isAddress address = true → 0 ≤ R.wei amount
  | .relay _ => True
  | .incrementBalance v amount _ => v = u → 0 ≤ R.wei amount

/-- The reserve of a user covers their open withdrawals, and their balance covers the reserve. -/
structure Solvent (R : Ethers) (u : Nat) (d : WalletDb) : Prop where
  reserved : amountOf R (·.OpenWithdrawal u) d ≤ pendingOf R d u
  covered : pendingOf R d u ≤ balanceOf R d u
  amounts : ∀ t ∈ d.transfers.rows, t.userId = u → t.Open → 0 ≤ R.wei t.mkcAmount

theorem Solvent.sum_nonneg {R : Ethers} (h : Solvent R u d) :
    0 ≤ amountOf R (·.OpenWithdrawal u) d :=
  amountOf_nonneg fun t ht hw => h.amounts t ht hw.1 hw.2.2

theorem Solvent.update {f : WalletTransfer → WalletTransfer} {hf} (h : Solvent R.toEthers u d)
    (ht : t.toWalletTransfer ∈ d.transfers.rows) (htransfers : d'.transfers = d.transfers)
    (huser : (f t.toWalletTransfer).userId = t.userId)
    (hamount : (f t.toWalletTransfer).mkcAmount = t.mkcAmount)
    (hopen : t.Open)
    (hreserved : amountOf R.toEthers (·.OpenWithdrawal u) d -
      (if t.OpenWithdrawal u then R.wei t.mkcAmount else 0) +
      (if (f t.toWalletTransfer).OpenWithdrawal u then R.wei t.mkcAmount else 0) ≤
        pendingOf R.toEthers d' u)
    (hcovered : pendingOf R.toEthers d' u ≤ balanceOf R.toEthers d' u) :
    Solvent R.toEthers u (d'.updateTransfer t.id f hf) := by
  have ht' : t.toWalletTransfer ∈ d'.transfers.rows := htransfers ▸ ht
  refine ⟨?_, hcovered, ?_⟩
  · rw [pendingOf_updateTransfer]
    refine le_trans (le_of_eq ?_) hreserved
    rw [← amountOf_of_transfers htransfers]
    exact amountOf_updateTransfer ht' hamount
  · refine Table.forall_mem_update hf ht' rfl (fun hu _ => ?_) fun x hx _ => h.amounts x (htransfers ▸ hx)
    rw [hamount]
    exact h.amounts _ ht (huser.symm.trans hu) hopen

/-- What a transfer that is not settled gives a user. -/
theorem Solvent.amount_nonneg (h : Solvent R.toEthers u d)
    (ht : t.toWalletTransfer ∈ d.transfers.rows) (hopen : t.Open) :
    0 ≤ if u = t.userId then R.wei t.mkcAmount else 0 := by
  by_cases hu : u = t.userId
  · rw [if_pos hu]
    exact h.amounts _ ht hu.symm hopen
  · rw [if_neg hu]

/-- A withdrawal that is settled takes its amount out of the reserve. -/
theorem Solvent.reserved_settled {t' : WalletTransfer} (h : Solvent R.toEthers u d)
    (htype : t.type = .toExternalWallet) (hopen : t.Open) (hclosed : ¬t'.Open)
    (hpending : pendingOf R.toEthers d' u =
      pendingOf R.toEthers d u - if u = t.userId then R.wei t.mkcAmount else 0) :
    amountOf R.toEthers (·.OpenWithdrawal u) d -
      (if t.OpenWithdrawal u then R.wei t.mkcAmount else 0) +
      (if t'.OpenWithdrawal u then R.wei t.mkcAmount else 0) ≤ pendingOf R.toEthers d' u := by
  have hbefore : t.OpenWithdrawal u ↔ u = t.userId :=
    ⟨fun hw => hw.1.symm, fun hu => ⟨hu.symm, htype, hopen⟩⟩
  have hafter : ¬t'.OpenWithdrawal u := fun hw => hclosed hw.2.2
  have hreserved := h.reserved
  rw [if_neg hafter, hpending, if_congr hbefore rfl rfl]
  omega

/-- One transfer's processing keeps the wallet solvent. -/
theorem Solvent.handled (ht : t.toWalletTransfer ∈ d.transfers.rows) (hopen : t.Open)
    (h : Solvent R.toEthers u d) (hd : Handled R t o d d') : Solvent R.toEthers u d' := by
  have hres := h.reserved
  have hcov := h.covered
  cases hd with
  | wait => exact h
  | submit hash hst =>
    refine h.update ht rfl rfl rfl hopen ?_ hcov
    simpa [WalletTransfer.OpenWithdrawal, WalletTransfer.Open, hst] using hres
  | credit htype hst hc =>
    refine h.update ht hc.transfers rfl rfl hopen ?_ ?_
    · simpa [WalletTransfer.OpenWithdrawal, htype, hc.pendingOf] using hres
    · have hamount := h.amount_nonneg ht hopen
      rw [hc.pendingOf, hc.balanceOf]
      omega
  | debit htype _ hc =>
    refine h.update ht hc.transfers rfl rfl hopen ?_ ?_
    · exact h.reserved_settled htype hopen (by simp [WalletTransfer.Open]) hc.pendingOf
    · rw [hc.pendingOf, hc.balanceOf]
      omega
  | revert _ hr =>
    cases hr with
    | retry =>
      refine h.update ht rfl rfl rfl hopen ?_ hcov
      exact le_of_eq_of_le (sub_add_cancel _ _) hres
    | release _ htype _ hl =>
      refine h.update ht hl.transfers rfl rfl hopen ?_ ?_
      · exact h.reserved_settled htype hopen (by simp [WalletTransfer.Open]) hl.pendingOf
      · have hamount := h.amount_nonneg ht hopen
        rw [hl.pendingOf, hl.balanceOf]
        omega
    | fail _ hne =>
      refine h.update ht rfl rfl rfl hopen ?_ hcov
      have hafter : ¬({ t.toWalletTransfer with status := .failed }).OpenWithdrawal u := by
        simp [WalletTransfer.OpenWithdrawal, WalletTransfer.Open]
      rw [if_neg hafter]
      by_cases hw : t.OpenWithdrawal u
      · have := h.amounts _ ht hw.1 hw.2.2
        rw [if_pos hw]
        omega
      · rw [if_neg hw]
        omega

/-- A request keeps the wallet solvent unless its amount is negative. -/
theorem Solvent.requested {v : Nat} {address amount : String} (h : Solvent R.toEthers u d)
    (hr : Requested R v address amount d d') (hle : v = u → 0 ≤ R.wei amount) :
    Solvent R.toEthers u d' := by
  have hres := h.reserved
  have hcov := h.covered
  refine ⟨?_, ?_, fun t ht hu hopen => ?_⟩
  · rw [hr.amountOf, hr.pendingOf]
    by_cases hu : v = u
    · simpa [WalletTransfer.OpenWithdrawal, WalletTransfer.Open, hu] using hres
    · simpa [WalletTransfer.OpenWithdrawal, hu, Ne.symm hu] using hres
  · rw [hr.pendingOf, hr.balanceOf]
    split
    · -- The guard: the amount fits in what the reserve leaves of the balance.
      rename_i hu
      subst hu
      obtain ⟨hw, -, hb, ha, hp, hguard⟩ := hr
      rw [balanceOf_of_walletOf hw, pendingOf_of_walletOf hw, R.wei_of_parse hb,
        R.pendingWei_of_parse hp, R.wei_of_parse ha]
      omega
    · omega
  · rcases hr.mem_transfers.1 ht with ht | rfl
    · exact h.amounts t ht hu hopen
    · exact hle hu

/-- A credit that is not negative keeps the wallet solvent. -/
theorem Solvent.credit {v : Nat} {amount : String} (h : Solvent R.toEthers u d)
    (hc : IngameMkc.Credit R.toEthers d v amount d') (hle : v = u → 0 ≤ R.wei amount) :
    Solvent R.toEthers u d' := by
  have hres := h.reserved
  have hcov := h.covered
  refine ⟨?_, ?_, hc.transfers ▸ h.amounts⟩
  · rwa [amountOf_of_transfers hc.transfers, hc.pendingOf]
  · rw [hc.pendingOf, hc.balanceOf]
    split
    · rename_i hu
      have := hle hu.symm
      omega
    · omega

/-- A deposit is an amount of wei, so it is not negative. -/
theorem Solvent.deposit {user : User} {amount : Nat} {hash : String} (h : Solvent R.toEthers u d) :
    Solvent R.toEthers u (insertDeposit user (R.formatEther amount) hash d) := by
  unfold insertDeposit
  split
  · exact h
  · refine ⟨?_, h.covered, fun t ht hu hopen => ?_⟩
    · rw [amountOf_insertTransfer, pendingOf_insertTransfer]
      simpa [WalletTransfer.OpenWithdrawal] using h.reserved
    · rcases Table.mem_insert.1 ht with ht | rfl
      · exact h.amounts t ht hu hopen
      · rw [R.wei_format]
        exact Int.natCast_nonneg amount

theorem Solvent.step {w : World} {a : WalletAction} (h : Solvent R.toEthers u w.db)
    (ha : NonNegative R u a) : Solvent R.toEthers u (walletStep R w a).db := by
  cases a with
  | relay a =>
    refine step_inv h (fun user amount hash => h.deposit) (fun v address amount faults d' ha' hr => ?_)
      fun t o d d' ht hopen hI hd => hI.handled ht hopen hd
    subst ha'
    have haddr : R.isAddress address = true := by
      cases hr
      assumption
    exact h.requested hr fun hv => ha hv haddr
  | incrementBalance v amount faults =>
    rcases (run_cases (w := w) (IngameMkc.incrementBalance_ends.mono (fun _ _ h => ⟨h.log, h.db⟩)
      fun _ _ h => h.log)).2 with hd | hd
    · exact hd ▸ h
    · exact h.credit hd ha

/-- A user with a wallet that has a balance and nothing in reserve, no open withdrawals, and no
negative deposits. -/
structure Start (R : Ethers) (u : Nat) (d : WalletDb) : Prop where
  wallet : ∃ w, d.wallets.rows.filter (·.userId == u) = [w]
  balance : 0 ≤ balanceOf R d u
  pending : pendingOf R d u = 0
  transfers : ∀ t ∈ d.transfers.rows, t.userId = u → t.Open →
    t.type = .toGameWallet ∧ 0 ≤ R.wei t.mkcAmount

theorem Start.solvent {R : Ethers} (h : Start R u d) : Solvent R u d := by
  refine ⟨?_, ?_, fun t ht hu hopen => (h.transfers t ht hu hopen).2⟩
  · have hnone : ∀ t ∈ d.transfers.rows, ¬t.OpenWithdrawal u := by
      rintro t ht ⟨hu, htype, hopen⟩
      have hgame := (h.transfers t ht hu hopen).1
      rw [htype] at hgame
      cases hgame
    rw [h.pending, amountOf_eq_zero hnone]
  · rw [h.pending]
    exact h.balance

/-- **Solvency.** In every run without negative amounts the reserve stays between zero and the
balance, and the balance covers the open withdrawals. -/
theorem solvent_of_nonneg {w₀ w : World} (h0 : Start R.toEthers u w₀.db)
    (h : Reach (graph (walletStep R)) (fun _ a => NonNegative R u a) w₀ w) :
    0 ≤ pendingOf R.toEthers w.db u ∧ pendingOf R.toEthers w.db u ≤ balanceOf R.toEthers w.db u ∧
      amountOf R.toEthers (·.OpenWithdrawal u) w.db ≤ balanceOf R.toEthers w.db u := by
  have hw : Solvent R.toEthers u w.db := h.inv (I := fun w => Solvent R.toEthers u w.db) h0.solvent
    fun w a w' hw ha hst => hst ▸ hw.step ha
  have hsum := hw.sum_nonneg
  have hres := hw.reserved
  have hcov := hw.covered
  exact ⟨hsum.trans hres, hcov, hres.trans hcov⟩

theorem sampleWorld_start : Start sampleRelay.toEthers 1 sampleWorld.db :=
  ⟨⟨_, rfl⟩, by decide, by decide, by decide⟩

/-- A request for 2 of the 5 MKC. -/
theorem solvent_of_nonneg_sample :
    let w := transferToExternalWallet sampleRelay 1 sampleAddress "2" Faults.none sampleWorld
    0 ≤ pendingOf sampleRelay.toEthers w.db 1 ∧
      pendingOf sampleRelay.toEthers w.db 1 ≤ balanceOf sampleRelay.toEthers w.db 1 ∧
      amountOf sampleRelay.toEthers (·.OpenWithdrawal 1) w.db ≤
        balanceOf sampleRelay.toEthers w.db 1 :=
  solvent_of_nonneg sampleWorld_start
    (Reach.next (f := walletStep sampleRelay) .refl
      (.relay (.transferToExternalWallet 1 sampleAddress "2" Faults.none))
      fun _ _ => by decide)

/-- A withdrawal of `-1` MKC is accepted, and leaves a negative reserve. -/
theorem negative_withdrawal :
    ¬∀ w₀ w : World, Start sampleRelay.toEthers 1 w₀.db →
      Reach (graph (walletStep sampleRelay)) always w₀ w →
      0 ≤ pendingOf sampleRelay.toEthers w.db 1 ∧
        pendingOf sampleRelay.toEthers w.db 1 ≤ balanceOf sampleRelay.toEthers w.db 1 := by
  intro h
  have hbounds := h sampleWorld _ sampleWorld_start
    (Reach.next .refl (.relay (.transferToExternalWallet 1 sampleAddress "-1" Faults.none)) trivial)
  exact absurd hbounds.1 (by decide)

end MkcRelay

end Cme.Blockchain
