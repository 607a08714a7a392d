import CmeBackend.Blockchain.Steps

/-!
# Balances and sums of transfers

`balanceOf` and `pendingOf` are the two columns of a user's wallet in wei, and `amountOf p` is the
sum of the amounts of the transfers in `p`. The lemmas say what each effect does to them, so that
an equation between a balance and a sum over the table is kept up one effect at a time.
-/

namespace Cme.Blockchain

/-- The balance of a user in wei; a user without a wallet has none. -/
def balanceOf (R : Ethers) (d : WalletDb) (u : Nat) : Int :=
  match d.walletOf u with
  | some w => R.wei w.balance
  | none => 0

/-- The reserve of a wallet in wei. -/
def Ethers.pendingWei (R : Ethers) (w : MkcWallet) : Int := (R.pendingWei? w).getD 0

/-- The reserve of a user in wei. -/
def pendingOf (R : Ethers) (d : WalletDb) (u : Nat) : Int :=
  match d.walletOf u with
  | some w => R.pendingWei w
  | none => 0

/-- The sum of the amounts of the transfers in `p`. -/
def amountOf (R : Ethers) (p : WalletTransfer → Prop) [DecidablePred p] (d : WalletDb) : Int :=
  d.transfers.total fun t => if p t then R.wei t.mkcAmount else 0

variable {R : Ethers} {d d' : WalletDb} {u v : Nat} {w : MkcWallet}

/-! ## Sums of transfers -/

section Sums

variable {p : WalletTransfer → Prop} [DecidablePred p]

theorem amountOf_of_transfers (h : d'.transfers = d.transfers) :
    amountOf R p d' = amountOf R p d := by
  unfold amountOf
  rw [h]

/-- An update of one transfer moves its amount into or out of the sum. -/
theorem amountOf_updateTransfer {t : WalletTransfer} {f : WalletTransfer → WalletTransfer}
    {hf : ∀ t, key (f t) = key t} (ht : t ∈ d.transfers.rows)
    (hamount : (f t).mkcAmount = t.mkcAmount) :
    amountOf R p (d.updateTransfer t.id f hf) =
      amountOf R p d - (if p t then R.wei t.mkcAmount else 0) +
        (if p (f t) then R.wei t.mkcAmount else 0) := by
  unfold amountOf
  rw [WalletDb.transfers_updateTransfer, Table.total_update (k := t.id) ht rfl, hamount]

theorem amountOf_insertTransfer {type : TransferType} {status : TransferStatus} {amount : String}
    {source address : Option String} :
    amountOf R p (d.insertTransfer u type status amount source address) =
      amountOf R p d + (if p ⟨d.transfers.next, u, type, status, 0, none, source, amount, address⟩
        then R.wei amount else 0) := by
  unfold amountOf WalletDb.insertTransfer
  rw [Table.total_insert]

theorem amountOf_eq_zero (h : ∀ t ∈ d.transfers.rows, ¬p t) : amountOf R p d = 0 := by
  have hw : ∀ t ∈ d.transfers.rows, (if p t then R.wei t.mkcAmount else 0) = 0 := fun t ht =>
    if_neg (h t ht)
  unfold amountOf
  rw [Table.total_congr hw]
  simp [Table.total]

theorem amountOf_nonneg (h : ∀ t ∈ d.transfers.rows, p t → 0 ≤ R.wei t.mkcAmount) :
    0 ≤ amountOf R p d := by
  apply Table.total_nonneg
  intro t ht
  by_cases hp : p t
  · rw [if_pos hp]
    exact h t ht hp
  · rw [if_neg hp]

/-- One transfer is not more than the sum. -/
theorem le_amountOf {t : WalletTransfer}
    (h : ∀ t ∈ d.transfers.rows, p t → 0 ≤ R.wei t.mkcAmount)
    (ht : t ∈ d.transfers.rows) (hp : p t) : R.wei t.mkcAmount ≤ amountOf R p d := by
  have hle : ∀ x ∈ d.transfers.rows.map fun t => if p t then R.wei t.mkcAmount else 0, 0 ≤ x := by
    intro x hx
    obtain ⟨t', ht', rfl⟩ := List.mem_map.1 hx
    by_cases hp' : p t'
    · rw [if_pos hp']
      exact h t' ht' hp'
    · rw [if_neg hp']
  have hmem : R.wei t.mkcAmount ∈
      d.transfers.rows.map fun t => if p t then R.wei t.mkcAmount else 0 :=
    List.mem_map.2 ⟨t, ht, if_pos hp⟩
  exact List.single_le_sum hle _ hmem

end Sums

/-! ## Wallets -/

theorem balanceOf_of_walletOf (h : d.walletOf u = some w) : balanceOf R d u = R.wei w.balance := by
  unfold balanceOf
  rw [h]

theorem pendingOf_of_walletOf (h : d.walletOf u = some w) : pendingOf R d u = R.pendingWei w := by
  unfold pendingOf
  rw [h]

/-- A statement that writes one wallet writes that user's balance. -/
theorem balanceOf_update (h : d'.walletOf v = if v = u then some w else d.walletOf v) :
    balanceOf R d' v = if v = u then R.wei w.balance else balanceOf R d v := by
  unfold balanceOf
  rw [h]
  by_cases hv : v = u
  · rw [if_pos hv, if_pos hv]
  · rw [if_neg hv, if_neg hv]

/-- A statement that writes one wallet writes that user's reserve. -/
theorem pendingOf_update (h : d'.walletOf v = if v = u then some w else d.walletOf v) :
    pendingOf R d' v = if v = u then R.pendingWei w else pendingOf R d v := by
  unfold pendingOf
  rw [h]
  by_cases hv : v = u
  · rw [if_pos hv, if_pos hv]
  · rw [if_neg hv, if_neg hv]

@[simp] theorem balanceOf_updateTransfer {id : Nat} {f : WalletTransfer → WalletTransfer}
    {hf : ∀ t, key (f t) = key t} :
    balanceOf R (d.updateTransfer id f hf) u = balanceOf R d u := rfl

@[simp] theorem pendingOf_updateTransfer {id : Nat} {f : WalletTransfer → WalletTransfer}
    {hf : ∀ t, key (f t) = key t} :
    pendingOf R (d.updateTransfer id f hf) u = pendingOf R d u := rfl

@[simp] theorem balanceOf_insertTransfer {type status amount source address} :
    balanceOf R (d.insertTransfer v type status amount source address) u = balanceOf R d u := rfl

@[simp] theorem pendingOf_insertTransfer {type status amount source address} :
    pendingOf R (d.insertTransfer v type status amount source address) u = pendingOf R d u := rfl

theorem Ethers.pendingWei_of_parse {p : Int} (h : R.pendingWei? w = some p) :
    R.pendingWei w = p := by
  simp [pendingWei, h]

/-- The reserve that a decrease reads is the one that a request reads. -/
theorem Ethers.pendingWei?_of_bind {p : Int}
    (h : w.balancePendingWithdrawal.bind R.parseEther = some p) : R.pendingWei? w = some p := by
  unfold pendingWei?
  cases hw : w.balancePendingWithdrawal with
  | none => simp [hw] at h
  | some text => simpa [hw] using h

theorem Ethers.pendingWei_of_some {text : String} (h : w.balancePendingWithdrawal = some text) :
    R.pendingWei w = R.wei text := by
  simp [pendingWei, pendingWei?, h, wei]

namespace IngameMkc

variable {amount : String}

/-- A credit adds the amount to the balance of its user. -/
theorem Credit.balanceOf (h : Credit R d u amount d') :
    balanceOf R d' v = balanceOf R d v + if v = u then R.wei amount else 0 := by
  cases h with
  | create hw =>
    rw [balanceOf_update (WalletDb.walletOf_insertWallet hw)]
    by_cases hv : v = u
    · subst hv
      simp [Blockchain.balanceOf, hw]
    · simp [hv]
  | add hw hb ha =>
    apply (balanceOf_update (WalletDb.walletOf_updateWallet hw)).trans
    rw [R.wei_format]
    by_cases hv : v = u
    · subst hv
      rw [if_pos rfl, if_pos rfl, balanceOf_of_walletOf hw, R.wei_of_parse hb, R.wei_of_parse ha]
    · rw [if_neg hv, if_neg hv, add_zero]

theorem Credit.pendingOf (h : Credit R d u amount d') : pendingOf R d' v = pendingOf R d v := by
  cases h with
  | create hw =>
    rw [pendingOf_update (WalletDb.walletOf_insertWallet hw)]
    by_cases hv : v = u
    · subst hv
      rw [if_pos rfl]
      simp [Blockchain.pendingOf, hw, Ethers.pendingWei, Ethers.pendingWei?]
    · rw [if_neg hv]
  | add hw =>
    apply (pendingOf_update (WalletDb.walletOf_updateWallet hw)).trans
    by_cases hv : v = u
    · subst hv
      rw [if_pos rfl, pendingOf_of_walletOf hw]
      rfl
    · rw [if_neg hv]

theorem Locked.wei_amount {a b p : Int} (h : Locked R d u amount w a b p) : R.wei amount = a :=
  R.wei_of_parse h.parse_amount

theorem Locked.balanceOf {a b p : Int} (h : Locked R d u amount w a b p) : balanceOf R d u = b := by
  rw [balanceOf_of_walletOf h.wallet, R.wei_of_parse h.parse_balance]

theorem Locked.pendingOf {a b p : Int} (h : Locked R d u amount w a b p) : pendingOf R d u = p := by
  rw [pendingOf_of_walletOf h.wallet,
    R.pendingWei_of_parse (R.pendingWei?_of_bind h.parse_pending)]

theorem Release.balanceOf (h : Release R d u amount d') : balanceOf R d' v = balanceOf R d v := by
  obtain ⟨hl⟩ := h
  apply (balanceOf_update (WalletDb.walletOf_updateWallet hl.wallet)).trans
  by_cases hv : v = u
  · subst hv
    rw [if_pos rfl, balanceOf_of_walletOf hl.wallet]
  · rw [if_neg hv]

/-- A release takes the amount from the reserve of its user. -/
theorem Release.pendingOf (h : Release R d u amount d') :
    pendingOf R d' v = pendingOf R d v - if v = u then R.wei amount else 0 := by
  obtain ⟨hl⟩ := h
  apply (pendingOf_update (WalletDb.walletOf_updateWallet hl.wallet)).trans
  by_cases hv : v = u
  · subst hv
    rw [if_pos rfl, if_pos rfl, R.pendingWei_of_some rfl, R.wei_format, hl.pendingOf, hl.wei_amount]
  · rw [if_neg hv, if_neg hv, sub_zero]

/-- A debit takes the amount from the balance of its user. -/
theorem Debit.balanceOf (h : Debit R d u amount d') :
    balanceOf R d' v = balanceOf R d v - if v = u then R.wei amount else 0 := by
  obtain ⟨hl⟩ := h
  apply (balanceOf_update (WalletDb.walletOf_updateWallet hl.wallet)).trans
  by_cases hv : v = u
  · subst hv
    rw [if_pos rfl, if_pos rfl, R.wei_format, hl.balanceOf, hl.wei_amount]
  · rw [if_neg hv, if_neg hv, sub_zero]

/-- A debit takes the amount from the reserve of its user. -/
theorem Debit.pendingOf (h : Debit R d u amount d') :
    pendingOf R d' v = pendingOf R d v - if v = u then R.wei amount else 0 := by
  obtain ⟨hl⟩ := h
  apply (pendingOf_update (WalletDb.walletOf_updateWallet hl.wallet)).trans
  by_cases hv : v = u
  · subst hv
    rw [if_pos rfl, if_pos rfl, R.pendingWei_of_some rfl, R.wei_format, hl.pendingOf, hl.wei_amount]
  · rw [if_neg hv, if_neg hv, sub_zero]

theorem Credit.transfers (h : Credit R d u amount d') : d'.transfers = d.transfers := by
  cases h <;> rfl

theorem Release.transfers (h : Release R d u amount d') : d'.transfers = d.transfers := by
  cases h; rfl

theorem Debit.transfers (h : Debit R d u amount d') : d'.transfers = d.transfers := by
  cases h; rfl

end IngameMkc

namespace MkcRelay

variable {R : Relay} {address amount : String}

/-- A request does not touch a balance. -/
theorem Requested.balanceOf (h : Requested R u address amount d d') :
    balanceOf R.toEthers d' v = balanceOf R.toEthers d v := by
  obtain ⟨hw, -, -, -, -, -⟩ := h
  refine (balanceOf_update (WalletDb.walletOf_updateWalletById
    (WalletDb.walletOf_insertTransfer.trans hw))).trans ?_
  by_cases hv : v = u
  · subst hv
    rw [if_pos rfl, balanceOf_of_walletOf hw]
  · rw [if_neg hv]
    rfl

/-- A request adds its amount to the reserve of its user. -/
theorem Requested.pendingOf (h : Requested R u address amount d d') :
    pendingOf R.toEthers d' v =
      pendingOf R.toEthers d v + if v = u then R.wei amount else 0 := by
  obtain ⟨hw, -, -, ha, hp, -⟩ := h
  refine (pendingOf_update (WalletDb.walletOf_updateWalletById
    (WalletDb.walletOf_insertTransfer.trans hw))).trans ?_
  by_cases hv : v = u
  · subst hv
    rw [if_pos rfl, if_pos rfl, R.pendingWei_of_some rfl, R.wei_format, pendingOf_of_walletOf hw,
      R.pendingWei_of_parse hp, R.wei_of_parse ha]
  · rw [if_neg hv, if_neg hv, add_zero]
    rfl

theorem Requested.mem_transfers {t : WalletTransfer} (h : Requested R u address amount d d') :
    t ∈ d'.transfers.rows ↔ t ∈ d.transfers.rows ∨
      t = ⟨d.transfers.next, u, .toExternalWallet, .pending, 0, none, none, amount, some address⟩ := by
  obtain ⟨-, -, -, -, -, -⟩ := h
  exact Table.mem_insert

/-- A request adds its transfer to the table. -/
theorem Requested.amountOf {p : WalletTransfer → Prop} [DecidablePred p]
    (h : Requested R u address amount d d') :
    amountOf R.toEthers p d' = amountOf R.toEthers p d +
      if p ⟨d.transfers.next, u, .toExternalWallet, .pending, 0, none, none, amount, some address⟩
        then R.wei amount else 0 := by
  obtain ⟨-, -, -, -, -, -⟩ := h
  rw [amountOf_of_transfers WalletDb.transfers_updateWalletById, amountOf_insertTransfer]

end MkcRelay

end Cme.Blockchain
