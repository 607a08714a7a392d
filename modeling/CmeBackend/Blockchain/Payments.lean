import CmeBackend.Blockchain.Reserve

/-!
# Payments on the chain

A submission to the chain cannot be taken back, but the record that it was made can: the call or
`wait(1)` may throw after the chain took it, and the transaction of the batch may roll back. A
pending transfer without a record is submitted again (`paid_twice`).

`paid_at_most_once`: a transfer is submitted at most once in every run in which each batch that
submits it comes to know that it was submitted (`SafeFor`). `Covered` is what such a batch needs of
the wallets of its other rows, so that no revert of theirs throws.
-/

namespace Cme.Blockchain

open Runs Transaction

namespace MkcRelay

variable {R : Relay} {d d' : WalletDb} {u x : Nat} {t : SelectedTransfer} {o : ChainOutcome}

/-! ## Rows -/

/-- `r'` is the row `r` later on: a row that is not pending, or not open, does not get so again. -/
structure Later (r r' : WalletTransfer) : Prop where
  id : r'.id = r.id
  userId : r'.userId = r.userId
  type : r'.type = r.type
  mkcAmount : r'.mkcAmount = r.mkcAmount
  open_of : r'.Open → r.Open
  pending_of : r'.status = .pending → r.status = .pending

theorem Later.refl (r : WalletTransfer) : Later r r := ⟨rfl, rfl, rfl, rfl, fun h => h, fun h => h⟩

/-- Processing a transfer moves its row on and no other. -/
theorem Handled.later (ht : t.toWalletTransfer ∈ d.transfers.rows) (hopen : t.Open)
    (hd : Handled R t o d d') :
    ∃ g, d'.transfers.rows = d.transfers.rows.map g ∧ ∀ r ∈ d.transfers.rows, Later r (g r) := by
  have hupdate : ∀ {d₁ : WalletDb} {f : WalletTransfer → WalletTransfer} {hf},
      d₁.transfers = d.transfers → Later t.toWalletTransfer (f t.toWalletTransfer) →
      ∃ g, (d₁.updateTransfer t.id f hf).transfers.rows = d.transfers.rows.map g ∧
        ∀ r ∈ d.transfers.rows, Later r (g r) := by
    intro d₁ f hf heq hlater
    refine ⟨Table.patch t.id f, by rw [← heq]; rfl, fun r hr => ?_⟩
    by_cases hk : r.id = t.id
    · have hrow : r = t.toWalletTransfer := Table.eq_of_key hr ht hk
      subst hrow
      exact (Table.patch_self f t.toWalletTransfer).symm ▸ hlater
    · rw [Table.patch_ne (show key r ≠ t.id from hk)]
      exact .refl r
  cases hd with
  | wait => exact ⟨fun r => r, (List.map_id' _).symm, fun r _ => .refl r⟩
  | submit => exact hupdate rfl ⟨rfl, rfl, rfl, rfl, fun _ => hopen, by simp⟩
  | credit _ _ hc => exact hupdate hc.transfers ⟨rfl, rfl, rfl, rfl, fun _ => hopen, by simp⟩
  | debit _ _ hc => exact hupdate hc.transfers ⟨rfl, rfl, rfl, rfl, fun _ => hopen, by simp⟩
  | revert _ hr =>
    cases hr with
    | retry => exact hupdate rfl ⟨rfl, rfl, rfl, rfl, fun h => h, fun h => h⟩
    | release _ _ _ hl => exact hupdate hl.transfers ⟨rfl, rfl, rfl, rfl, fun _ => hopen, by simp⟩
    | fail => exact hupdate rfl ⟨rfl, rfl, rfl, rfl, fun _ => hopen, by simp⟩

/-! ## Wallets that cover their withdrawals -/

/-- A user has a wallet, and its columns are decimals. -/
def Readable (R : Ethers) (u : Nat) (d : WalletDb) : Prop :=
  ∃ w b p, d.walletOf u = some w ∧ R.parseEther w.balance = some b ∧
    w.balancePendingWithdrawal.bind R.parseEther = some p

/-- The wallet of a user is solvent, and its columns and the amounts of the open withdrawals are
decimals. -/
structure Covered (R : Ethers) (u : Nat) (d : WalletDb) : Prop where
  solvent : Solvent R u d
  wallet : Readable R u d
  amounts : ∀ t ∈ d.transfers.rows, t.OpenWithdrawal u → (R.parseEther t.mkcAmount).isSome

/-- The wallet covers each open withdrawal. -/
theorem Covered.covers (h : Covered R.toEthers u d) {t : WalletTransfer}
    (ht : t ∈ d.transfers.rows) (hw : t.OpenWithdrawal u) :
    IngameMkc.Covers R.toEthers d u t.mkcAmount := by
  obtain ⟨w, b, p, hwallet, hb, hp⟩ := h.wallet
  obtain ⟨a, ha⟩ := Option.isSome_iff_exists.1 (h.amounts t ht hw)
  have hle : a ≤ amountOf R.toEthers (·.OpenWithdrawal u) d := by
    rw [← R.wei_of_parse ha]
    exact le_amountOf (fun t ht hw => h.solvent.amounts t ht hw.1 hw.2.2) ht hw
  have hpending : pendingOf R.toEthers d u = p := by
    rw [pendingOf_of_walletOf hwallet, R.pendingWei_of_parse (R.pendingWei?_of_bind hp)]
  have hbalance : balanceOf R.toEthers d u = b := by
    rw [balanceOf_of_walletOf hwallet, R.wei_of_parse hb]
  have hres := h.solvent.reserved
  have hcov := h.solvent.covered
  exact ⟨w, a, b, p, hwallet, ha, hb, hp, by omega, by omega⟩

theorem readable_updateTransfer {R : Ethers} {id : Nat} {f : WalletTransfer → WalletTransfer} {hf} :
    Readable R u (d.updateTransfer id f hf) ↔ Readable R u d := Iff.rfl

/-- A statement that writes decimals to one wallet keeps every wallet readable. -/
theorem Readable.updateWallet {R : Ethers} {v : Nat} {w : MkcWallet} {f : MkcWallet → MkcWallet} {hf}
    (h : Readable R u d) (hw : d.walletOf v = some w)
    (hb : (R.parseEther (f w).balance).isSome ∨ (f w).balance = w.balance)
    (hp : ((f w).balancePendingWithdrawal.bind R.parseEther).isSome ∨
      (f w).balancePendingWithdrawal = w.balancePendingWithdrawal)
    (hu : ∀ w, (f w).userId = w.userId := by intro _; rfl) :
    Readable R u (d.updateWallet v w.id f hf) := by
  obtain ⟨w₀, b₀, p₀, hw₀, hb₀, hp₀⟩ := h
  have hd := @WalletDb.walletOf_updateWallet d v u w f hf hw hu
  by_cases hv : u = v
  · subst hv
    obtain rfl : w₀ = w := Option.some.inj (hw₀.symm.trans hw)
    have hb' : ∃ b, R.parseEther (f w₀).balance = some b := by
      rcases hb with hb | hb
      · exact Option.isSome_iff_exists.1 hb
      · exact ⟨b₀, hb ▸ hb₀⟩
    have hp' : ∃ p, (f w₀).balancePendingWithdrawal.bind R.parseEther = some p := by
      rcases hp with hp | hp
      · exact Option.isSome_iff_exists.1 hp
      · exact ⟨p₀, hp ▸ hp₀⟩
    obtain ⟨b, hb⟩ := hb'
    obtain ⟨p, hp⟩ := hp'
    exact ⟨f w₀, b, p, by rw [hd, if_pos rfl], hb, hp⟩
  · exact ⟨w₀, b₀, p₀, by rw [hd, if_neg hv, hw₀], hb₀, hp₀⟩

theorem Readable.handled (h : Readable R.toEthers u d) (hd : Handled R t o d d') :
    Readable R.toEthers u d' := by
  cases hd with
  | wait | submit => exact h
  | credit _ _ hc =>
    rw [readable_updateTransfer]
    cases hc with
    | create hv =>
      obtain ⟨w, b, p, hw, hb, hp⟩ := h
      have hne : u ≠ t.userId := fun hu => by rw [hu, hv] at hw; cases hw
      exact ⟨w, b, p, by rw [WalletDb.walletOf_insertWallet hv, if_neg hne, hw], hb, hp⟩
    | add hw _ _ => exact h.updateWallet hw (.inl (by simp [R.parse_format])) (.inr rfl)
  | debit _ _ hc =>
    obtain ⟨hl⟩ := hc
    rw [readable_updateTransfer]
    exact h.updateWallet hl.wallet (.inl (by simp [R.parse_format])) (.inl (by simp [R.parse_format]))
  | revert _ hr =>
    cases hr with
    | retry | fail => exact h
    | release _ _ _ hc =>
      obtain ⟨hl⟩ := hc
      rw [readable_updateTransfer]
      exact h.updateWallet hl.wallet (.inr rfl) (.inl (by simp [R.parse_format]))

theorem Covered.handled (ht : t.toWalletTransfer ∈ d.transfers.rows) (hopen : t.Open)
    (h : Covered R.toEthers u d) (hd : Handled R t o d d') : Covered R.toEthers u d' := by
  refine ⟨h.solvent.handled ht hopen hd, h.wallet.handled hd, fun r' hr' hw => ?_⟩
  obtain ⟨g, hrows, hlater⟩ := hd.later ht hopen
  rw [hrows] at hr'
  obtain ⟨r, hr, rfl⟩ := List.mem_map.1 hr'
  have hl := hlater r hr
  rw [hl.mkcAmount]
  exact h.amounts r hr ⟨hl.userId ▸ hw.1, hl.type ▸ hw.2.1, hl.open_of hw.2.2⟩

/-! ## A batch that comes to know -/

/-- A batch that submits the transfer `x` comes to know it, or gives `x` up; and it commits: no
statement fails, and each withdrawal whose last attempt fails can be reverted. -/
structure Recorded (R : Relay) (x : Nat) (w : World) (b : Batch) : Prop where
  known : ∀ t ∈ selectTransfers b.ids w.db, t.id = x →
    Submitted (b.chain x) ∨ t.retries = MAX_TRANSFER_RETRIES
  silent : b.faults.Silent
  covered : ∀ t ∈ selectTransfers b.ids w.db, LastAttemptFails R t (b.chain t.id) →
    Covered R.toEthers t.userId w.db

/-- In a batch in which the chain takes a submission of the transfer `x`, it is recorded. -/
def SafeFor (R : Relay) (x : Nat) (w : World) : Action → Prop
  | .processTransfers b =>
    (∃ t ∈ selectTransfers b.ids w.db, t.id = x ∧ Accepts R t (b.chain x)) → Recorded R x w b
  | _ => True

/-- How often the chain took a submission of the transfer `x`. -/
def paymentsFor (x : Nat) (w : World) : Nat := w.submissions.countP (·.transferId == x)

theorem paymentsFor_append {w : World} {subs : List Submission} :
    paymentsFor x ⟨d, w.submissions ++ subs⟩ =
      paymentsFor x w + subs.countP (·.transferId == x) := List.countP_append

theorem transferId_submissionOf : (submissionOf R t).transferId = t.id := by
  unfold submissionOf
  split <;> rfl

section Counting

variable {chain : Nat → ChainOutcome} {ts : List SelectedTransfer}

/-- A batch that does not get to submit `x` does not submit it. -/
theorem countP_submissionsOf_eq_zero (h : ∀ t ∈ ts, t.id = x → ¬Accepts R t (chain x)) :
    (submissionsOf R chain ts).countP (·.transferId == x) = 0 := by
  apply List.countP_eq_zero.2
  intro sub hsub
  obtain ⟨t, ht, hsub⟩ := List.mem_flatMap.1 hsub
  by_cases ha : Accepts R t (chain t.id)
  · rw [submissions_of_accepts ha, List.mem_singleton] at hsub
    subst hsub
    rw [transferId_submissionOf, beq_iff_eq]
    exact fun hx => h t ht hx (hx ▸ ha)
  · rw [submissions_of_not_accepts ha] at hsub
    cases hsub

/-- A batch submits `x` once at most. -/
theorem countP_submissionsOf_le_one (hn : (ts.map (·.id)).Nodup) :
    (submissionsOf R chain ts).countP (·.transferId == x) ≤ 1 := by
  induction ts with
  | nil => simp [submissionsOf]
  | cons t ts ih =>
    obtain ⟨hid, hn'⟩ := List.nodup_cons.1 hn
    have hsplit : submissionsOf R chain (t :: ts) =
        submissions R t (chain t.id) ++ submissionsOf R chain ts := List.flatMap_cons
    have hhead : (submissions R t (chain t.id)).countP (·.transferId == x) ≤ 1 := by
      by_cases ha : Accepts R t (chain t.id)
      · rw [submissions_of_accepts ha]
        exact List.countP_le_length
      · rw [submissions_of_not_accepts ha]
        exact Nat.zero_le _
    rw [hsplit, List.countP_append]
    by_cases hx : t.id = x
    · have hrest : (submissionsOf R chain ts).countP (·.transferId == x) = 0 :=
        countP_submissionsOf_eq_zero fun t' ht' hx' => absurd
          (List.mem_map.2 ⟨t', ht', hx'.trans hx.symm⟩) hid
      omega
    · have hzero : (submissions R t (chain t.id)).countP (·.transferId == x) = 0 := by
        by_cases ha : Accepts R t (chain t.id)
        · rw [submissions_of_accepts ha]
          simp [transferId_submissionOf, hx]
        · rw [submissions_of_not_accepts ha]
          rfl
      have := ih hn'
      omega

end Counting

/-! ## At most one payment -/

/-- The transfer `x` is no longer pending. -/
def Past (x : Nat) (d : WalletDb) : Prop :=
  ∃ r ∈ d.transfers.rows, r.id = x ∧ r.status ≠ .pending

theorem Past.handled (ht : t.toWalletTransfer ∈ d.transfers.rows) (hopen : t.Open)
    (h : Past x d) (hd : Handled R t o d d') : Past x d' := by
  obtain ⟨r, hr, hid, hst⟩ := h
  obtain ⟨g, hrows, hlater⟩ := hd.later ht hopen
  have hl := hlater r hr
  refine ⟨g r, ?_, hl.id.trans hid, fun hp => hst (hl.pending_of hp)⟩
  rw [hrows]
  exact List.mem_map_of_mem hr

/-- A submission that is known, or the last one, leaves its transfer behind. -/
theorem Past.of_accepts (ht : t.toWalletTransfer ∈ d.transfers.rows) (ha : Accepts R t o)
    (hknown : Submitted o ∨ t.retries = MAX_TRANSFER_RETRIES) (hd : Handled R t o d d') :
    Past t.id d' := by
  have hupdate : ∀ {d₁ : WalletDb} {f : WalletTransfer → WalletTransfer} {hf},
      d₁.transfers = d.transfers → (f t.toWalletTransfer).status ≠ .pending →
      Past t.id (d₁.updateTransfer t.id f hf) := by
    intro d₁ f hf heq hst
    have hmem : f t.toWalletTransfer ∈ (d₁.updateTransfer t.id f hf).transfers.rows := by
      rw [WalletDb.transfers_updateTransfer, Table.mem_update]
      exact ⟨t.toWalletTransfer, heq ▸ ht, Table.patch_self f t.toWalletTransfer⟩
    exact ⟨_, hmem, hf t.toWalletTransfer, hst⟩
  have hpending := ha.1
  cases hd with
  | wait hna => exact absurd ha hna
  | submit => exact hupdate rfl (by simp)
  | credit _ hst | debit _ hst => simp [hpending] at hst
  | revert hunsure hr =>
    have hretries := hknown.resolve_left (hunsure ha)
    cases hr with
    | retry hne => exact absurd hretries hne
    | release _ _ _ hl => exact hupdate hl.transfers (by simp)
    | fail => exact hupdate rfl (by simp)

section Batches

variable {chain : Nat → ChainOutcome} {ts : List SelectedTransfer}

/-- A batch that handles all its rows has handled each of them. -/
theorem HandledEach.past (h : HandledEach R chain ts d d')
    (hcur : ∀ t ∈ ts, t.toWalletTransfer ∈ d.transfers.rows ∧ t.Open)
    (hn : (ts.map (·.id)).Nodup) (ht : t ∈ ts) (ha : Accepts R t (chain t.id))
    (hknown : Submitted (chain t.id) ∨ t.retries = MAX_TRANSFER_RETRIES) : Past t.id d' := by
  induction h with
  | nil => cases ht
  | @cons t₀ ts d d₁ d₂ h₀ hs ih =>
    obtain ⟨hid, hn'⟩ := List.nodup_cons.1 hn
    have hcur' : ∀ t ∈ ts, t.toWalletTransfer ∈ d₁.transfers.rows ∧ t.Open := by
      refine fun t' ht' => ⟨h₀.mem_of_ne (hcur t' (.tail _ ht')).1 fun heq => hid ?_,
        (hcur t' (.tail _ ht')).2⟩
      exact List.mem_map.2 ⟨t', ht', heq⟩
    rcases List.mem_cons.1 ht with rfl | ht
    · have hpast : Past t.id d₁ := .of_accepts (hcur t (.head _)).1 ha hknown h₀
      exact hs.inv (fun t ht => (hcur' t ht).1) hn' hpast fun t ht d d' hmem hI hd =>
        hI.handled hmem (hcur' t ht).2 hd
    · exact ih hcur' hn' ht

/-- A batch in which every revert is covered does not get stuck. -/
theorem not_stuck {rest : List SelectedTransfer} (h : HandledEach R chain ts d d')
    (hcur : ∀ t' ∈ ts ++ t :: rest, t'.toWalletTransfer ∈ d.transfers.rows ∧ t'.Open)
    (hn : ((ts ++ t :: rest).map (·.id)).Nodup)
    (hcovered : LastAttemptFails R t (chain t.id) → Covered R.toEthers t.userId d) :
    ¬Stuck R t (chain t.id) d' := by
  intro hstuck
  have hcur' : ∀ t' ∈ ts, t'.toWalletTransfer ∈ d.transfers.rows ∧ t'.Open := fun t' ht' =>
    hcur t' (List.mem_append_left _ ht')
  obtain ⟨hmem, hopen⟩ := hcur t (by simp)
  rw [List.map_append, List.map_cons, List.nodup_append] at hn
  obtain ⟨hn₁, -, hdisj⟩ := hn
  have hcov : Covered R.toEthers t.userId d' :=
    h.inv (fun t ht => (hcur' t ht).1) hn₁ (hcovered hstuck.last) fun t' ht' d d' hm hI hd =>
      hI.handled hm (hcur' t' ht').2 hd
  have hmem' : t.toWalletTransfer ∈ d'.transfers.rows := by
    refine h.inv (fun t ht => (hcur' t ht).1) hn₁ (I := fun d => t.toWalletTransfer ∈ d.transfers.rows)
      hmem fun t' ht' d d' _ hI hd => hd.mem_of_ne hI fun heq => ?_
    exact hdisj t'.id (List.mem_map_of_mem (f := fun t : SelectedTransfer => t.id) ht') t.id (.head _)
      heq.symm
  exact hstuck.uncovered (hcov.covers hmem' ⟨rfl, hstuck.last.type, hopen⟩)

end Batches

/-- The transfer `x` was not submitted, or once, and then it is no longer pending. -/
def Once (x : Nat) (w : World) : Prop :=
  paymentsFor x w = 0 ∨ paymentsFor x w = 1 ∧ Past x w.db

section Once

variable {w w' : World} {b : Batch}

/-- Steps that submit nothing and keep the rows: deposits and requests. -/
theorem Once.of_rows (h : Once x w) (hsub : w'.submissions = w.submissions)
    (hrows : ∀ r ∈ w.db.transfers.rows, r ∈ w'.db.transfers.rows) : Once x w' := by
  unfold Once paymentsFor at *
  rw [hsub]
  rcases h with h | ⟨h, r, hr, hid, hst⟩
  · exact .inl h
  · exact .inr ⟨h, r, hrows r hr, hid, hst⟩

/-- A batch that submits the transfer, which is pending, submits it for the first time. -/
theorem Once.of_accepts (h : Once t.id w) (hcases : Processed R b w w')
    (ht : t ∈ selectTransfers b.ids w.db) (ha : Accepts R t (b.chain t.id))
    (hrec : Recorded R t.id w b) : Once t.id w' := by
  have hsel : ∀ t ∈ selectTransfers b.ids w.db, t.toWalletTransfer ∈ w.db.transfers.rows ∧ t.Open :=
    fun t ht => mem_selectTransfers ht
  have hn := nodup_selectTransfers (d := w.db) b.nodup
  have hzero : paymentsFor t.id w = 0 := by
    apply h.resolve_right
    rintro ⟨-, r, hr, hid, hst⟩
    have hrow : r = t.toWalletTransfer := Table.eq_of_key hr (hsel t ht).1 hid
    exact hst (hrow ▸ ha.1)
  cases hcases with
  | commit hd =>
    have hle := @countP_submissionsOf_le_one R t.id b.chain _ hn
    have hpast := hd.past hsel hn ht ha (hrec.known t ht rfl)
    unfold Once
    rw [paymentsFor_append, hzero, Nat.zero_add]
    rcases Nat.le_one_iff_eq_zero_or_eq_one.1 hle with h0 | h1
    · exact .inl h0
    · exact .inr ⟨h1, hpast⟩
  | rollback tried rest hts hstuck =>
    obtain ⟨ts, t', d, htried, hd, hst⟩ := hstuck hrec.silent
    rw [htried, List.append_assoc, List.singleton_append] at hts
    rw [hts] at hsel hn
    refine absurd hst (not_stuck hd hsel hn (hrec.covered t' ?_))
    rw [hts]
    simp

/-- A batch that does not submit the transfer. -/
theorem Once.of_not_accepts (h : Once x w) (hcases : Processed R b w w')
    (hnot : ∀ t ∈ selectTransfers b.ids w.db, t.id = x → ¬Accepts R t (b.chain x)) :
    Once x w' := by
  cases hcases with
  | commit hd =>
    unfold Once
    rw [paymentsFor_append, countP_submissionsOf_eq_zero hnot]
    refine h.imp_right fun ⟨h, hpast⟩ => ⟨h, ?_⟩
    exact hd.inv (fun t ht => (mem_selectTransfers ht).1) (nodup_selectTransfers b.nodup) hpast
      fun t ht d d' hm hI hd => hI.handled hm (mem_selectTransfers ht).2 hd
  | rollback tried rest hts _ =>
    have hzero : (submissionsOf R b.chain tried).countP (·.transferId == x) = 0 :=
      countP_submissionsOf_eq_zero fun t ht => hnot t (hts ▸ List.mem_append_left _ ht)
    unfold Once
    rw [paymentsFor_append, hzero]
    exact h

theorem Once.step {a : Action} (h : Once x w) (ha : SafeFor R x w a) : Once x (step R w a) := by
  cases a with
  | transferListener event faults =>
    obtain ⟨hsub, hd⟩ := transferListener_cases (R := R) event faults w
    apply h.of_rows hsub
    intro r hr
    rcases hd with hd | ⟨user, -, -, hd⟩ <;> simp only [hd]
    · exact hr
    · unfold insertDeposit
      split
      · exact hr
      · exact Table.mem_insert.2 (.inl hr)
  | transferToExternalWallet u address amount faults =>
    obtain ⟨hsub, hd⟩ := transferToExternalWallet_cases (R := R) u address amount faults w
    apply h.of_rows hsub
    intro r hr
    rcases hd with hd | hd
    · simpa only [MkcRelay.step, hd] using hr
    · exact hd.mem_transfers.2 (.inl hr)
  | processTransfers b =>
    have hcases := processTransfers_cases (R := R) b w
    by_cases hx : ∃ t ∈ selectTransfers b.ids w.db, t.id = x ∧ Accepts R t (b.chain x)
    · have hrec := ha hx
      obtain ⟨t, ht, rfl, hacc⟩ := hx
      exact h.of_accepts hcases ht hacc hrec
    · exact h.of_not_accepts hcases fun t ht hid hacc => hx ⟨t, ht, hid, hacc⟩

end Once

/-- **At most one payment.** A transfer is submitted at most once in every run whose batches
record what they submit of it. -/
theorem paid_at_most_once {w₀ w : World} (h0 : ∀ sub ∈ w₀.submissions, sub.transferId ≠ x)
    (h : Reach (graph (step R)) (SafeFor R x) w₀ w) : paymentsFor x w ≤ 1 := by
  have hzero : paymentsFor x w₀ = 0 :=
    List.countP_eq_zero.2 fun sub hsub => by simpa using h0 sub hsub
  have hw : Once x w := h.inv (I := Once x) (.inl hzero) fun w a w' hw ha hst => hst ▸ hw.step ha
  rcases hw with hw | hw
  · omega
  · exact hw.1.le

/-- The chain takes the submission, and `wait(1)` throws. -/
def sampleTimeout : ChainOutcome := ⟨.missing, .accepted "0xabc", false⟩

/-- The withdrawal of the sample is submitted in one batch, and known to be. -/
theorem paid_at_most_once_sample :
    paymentsFor 1 ([.transferToExternalWallet 1 sampleAddress "1" Faults.none,
      sampleBatch 1 sampleSuccess].foldl (step sampleRelay) sampleWorld) ≤ 1 := by
  have hrequest : Reach (graph (step sampleRelay)) (SafeFor sampleRelay 1) sampleWorld
      (step sampleRelay sampleWorld
        (.transferToExternalWallet 1 sampleAddress "1" Faults.none)) := .next .refl _ trivial
  -- It is the first attempt.
  have hretries : ∀ t ∈ selectTransfers [1] (step sampleRelay sampleWorld
      (.transferToExternalWallet 1 sampleAddress "1" Faults.none)).db,
      t.retries ≠ MAX_TRANSFER_RETRIES := by decide
  refine paid_at_most_once (by simp [sampleWorld]) (hrequest.next (sampleBatch 1 sampleSuccess) ?_)
  exact fun _ => ⟨fun _ _ _ => .inl ⟨⟨_, rfl⟩, rfl⟩, Faults.silent_none,
    fun t ht hlast => absurd hlast.retries (hretries t ht)⟩

/-- A withdrawal whose `wait(1)` throws is paid again in the next batch. -/
theorem paid_twice :
    ¬∀ w₀ w : World, (∀ sub ∈ w₀.submissions, sub.transferId ≠ 1) →
      Reach (graph (step sampleRelay)) always w₀ w → paymentsFor 1 w ≤ 1 := by
  intro h
  have hle := h sampleWorld _ (by simp [sampleWorld]) (Reach.foldl
    [.transferToExternalWallet 1 sampleAddress "1" Faults.none, sampleBatch 1 sampleTimeout,
      sampleBatch 1 sampleTimeout] .refl)
  exact absurd hle (by decide)

end MkcRelay

end Cme.Blockchain
