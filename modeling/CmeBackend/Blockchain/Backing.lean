import CmeBackend.Blockchain.Ledger
import CmeBackend.Blockchain.Payments

/-!
# The account of the game

What the users may withdraw is paid from the account of the game on the chain. A deposit is
credited after the relay has moved it from the user's own account to that of the game, and a
withdrawal leaves it before it is taken off the balance.

* `gameBalance`: what the submissions that the chain has taken leave of the account.
* `owedTo`: what a user may still withdraw, or has asked for and not been paid.
* `recorded`: what the rows of the transfers say of the account. No batch that commits lets it get
  ahead of the chain (`processEach_recorded`).
* `wallets_backed`: in every run in which no payment gets lost, the account covers what all users
  are owed.
-/

namespace Cme.Blockchain

open Runs Transaction

/-! ## The account -/

/-- A submission is signed by the wallet of the game if it has no signer. -/
def Submission.byGame (sub : Submission) : Bool := sub.signer.all (· == "")

/-- What a submission brings into the account of the game. -/
def Submission.gain (gameAccount : String) (sub : Submission) : Int :=
  (if sub.receipt = gameAccount then sub.amount else 0) - if sub.byGame then sub.amount else 0

namespace MkcRelay

/-- What the account of the game has more than before the submissions. -/
def gameBalance (R : Relay) (log : List Submission) : Int :=
  (log.map (Submission.gain R.gameAccount)).sum

/-- A withdrawal that a user has asked for, and that has not been submitted. -/
def Unsubmitted (u : Nat) (t : WalletTransfer) : Prop :=
  t.userId = u ∧ t.type = .toExternalWallet ∧ t.status = .pending

instance (u : Nat) (t : WalletTransfer) : Decidable (Unsubmitted u t) :=
  inferInstanceAs (Decidable (_ ∧ _ ∧ _))

/-- What a user may still withdraw, or has asked for and not been paid. -/
def owedTo (R : Ethers) (d : WalletDb) (u : Nat) : Int :=
  balanceOf R d u - pendingOf R d u + amountOf R (Unsubmitted u) d

/-- No statement of a batch fails, and each payment that the chain takes is known to have worked. No
withdrawal has a negative amount. -/
def Sure (R : Relay) (w : World) : Action → Prop
  | .transferListener _ _ => True
  | .transferToExternalWallet _ _ amount _ => 0 ≤ R.wei amount
  | .processTransfers b => b.faults.Silent ∧
    ∀ t ∈ selectTransfers b.ids w.db, t.type = .toExternalWallet → Accepts R t (b.chain t.id) →
      Submitted (b.chain t.id)

/-- A user with an address has the key of its account. -/
def Keyholder (user : User) : Prop :=
  user.ethWalletAddresses ≠ none → ∃ k ∈ user.ethPrivateKey, k ≠ ""

/-- Nothing was deposited yet. -/
structure Fresh (R : Ethers) (w : World) : Prop where
  keys : ∀ user ∈ w.db.users.rows, Keyholder user
  balance : ∀ u, balanceOf R w.db u = 0
  pending : ∀ u, pendingOf R w.db u = 0
  transfers : w.db.transfers.rows = []
  submissions : w.submissions = []

/-! ## The tables -/

/-- What every step keeps of the tables. -/
structure Sound (R : Ethers) (users : Table User) (d : WalletDb) : Prop where
  same : d.users = users
  owners : ∀ t ∈ d.transfers.rows, t.type = .toGameWallet →
    ∃ user ∈ users.rows, user.id = t.userId ∧ user.ethWalletAddresses ≠ none
  amounts : ∀ t ∈ d.transfers.rows, 0 ≤ R.wei t.mkcAmount
  parses : ∀ t ∈ d.transfers.rows, (R.parseEther t.mkcAmount).isSome
  balanced : ∀ u, Balanced R u d
  reserved : ∀ u, Reserved R u d
  solvent : ∀ u, Solvent R u d
  readable : ∀ t ∈ d.transfers.rows, t.type = .toExternalWallet → t.Open → Readable R t.userId d

variable {R : Relay} {users : Table User} {d d' : WalletDb} {u : Nat} {t : SelectedTransfer}
  {o : ChainOutcome} {log : List Submission}

theorem Handled.keeps_users (h : Handled R t o d d') : d'.users = d.users := by
  cases h with
  | wait | submit => rfl
  | credit _ _ hc => cases hc <;> rfl
  | debit _ _ hc => cases hc; rfl
  | revert _ hr =>
    cases hr with
    | retry | fail => rfl
    | release _ _ _ hl => cases hl; rfl

theorem Sound.handled (h : Sound R.toEthers users d) (ht : t.toWalletTransfer ∈ d.transfers.rows)
    (hopen : t.Open) (hd : Handled R t o d d') : Sound R.toEthers users d' := by
  obtain ⟨g, hrows, hlater⟩ := hd.later ht hopen
  have hrow : ∀ r' ∈ d'.transfers.rows, ∃ r ∈ d.transfers.rows, Later r r' := by
    intro r' hr'
    rw [hrows] at hr'
    obtain ⟨r, hr, rfl⟩ := List.mem_map.1 hr'
    exact ⟨r, hr, hlater r hr⟩
  refine ⟨hd.keeps_users.trans h.same, fun r' hr' htype => ?_, fun r' hr' => ?_, fun r' hr' => ?_,
    fun u => (h.balanced u).handled ht hopen hd, fun u => (h.reserved u).handled ht hopen hd,
    fun u => (h.solvent u).handled ht hopen hd, fun r' hr' htype hopen' => ?_⟩
  all_goals obtain ⟨r, hr, hl⟩ := hrow r' hr'
  · rw [hl.userId]
    exact h.owners r hr (hl.type ▸ htype)
  · rw [hl.mkcAmount]
    exact h.amounts r hr
  · rw [hl.mkcAmount]
    exact h.parses r hr
  · rw [hl.userId]
    exact (h.readable r hr (hl.type ▸ htype) (hl.open_of hopen')).handled hd

theorem userOfAddress_some {user : User} {address : String}
    (h : userOfAddress d address = some user) :
    user ∈ d.users.rows ∧ user.ethWalletAddresses ≠ none := by
  refine ⟨List.mem_of_find?_eq_some h, fun hnone => ?_⟩
  have haddress := List.find?_some h
  rw [hnone] at haddress
  cases haddress

/-- A deposit is registered for a user with an address, or nothing changes. -/
theorem transferListener_db (event : TransferEvent) (faults : Faults) (w : World) :
    (step R w (.transferListener event faults)).db = w.db ∨
      ∃ user ∈ w.db.users.rows, user.ethWalletAddresses ≠ none ∧
        (step R w (.transferListener event faults)).db =
          w.db.insertTransfer user.id .toGameWallet .pending (R.formatEther event.amount)
            (some event.transactionHash) none := by
  rcases (transferListener_cases (R := R) event faults w).2 with heq | ⟨user, huser, -, heq⟩
  · exact .inl heq
  · obtain ⟨hmem, haddress⟩ := userOfAddress_some huser
    unfold insertDeposit at heq
    split at heq
    · exact .inl heq
    · exact .inr ⟨user, hmem, haddress, heq⟩

theorem Sound.transferListener {w : World} (h : Sound R.toEthers users w.db) (event : TransferEvent)
    (faults : Faults) : Sound R.toEthers users (step R w (.transferListener event faults)).db := by
  have hbalanced := fun u => (h.balanced u).step (a := .transferListener event faults)
  have hreserved := fun u => (h.reserved u).step (a := .transferListener event faults)
  have hsolvent : ∀ u, Solvent R.toEthers u (step R w (.transferListener event faults)).db :=
    fun u => (h.solvent u).step (a := .relay (.transferListener event faults)) trivial
  rcases transferListener_db (R := R) event faults w with heq | ⟨user, huser, haddress, heq⟩ <;>
    rw [heq] at hbalanced hreserved hsolvent ⊢
  · exact h
  · refine ⟨h.same, fun r hr htype => ?_, fun r hr => ?_, fun r hr => ?_, hbalanced, hreserved,
      hsolvent, fun r hr htype hopen => ?_⟩
    all_goals rcases Table.mem_insert.1 hr with hr | rfl
    · exact h.owners r hr htype
    · exact ⟨user, h.same ▸ huser, rfl, haddress⟩
    · exact h.amounts r hr
    · rw [R.wei_format]
      exact Int.natCast_nonneg event.amount
    · exact h.parses r hr
    · rw [R.parse_format]
      rfl
    · exact h.readable r hr htype hopen
    · cases htype

/-- A request leaves the wallets readable, and that of its user is. -/
theorem Requested.readable {v : Nat} {address amount : String}
    (hr : Requested R u address amount d d') (h : v = u ∨ Readable R.toEthers v d) :
    Readable R.toEthers v d' := by
  obtain ⟨hw, haddress, hb, ha, hp, hle⟩ := hr
  by_cases hv : v = u
  · exact ⟨_, _, _, (WalletDb.walletOf_updateWalletById
      (WalletDb.walletOf_insertTransfer.trans hw)).trans (if_pos hv), hb, R.parse_format _⟩
  · obtain ⟨w, b, p, hw', hb', hp'⟩ := h.resolve_left hv
    exact ⟨w, b, p, ((WalletDb.walletOf_updateWalletById
      (WalletDb.walletOf_insertTransfer.trans hw)).trans (if_neg hv)).trans hw', hb', hp'⟩

theorem Sound.transferToExternalWallet {w : World} (h : Sound R.toEthers users w.db) (u : Nat)
    (address amount : String) (faults : Faults) (hamount : 0 ≤ R.wei amount) :
    Sound R.toEthers users (step R w (.transferToExternalWallet u address amount faults)).db := by
  have hbalanced := fun v =>
    (h.balanced v).step (a := .transferToExternalWallet u address amount faults)
  have hreserved := fun v =>
    (h.reserved v).step (a := .transferToExternalWallet u address amount faults)
  have hsolvent : ∀ v,
      Solvent R.toEthers v (step R w (.transferToExternalWallet u address amount faults)).db :=
    fun v => (h.solvent v).step (a := .relay (.transferToExternalWallet u address amount faults))
      fun _ _ => hamount
  rcases (transferToExternalWallet_cases (R := R) u address amount faults w).2 with heq | hr
  · have hdb : (step R w (.transferToExternalWallet u address amount faults)).db = w.db := heq
    exact hdb ▸ h
  · have hr : Requested R u address amount w.db
        (step R w (.transferToExternalWallet u address amount faults)).db := hr
    generalize (step R w (.transferToExternalWallet u address amount faults)).db = d' at *
    have husers : d'.users = w.db.users := by
      obtain ⟨-, -, -, -, -, -⟩ := hr
      rfl
    have hparse : (R.parseEther amount).isSome := by
      obtain ⟨-, -, -, ha, -, -⟩ := hr
      exact Option.isSome_of_eq_some ha
    refine ⟨husers.trans h.same, fun r hmem htype => ?_, fun r hmem => ?_, fun r hmem => ?_,
      hbalanced, hreserved, hsolvent, fun r hmem htype hopen => ?_⟩
    all_goals rcases hr.mem_transfers.1 hmem with hmem | rfl
    · exact h.owners r hmem htype
    · cases htype
    · exact h.amounts r hmem
    · exact hamount
    · exact h.parses r hmem
    · exact hparse
    · exact hr.readable (.inr (h.readable r hmem htype hopen))
    · exact hr.readable (.inl rfl)

/-- The wallets cover the open withdrawals. -/
theorem Sound.covered {r : WalletTransfer} (h : Sound R.toEthers users d)
    (hr : r ∈ d.transfers.rows) (htype : r.type = .toExternalWallet) (hopen : r.Open) :
    Covered R.toEthers r.userId d :=
  ⟨h.solvent r.userId, h.readable r hr htype hopen, fun t ht _ => h.parses t ht⟩

/-! ## What the chain has taken -/

/-- A pending transfer is in progress only after the chain has taken its submission. -/
def Honest (R : Relay) (t : SelectedTransfer) (o : ChainOutcome) (d : WalletDb) : Prop :=
  t.status = .pending → ¬Accepts R t o → ∀ r ∈ d.transfers.get? t.id, r.status ≠ .inProgress

variable {s : DbTx}

/-- The part of a handler that submits the transfer returns only if the chain takes it. -/
theorem submit_accepts {mk : Int → Submission} (hst : t.status = .pending)
    (hc : t.type = .toGameWallet → Confirmed o) :
    Ends (do
        let amount ← R.parse t.mkcAmount
        let hash ← transferMkc o (mk amount)
        waitOne o
        recordSubmission t hash)
      (fun _ s' => s' = s ∨ Accepts R t o) (fun _ _ => True) s := by
  refine ends_bind.2 (parse_ends.mono ?_ fun _ _ _ => trivial)
  rintro a _ ⟨ha, rfl⟩
  by_cases ho : o.submit = .rejected
  · simp only [transferMkc, ho]
    exact ends_bind.2 (ends_throw.2 trivial)
  · refine ends_trivial.mono (fun _ _ _ => .inr ⟨hst, ?_, ho, hc⟩) fun _ _ _ => trivial
    rw [ha]
    rfl

/-- The attempt of a pending transfer that the chain does not take changes nothing. -/
theorem attempt_accepts (hst : t.status = .pending) :
    Ends (attempt R t o) (fun _ s' => s' = s ∨ Accepts R t o) (fun _ _ => True) s := by
  unfold attempt
  split
  next ht _ =>
    refine ends_bind.2 (getTransactionReceipt_ends.mono ?_ fun _ _ _ => trivial)
    rintro tx _ ⟨rfl, htx⟩
    split
    · exact .inl rfl
    next hconfirmed => exact submit_accepts hst fun _ => htx.1 (by simpa using hconfirmed)
  next ht hprogress =>
    rw [hst] at hprogress
    cases hprogress
  next ht _ =>
    refine submit_accepts hst fun hgame => ?_
    rw [ht] at hgame
    cases hgame
  next ht hprogress =>
    rw [hst] at hprogress
    cases hprogress
  · exact .inl rfl

theorem processTransfer_honest (hs : s.aborted = false)
    (hcur : s.db.transfers.get? t.id = some t.toWalletTransfer) :
    Ends (processTransfer R t o) (fun _ s' => Honest R t o s'.db) (fun _ _ => True) s := by
  by_cases hcase : t.status = .pending ∧ ¬Accepts R t o
  · obtain ⟨hst, hna⟩ := hcase
    have hstatus : ∀ {d : WalletDb} {r : WalletTransfer}, d.transfers.get? t.id = some r →
        r.status ≠ .inProgress → Honest R t o d := by
      rintro d r hr hne - - r' hr'
      rw [hr] at hr'
      cases hr'
      exact hne
    rw [processTransfer_eq]
    refine ends_tryCatch.2 (((attempt_ends hs).and (attempt_accepts hst)).mono ?_ ?_)
    · rintro _ _ ⟨-, rfl | haccepts⟩
      · exact hstatus hcur (by simp [hst])
      · exact absurd haccepts hna
    · rintro _ s₁ ⟨hfails, -⟩
      refine hfails.revert.mono ?_ fun _ _ _ => trivial
      rintro _ s₂ ⟨-, hrev⟩
      generalize s₂.db = d₂ at hrev ⊢
      cases hrev with
      | retry => exact hstatus (Table.get?_update_self hcur) (by simp [hst])
      | release _ _ _ hl =>
        exact hstatus (Table.get?_update_self (hl.transfers ▸ hcur)) (by simp)
      | fail => exact hstatus (Table.get?_update_self hcur) (by simp)
  · refine ends_trivial.mono (fun _ _ _ hst hna => ?_) fun _ _ _ => trivial
    exact absurd ⟨hst, hna⟩ hcase

/-! ## What the rows say -/

/-- What a transfer has brought to its user in the account of the game. -/
def due (R : Ethers) (t : WalletTransfer) : Int :=
  match t.type, t.status with
  | .toGameWallet, .done => R.wei t.mkcAmount
  | .toExternalWallet, .inProgress | .toExternalWallet, .done => -R.wei t.mkcAmount
  | .toExternalWallet, .failed => if t.transactionHash = none then 0 else -R.wei t.mkcAmount
  | _, _ => 0

/-- A deposit that is in progress is there, but not its user's. -/
def entry (R : Ethers) (t : WalletTransfer) : Int :=
  match t.type, t.status with
  | .toGameWallet, .inProgress => R.wei t.mkcAmount
  | _, _ => due R t

/-- What the rows of the transfers of the users say of the account. -/
def recorded (R : Ethers) (users : Table User) (d : WalletDb) : Int :=
  d.transfers.total fun t => if (users.get? t.userId).isSome then entry R t else 0

/-- A row is rewritten. -/
theorem recorded_update {d₁ : WalletDb} {f : WalletTransfer → WalletTransfer}
    {hf : ∀ r, key (f r) = key r} (ht : t.toWalletTransfer ∈ d.transfers.rows)
    (huser : (users.get? t.userId).isSome) (htransfers : d₁.transfers = d.transfers)
    (hkeep : (f t.toWalletTransfer).userId = t.userId) :
    recorded R.toEthers users (d₁.updateTransfer t.id f hf) =
      recorded R.toEthers users d - entry R.toEthers t.toWalletTransfer +
        entry R.toEthers (f t.toWalletTransfer) := by
  unfold recorded
  rw [WalletDb.transfers_updateTransfer, htransfers, Table.total_update (k := t.id) ht rfl, hkeep,
    if_pos huser, if_pos huser]

theorem gameBalance_append (log log' : List Submission) :
    gameBalance R (log ++ log') = gameBalance R log + gameBalance R log' := by
  simp [gameBalance]

/-- The submission of a deposit brings its amount in. -/
theorem gain_deposit (ht : t.type = .toGameWallet) (hkey : ∃ k ∈ t.ethPrivateKey, k ≠ "") :
    (submissionOf R t).gain R.gameAccount = R.wei t.mkcAmount := by
  obtain ⟨k, hk, hne⟩ := hkey
  simp [submissionOf, ht, Submission.gain, Submission.byGame, Option.mem_def.1 hk, hne]

/-- The submission of a withdrawal takes its amount at most. -/
theorem gain_withdrawal (ht : t.type = .toExternalWallet) (hamount : 0 ≤ R.wei t.mkcAmount) :
    -R.wei t.mkcAmount ≤ (submissionOf R t).gain R.gameAccount := by
  simp only [submissionOf, ht, Submission.gain, Submission.byGame, Option.all_none, if_true]
  split <;> omega

/-- A transfer that is handled makes the rows no better than what the chain has taken. -/
theorem Handled.recorded_le (hd : Handled R t o d d') (h : Sound R.toEthers users d)
    (ht : t.toWalletTransfer ∈ d.transfers.rows) (hopen : t.Open)
    (huser : (users.get? t.userId).isSome)
    (hkey : t.type = .toGameWallet → ∃ k ∈ t.ethPrivateKey, k ≠ "")
    (hknown : t.type = .toExternalWallet → Accepts R t o → Submitted o)
    (hhonest : Honest R t o d') :
    recorded R.toEthers users d' ≤
      recorded R.toEthers users d + gameBalance R (submissions R t o) := by
  have hamount : 0 ≤ R.wei t.mkcAmount := h.amounts _ ht
  have hcur : d.transfers.get? t.id = some t.toWalletTransfer := Table.get?_eq_some.2 ⟨ht, rfl⟩
  cases hd with
  | wait hna =>
    rw [submissions_of_not_accepts hna]
    exact (add_zero _).ge
  | submit hash hst =>
    by_cases ha : Accepts R t o
    · have hgain : gameBalance R (submissions R t o) = (submissionOf R t).gain R.gameAccount := by
        simp [submissions_of_accepts ha, gameBalance]
      rw [recorded_update ht huser rfl rfl, hgain]
      cases htype : t.type with
      | toGameWallet =>
        rw [gain_deposit htype (hkey htype)]
        simp [entry, due, htype, hst]
      | toExternalWallet =>
        have hle := gain_withdrawal htype hamount
        simpa [entry, due, htype, hst] using hle
    · exact absurd rfl (hhonest hst ha _ (Table.get?_update_self hcur))
  | credit htype hst hc =>
    have hna : ¬Accepts R t o := not_accepts_of_status (by simp [hst])
    rw [recorded_update ht huser hc.transfers rfl, submissions_of_not_accepts hna]
    simp [entry, due, htype, hst, gameBalance]
  | debit htype hst hc =>
    have hna : ¬Accepts R t o := not_accepts_of_status (by simp [hst])
    rw [recorded_update ht huser hc.transfers rfl, submissions_of_not_accepts hna]
    simp [entry, due, htype, hst, gameBalance]
  | revert hunsure hr =>
    -- What is reverted was no payment.
    have hgain : 0 ≤ gameBalance R (submissions R t o) := by
      by_cases ha : Accepts R t o
      · cases htype : t.type with
        | toGameWallet =>
          have hgain := gain_deposit (R := R) htype (hkey htype)
          simpa [submissions_of_accepts ha, gameBalance, hgain] using hamount
        | toExternalWallet => exact absurd (hknown htype ha) (hunsure ha)
      · rw [submissions_of_not_accepts ha]
        exact le_rfl
    have hle : ∀ {d₁ : WalletDb} {f : WalletTransfer → WalletTransfer} {hf},
        d₁.transfers = d.transfers → (f t.toWalletTransfer).userId = t.userId →
        entry R.toEthers (f t.toWalletTransfer) ≤ entry R.toEthers t.toWalletTransfer →
        recorded R.toEthers users (d₁.updateTransfer t.id f hf) ≤
          recorded R.toEthers users d + gameBalance R (submissions R t o) := by
      intro d₁ f hf htransfers hkeep hentry
      rw [recorded_update ht huser htransfers hkeep]
      omega
    cases hr with
    | retry => exact hle rfl rfl le_rfl
    | release _ htype hst hl =>
      refine hle hl.transfers rfl ?_
      simp only [entry, due, htype, hst]
      split <;> omega
    | fail _ hne =>
      refine hle rfl rfl ?_
      cases htype : t.type with
      | toGameWallet => rcases hopen with hst | hst <;> simp [entry, due, htype, hst, hamount]
      | toExternalWallet =>
        -- A withdrawal that fails here was submitted.
        have hst : t.status = .inProgress := hopen.resolve_left fun hp => hne ⟨htype, hp⟩
        have hhash := (h.reserved t.userId).hash_some _ ht rfl htype hst
        simp [entry, due, htype, hst, hhash]

/-! ## A batch -/

variable {chain : Nat → ChainOutcome} {ts : List SelectedTransfer} {ids : List Nat} {w : World}

/-- A selected row has its user. -/
theorem user_of_mem_selectTransfers (h : t ∈ selectTransfers ids d) :
    ∃ user, d.users.get? t.userId = some user ∧ t.ethPrivateKey = user.ethPrivateKey := by
  obtain ⟨id, -, hid⟩ := List.mem_filterMap.1 h
  simp only [Option.bind_eq_bind, Option.bind_eq_some_iff] at hid
  obtain ⟨tr, -, user, huser, hsel⟩ := hid
  split at hsel
  · cases hsel
    exact ⟨user, huser, rfl⟩
  · cases hsel

/-- The state of a batch: the tables are sound, and their rows are no better than the chain. -/
structure Backed (R : Relay) (users : Table User) (d : WalletDb) (log : List Submission) :
    Prop where
  sound : Sound R.toEthers users d
  le_balance : recorded R.toEthers users d ≤ gameBalance R log

/-- What a batch knows of a row that it has selected. -/
structure Selected (R : Relay) (users : Table User) (chain : Nat → ChainOutcome)
    (t : SelectedTransfer) : Prop where
  isOpen : t.Open
  user : (users.get? t.userId).isSome
  key : t.type = .toGameWallet → ∃ k ∈ t.ethPrivateKey, k ≠ ""
  known : t.type = .toExternalWallet → Accepts R t (chain t.id) → Submitted (chain t.id)

theorem processEach_backed (hs : s.aborted = false) (h : Backed R users s.db s.log)
    (hsel : ∀ t ∈ ts, Selected R users chain t)
    (hcur : ∀ t ∈ ts, t.toWalletTransfer ∈ s.db.transfers.rows) (hn : (ts.map (·.id)).Nodup) :
    Ends (processEach R chain ts) (fun _ s' => Backed R users s'.db s'.log) (fun _ _ => True)
      s := by
  induction ts generalizing s with
  | nil => exact ends_pure.2 h
  | cons t ts ih =>
    obtain ⟨hid, hn'⟩ := List.nodup_cons.1 hn
    have ht := hcur t (.head _)
    have hselected := hsel t (.head _)
    have hget : s.db.transfers.get? t.id = some t.toWalletTransfer := Table.get?_eq_some.2 ⟨ht, rfl⟩
    refine ends_bind.2 (((processTransfer_ends hs).and (processTransfer_honest hs hget)).mono ?_
      fun _ _ _ => trivial)
    rintro _ s₁ ⟨hreturns, hhonest⟩
    have hle := hreturns.db.recorded_le h.sound ht hselected.isOpen hselected.user hselected.key
      hselected.known hhonest
    refine ih hreturns.live ⟨h.sound.handled ht hselected.isOpen hreturns.db, ?_⟩
      (fun t' ht' => hsel t' (.tail _ ht')) (fun t' ht' => ?_) hn'
    · rw [hreturns.log, gameBalance_append]
      exact hle.trans (add_le_add_left h.le_balance _)
    · refine hreturns.db.mem_of_ne (hcur t' (.tail _ ht')) fun heq => hid ?_
      exact List.mem_map.2 ⟨t', ht', heq⟩

theorem selected_of_mem {b : Batch} (h : Sound R.toEthers users w.db)
    (hkeys : ∀ user ∈ users.rows, Keyholder user) (hsure : Sure R w (.processTransfers b))
    (ht : t ∈ selectTransfers b.ids w.db) : Selected R users b.chain t := by
  obtain ⟨user, huser, hkey⟩ := user_of_mem_selectTransfers ht
  obtain ⟨hmem, hopen⟩ := mem_selectTransfers ht
  rw [h.same] at huser
  refine ⟨hopen, Option.isSome_of_eq_some huser, fun htype => ?_, hsure.2 t ht⟩
  obtain ⟨owner, howner, hid, haddress⟩ := h.owners _ hmem htype
  obtain rfl : owner = user :=
    Option.some.inj ((Table.get?_eq_some.2 ⟨howner, hid⟩).symm.trans huser)
  rw [hkey]
  exact hkeys owner howner haddress

/-- A batch in which no payment gets lost commits, and keeps the account. -/
theorem Backed.processTransfers {b : Batch} (h : Backed R users w.db w.submissions)
    (hkeys : ∀ user ∈ users.rows, Keyholder user) (hsure : Sure R w (.processTransfers b)) :
    Backed R users (step R w (.processTransfers b)).db
      (step R w (.processTransfers b)).submissions := by
  have hcur : ∀ t ∈ selectTransfers b.ids w.db,
      t.toWalletTransfer ∈ w.db.transfers.rows ∧ t.Open := fun t ht => mem_selectTransfers ht
  have hn := nodup_selectTransfers (d := w.db) b.nodup
  have hends : Ends (processBatch R b)
      (fun _ s' => s'.aborted = false ∧ Backed R users s'.db s'.log) (fun _ _ => False)
      (start w.db w.submissions b.faults) := by
    refine ends_bind.2 (select_ends.mono ?_ fun _ _ hf => hf.fault ⟨rfl, hsure.1.1⟩)
    rintro _ s₁ ⟨rfl, h₁⟩
    have hdb : s₁.db = w.db := h₁.db
    have hlog : s₁.log = w.submissions := h₁.log
    have hbacked : Backed R users s₁.db s₁.log := by rwa [hdb, hlog]
    have hselected : ∀ t ∈ selectTransfers b.ids w.db, Selected R users b.chain t :=
      fun t ht => selected_of_mem h.sound hkeys hsure ht
    refine ((processEach_ends h₁.live').and (processEach_backed h₁.live' hbacked hselected
      (fun t ht => hdb ▸ (hcur t ht).1) hn)).mono (fun _ _ hand => ⟨hand.1.1, hand.2⟩) ?_
    rintro _ s' ⟨⟨pre, t, rest, hts, -, hstuck⟩, -⟩
    obtain ⟨d, hd, hst⟩ := hstuck (h₁.reliable ⟨rfl, hsure.1.1⟩)
    rw [hdb] at hd
    have hts : selectTransfers b.ids w.db = pre ++ t :: rest := hts
    rw [hts] at hcur hn
    refine not_stuck hd hcur hn (fun hlast => ?_) hst
    obtain ⟨hmem, hopen⟩ := hcur t (by simp)
    exact h.sound.covered hmem hlast.type hopen
  unfold step MkcRelay.processTransfers World.run
  refine transact_of_ends hends (P := fun out => Backed R users out.db out.log) ?_ ?_ ?_
  · exact fun _ _ hand _ => hand.2
  · rintro _ s' ⟨hlive, -⟩ (haborted | hcommit)
    · rw [hlive] at haborted
      cases haborted
    · rw [hsure.1.2] at hcommit
      cases hcommit
  · exact fun _ _ hfalse => hfalse.elim

/-! ## Runs -/

/-- A new row says nothing of the account. -/
theorem recorded_insert {type : TransferType} {amount : String} {source address : Option String}
    (u : Nat) : recorded R.toEthers users (d.insertTransfer u type .pending amount source address) =
      recorded R.toEthers users d := by
  unfold recorded WalletDb.insertTransfer
  rw [Table.total_insert]
  cases type <;> simp [entry, due]

theorem Backed.step (h : Backed R users w.db w.submissions)
    (hkeys : ∀ user ∈ users.rows, Keyholder user) {a : Action} (hsure : Sure R w a) :
    Backed R users (step R w a).db (step R w a).submissions := by
  cases a with
  | transferListener event faults =>
    have hsub : (MkcRelay.step R w (.transferListener event faults)).submissions = w.submissions :=
      (transferListener_cases (R := R) event faults w).1
    refine ⟨h.sound.transferListener event faults, ?_⟩
    rw [hsub]
    rcases transferListener_db (R := R) event faults w with heq | ⟨user, -, -, heq⟩ <;> rw [heq]
    · exact h.le_balance
    · rw [recorded_insert]
      exact h.le_balance
  | transferToExternalWallet u address amount faults =>
    obtain ⟨hsub, hcases⟩ := transferToExternalWallet_cases (R := R) u address amount faults w
    refine ⟨h.sound.transferToExternalWallet u address amount faults hsure, ?_⟩
    show recorded R.toEthers users
        (MkcRelay.transferToExternalWallet R u address amount faults w).db ≤
      gameBalance R (MkcRelay.transferToExternalWallet R u address amount faults w).submissions
    rw [hsub]
    rcases hcases with heq | hr
    · rw [heq]
      exact h.le_balance
    · generalize (MkcRelay.transferToExternalWallet R u address amount faults w).db = d' at hr ⊢
      obtain ⟨-, -, -, -, -, -⟩ := hr
      exact recorded_insert (d := w.db) u ▸ h.le_balance
  | processTransfers b => exact h.processTransfers hkeys hsure

theorem Fresh.backed (h : Fresh R.toEthers w) : Backed R w.db.users w.db w.submissions := by
  have hnone : ∀ {r : WalletTransfer}, r ∉ w.db.transfers.rows := by
    rw [h.transfers]
    exact List.not_mem_nil
  have hsum : ∀ (p : WalletTransfer → Prop) [DecidablePred p], amountOf R.toEthers p w.db = 0 :=
    fun p _ => amountOf_eq_zero fun r hr => (hnone hr).elim
  have hrecorded : recorded R.toEthers w.db.users w.db = 0 := by
    simp [recorded, Table.total, h.transfers]
  have hbalance : gameBalance R w.submissions = 0 := by
    rw [h.submissions]
    rfl
  refine ⟨⟨rfl, fun r hr => (hnone hr).elim, fun r hr => (hnone hr).elim,
    fun r hr => (hnone hr).elim, fun u => ?_, fun u => ?_, fun u => ?_,
    fun r hr => (hnone hr).elim⟩, (hrecorded.trans hbalance.symm).le⟩
  · unfold Balanced
    rw [h.balance, hsum, hsum]
    rfl
  · exact ⟨by rw [h.pending, hsum], fun r hr => (hnone hr).elim, fun r hr => (hnone hr).elim⟩
  · refine ⟨?_, ?_, fun r hr => (hnone hr).elim⟩
    · rw [hsum, h.pending]
    · rw [h.pending, h.balance]

/-- What a user is owed is what the rows say. -/
theorem owedTo_eq (h : Sound R.toEthers users d) (u : Nat) :
    owedTo R.toEthers d u =
      d.transfers.total fun t => if t.userId = u then due R.toEthers t else 0 := by
  unfold owedTo
  rw [show balanceOf R.toEthers d u = _ from h.balanced u, (h.reserved u).pending]
  unfold amountOf
  rw [← Table.total_sub, ← Table.total_sub, ← Table.total_add]
  refine Table.total_congr fun t _ => ?_
  by_cases hu : t.userId = u
  · cases htype : t.type <;> cases hst : t.status <;>
      simp [WalletTransfer.Settled, WalletTransfer.Withheld, WalletTransfer.Open, Unsubmitted, due,
        hu, htype, hst]
    -- A withdrawal that failed stays withheld if it was submitted.
    split <;> simp
  · simp [WalletTransfer.Settled, WalletTransfer.Withheld, Unsubmitted, hu]

theorem due_le_entry {R : Ethers} {r : WalletTransfer} (h : 0 ≤ R.wei r.mkcAmount) :
    due R r ≤ entry R r := by
  unfold entry
  split
  next htype hst => simpa [due, htype, hst] using h
  · exact le_rfl

/-- The users are owed no more than the rows say. -/
theorem sum_owedTo_le (h : Sound R.toEthers users d) :
    (users.rows.map fun user => owedTo R.toEthers d user.id).sum ≤ recorded R.toEthers users d := by
  have hsum : ∀ t : WalletTransfer,
      (users.rows.map fun user => if t.userId = user.id then due R.toEthers t else 0).sum =
        if (users.get? t.userId).isSome then due R.toEthers t else 0 :=
    fun t => Table.total_ite_key (t := users) (k := t.userId) (due R.toEthers t)
  simp only [owedTo_eq h, Table.sum_total, hsum]
  refine Table.total_le_total fun t ht => ?_
  split
  · exact due_le_entry (h.amounts t ht)
  · exact le_rfl

theorem owedTo_nonneg (h : Sound R.toEthers users d) (u : Nat) : 0 ≤ owedTo R.toEthers d u := by
  have hcovered := (h.solvent u).covered
  have hunsubmitted : 0 ≤ amountOf R.toEthers (Unsubmitted u) d :=
    amountOf_nonneg fun t ht _ => h.amounts t ht
  unfold owedTo
  omega

/-- **Backing.** In every run in which no payment gets lost, the account of the game has what all
users together are owed, and no user is owed a negative amount. -/
theorem wallets_backed {w₀ : World} (hfresh : Fresh R.toEthers w₀)
    (h : Reach (graph (step R)) (Sure R) w₀ w) :
    (w.db.users.rows.map fun user => owedTo R.toEthers w.db user.id).sum ≤
        gameBalance R w.submissions ∧
      ∀ u, 0 ≤ owedTo R.toEthers w.db u := by
  have hbacked : Backed R w₀.db.users w.db w.submissions :=
    h.inv (I := fun w => Backed R w₀.db.users w.db w.submissions) hfresh.backed
      fun w a w' hw hsure hst => hst ▸ hw.step hfresh.keys hsure
  rw [hbacked.sound.same]
  exact ⟨(sum_owedTo_le hbacked.sound).trans hbacked.le_balance, owedTo_nonneg hbacked.sound⟩

/-- Two users with accounts, and no wallets. -/
def sampleStart : World := { sampleWorld with db := { sampleWorld.db with wallets := .empty } }

theorem fresh_sampleStart : Fresh sampleRelay.toEthers sampleStart := by
  refine ⟨?_, fun _ => rfl, fun _ => rfl, rfl, rfl⟩
  intro user huser _
  rcases List.mem_cons.1 huser with rfl | huser
  · exact ⟨"0x01", rfl, by decide⟩
  · obtain rfl := List.mem_singleton.1 huser
    exact ⟨"0x02", rfl, by decide⟩

theorem sure_sampleBatch (w : World) (id : Nat) :
    Sure sampleRelay w (sampleBatch id sampleSuccess) :=
  ⟨Faults.silent_none, fun _ _ _ _ => ⟨⟨_, rfl⟩, rfl⟩⟩

theorem sure_depositAndWithdrawal :
    Meets (step sampleRelay) (Sure sampleRelay) sampleStart depositAndWithdrawal :=
  ⟨trivial, sure_sampleBatch _ 1, sure_sampleBatch _ 1,
    show 0 ≤ sampleRelay.wei "1" by decide, sure_sampleBatch _ 2, sure_sampleBatch _ 2, trivial⟩

/-- After a deposit of 3 MKC and a withdrawal of 1, the account has 2. -/
theorem wallets_backed_sample :
    gameBalance sampleRelay
          (depositAndWithdrawal.foldl (step sampleRelay) sampleStart).submissions =
        2 * 10 ^ 18 ∧
      ((depositAndWithdrawal.foldl (step sampleRelay) sampleStart).db.users.rows.map fun user =>
          owedTo sampleRelay.toEthers (depositAndWithdrawal.foldl (step sampleRelay) sampleStart).db
            user.id).sum ≤
        gameBalance sampleRelay
          (depositAndWithdrawal.foldl (step sampleRelay) sampleStart).submissions :=
  ⟨by decide +kernel,
    (wallets_backed fresh_sampleStart (Reach.refl.meets sure_depositAndWithdrawal)).1⟩

end MkcRelay

end Cme.Blockchain
