import CmeBackend.Blockchain.Transitions
import CmeBackend.Lib.Work

/-!
# Transfers come to an end

A transfer is attempted once in each batch that selects it. In each of its two open statuses at most
`MAX_TRANSFER_RETRIES` attempts fail before the last one, which closes it or submits it.

* `attempt_settles`: an attempt that does not wait for confirmations gives the transfer another
  status, or fails.
* `tried_step`: so each attempt that a batch commits moves its row on.
* `left`: how many attempts there are at most in a status.
* `transfers_end`: in every run, a transfer is attempted no more often than that in each status, and
  closed when as many attempts are committed.
-/

namespace Cme.Blockchain

open Transaction Runs Work

namespace MkcRelay

variable (R : Relay)

/-- The attempts that a row has left in a status. -/
def rank (status : TransferStatus) (r : WalletTransfer) : Nat :=
  match status, r.status with
  | .pending, .pending | .inProgress, .inProgress => MAX_TRANSFER_RETRIES + 1 - r.retries
  | .inProgress, .pending => MAX_TRANSFER_RETRIES + 1
  | _, _ => 0

/-- The attempts that a transfer has left in a status, registered or not. -/
def left (w : World) (id : Nat) (status : TransferStatus) : Nat :=
  match w.db.transfers.get? id with
  | some r => rank status r
  | none => MAX_TRANSFER_RETRIES + 1

instance (o : ChainOutcome) (r : WalletTransfer) : Decidable (Awaits o r) :=
  inferInstanceAs (Decidable (_ ∧ _))

/-- Whether a step commits an attempt of a transfer: a batch has selected it, and does not wait for
the confirmations of its transaction. -/
def attempted (w : World) (id : Nat) : Action → Bool
  | .processTransfers b =>
    match (transact w.db w.submissions b.faults (countingBatch R b)).result with
    | .ok _ => (selectTransfers b.ids w.db).any fun t =>
      t.id = id ∧ ¬Awaits (b.chain id) t.toWalletTransfer
    | .error _ => false
  | .transferListener _ _ | .transferToExternalWallet _ _ _ _ => false

/-- Whether a step commits an attempt of a transfer that it finds in a status. -/
def attemptedIn (w : World) (id : Nat) (status : TransferStatus) (a : Action) : Bool :=
  statusOf w id = some status ∧ attempted R w id a

/-- The attempts of a transfer that a run commits. -/
def attempts (w : World) (id : Nat) (as : List Action) : Nat :=
  spent (step R) (fun w a => (attempted R w id a).toNat) w as

/-- The attempts of a transfer that a run commits while the transfer is in a status. -/
def attemptsIn (w : World) (id : Nat) (status : TransferStatus) (as : List Action) : Nat :=
  spent (step R) (fun w a => (attemptedIn R w id status a).toNat) w as

/-- No open transfer has more retries than there are. -/
def Bounded (w : World) : Prop :=
  ∀ r ∈ w.db.transfers.rows, r.Open → r.retries ≤ MAX_TRANSFER_RETRIES

instance (w : World) : Decidable (Bounded w) :=
  inferInstanceAs (Decidable (∀ r ∈ w.db.transfers.rows, _))

/-- The last write of an attempt gives the row of `t` another status. -/
def Settles (t : SelectedTransfer) (d : WalletDb) : Prop :=
  ∀ r ∈ d.transfers.get? t.id, r.status ≠ t.status

/-- The transfers of `ts` that do not wait have failed, or have another status. -/
def Tried (chain : Nat → ChainOutcome) (ts : List SelectedTransfer) (failed : List Nat)
    (d : WalletDb) : Prop :=
  ∀ t ∈ ts, ¬Awaits (chain t.id) t.toWalletTransfer → t.id ∈ failed ∨ Settles t d

variable {R} {t : SelectedTransfer} {o : ChainOutcome} {s : DbTx} {d : WalletDb}
  {chain : Nat → ChainOutcome} {ts : List SelectedTransfer} {w : World} {a : Action}
  {r r' : WalletTransfer} {id : Nat}

/-! ## One attempt -/

theorem settles_update {f : WalletTransfer → WalletTransfer} {hf : ∀ r, key (f r) = key r}
    (h : ∀ r, (f r).status ≠ t.status) : Settles t (d.updateTransfer t.id f hf) := by
  intro r hr
  obtain ⟨r₀, hr₀, rfl⟩ := Option.map_eq_some_iff.1 ((Table.get?_update hf t.id).symm.trans hr)
  rw [← (Table.get?_eq_some.1 hr₀).2, Table.patch_self]
  exact h r₀

theorem recordSubmission_settles (hst : t.status = .pending) (hash : String) :
    Ends (recordSubmission t hash) (fun _ s' => Settles t s'.db) (fun _ _ => True) s := by
  refine execute_ends.mono (fun _ s' h => ?_) fun _ _ _ => trivial
  rw [h.db]
  exact settles_update fun _ heq => nomatch (heq.trans hst : TransferStatus.inProgress = .pending)

theorem recordDone_settles (hst : t.status = .inProgress) :
    Ends (recordDone t) (fun _ s' => Settles t s'.db) (fun _ _ => True) s := by
  refine execute_ends.mono (fun _ s' h => ?_) fun _ _ _ => trivial
  rw [h.db]
  exact settles_update fun _ heq => nomatch (heq.trans hst : TransferStatus.done = .inProgress)

/-- A program settles a transfer if its last part does. -/
theorem settles_bind {α : Type} {x : DbM α} {f : α → DbM Unit}
    (h : ∀ a s, Ends (f a) (fun _ s' => Settles t s'.db) (fun _ _ => True) s) :
    Ends (x >>= f) (fun _ s' => Settles t s'.db) (fun _ _ => True) s :=
  ends_bind.2 (ends_trivial.mono (fun a s' _ => h a s') fun _ _ _ => trivial)

/-- A handler that looks for a receipt, of a transfer that does not wait. -/
theorem settles_confirmed {x : DbM Unit}
    (hlooks : ¬(t.type = .toExternalWallet ∧ t.status = .pending))
    (haw : ¬Awaits o t.toWalletTransfer)
    (h : ∀ s, Ends x (fun _ s' => Settles t s'.db) (fun _ _ => True) s) :
    Ends (do
        let tx ← getTransactionReceipt o
        if unconfirmed tx then pure () else x)
      (fun _ s' => Settles t s'.db) (fun _ _ => True) s := by
  have hreceipt : unconfirmedReceipt o.receipt = false := by
    simpa using fun htrue => haw ⟨hlooks, htrue⟩
  unfold getTransactionReceipt
  cases ho : o.receipt with
  | throws => exact ends_bind.2 (ends_throw.2 trivial)
  | missing =>
    rw [ho] at hreceipt
    cases hreceipt
  | mined c =>
    rw [ho] at hreceipt
    refine ends_bind.2 (ends_pure.2 ?_)
    rw [if_neg (by simpa [unconfirmed, unconfirmedReceipt] using hreceipt)]
    exact h s

/-- An attempt that returns gives the transfer another status, unless it waits. -/
theorem attempt_settles (hopen : t.Open) (haw : ¬Awaits o t.toWalletTransfer) :
    Ends (attempt R t o) (fun _ s' => Settles t s'.db) (fun _ _ => True) s := by
  unfold attempt
  split
  next ht hst =>
    refine settles_confirmed (fun hand => ?_) haw fun s => ?_
    · rw [ht] at hand
      cases hand.1
    · exact settles_bind fun _ _ => settles_bind fun hash _ => settles_bind fun _ _ =>
        recordSubmission_settles hst hash
  next ht hst =>
    refine settles_confirmed (fun hand => ?_) haw fun s => ?_
    · rw [ht] at hand
      cases hand.1
    · exact settles_bind fun _ _ => recordDone_settles hst
  next ht hst =>
    exact settles_bind fun _ _ => settles_bind fun hash _ => settles_bind fun _ _ =>
      recordSubmission_settles hst hash
  next ht hst =>
    refine settles_confirmed (fun hand => ?_) haw fun s => ?_
    · rw [hst] at hand
      cases hand.2
    · exact settles_bind fun _ _ => recordDone_settles hst
  next h₁ h₂ h₃ h₄ =>
    cases ht : t.type <;> rcases hopen with hst | hst
    · exact (h₁ ht hst).elim
    · exact (h₂ ht hst).elim
    · exact (h₃ ht hst).elim
    · exact (h₄ ht hst).elim

/-! ## A batch -/

theorem countingTransfer_tried (hopen : t.Open) :
    Ends (countingTransfer R t o)
      (fun failed s' => ¬Awaits o t.toWalletTransfer → failed = true ∨ Settles t s'.db)
      (fun _ _ => True) s := by
  by_cases haw : Awaits o t.toWalletTransfer
  · exact ends_trivial.mono (fun _ _ _ hnot => absurd haw hnot) fun _ _ _ => trivial
  · refine ends_tryCatch.2 (ends_bind.2 ?_)
    refine (attempt_settles hopen haw).mono (fun _ _ h _ => .inr h) fun _ _ _ => ?_
    exact ends_bind.2 (ends_trivial.mono (fun _ _ _ _ => .inl rfl) fun _ _ _ => trivial)

theorem countingEach_tried (hs : s.aborted = false) (hopen : ∀ t ∈ ts, t.Open)
    (hcur : ∀ t ∈ ts, s.db.transfers.get? t.id = some t.toWalletTransfer)
    (hn : (ts.map (·.id)).Nodup) :
    Ends (countingEach R chain ts) (fun failed s' => Tried chain ts failed s'.db)
      (fun _ _ => True) s := by
  induction ts generalizing s with
  | nil => exact fun _ ht => (List.not_mem_nil ht).elim
  | cons t ts ih =>
    obtain ⟨hid, hn'⟩ := List.nodup_cons.1 hn
    have hfirst := (countingTransfer_ends (R := R) (o := chain t.id) hs (hopen t (.head _))
      (hcur t (.head _))).and (countingTransfer_tried (hopen t (.head _)))
    refine ends_bind.2 (hfirst.mono ?_ fun _ _ _ => trivial)
    rintro failed s₁ ⟨⟨hlive, hmoves⟩, htried⟩
    have hopen' : ∀ t' ∈ ts, t'.Open := fun t' ht' => hopen t' (.tail _ ht')
    have hcur' : ∀ t' ∈ ts, s₁.db.transfers.get? t'.id = some t'.toWalletTransfer := by
      intro t' ht'
      have hne : t'.id ≠ t.id := fun heq => hid (List.mem_map.2 ⟨t', ht', heq⟩)
      exact (hmoves.others t'.id hne).trans (hcur t' (.tail _ ht'))
    have hrest : Ends (countingEach R chain ts)
        (fun rest s₂ => MovesEach chain ts rest s₁.db s₂.db ∧ Tried chain ts rest s₂.db)
        (fun _ _ => True ∧ True) s₁ :=
      (countingEach_ends hlive hopen' hcur' hn').and (ih hlive hopen' hcur' hn')
    refine ends_bind.2 (hrest.mono ?_ fun _ _ _ => trivial)
    rintro rest s₂ ⟨hmovesRest, htriedRest⟩ t' ht' haw
    rcases List.mem_cons.1 ht' with rfl | ht'
    · -- The other transfers leave the row of this one as it is.
      refine (htried haw).imp (fun hfailed => ?_) fun hsettles r hr => ?_
      · rw [if_pos hfailed]
        exact .head _
      · rw [(hmovesRest.others t'.id hid).1] at hr
        exact hsettles r hr
    · refine (htriedRest t' ht' haw).imp_left fun hin => ?_
      split
      · exact .tail _ hin
      · exact hin

/-- A batch that commits moves each of its transfers on, but for those that wait. -/
theorem tried_step {b : Batch} {failed : List Nat}
    (hok : (transact w.db w.submissions b.faults (countingBatch R b)).result = .ok failed) :
    Tried b.chain (selectTransfers b.ids w.db) failed (step R w (.processTransfers b)).db := by
  have hends : Ends (countingBatch R b)
      (fun failed s' => Tried b.chain (selectTransfers b.ids w.db) failed s'.db)
      (fun _ _ => True) (start w.db w.submissions b.faults) := by
    refine ends_bind.2 (select_ends.mono ?_ fun _ _ _ => trivial)
    rintro _ s₁ ⟨rfl, h₁⟩
    have hdb : s₁.db = w.db := h₁.db
    refine countingEach_tried h₁.live' (fun t ht => (mem_selectTransfers ht).2) (fun t ht => ?_)
      (nodup_selectTransfers b.nodup)
    rw [hdb]
    exact Table.get?_eq_some.2 ⟨(mem_selectTransfers ht).1, rfl⟩
  have hdb := transact_ok hends hok
  rwa [show step R w (.processTransfers b) = _ from processTransfers_eq b w]

/-- An attempt that a step commits is one of a batch. -/
theorem exists_of_attempted (h : attempted R w id a = true) :
    ∃ b failed, a = .processTransfers b ∧
      (transact w.db w.submissions b.faults (countingBatch R b)).result = .ok failed ∧
      ∃ t ∈ selectTransfers b.ids w.db, t.id = id ∧ ¬Awaits (b.chain id) t.toWalletTransfer := by
  cases a with
  | transferListener => cases h
  | transferToExternalWallet => cases h
  | processTransfers b =>
    simp only [attempted] at h
    cases hresult : (transact w.db w.submissions b.faults (countingBatch R b)).result with
    | error e =>
      rw [hresult] at h
      cases h
    | ok failed =>
      rw [hresult] at h
      obtain ⟨t, ht, htest⟩ := List.any_eq_true.1 h
      exact ⟨b, failed, rfl, hresult, t, ht, of_decide_eq_true htest⟩

/-- An attempt that is committed moves the row of its transfer on. -/
theorem attempted_row (h : attempted R w r.id a = true) (hr : w.db.transfers.get? r.id = some r)
    (hr' : (step R w a).db.transfers.get? r.id = some r') :
    r.id ∈ failedAttempts R w a ∨ r'.status ≠ r.status := by
  obtain ⟨b, failed, rfl, hresult, t, ht, hid, haw⟩ := exists_of_attempted h
  have htr : t.toWalletTransfer = r := by
    have hsome := Table.get?_eq_some.2 ⟨(mem_selectTransfers ht).1, hid⟩
    exact Option.some.inj (hsome.symm.trans hr)
  have hfailed : failedAttempts R w (.processTransfers b) = failed := by
    simp only [failedAttempts, hresult]
  rw [hfailed, ← hid]
  rw [← hid] at haw hr'
  refine (tried_step hresult t ht haw).imp_right fun hsettles => ?_
  rw [← htr]
  exact hsettles r' hr'

/-! ## One step -/

theorem Moved.bounded {awaits : Prop} {failed : Bool} (h : Moved awaits r failed r')
    (hr : r.Open → r.retries ≤ MAX_TRANSFER_RETRIES) (hopen : r'.Open) :
    r'.retries ≤ MAX_TRANSFER_RETRIES := by
  cases h with
  | wait => exact hr hopen
  | submit => exact Nat.zero_le _
  | done => rcases hopen with hst | hst <;> cases hst
  | retry hopen _ hne => exact Nat.lt_of_le_of_ne (hr hopen) hne
  | fail => rcases hopen with hst | hst <;> cases hst

/-- A row that moves on has fewer attempts left in its status, and no more in another. -/
theorem Moved.rank_lt {awaits : Prop} {failed : Bool} (h : Moved awaits r failed r')
    (hr : r.Open → r.retries ≤ MAX_TRANSFER_RETRIES) (status : TransferStatus) :
    (r' = r ∧ failed = false) ∨
      rank status r' + (decide (r.status = status)).toNat ≤ rank status r := by
  cases h with
  | wait => exact .inl ⟨rfl, rfl⟩
  | submit hash hst =>
    have hle := hr (.inl hst)
    right
    cases status <;> simp [rank, hst]
    omega
  | done hst =>
    have hle := hr (.inr hst)
    right
    cases status <;> simp [rank, hst]
    omega
  | retry ho _ hne =>
    have hle := hr ho
    right
    rcases ho with hst | hst <;> cases status <;> simp [rank, hst] <;> omega
  | fail ho =>
    have hle := hr ho
    right
    rcases ho with hst | hst <;> cases status <;> simp [rank, hst] <;> omega

theorem rank_le (status : TransferStatus) (r : WalletTransfer) :
    rank status r ≤ MAX_TRANSFER_RETRIES + 1 := by
  unfold rank
  split <;> omega

theorem left_le (w : World) (id : Nat) (status : TransferStatus) :
    left w id status ≤ MAX_TRANSFER_RETRIES + 1 := by
  unfold left
  split
  · exact rank_le status _
  · exact le_rfl

theorem Bounded.step (h : Bounded w) (a : Action) : Bounded (step R w a) := by
  intro r' hr' hopen
  have hget : (MkcRelay.step R w a).db.transfers.get? r'.id = some r' :=
    Table.get?_eq_some.2 ⟨hr', rfl⟩
  cases hold : w.db.transfers.get? r'.id with
  | none =>
    rw [(step_new hold hget).2]
    exact Nat.zero_le _
  | some r =>
    obtain ⟨hr, hid⟩ := Table.get?_eq_some.1 hold
    have hid : r.id = r'.id := hid
    rw [← hid] at hold hget
    obtain ⟨r'', hmoved, hr''⟩ := step_row (R := R) hold a
    obtain rfl : r'' = r' := Option.some.inj (hr''.symm.trans hget)
    exact hmoved.bounded (h r hr) hopen

/-- A step takes the attempt that it commits from those that are left. -/
theorem left_step (h : Bounded w) (id : Nat) (status : TransferStatus) (a : Action) :
    left (step R w a) id status + (attemptedIn R w id status a).toNat ≤ left w id status := by
  cases hold : w.db.transfers.get? id with
  | none =>
    have hnot : attemptedIn R w id status a = false := by
      unfold attemptedIn statusOf
      rw [hold]
      rfl
    have hleft : left w id status = MAX_TRANSFER_RETRIES + 1 := by
      unfold left
      rw [hold]
    rw [hnot, hleft]
    exact left_le _ id status
  | some r =>
    obtain ⟨hr, hid⟩ := Table.get?_eq_some.1 hold
    obtain rfl : r.id = id := hid
    obtain ⟨r', hmoved, hr'⟩ := step_row (R := R) hold a
    have hleft : left w r.id status = rank status r ∧
        left (step R w a) r.id status = rank status r' := by
      simp only [left, hold, hr', and_self]
    have hattempted : attemptedIn R w r.id status a =
        (decide (r.status = status) && attempted R w r.id a) := by
      unfold attemptedIn statusOf
      simp [hold]
    rw [hleft.1, hleft.2, hattempted]
    rcases hmoved.rank_lt (h r hr) status with ⟨rfl, hflag⟩ | hlt
    · have hnot : attempted R w r'.id a = false := Bool.eq_false_iff.2 fun htrue =>
        (attempted_row htrue hold hr').elim (of_decide_eq_false hflag) fun hne => hne rfl
      rw [hnot, Bool.and_false]
      exact le_rfl
    · refine (Nat.add_le_add_left ?_ _).trans hlt
      cases attempted R w r.id a <;> simp

/-- An attempt is one of a transfer that is pending or in progress. -/
theorem attempted_eq (w : World) (id : Nat) (a : Action) :
    (attempted R w id a).toNat =
      (attemptedIn R w id .pending a).toNat + (attemptedIn R w id .inProgress a).toNat := by
  cases hattempted : attempted R w id a with
  | false => simp [attemptedIn, hattempted]
  | true =>
    obtain ⟨_, _, _, _, t, ht, rfl, _⟩ := exists_of_attempted hattempted
    obtain ⟨hmem, hopen⟩ := mem_selectTransfers ht
    have hrow : w.db.transfers.get? t.id = some t.toWalletTransfer :=
      Table.get?_eq_some.2 ⟨hmem, rfl⟩
    have hstatus : statusOf w t.id = some t.status := by
      unfold statusOf
      rw [hrow]
      rfl
    rcases hopen with hst | hst <;> simp [attemptedIn, hattempted, hstatus, hst]

/-! ## Runs -/

theorem attempts_eq (w : World) (id : Nat) (as : List Action) :
    attempts R w id as = attemptsIn R w id .pending as + attemptsIn R w id .inProgress as := by
  unfold attempts attemptsIn
  rw [← spent_add]
  exact congrArg (fun cost => spent (step R) cost w as)
    (funext fun w => funext fun a => attempted_eq w id a)

/-- A transfer that has no attempts left is closed. -/
theorem closed_of_left (h : Bounded w) (hpending : left w id .pending = 0)
    (hinProgress : left w id .inProgress = 0) :
    ∃ r, w.db.transfers.get? id = some r ∧ ¬r.Open := by
  unfold left at hpending hinProgress
  split at hpending
  next r hr =>
    refine ⟨r, hr, fun hopen => ?_⟩
    have hle := h r (Table.get?_eq_some.1 hr).1 hopen
    rw [hr] at hinProgress
    rcases hopen with hst | hst <;> simp only [rank, hst] at hpending hinProgress <;> omega
  · cases hpending

/-- **Transfers end.** In every run, at most `MAX_TRANSFER_RETRIES + 1` attempts of a transfer are
committed while it is in one status, and attempts are only committed while it is pending or in progress.
A transfer with as many attempts in both is closed. -/
theorem transfers_end (h : Bounded w) (id : Nat) (as : List Action) :
    (∀ status, attemptsIn R w id status as ≤ MAX_TRANSFER_RETRIES + 1) ∧
      attempts R w id as = attemptsIn R w id .pending as + attemptsIn R w id .inProgress as ∧
      (attempts R w id as = 2 * (MAX_TRANSFER_RETRIES + 1) →
        ∃ r, (as.foldl (step R) w).db.transfers.get? id = some r ∧ ¬r.Open) := by
  have hspent : ∀ status, attemptsIn R w id status as + left (as.foldl (step R) w) id status ≤
      MAX_TRANSFER_RETRIES + 1 := fun status =>
    (spent_add_le_work Bounded (left · id status) (fun _ a hw => hw.step (R := R) a)
      (fun _ a hw => left_step hw id status a) h as).trans (left_le w id status)
  refine ⟨fun status => Nat.le_of_add_right_le (hspent status), attempts_eq w id as, fun hall => ?_⟩
  have hpending := hspent .pending
  have hinProgress := hspent .inProgress
  rw [attempts_eq] at hall
  exact closed_of_left (foldl_inv h (fun _ a hw => hw.step a) as) (by omega) (by omega)

/-- A deposit that is submitted with its last attempt, and credited with its last. -/
def sampleRetries : List Action :=
  [.transferListener ⟨sampleAddress, 5, "0x01", 0⟩ Faults.none] ++
    List.replicate MAX_TRANSFER_RETRIES (sampleBatch 1 sampleFailure) ++
    [sampleBatch 1 sampleSuccess] ++
    List.replicate MAX_TRANSFER_RETRIES (sampleBatch 1 sampleFailure) ++
    [sampleBatch 1 sampleSuccess]

theorem transfers_end_sample :
    attempts sampleRelay sampleWorld 1 sampleRetries = 2 * (MAX_TRANSFER_RETRIES + 1) ∧
      attemptsIn sampleRelay sampleWorld 1 .pending sampleRetries ≤ MAX_TRANSFER_RETRIES + 1 ∧
      ∃ r, (sampleRetries.foldl (step sampleRelay) sampleWorld).db.transfers.get? 1 = some r ∧
        ¬r.Open := by
  have hall : attempts sampleRelay sampleWorld 1 sampleRetries =
      2 * (MAX_TRANSFER_RETRIES + 1) := by
    decide +kernel
  have hbounded : Bounded sampleWorld := by decide
  obtain ⟨hstatus, -, hclosed⟩ := transfers_end (R := sampleRelay) hbounded 1 sampleRetries
  exact ⟨hall, hstatus .pending, hclosed hall⟩

end MkcRelay

end Cme.Blockchain
