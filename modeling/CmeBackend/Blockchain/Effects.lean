import CmeBackend.Blockchain.MkcRelay

/-!
# What one transfer's processing can do

`Handled R t o d d'` lists what processing the transfer `t` against the chain's answers `o` can
turn the database `d` into, when it returns (`processTransfer_ends`). What it submits to the
chain is a function of `t` and `o` (`submissions`), whether it returns or throws. A handler is an
`attempt` with the revert of a failed one in its `catch` block: `Attempted` and `Reverted` are what
the two blocks do.

`processTransfers_cases` carries this to a whole batch, and `transferToExternalWallet_cases` and
`transferListener_cases` say the same of the other two steps: each step is a sequence of these
effects, or nothing. The invariants of the system are proved about the effects, never about the
code.
-/

namespace Cme.Blockchain

open Transaction

namespace MkcRelay

variable (R : Relay)

/-- The `try` block of the handler of a transfer. -/
def attempt (transfer : SelectedTransfer) (o : ChainOutcome) : DbM Unit :=
  match transfer.type, transfer.status with
  | .toGameWallet, .pending => do
    let tx ← getTransactionReceipt o
    if unconfirmed tx then pure () else
      let amount ← R.parse transfer.mkcAmount
      let hash ← transferMkc o
        { transferId := transfer.id, receipt := R.gameAccount, amount,
          signer := transfer.ethPrivateKey }
      waitOne o
      recordSubmission transfer hash
  | .toGameWallet, .inProgress => do
    let tx ← getTransactionReceipt o
    if unconfirmed tx then pure () else
      IngameMkc.incrementBalance R.toEthers transfer.userId transfer.mkcAmount
      recordDone transfer
  | .toExternalWallet, .pending => do
    let amount ← R.parse transfer.mkcAmount
    let hash ← transferMkc o
      { transferId := transfer.id, receipt := transfer.externalWalletAddress.getD "", amount,
        signer := none }
    waitOne o
    recordSubmission transfer hash
  | .toExternalWallet, .inProgress => do
    let tx ← getTransactionReceipt o
    if unconfirmed tx then pure () else
      IngameMkc.decreaseBalance R.toEthers transfer.userId transfer.mkcAmount
      recordDone transfer
  | _, _ => pure ()

/-- The chain has confirmed the transaction of a transfer. -/
def Confirmed (o : ChainOutcome) : Prop :=
  ∃ confirmations, o.receipt = .mined confirmations ∧ REQUIRED_CONFIRMATIONS ≤ confirmations

/-- The handler of `t` gets as far as its `transferMkc` call, and the chain takes the
submission. -/
def Accepts (t : SelectedTransfer) (o : ChainOutcome) : Prop :=
  t.status = .pending ∧ (R.parseEther t.mkcAmount).isSome ∧ o.submit ≠ .rejected ∧
    (t.type = .toGameWallet → Confirmed o)

/-- The submission of `t`. -/
def submissionOf (t : SelectedTransfer) : Submission :=
  match t.type with
  | .toGameWallet => ⟨t.id, R.gameAccount, R.wei t.mkcAmount, t.ethPrivateKey⟩
  | .toExternalWallet => ⟨t.id, t.externalWalletAddress.getD "", R.wei t.mkcAmount, none⟩

open Classical in
/-- What the handler of `t` submits. -/
noncomputable def submissions (t : SelectedTransfer) (o : ChainOutcome) : List Submission :=
  if Accepts R t o then [submissionOf R t] else []

/-- The submission of a transfer is known to have worked: the call and `wait(1)` return. -/
def Submitted (o : ChainOutcome) : Prop := (∃ hash, o.submit = .accepted hash) ∧ o.waited = true

/-- What `incrementTransferRetriesOrRevert` does when it returns. -/
inductive Reverted (t : SelectedTransfer) (d : WalletDb) : WalletDb → Prop
  | retry : t.retries ≠ MAX_TRANSFER_RETRIES →
      Reverted t d (d.updateTransfer t.id fun r => { r with retries := t.retries + 1 })
  | release {d' : WalletDb} : t.retries = MAX_TRANSFER_RETRIES → t.type = .toExternalWallet →
      t.status = .pending → IngameMkc.Release R.toEthers d t.userId t.mkcAmount d' →
      Reverted t d (d'.updateTransfer t.id fun r => { r with status := .failed })
  | fail : t.retries = MAX_TRANSFER_RETRIES → ¬(t.type = .toExternalWallet ∧ t.status = .pending) →
      Reverted t d (d.updateTransfer t.id fun r => { r with status := .failed })

/-- What processing `t` does when it returns. -/
inductive Handled (t : SelectedTransfer) (o : ChainOutcome) (d : WalletDb) : WalletDb → Prop
  | wait : ¬Accepts R t o → Handled t o d d
  | submit (hash : String) : t.status = .pending → Handled t o d (d.updateTransfer t.id fun r =>
      { r with retries := 0, transactionHash := some hash, status := .inProgress })
  | credit {d' : WalletDb} : t.type = .toGameWallet → t.status = .inProgress →
      IngameMkc.Credit R.toEthers d t.userId t.mkcAmount d' →
      Handled t o d (d'.updateTransfer t.id fun r => { r with status := .done })
  | debit {d' : WalletDb} : t.type = .toExternalWallet → t.status = .inProgress →
      IngameMkc.Debit R.toEthers d t.userId t.mkcAmount d' →
      Handled t o d (d'.updateTransfer t.id fun r => { r with status := .done })
  | revert {d' : WalletDb} : (Accepts R t o → ¬Submitted o) → Reverted R t d d' → Handled t o d d'

/-- What the attempt of `t` does when it returns. -/
inductive Attempted (t : SelectedTransfer) (o : ChainOutcome) (d : WalletDb) : WalletDb → Prop
  | wait : ¬Accepts R t o → Attempted t o d d
  | submit (hash : String) : t.status = .pending → (t.type = .toGameWallet → Confirmed o) →
      Attempted t o d (d.updateTransfer t.id fun r =>
        { r with retries := 0, transactionHash := some hash, status := .inProgress })
  | credit {d' : WalletDb} : t.type = .toGameWallet → t.status = .inProgress → Confirmed o →
      IngameMkc.Credit R.toEthers d t.userId t.mkcAmount d' →
      Attempted t o d (d'.updateTransfer t.id fun r => { r with status := .done })
  | debit {d' : WalletDb} : t.type = .toExternalWallet → t.status = .inProgress → Confirmed o →
      IngameMkc.Debit R.toEthers d t.userId t.mkcAmount d' →
      Attempted t o d (d'.updateTransfer t.id fun r => { r with status := .done })

/-- `t` is a withdrawal whose last attempt fails. -/
structure LastAttemptFails (t : SelectedTransfer) (o : ChainOutcome) : Prop where
  retries : t.retries = MAX_TRANSFER_RETRIES
  type : t.type = .toExternalWallet
  status : t.status = .pending
  failed : Accepts R t o → ¬Submitted o

/-- The last attempt of `t` fails, and the wallet does not cover its amount: the revert throws, and
with it the batch. -/
structure Stuck (t : SelectedTransfer) (o : ChainOutcome) (d : WalletDb) : Prop where
  last : LastAttemptFails R t o
  uncovered : ¬IngameMkc.Covers R.toEthers d t.userId t.mkcAmount

variable {R} {t : SelectedTransfer} {o : ChainOutcome} {s : DbTx}

/-! ## One transfer -/

theorem submissions_of_accepts (h : Accepts R t o) : submissions R t o = [submissionOf R t] :=
  if_pos h

theorem submissions_of_not_accepts (h : ¬Accepts R t o) : submissions R t o = [] := if_neg h

theorem incrementTransferRetriesOrRevert_ends (o : ChainOutcome) :
    Ends (incrementTransferRetriesOrRevert R t) (fun _ s' => Steps (Reverted R t s.db) s s')
      (fun _ s' => s'.log = s.log ∧
        (Reliable s → (Accepts R t o → ¬Submitted o) → Stuck R t o s.db)) s := by
  unfold incrementTransferRetriesOrRevert
  by_cases hr : t.retries = MAX_TRANSFER_RETRIES
  · rw [if_pos hr]
    by_cases hp : t.type = .toExternalWallet ∧ t.status = .pending
    · rw [if_pos hp]
      refine ends_bind.2 (IngameMkc.decreasePendingBalance_ends.mono ?_ fun _ _ h => ?_)
      · intro _ s₁ h₁
        refine execute_ends.mono (fun _ s₂ h₂ => ?_) fun _ _ h => ?_
        · refine ⟨h₁.live, h₂.live', h₂.faults.trans h₁.faults, h₂.log.trans h₁.log, ?_⟩
          rw [h₂.db]
          exact .release hr hp.1 hp.2 h₁.db
        · exact ⟨h.log.trans h₁.log, fun hrel => absurd (h₁.reliable hrel) h.fault⟩
      · exact ⟨h.log, fun hrel hf => ⟨⟨hr, hp.1, hp.2, hf⟩, (h.cause hrel).1⟩⟩
    · rw [if_neg hp]
      refine execute_ends.mono (fun _ s₂ h₂ => ?_) fun _ _ h => ⟨h.log, fun hrel => absurd hrel h.fault⟩
      exact h₂.mono (by rintro _ rfl; exact .fail hr hp)
  · rw [if_neg hr]
    refine execute_ends.mono (fun _ s₂ h₂ => ?_) fun _ _ h => ⟨h.log, fun hrel => absurd hrel h.fault⟩
    exact h₂.mono (by rintro _ rfl; exact .retry hr)

/-- Processing `t` from `s` returns in `s'`. -/
structure Returns (R : Relay) (t : SelectedTransfer) (o : ChainOutcome) (s s' : DbTx) : Prop where
  live : s'.aborted = false
  reliable : Reliable s → Reliable s'
  log : s'.log = s.log ++ submissions R t o
  db : Handled R t o s.db s'.db

/-- The attempt of `t` from `s` returns in `s'`. -/
structure Attempts (R : Relay) (t : SelectedTransfer) (o : ChainOutcome) (s s' : DbTx) : Prop where
  live : s'.aborted = false
  reliable : Reliable s → Reliable s'
  log : s'.log = s.log ++ submissions R t o
  db : Attempted R t o s.db s'.db

/-- The attempt of `t` throws in `s'`. -/
structure Fails (R : Relay) (t : SelectedTransfer) (o : ChainOutcome) (s s' : DbTx) : Prop where
  reliable : Reliable s → Reliable s'
  log : s'.log = s.log ++ submissions R t o
  db : s'.aborted = false → s'.db = s.db
  unsure : s'.aborted = false → Accepts R t o → ¬Submitted o

/-- Processing `t` throws in `s'`: a statement has failed, or `t` is stuck. -/
def Throws (R : Relay) (t : SelectedTransfer) (o : ChainOutcome) (s s' : DbTx) : Prop :=
  s'.log = s.log ++ submissions R t o ∧ (Reliable s → Stuck R t o s.db)

theorem Attempted.handled {d d' : WalletDb} (h : Attempted R t o d d') : Handled R t o d d' := by
  cases h with
  | wait ha => exact .wait ha
  | submit hash hst _ => exact .submit hash hst
  | credit ht hst _ hc => exact .credit ht hst hc
  | debit ht hst _ hc => exact .debit ht hst hc

theorem Attempts.returns {s' : DbTx} (h : Attempts R t o s s') : Returns R t o s s' :=
  ⟨h.live, h.reliable, h.log, h.db.handled⟩

/-- A handler is its `try` block, with the revert of a failed attempt in its `catch` block. -/
theorem processTransfer_eq (t : SelectedTransfer) (o : ChainOutcome) :
    processTransfer R t o =
      tryCatch (attempt R t o) fun _ => incrementTransferRetriesOrRevert R t := by
  unfold processTransfer attempt
  cases t.type <;> cases t.status <;> rfl

/-- Where nothing is submitted, an exception leaves nothing behind. -/
theorem Fails.of_threw {C : Prop} {s' : DbTx} (h : ¬Accepts R t o) (ht : Threw C s s') :
    Fails R t o s s' :=
  ⟨fun hr => (ht.cause hr).2, by rw [submissions_of_not_accepts h, List.append_nil, ht.log],
    fun hl => (ht.live hl).2, fun _ ha => absurd ha h⟩

theorem Fails.refl (h : ¬Accepts R t o) : Fails R t o s s := .of_threw h (.refl trivial)

theorem Attempts.wait (h : ¬Accepts R t o) (hs : s.aborted = false) : Attempts R t o s s :=
  ⟨hs, id, by rw [submissions_of_not_accepts h, List.append_nil], .wait h⟩

theorem not_accepts_of_status (h : t.status ≠ .pending) : ¬Accepts R t o := fun ha => h ha.1

theorem getTransactionReceipt_ends :
    Ends (getTransactionReceipt o)
      (fun tx s' => s' = s ∧ (unconfirmed tx = false ↔ Confirmed o))
      (fun _ s' => s' = s ∧ ¬Confirmed o) s := by
  unfold getTransactionReceipt Confirmed
  cases o.receipt with
  | throws => exact ends_throw.2 ⟨rfl, by simp⟩
  | missing => exact ends_pure.2 ⟨rfl, by simp [unconfirmed]⟩
  | mined c => exact ends_pure.2 ⟨rfl, by simp [unconfirmed]⟩

/-- The part of a pending transfer's handler that submits it. -/
theorem submit_ends {mk : Int → Submission} (hst : t.status = .pending)
    (hc : t.type = .toGameWallet → Confirmed o)
    (hmk : ∀ a, R.parseEther t.mkcAmount = some a → mk a = submissionOf R t) :
    Ends (do
        let amount ← R.parse t.mkcAmount
        let hash ← transferMkc o (mk amount)
        waitOne o
        recordSubmission t hash)
      (fun _ s' => Attempts R t o s s') (fun _ s' => Fails R t o s s') s := by
  refine ends_bind.2 (parse_ends.mono ?_ ?_)
  rotate_left
  · rintro _ _ ⟨hp, rfl⟩
    refine .refl fun ha => ?_
    have hsome := ha.2.1
    simp [hp] at hsome
  rintro a _ ⟨ha, rfl⟩
  rw [hmk a ha]
  have hacc : o.submit ≠ .rejected → Accepts R t o := fun h => ⟨hst, by simp [ha], h, hc⟩
  refine ends_bind.2 ?_
  cases ho : o.submit with
  | rejected =>
    simp only [transferMkc, ho]
    exact ends_throw.2 (.refl fun h => h.2.2.1 ho)
  | lost =>
    simp only [transferMkc, ho]
    have hsub := submissions_of_accepts (hacc (by simp [ho]))
    refine ends_bind.2 (ends_emit.2 (ends_throw.2 ⟨id, by rw [hsub], fun _ => rfl, fun _ _ h => ?_⟩))
    obtain ⟨⟨hash, hh⟩, -⟩ := h
    rw [ho] at hh
    cases hh
  | accepted hash =>
    simp only [transferMkc, ho]
    have hsub := submissions_of_accepts (hacc (by simp [ho]))
    refine ends_bind.2 (ends_emit.2 (ends_pure.2 (ends_bind.2 ?_)))
    by_cases hw : o.waited = true
    · simp only [waitOne, hw, ↓reduceIte]
      refine ends_pure.2 (execute_ends.mono (fun _ s' h => ?_) fun _ s' h => ?_)
      · refine ⟨h.live', h.reliable, by rw [h.log, hsub], ?_⟩
        rw [h.db]
        exact .submit hash hst hc
      · -- The `UPDATE` has failed, so nothing that follows in the transaction counts.
        refine ⟨fun hr => absurd hr h.fault, by rw [h.log, hsub], ?_, ?_⟩ <;>
          exact fun hl => by simp [h.aborted] at hl
    · simp only [waitOne, hw, Bool.false_eq_true, ↓reduceIte]
      exact ends_throw.2 ⟨id, by rw [hsub], fun _ => rfl, fun _ _ h => hw h.2⟩

/-- A handler that goes on once the chain has confirmed the transaction, and waits until then. -/
theorem confirmed_ends {x : DbM Unit}
    (h : Confirmed o → Ends x (fun _ s' => Attempts R t o s s') (fun _ s' => Fails R t o s s') s)
    (hwait : ¬Confirmed o → ¬Accepts R t o) (hs : s.aborted = false) :
    Ends (do
        let tx ← getTransactionReceipt o
        if unconfirmed tx then pure () else x)
      (fun _ s' => Attempts R t o s s') (fun _ s' => Fails R t o s s') s := by
  refine ends_bind.2 (getTransactionReceipt_ends.mono ?_ ?_)
  · rintro tx _ ⟨rfl, htx⟩
    by_cases hu : unconfirmed tx = true
    · have hc : ¬Confirmed o := fun hc => by simp [htx.2 hc] at hu
      rw [if_pos hu]
      exact ends_pure.2 (.wait (hwait hc) hs)
    · rw [if_neg hu]
      exact h (htx.1 (by simpa using hu))
  · rintro _ _ ⟨rfl, hc⟩
    exact .refl (hwait hc)

/-- The part of an in-progress transfer's handler that settles it. -/
theorem settle_ends {x : DbM Unit} {D : WalletDb → Prop} {C : Prop} (hst : t.status = .inProgress)
    (hx : Ends x (fun _ s' => Steps D s s') (fun _ s' => Threw C s s') s)
    (hD : ∀ d', D d' →
      Attempted R t o s.db (d'.updateTransfer t.id fun r => { r with status := .done })) :
    Ends (do x; recordDone t)
      (fun _ s' => Attempts R t o s s') (fun _ s' => Fails R t o s s') s := by
  have hna : ¬Accepts R t o := not_accepts_of_status (by simp [hst])
  refine ends_bind.2 (hx.mono (fun _ s₁ h₁ => ?_) fun _ _ h => .of_threw hna h)
  refine execute_ends.mono (fun _ s₂ h₂ => ?_) fun _ _ h => .of_threw (C := C) hna (h₁.failed h).threw
  have hlog : s₂.log = s.log ++ submissions R t o := by
    rw [submissions_of_not_accepts hna, List.append_nil, h₂.log, h₁.log]
  refine ⟨h₂.live', fun hr => h₂.reliable (h₁.reliable hr), hlog, ?_⟩
  rw [h₂.db]
  exact hD _ h₁.db

/-- **One attempt.** An attempt submits what `submissions` says, whether it returns or throws. -/
theorem attempt_ends (hs : s.aborted = false) :
    Ends (attempt R t o) (fun _ s' => Attempts R t o s s') (fun _ s' => Fails R t o s s') s := by
  unfold attempt
  split
  · rename_i ht hst
    refine confirmed_ends (fun hc => ?_) (fun hc ha => hc (ha.2.2.2 ht)) hs
    refine submit_ends hst (fun _ => hc) fun a ha => ?_
    simp [submissionOf, ht, Ethers.wei_of_parse ha]
  · rename_i ht hst
    refine confirmed_ends (fun hc => ?_) (fun _ ha => by simp [ha.1] at hst) hs
    exact settle_ends hst IngameMkc.incrementBalance_ends fun _ h => .credit ht hst hc h
  · rename_i ht hst
    refine submit_ends hst (fun h => by simp [ht] at h) fun a ha => ?_
    simp [submissionOf, ht, Ethers.wei_of_parse ha]
  · rename_i ht hst
    refine confirmed_ends (fun hc => ?_) (fun _ ha => by simp [ha.1] at hst) hs
    exact settle_ends hst IngameMkc.decreaseBalance_ends fun _ h => .debit ht hst hc h
  · rename_i h₁ _ h₃ _
    refine ends_pure.2 (.wait (not_accepts_of_status fun hp => ?_) hs)
    cases ht : t.type
    · exact h₁ ht hp
    · exact h₃ ht hp

/-- The `catch` block of a handler. -/
theorem Fails.revert {s₁ : DbTx} (hf : Fails R t o s s₁) :
    Ends (incrementTransferRetriesOrRevert R t)
      (fun _ s' => Returns R t o s s' ∧ Reverted R t s.db s'.db) (fun _ s' => Throws R t o s s')
      s₁ := by
  refine (incrementTransferRetriesOrRevert_ends o).mono (fun _ s₂ h => ?_) fun _ _ h => ?_
  · have hrev := h.db
    rw [hf.db h.live] at hrev
    exact ⟨⟨h.live', fun hr => h.reliable (hf.reliable hr), h.log.trans hf.log,
      .revert (hf.unsure h.live) hrev⟩, hrev⟩
  · refine ⟨h.1.trans hf.log, fun hr => ?_⟩
    have hr₁ := hf.reliable hr
    exact hf.db hr₁.1 ▸ h.2 hr₁ (hf.unsure hr₁.1)

/-- **One transfer.** Processing a transfer submits what `submissions` says, and has one of the
effects of `Handled` or throws. -/
theorem processTransfer_ends (hs : s.aborted = false) :
    Ends (processTransfer R t o) (fun _ s' => Returns R t o s s')
      (fun _ s' => Throws R t o s s') s := by
  rw [processTransfer_eq]
  refine ends_tryCatch.2 ((attempt_ends hs).mono (fun _ _ h => h.returns) fun _ _ hf => ?_)
  exact hf.revert.mono (fun _ _ h => h.1) fun _ _ h => h

end MkcRelay

end Cme.Blockchain
