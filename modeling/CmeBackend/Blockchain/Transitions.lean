import CmeBackend.Blockchain.Steps

/-!
# The states of a transfer

The status and the retry counter of a transfer in every run of the relay.

* `countingBatch`: the program of `processTransfers`, which also returns the transfers whose attempt
  has failed. The database and the submissions are those of `processBatch`
  (`processTransfers_eq`).
* `failedAttempts`: the failed attempts that a step commits. A batch that is rolled back commits
  none.
* `Tally`: the world, with the number of failed attempts of each transfer since it entered its
  status.
* `Moved`: what one step makes of a row. `step_row` says it for every row and every step.
-/

namespace Cme.Blockchain

open Transaction Runs

namespace MkcRelay

variable (R : Relay)

/-! ## Failed attempts -/

/-- Processes a transfer, and returns whether its attempt has failed. -/
def countingTransfer (transfer : SelectedTransfer) (o : ChainOutcome) : DbM Bool :=
  tryCatch (do attempt R transfer o; pure false) fun _ => do
    incrementTransferRetriesOrRevert R transfer
    pure true

/-- Processes the transfers, and returns those whose attempt has failed. -/
def countingEach (chain : Nat → ChainOutcome) : List SelectedTransfer → DbM (List Nat)
  | [] => pure []
  | transfer :: transfers => do
    let failed ← countingTransfer R transfer (chain transfer.id)
    let rest ← countingEach chain transfers
    pure (if failed then transfer.id :: rest else rest)

def countingBatch (b : Batch) : DbM (List Nat) := do
  let transfersToProcess ← select (selectTransfers b.ids)
  countingEach R b.chain transfersToProcess

/-- The failed attempts that a step commits. -/
def failedAttempts (w : World) : Action → List Nat
  | .processTransfers b =>
    match (transact w.db w.submissions b.faults (countingBatch R b)).result with
    | .ok failed => failed
    | .error _ => []
  | .transferListener _ _ | .transferToExternalWallet _ _ _ _ => []

/-- A world, with the number of failed attempts of each transfer that were committed since it
entered its status. -/
structure Tally where
  world : World
  failures : Nat → Nat

def statusOf (w : World) (id : Nat) : Option TransferStatus :=
  (w.db.transfers.get? id).map (·.status)

def Tally.step (s : Tally) (a : Action) : Tally where
  world := MkcRelay.step R s.world a
  failures id :=
    if statusOf (MkcRelay.step R s.world a) id ≠ statusOf s.world id then 0
    else if id ∈ failedAttempts R s.world a then s.failures id + 1
    else s.failures id

/-- The run of the relay from `w`. -/
def tally (w : World) (as : List Action) : Tally := as.foldl (Tally.step R) ⟨w, fun _ => 0⟩

/-! ## What a step may do to a transfer -/

/-- The receipt of a transaction that is not confirmed. -/
def unconfirmedReceipt : Receipt → Bool
  | .throws => false
  | .missing => true
  | .mined confirmations => confirmations < REQUIRED_CONFIRMATIONS

/-- The handler of a row looks for a receipt, and the chain has too few confirmations. The handler
of a pending withdrawal looks for none. -/
def Awaits (o : ChainOutcome) (r : WalletTransfer) : Prop :=
  ¬(r.type = .toExternalWallet ∧ r.status = .pending) ∧ unconfirmedReceipt o.receipt = true

/-- The batch of a step finds too few confirmations for a row. -/
def AwaitsIn (r : WalletTransfer) : Action → Prop
  | .processTransfers b => Awaits (b.chain r.id) r
  | .transferListener _ _ | .transferToExternalWallet _ _ _ _ => False

/-- The statuses that may follow a status. -/
inductive Follows : TransferStatus → TransferStatus → Prop
  | same {status : TransferStatus} : Follows status status
  | submitted : Follows .pending .inProgress
  | settled : Follows .inProgress .done
  | pendingFailed : Follows .pending .failed
  | inProgressFailed : Follows .inProgress .failed

/-- The row `r` is `r'` after a step of the world `w`. -/
structure Transition (w : World) (a : Action) (r r' : WalletTransfer) : Prop where
  id : r'.id = r.id
  status : Follows r.status r'.status
  /-- A row that is done or failed stays as it is. -/
  closed : ¬r.Open → r' = r
  awaits : AwaitsIn r a → r' = r
  failed : r'.status = .failed → r.status ≠ .failed →
    r.retries = MAX_TRANSFER_RETRIES ∧ r.id ∈ failedAttempts R w a

/-- What a step makes of a row; the flag says whether it commits a failed attempt of it. -/
inductive Moved (awaits : Prop) (r : WalletTransfer) : Bool → WalletTransfer → Prop
  | wait : Moved awaits r false r
  | submit (hash : String) : r.status = .pending → ¬awaits → Moved awaits r false
      { r with retries := 0, transactionHash := some hash, status := .inProgress }
  | done : r.status = .inProgress → ¬awaits → Moved awaits r false { r with status := .done }
  | retry : r.Open → ¬awaits → r.retries ≠ MAX_TRANSFER_RETRIES →
      Moved awaits r true { r with retries := r.retries + 1 }
  | fail : r.Open → ¬awaits → r.retries = MAX_TRANSFER_RETRIES →
      Moved awaits r true { r with status := .failed }

/-- `t` is processed: its row moves, and the others stay. -/
structure MovesRow (t : SelectedTransfer) (o : ChainOutcome) (failed : Bool) (d d' : WalletDb) :
    Prop where
  row : ∃ r', Moved (Awaits o t.toWalletTransfer) t.toWalletTransfer failed r' ∧
    d'.transfers.get? t.id = some r'
  others : ∀ id ≠ t.id, d'.transfers.get? id = d.transfers.get? id

/-- The rows of `ts` move. -/
structure MovesEach (chain : Nat → ChainOutcome) (ts : List SelectedTransfer) (failed : List Nat)
    (d d' : WalletDb) : Prop where
  rows : ∀ t ∈ ts, ∃ r', Moved (Awaits (chain t.id) t.toWalletTransfer) t.toWalletTransfer
    (decide (t.id ∈ failed)) r' ∧ d'.transfers.get? t.id = some r'
  others : ∀ id ∉ ts.map (·.id), d'.transfers.get? id = d.transfers.get? id ∧ id ∉ failed

/-- A transfer is registered, or none. -/
inductive Registers (d : WalletDb) : WalletDb → Prop
  | nothing {d' : WalletDb} : d'.transfers = d.transfers → Registers d d'
  | insert {d' : WalletDb} (userId : Nat) (type : TransferType) (amount : String)
      (source address : Option String) :
      d'.transfers = (d.insertTransfer userId type .pending amount source address).transfers →
      Registers d d'

variable {R} {t : SelectedTransfer} {o : ChainOutcome} {s : DbTx} {d d' : WalletDb}
  {chain : Nat → ChainOutcome} {ts : List SelectedTransfer} {w : World}

/-! ## The program that counts -/

theorem processTransfer_eq_counting :
    processTransfer R t o = (fun _ => ()) <$> countingTransfer R t o := by
  unfold countingTransfer
  rw [processTransfer_eq, map_tryCatch]
  simp only [map_bind, map_pure, bind_pure_unit]

theorem processEach_eq_counting :
    processEach R chain ts = (fun _ => ()) <$> countingEach R chain ts := by
  induction ts with
  | nil => rfl
  | cons t ts ih =>
    unfold processEach countingEach
    rw [processTransfer_eq_counting, ih]
    simp only [map_bind, bind_map_left, bind_pure_comp, Functor.map_map]

/-- Counting changes nothing that a batch does. -/
theorem processTransfers_eq (b : Batch) (w : World) :
    processTransfers R b w = w.run b.faults (countingBatch R b) := by
  have heq : processBatch R b = (fun _ => ()) <$> countingBatch R b := by
    unfold processBatch countingBatch
    simp only [map_bind, processEach_eq_counting]
  unfold processTransfers World.run
  rw [heq, transact_map]

/-! ## One transfer -/

/-- An attempt that finds too few confirmations does nothing. -/
theorem attempt_of_awaits (h : Awaits o t.toWalletTransfer) : attempt R t o = pure () := by
  obtain ⟨hlooks, hreceipt⟩ := h
  have hlookup : ∀ x : DbM Unit, (do
      let tx ← getTransactionReceipt o
      if unconfirmed tx then pure () else x) = pure () := by
    intro x
    unfold getTransactionReceipt
    cases ho : o.receipt with
    | throws => rw [ho] at hreceipt; cases hreceipt
    | missing => rfl
    | mined c =>
      rw [ho] at hreceipt
      simp only [pure_bind, unconfirmed]
      exact if_pos hreceipt
  unfold attempt
  split
  · exact hlookup _
  · exact hlookup _
  next ht hst => exact absurd ⟨ht, hst⟩ hlooks
  · exact hlookup _
  · rfl

theorem not_awaits_of_confirmed (hc : Confirmed o) (r : WalletTransfer) : ¬Awaits o r := by
  obtain ⟨c, hmined, hle⟩ := hc
  rintro ⟨-, hreceipt⟩
  rw [hmined] at hreceipt
  exact absurd (of_decide_eq_true hreceipt) (Nat.not_lt.2 hle)

theorem movesRow_update {f : WalletTransfer → WalletTransfer}
    {hf : ∀ r, key (f r) = key r} {failed : Bool} {d₁ : WalletDb}
    (hcur : d.transfers.get? t.id = some t.toWalletTransfer) (heq : d₁.transfers = d.transfers)
    (hmoved : Moved (Awaits o t.toWalletTransfer) t.toWalletTransfer failed
      (f t.toWalletTransfer)) :
    MovesRow t o failed d (d₁.updateTransfer t.id f hf) where
  row := ⟨_, hmoved, by
    rw [WalletDb.transfers_updateTransfer, heq]
    exact Table.get?_update_self hcur hf⟩
  others id hne := by
    rw [WalletDb.transfers_updateTransfer, heq]
    exact Table.get?_update_of_ne hne hf

/-- An attempt that returns. -/
theorem Attempted.movesRow (h : Attempted R t o d d')
    (hcur : d.transfers.get? t.id = some t.toWalletTransfer) : MovesRow t o false d d' := by
  cases h with
  | wait => exact ⟨⟨_, .wait, hcur⟩, fun _ _ => rfl⟩
  | submit hash hst hc =>
    refine movesRow_update hcur rfl (.submit hash hst fun haw => ?_)
    cases ht : t.type with
    | toGameWallet => exact not_awaits_of_confirmed (hc ht) _ haw
    | toExternalWallet => exact haw.1 ⟨ht, hst⟩
  | credit _ hst hc hcredit =>
    have haw := not_awaits_of_confirmed hc t.toWalletTransfer
    cases hcredit <;> exact movesRow_update hcur rfl (.done hst haw)
  | debit _ hst hc hdebit =>
    cases hdebit
    exact movesRow_update hcur rfl (.done hst (not_awaits_of_confirmed hc t.toWalletTransfer))

/-- The revert of an attempt that has failed. -/
theorem Reverted.movesRow (h : Reverted R t d d') (hopen : t.Open)
    (hcur : d.transfers.get? t.id = some t.toWalletTransfer)
    (haw : ¬Awaits o t.toWalletTransfer) : MovesRow t o true d d' := by
  cases h with
  | retry hne => exact movesRow_update hcur rfl (.retry hopen haw hne)
  | release hmax _ _ hl =>
    cases hl
    exact movesRow_update hcur rfl (.fail hopen haw hmax)
  | fail hmax => exact movesRow_update hcur rfl (.fail hopen haw hmax)

theorem countingTransfer_ends (hs : s.aborted = false) (hopen : t.Open)
    (hcur : s.db.transfers.get? t.id = some t.toWalletTransfer) :
    Ends (countingTransfer R t o)
      (fun failed s' => s'.aborted = false ∧ MovesRow t o failed s.db s'.db)
      (fun _ _ => True) s := by
  refine ends_tryCatch.2 (ends_bind.2 ?_)
  by_cases haw : Awaits o t.toWalletTransfer
  · rw [attempt_of_awaits haw]
    exact ⟨hs, ⟨_, .wait, hcur⟩, fun _ _ => rfl⟩
  · refine (attempt_ends hs).mono (fun _ _ h => ⟨h.live, h.db.movesRow hcur⟩) fun _ _ hf => ?_
    refine ends_bind.2 (hf.revert.mono (fun _ _ h => ?_) fun _ _ _ => trivial)
    exact ⟨h.1.live, h.2.movesRow hopen hcur haw⟩

/-! ## A batch -/

theorem MovesRow.cons {failed : Bool} {rest : List Nat} {d₁ d₂ : WalletDb}
    (h : MovesRow t (chain t.id) failed d d₁) (hrest : MovesEach chain ts rest d₁ d₂)
    (hid : t.id ∉ ts.map (·.id)) :
    MovesEach chain (t :: ts) (if failed then t.id :: rest else rest) d d₂ := by
  obtain ⟨hkeep, hnot⟩ := hrest.others t.id hid
  have hmem : ∀ id, id ∈ (if failed = true then t.id :: rest else rest) ↔
      (failed = true ∧ id = t.id) ∨ id ∈ rest := by
    intro id
    cases failed <;> simp
  refine ⟨fun t' ht' => ?_, fun id hout => ?_⟩
  · rcases List.mem_cons.1 ht' with rfl | ht'
    · obtain ⟨r', hmoved, hr'⟩ := h.row
      refine ⟨r', ?_, hkeep.trans hr'⟩
      have hflag : decide (t'.id ∈ (if failed = true then t'.id :: rest else rest)) = failed := by
        rw [Bool.eq_iff_iff, decide_eq_true_iff, hmem]
        exact ⟨fun hor => (hor.resolve_right hnot).1, fun hf => .inl ⟨hf, rfl⟩⟩
      rwa [hflag]
    · obtain ⟨r', hmoved, hr'⟩ := hrest.rows t' ht'
      refine ⟨r', ?_, hr'⟩
      have hne : t'.id ≠ t.id := fun heq => hid (List.mem_map.2 ⟨t', ht', heq⟩)
      have hflag : (t'.id ∈ (if failed = true then t.id :: rest else rest)) ↔ t'.id ∈ rest := by
        rw [hmem]
        exact or_iff_right fun hand => hne hand.2
      rwa [decide_eq_decide.2 hflag]
  · rw [List.map_cons, List.mem_cons, not_or] at hout
    obtain ⟨hsame, hnotin⟩ := hrest.others id hout.2
    refine ⟨hsame.trans (h.others id hout.1), fun hin => ?_⟩
    exact ((hmem id).1 hin).elim (fun hand => hout.1 hand.2) hnotin

theorem countingEach_ends (hs : s.aborted = false) (hopen : ∀ t ∈ ts, t.Open)
    (hcur : ∀ t ∈ ts, s.db.transfers.get? t.id = some t.toWalletTransfer)
    (hn : (ts.map (·.id)).Nodup) :
    Ends (countingEach R chain ts)
      (fun failed s' => MovesEach chain ts failed s.db s'.db) (fun _ _ => True) s := by
  induction ts generalizing s with
  | nil => exact ⟨fun _ ht => (List.not_mem_nil ht).elim, fun _ _ => ⟨rfl, List.not_mem_nil⟩⟩
  | cons t ts ih =>
    obtain ⟨hid, hn'⟩ := List.nodup_cons.1 hn
    refine ends_bind.2 ((countingTransfer_ends hs (hopen t (.head _)) (hcur t (.head _))).mono
      (fun failed s₁ h₁ => ?_) fun _ _ _ => trivial)
    obtain ⟨hlive, hmoves⟩ := h₁
    refine ends_bind.2 ((ih hlive (fun t' ht' => hopen t' (.tail _ ht')) (fun t' ht' => ?_) hn').mono
      (fun rest s₂ h₂ => hmoves.cons h₂ hid) fun _ _ _ => trivial)
    have hne : t'.id ≠ t.id := fun heq => hid (List.mem_map.2 ⟨t', ht', heq⟩)
    exact (hmoves.others t'.id hne).trans (hcur t' (.tail _ ht'))

/-- A batch moves the rows that it has selected, or nothing if it is rolled back. -/
theorem movesEach_step (b : Batch) (w : World) : ∃ ts : List SelectedTransfer,
    (∀ t ∈ ts, w.db.transfers.get? t.id = some t.toWalletTransfer) ∧
      MovesEach b.chain ts (failedAttempts R w (.processTransfers b)) w.db
        (step R w (.processTransfers b)).db := by
  have hends : Ends (countingBatch R b)
      (fun failed s' => MovesEach b.chain (selectTransfers b.ids w.db) failed w.db s'.db)
      (fun _ _ => True) (start w.db w.submissions b.faults) := by
    refine ends_bind.2 (select_ends.mono ?_ fun _ _ _ => trivial)
    rintro _ s₁ ⟨rfl, h₁⟩
    have hdb : s₁.db = w.db := h₁.db
    rw [← hdb]
    refine countingEach_ends h₁.live' (fun t ht => (mem_selectTransfers ht).2) (fun t ht => ?_)
      (nodup_selectTransfers b.nodup)
    exact Table.get?_eq_some.2 ⟨(mem_selectTransfers ht).1, rfl⟩
  have hcases := transact_of_ends hends (P := fun out => ∃ ts : List SelectedTransfer,
    (∀ t ∈ ts, w.db.transfers.get? t.id = some t.toWalletTransfer) ∧
      MovesEach b.chain ts (match out.result with | .ok failed => failed | .error _ => []) w.db
        out.db) ?_ ?_ ?_
  · simp only [step, processTransfers_eq]
    exact hcases
  · refine fun failed s h _ => ⟨_, fun t ht => ?_, h⟩
    exact Table.get?_eq_some.2 ⟨(mem_selectTransfers ht).1, rfl⟩
  · exact fun _ _ _ _ => ⟨[], fun _ ht => (List.not_mem_nil ht).elim,
      fun _ ht => (List.not_mem_nil ht).elim, fun _ _ => ⟨rfl, List.not_mem_nil⟩⟩
  · exact fun _ _ _ => ⟨[], fun _ ht => (List.not_mem_nil ht).elim,
      fun _ ht => (List.not_mem_nil ht).elim, fun _ _ => ⟨rfl, List.not_mem_nil⟩⟩

/-! ## The other steps -/

/-- The rows that were there stay as they are. -/
theorem Registers.old {r : WalletTransfer} {id : Nat} (h : Registers d d')
    (hr : d.transfers.get? id = some r) : d'.transfers.get? id = some r := by
  cases h with
  | nothing heq => rw [heq]; exact hr
  | insert u type amount source address heq =>
    rw [heq]
    refine (Table.get?_insert_of_ne fun hid => ?_).trans hr
    rw [hid, Table.get?_next] at hr
    cases hr

/-- A transfer that is registered is pending, and no attempt of it has failed. -/
theorem Registers.new {r : WalletTransfer} {id : Nat} (h : Registers d d')
    (hnone : d.transfers.get? id = none) (hr : d'.transfers.get? id = some r) :
    r.status = .pending ∧ r.retries = 0 := by
  cases h with
  | nothing heq =>
    rw [heq, hnone] at hr
    cases hr
  | insert u type amount source address heq =>
    rw [heq] at hr
    by_cases hid : id = d.transfers.next
    · subst hid
      have hself := Table.get?_insert_self.symm.trans hr
      cases hself
      exact ⟨rfl, rfl⟩
    · have hold := (Table.get?_insert_of_ne hid).symm.trans hr
      rw [hnone] at hold
      cases hold

theorem registers_listener (event : TransferEvent) (faults : Faults) (w : World) :
    Registers w.db (step R w (.transferListener event faults)).db := by
  rcases (transferListener_cases (R := R) event faults w).2 with h | ⟨user, -, -, h⟩
  · exact .nothing (congrArg WalletDb.transfers h)
  · unfold insertDeposit at h
    split at h
    · exact .nothing (congrArg WalletDb.transfers h)
    · exact .insert _ _ _ _ _ (congrArg WalletDb.transfers h)

theorem registers_request (u : Nat) (address amount : String) (faults : Faults) (w : World) :
    Registers w.db (step R w (.transferToExternalWallet u address amount faults)).db := by
  rcases (transferToExternalWallet_cases (R := R) u address amount faults w).2 with h | h
  · exact .nothing (congrArg WalletDb.transfers h)
  · generalize hd' : (transferToExternalWallet R u address amount faults w).db = d' at h
    have heq : (step R w (.transferToExternalWallet u address amount faults)).db = d' := hd'
    rw [heq]
    cases h
    exact .insert _ _ _ _ _ rfl

/-! ## One step -/

/-- **Rows.** A row that is there moves. -/
theorem step_row {r : WalletTransfer} (hr : w.db.transfers.get? r.id = some r) (a : Action) :
    ∃ r', Moved (AwaitsIn r a) r (decide (r.id ∈ failedAttempts R w a)) r' ∧
      (step R w a).db.transfers.get? r.id = some r' := by
  cases a with
  | transferListener event faults => exact ⟨r, .wait, (registers_listener event faults w).old hr⟩
  | transferToExternalWallet u address amount faults =>
    exact ⟨r, .wait, (registers_request u address amount faults w).old hr⟩
  | processTransfers b =>
    obtain ⟨ts, hcur, hmoves⟩ := movesEach_step (R := R) b w
    by_cases hin : r.id ∈ ts.map (·.id)
    · obtain ⟨t, ht, hid⟩ := List.mem_map.1 hin
      have htr : t.toWalletTransfer = r := by
        have hsome := hcur t ht
        rw [hid, hr] at hsome
        exact (Option.some.inj hsome).symm
      obtain ⟨r', hmoved, hr'⟩ := hmoves.rows t ht
      subst htr
      exact ⟨r', hmoved, hr'⟩
    · obtain ⟨hsame, hnot⟩ := hmoves.others r.id hin
      refine ⟨r, ?_, hsame.trans hr⟩
      rw [decide_eq_false hnot]
      exact .wait

/-- **New rows.** -/
theorem step_new {r : WalletTransfer} {id : Nat} {a : Action}
    (hnone : w.db.transfers.get? id = none) (hr : (step R w a).db.transfers.get? id = some r) :
    r.status = .pending ∧ r.retries = 0 := by
  cases a with
  | transferListener event faults => exact (registers_listener event faults w).new hnone hr
  | transferToExternalWallet u address amount faults =>
    exact (registers_request u address amount faults w).new hnone hr
  | processTransfers b =>
    obtain ⟨ts, hcur, hmoves⟩ := movesEach_step (R := R) b w
    have hout : id ∉ ts.map (·.id) := fun hin => by
      obtain ⟨t, ht, rfl⟩ := List.mem_map.1 hin
      have hsome := hcur t ht
      rw [hnone] at hsome
      cases hsome
    rw [(hmoves.others id hout).1, hnone] at hr
    cases hr

/-- A row that moves makes a transition. -/
theorem Moved.transition {r r' : WalletTransfer} {a : Action}
    (h : Moved (AwaitsIn r a) r (decide (r.id ∈ failedAttempts R w a)) r') :
    Transition R w a r r' := by
  generalize hflag : decide (r.id ∈ failedAttempts R w a) = failed at h
  cases h with
  | wait => exact ⟨rfl, .same, fun _ => rfl, fun _ => rfl, fun hf hne => absurd hf hne⟩
  | submit hash hst haw =>
    refine ⟨rfl, ?_, fun hc => absurd (.inl hst) hc, fun h => absurd h haw, fun hf => by cases hf⟩
    rw [hst]
    exact .submitted
  | done hst haw =>
    refine ⟨rfl, ?_, fun hc => absurd (.inr hst) hc, fun h => absurd h haw, fun hf => by cases hf⟩
    rw [hst]
    exact .settled
  | retry hopen haw _ =>
    refine ⟨rfl, .same, fun hc => absurd hopen hc, fun h => absurd h haw, fun hf hne => ?_⟩
    exact absurd hf hne
  | fail hopen haw hmax =>
    refine ⟨rfl, ?_, fun hc => absurd hopen hc, fun h => absurd h haw, fun _ _ => ?_⟩
    · rcases hopen with hst | hst <;> rw [hst]
      · exact .pendingFailed
      · exact .inProgressFailed
    · exact ⟨hmax, of_decide_eq_true hflag⟩

/-! ## The counter -/

/-- The counter of an open row is the number of its failed attempts. -/
def Counts (s : Tally) : Prop :=
  ∀ r ∈ s.world.db.transfers.rows, r.Open →
    r.retries = s.failures r.id ∧ r.retries ≤ MAX_TRANSFER_RETRIES

theorem statusOf_of_get? {r : WalletTransfer} {id : Nat} (h : w.db.transfers.get? id = some r) :
    statusOf w id = some r.status := by
  rw [statusOf, h]
  rfl

theorem Counts.step {s : Tally} (h : Counts s) (a : Action) : Counts (s.step R a) := by
  intro r' hr' hopen'
  have hget : (MkcRelay.step R s.world a).db.transfers.get? r'.id = some r' :=
    Table.get?_eq_some.2 ⟨hr', rfl⟩
  have hnext := statusOf_of_get? hget
  show r'.retries = (if _ then _ else _) ∧ _
  rw [hnext]
  cases hold : s.world.db.transfers.get? r'.id with
  | none =>
    obtain ⟨-, hzero⟩ := step_new hold hget
    have hprev : statusOf s.world r'.id = none := by rw [statusOf, hold]; rfl
    rw [hprev, if_pos (Option.some_ne_none _), hzero]
    exact ⟨rfl, Nat.zero_le _⟩
  | some r =>
    obtain ⟨hr, hid⟩ := Table.get?_eq_some.1 hold
    have hid : r.id = r'.id := hid
    rw [statusOf_of_get? hold, ← hid]
    rw [← hid] at hold hget
    obtain ⟨r'', hmoved, hr''⟩ := step_row (R := R) hold a
    obtain rfl : r'' = r' := Option.some.inj (hr''.symm.trans hget)
    generalize hflag : decide (r.id ∈ failedAttempts R s.world a) = failed at hmoved
    cases hmoved with
    | wait =>
      rw [if_neg (not_not_intro rfl), if_neg (of_decide_eq_false hflag)]
      exact h _ hr hopen'
    | submit hash hst _ =>
      rw [hst, if_pos fun heq => by cases heq]
      exact ⟨rfl, Nat.zero_le _⟩
    | done => rcases hopen' with hst | hst <;> cases hst
    | retry hopen _ hne =>
      obtain ⟨hcount, hle⟩ := h r hr hopen
      rw [if_neg (not_not_intro rfl), if_pos (of_decide_eq_true hflag)]
      exact ⟨congrArg (· + 1) hcount, Nat.lt_of_le_of_ne hle hne⟩
    | fail => rcases hopen' with hst | hst <;> cases hst

/-! ## Runs -/

theorem world_tally (w : World) (as : List Action) :
    (tally R w as).world = as.foldl (step R) w := by
  unfold tally
  generalize (fun _ => 0 : Nat → Nat) = failures
  induction as generalizing w failures with
  | nil => rfl
  | cons a as ih => exact ih (step R w a) _

/-- A row that is done or failed stays in every run. -/
theorem closed_foldl {r : WalletTransfer} (hr : r ∈ w.db.transfers.rows) (hclosed : ¬r.Open)
    (as : List Action) : r ∈ (as.foldl (step R) w).db.transfers.rows := by
  induction as generalizing w with
  | nil => exact hr
  | cons a as ih =>
    obtain ⟨r', hmoved, hr'⟩ := step_row (R := R) (Table.get?_eq_some.2 ⟨hr, rfl⟩) a
    obtain rfl := hmoved.transition.closed hclosed
    exact ih (Table.get?_eq_some.1 hr').1

/-- **Transfers.** In every run, the counter of an open transfer is the number of the failed
attempts that were committed since it entered its status, and at most `MAX_TRANSFER_RETRIES`. Every
further step makes a transition of every row, and a row that is done or failed never changes. -/
theorem transfer_transitions
    (h : ∀ r ∈ w.db.transfers.rows, r.Open → r.retries = 0) (as : List Action) :
    (∀ r ∈ (as.foldl (step R) w).db.transfers.rows, r.Open →
      r.retries = (tally R w as).failures r.id ∧ r.retries ≤ MAX_TRANSFER_RETRIES) ∧
    (∀ r ∈ (as.foldl (step R) w).db.transfers.rows, ∀ a,
      ∃ r' ∈ (step R (as.foldl (step R) w) a).db.transfers.rows,
        Transition R (as.foldl (step R) w) a r r') ∧
    ∀ r ∈ (as.foldl (step R) w).db.transfers.rows, ¬r.Open →
      ∀ bs : List Action, r ∈ (bs.foldl (step R) (as.foldl (step R) w)).db.transfers.rows := by
  refine ⟨?_, fun r hr a => ?_, fun r hr hclosed => closed_foldl hr hclosed⟩
  · rw [← world_tally]
    have h0 : Counts ⟨w, fun _ => 0⟩ := fun r hr hopen => by
      rw [h r hr hopen]
      exact ⟨rfl, Nat.zero_le _⟩
    exact foldl_inv h0 (fun _ a hs => hs.step a) as
  · obtain ⟨r', hmoved, hr'⟩ := step_row (R := R) (Table.get?_eq_some.2 ⟨hr, rfl⟩) a
    exact ⟨r', (Table.get?_eq_some.1 hr').1, hmoved.transition⟩

/-- A deposit, of which two attempts fail. A third one fails in a batch that does not commit. -/
def sampleAttempts : List Action :=
  [.transferListener ⟨sampleAddress, 5, "0x01", 0⟩ Faults.none, sampleBatch 1 sampleFailure,
    .processTransfers ⟨[1], List.nodup_singleton 1, fun _ => sampleFailure, fun _ => false, true⟩,
    sampleBatch 1 sampleFailure]

theorem transfer_transitions_sample :
    (tally sampleRelay sampleWorld sampleAttempts).failures 1 = 2 ∧
      ∀ r ∈ (sampleAttempts.foldl (step sampleRelay) sampleWorld).db.transfers.rows, r.Open →
        r.retries = (tally sampleRelay sampleWorld sampleAttempts).failures r.id ∧
          r.retries ≤ MAX_TRANSFER_RETRIES :=
  ⟨by decide +kernel, (transfer_transitions (by decide) sampleAttempts).1⟩

end MkcRelay

end Cme.Blockchain
