import CmeBackend.Blockchain.Effects
import CmeBackend.Lib.Runs

/-!
# The steps of the relay

One lemma for each step of the system says all that it can do to the world, whatever the chain
answers and whichever statements fail.

* `processTransfers_cases`: a batch handles all of its rows and commits, or leaves the database as
  it was. Its submissions stay either way.
* `transferToExternalWallet_cases`: a withdrawal is registered, or nothing changes.
* `transferListener_cases`: a deposit is registered, or nothing changes.

`HandledEach.inv` is the induction over the rows of a batch: an invariant of the database that
each `Handled` effect keeps is one of the batch.
-/

namespace Cme.Blockchain

open Transaction

namespace MkcRelay

variable (R : Relay)

/-- What a batch does to the database when it handles all of `ts`. -/
inductive HandledEach (chain : Nat → ChainOutcome) :
    List SelectedTransfer → WalletDb → WalletDb → Prop
  | nil {d : WalletDb} : HandledEach chain [] d d
  | cons {t : SelectedTransfer} {ts : List SelectedTransfer} {d d₁ d₂ : WalletDb} :
      Handled R t (chain t.id) d d₁ → HandledEach chain ts d₁ d₂ →
      HandledEach chain (t :: ts) d d₂

/-- What the handlers of `ts` submit. -/
noncomputable def submissionsOf (chain : Nat → ChainOutcome) (ts : List SelectedTransfer) :
    List Submission :=
  ts.flatMap fun t => submissions R t (chain t.id)

/-- What a batch does. -/
inductive Processed (b : Batch) (w : World) : World → Prop
  | commit {d : WalletDb} : HandledEach R b.chain (selectTransfers b.ids w.db) w.db d →
      Processed b w ⟨d, w.submissions ++ submissionsOf R b.chain (selectTransfers b.ids w.db)⟩
  | rollback (tried rest : List SelectedTransfer) :
      selectTransfers b.ids w.db = tried ++ rest →
      (b.faults.Silent → ∃ ts t d, tried = ts ++ [t] ∧ HandledEach R b.chain ts w.db d ∧
        Stuck R t (b.chain t.id) d) →
      Processed b w ⟨w.db, w.submissions ++ submissionsOf R b.chain tried⟩

/-- What `requestTransfer` does when it returns: it registers the withdrawal, and reserves its
amount. -/
inductive Requested (userId : Nat) (address amount : String) (d : WalletDb) : WalletDb → Prop
  | intro {w : MkcWallet} {a b p : Int} : d.walletOf userId = some w → R.isAddress address = true →
      R.parseEther w.balance = some b → R.parseEther amount = some a →
      R.pendingWei? w = some p → a ≤ b - p →
      Requested userId address amount d
        ((d.insertTransfer userId .toExternalWallet .pending amount none
          (some address)).updateWalletById w.id fun w =>
            { w with balancePendingWithdrawal := some (R.formatEther (p + a)) })

variable {R} {chain : Nat → ChainOutcome} {ts : List SelectedTransfer} {d d' : WalletDb}
  {s : DbTx} {w : World}

/-! ## The rows of a batch -/

section Rows

variable {ids : List Nat} {t : SelectedTransfer}

/-- A selected row is an open row of the table. -/
theorem mem_selectTransfers (h : t ∈ selectTransfers ids d) :
    t.toWalletTransfer ∈ d.transfers.rows ∧ t.Open := by
  obtain ⟨id, -, hid⟩ := List.mem_filterMap.1 h
  simp only [Option.bind_eq_bind, Option.bind_eq_some_iff] at hid
  obtain ⟨tr, htr, u, -, hsel⟩ := hid
  split at hsel
  · rename_i hopen
    cases hsel
    exact ⟨(Table.get?_eq_some.1 htr).1, hopen⟩
  · cases hsel

theorem selectTransfers_cons (id : Nat) (ids : List Nat) (d : WalletDb) :
    selectTransfers (id :: ids) d = selectTransfers [id] d ++ selectTransfers ids d := by
  simp only [selectTransfers, ← List.filterMap_append, List.cons_append, List.nil_append]

/-- A selected row has one of the ids. -/
theorem id_mem_of_mem_selectTransfers (h : t ∈ selectTransfers ids d) : t.id ∈ ids := by
  obtain ⟨id, hmem, hid⟩ := List.mem_filterMap.1 h
  simp only [Option.bind_eq_bind, Option.bind_eq_some_iff] at hid
  obtain ⟨tr, htr, u, -, hsel⟩ := hid
  split at hsel
  · cases hsel
    have hk : tr.id = id := (Table.get?_eq_some.1 htr).2
    exact hk ▸ hmem
  · cases hsel

/-- No row is selected twice. -/
theorem nodup_selectTransfers (hn : ids.Nodup) : ((selectTransfers ids d).map (·.id)).Nodup := by
  induction ids with
  | nil => exact List.nodup_nil
  | cons id ids ih =>
    obtain ⟨hid, hn'⟩ := List.nodup_cons.1 hn
    rw [selectTransfers_cons, List.map_append]
    refine List.nodup_append.2 ⟨?_, ih hn', ?_⟩
    · have hle : (selectTransfers [id] d).length ≤ 1 := List.length_filterMap_le _ _
      rcases hsel : selectTransfers [id] d with _ | ⟨x, _ | ⟨y, rest⟩⟩
      · exact List.nodup_nil
      · exact List.nodup_singleton _
      · rw [hsel] at hle
        simp at hle
    · intro a ha b hb hab
      obtain ⟨t, ht, rfl⟩ := List.mem_map.1 ha
      obtain ⟨t', ht', rfl⟩ := List.mem_map.1 hb
      have h₁ := id_mem_of_mem_selectTransfers ht
      have h₂ := id_mem_of_mem_selectTransfers ht'
      rw [List.mem_singleton] at h₁
      exact hid (h₁ ▸ hab ▸ h₂)

end Rows

/-! ## Effects on the other rows -/

/-- Handling a row leaves the others alone. -/
theorem Handled.mem_of_ne {t : SelectedTransfer} {o : ChainOutcome} {r : WalletTransfer}
    (h : Handled R t o d d') (hr : r ∈ d.transfers.rows) (hne : r.id ≠ t.id) :
    r ∈ d'.transfers.rows := by
  have hupdate : ∀ {d₁ : WalletDb} {f : WalletTransfer → WalletTransfer}
      {hf : ∀ t, key (f t) = key t}, d₁.transfers = d.transfers →
      r ∈ (d₁.updateTransfer t.id f hf).transfers.rows := fun {d₁ f hf} heq =>
    @Table.mem_update_of_ne _ _ d₁.transfers t.id f r hf (heq ▸ hr) hne
  cases h with
  | wait => exact hr
  | submit => exact hupdate rfl
  | credit _ _ hc => cases hc <;> exact hupdate rfl
  | debit _ _ hc => cases hc; exact hupdate rfl
  | revert _ hc =>
    cases hc with
    | retry => exact hupdate rfl
    | release _ _ _ hl => cases hl; exact hupdate rfl
    | fail => exact hupdate rfl

/-- The induction over the rows of a batch. Each row is handled as the batch selected it: the rows
before it are others. -/
theorem HandledEach.inv {I : WalletDb → Prop} (h : HandledEach R chain ts d d')
    (hcur : ∀ t ∈ ts, t.toWalletTransfer ∈ d.transfers.rows) (hn : (ts.map (·.id)).Nodup)
    (h0 : I d)
    (hstep : ∀ t ∈ ts, ∀ d d', t.toWalletTransfer ∈ d.transfers.rows → I d →
      Handled R t (chain t.id) d d' → I d') : I d' := by
  induction h with
  | nil => exact h0
  | @cons t ts d d₁ d₂ ht _ ih =>
    obtain ⟨hid, hn'⟩ := List.nodup_cons.1 hn
    have h1 : I d₁ := hstep t (.head _) d d₁ (hcur t (.head _)) h0 ht
    refine ih (fun t' ht' => ?_) hn' h1 fun t' ht' => hstep t' (.tail _ ht')
    refine ht.mem_of_ne (hcur t' (.tail _ ht')) fun heq => hid ?_
    exact List.mem_map.2 ⟨t', ht', heq⟩

/-! ## The loop of a batch -/

/-- The loop handles all the rows, or throws at one: a statement has failed, or the row is stuck. -/
theorem processEach_ends (hs : s.aborted = false) :
    Ends (processEach R chain ts)
      (fun _ s' => s'.aborted = false ∧ s'.log = s.log ++ submissionsOf R chain ts ∧
        HandledEach R chain ts s.db s'.db)
      (fun _ s' => ∃ pre t rest, ts = pre ++ t :: rest ∧
        s'.log = s.log ++ submissionsOf R chain (pre ++ [t]) ∧
        (Reliable s → ∃ d, HandledEach R chain pre s.db d ∧ Stuck R t (chain t.id) d)) s := by
  induction ts generalizing s with
  | nil => exact ends_pure.2 ⟨hs, by simp [submissionsOf], .nil⟩
  | cons t ts ih =>
    refine ends_bind.2 ((processTransfer_ends hs).mono (fun _ s₁ h₁ => ?_) fun _ s₁ h₁ => ?_)
    · refine (ih h₁.live).mono (fun _ s₂ h₂ => ?_) fun _ s₂ h₂ => ?_
      · obtain ⟨hl, hlog, hd⟩ := h₂
        refine ⟨hl, ?_, .cons h₁.db hd⟩
        rw [hlog, h₁.log, List.append_assoc]
        rfl
      · obtain ⟨pre, t', rest, hts, hlog, hstuck⟩ := h₂
        refine ⟨t :: pre, t', rest, by rw [hts, List.cons_append], ?_, fun hr => ?_⟩
        · rw [hlog, h₁.log, List.append_assoc]
          rfl
        · obtain ⟨d, hd, hst⟩ := hstuck (h₁.reliable hr)
          exact ⟨d, .cons h₁.db hd, hst⟩
    · refine ⟨[], t, ts, rfl, ?_, fun hr => ⟨s.db, .nil, h₁.2 hr⟩⟩
      rw [h₁.1]
      simp [submissionsOf]

/-! ## The steps -/

/-- **Batches.** -/
theorem processTransfers_cases (b : Batch) (w : World) : Processed R b w (processTransfers R b w) := by
  have hends : Ends (processBatch R b)
      (fun _ s' => s'.aborted = false ∧
        s'.log = w.submissions ++ submissionsOf R b.chain (selectTransfers b.ids w.db) ∧
        HandledEach R b.chain (selectTransfers b.ids w.db) w.db s'.db)
      (fun _ s' => ∃ tried rest, selectTransfers b.ids w.db = tried ++ rest ∧
        s'.log = w.submissions ++ submissionsOf R b.chain tried ∧
        (b.faults.Silent → ∃ ts t d, tried = ts ++ [t] ∧ HandledEach R b.chain ts w.db d ∧
          Stuck R t (b.chain t.id) d))
      (start w.db w.submissions b.faults) := by
    refine ends_bind.2 (select_ends.mono ?_ fun _ s' h => ?_)
    · rintro _ s₁ ⟨rfl, h₁⟩
      have hdb : s₁.db = w.db := h₁.db
      have hlog : s₁.log = w.submissions := h₁.log
      refine (processEach_ends h₁.live').mono (fun _ s' h => ?_) fun _ s' h => ?_
      · rw [hdb, hlog] at h
        exact h
      · obtain ⟨pre, t, rest, hts, hl, hst⟩ := h
        refine ⟨pre ++ [t], rest, by rw [List.append_assoc]; exact hts, hlog ▸ hl, fun hsil => ?_⟩
        obtain ⟨d, hd, hst'⟩ := hst (h₁.reliable ⟨rfl, hsil.1⟩)
        exact ⟨pre, t, d, rfl, hdb ▸ hd, hst'⟩
    · refine ⟨[], _, rfl, by rw [h.log]; simp [submissionsOf, start], fun hsil => ?_⟩
      exact absurd ⟨rfl, hsil.1⟩ h.fault
  unfold processTransfers World.run
  refine transact_of_ends hends (P := fun out => Processed R b w ⟨out.db, out.log⟩) ?_ ?_ ?_
  · rintro _ s ⟨-, hlog, hd⟩ _
    rw [hlog]
    exact .commit hd
  · rintro _ s ⟨hl, hlog, hd⟩ hf
    rw [hlog]
    refine .rollback _ [] (List.append_nil _).symm fun hsil => ?_
    rcases hf with hf | hf
    · simp [hl] at hf
    · simp [hsil.2] at hf
  · rintro _ s ⟨tried, rest, hts, hlog, hst⟩
    rw [hlog]
    exact .rollback tried rest hts hst

/-- A transaction that submits nothing: it commits what its program does, or nothing. -/
theorem run_cases {faults : Faults} {x : DbM Unit} {D : WalletDb → Prop}
    (h : Ends x (fun _ s' => s'.log = w.submissions ∧ D s'.db)
      (fun _ s' => s'.log = w.submissions) (start w.db w.submissions faults)) :
    (w.run faults x).submissions = w.submissions ∧
      ((w.run faults x).db = w.db ∨ D (w.run faults x).db) := by
  unfold World.run
  refine transact_of_ends h (P := fun out => out.log = w.submissions ∧ (out.db = w.db ∨ D out.db))
    ?_ ?_ ?_
  · exact fun _ s h _ => ⟨h.1, .inr h.2⟩
  · exact fun _ s h _ => ⟨h.1, .inl rfl⟩
  · exact fun _ s h => ⟨h, .inl rfl⟩

theorem requestTransfer_ends {u : Nat} {address amount : String} :
    Ends (requestTransfer R u address amount)
      (fun _ s' => Steps (Requested R u address amount s.db) s s') (fun _ s' => s'.log = s.log) s := by
  unfold requestTransfer
  refine ends_bind.2 (select_ends.mono ?_ fun _ _ h => h.log)
  rintro row s₁ ⟨rfl, h₁⟩
  cases hw : s.db.walletOf u with
  | none => exact ends_throw.2 h₁.log
  | some wallet =>
    by_cases haddr : R.isAddress address = false
    · simp only [haddr, ↓reduceIte]
      exact ends_throw.2 h₁.log
    rw [Bool.not_eq_false] at haddr
    simp only [haddr, Bool.true_eq_false, ↓reduceIte]
    refine ends_bind.2 (parse_ends.mono ?_ fun _ _ h => by rw [h.2, h₁.log])
    rintro b _ ⟨hb, rfl⟩
    refine ends_bind.2 (parse_ends.mono ?_ fun _ _ h => by rw [h.2, h₁.log])
    rintro a s₁ ⟨ha, rfl⟩
    refine ends_bind.2 (parseOrZero_ends.mono ?_ fun _ _ h => h ▸ h₁.log)
    rintro p _ ⟨hp, rfl⟩
    by_cases hlt : b - p < a
    · rw [if_pos hlt]
      exact ends_throw.2 h₁.log
    rw [if_neg hlt]
    refine ends_bind.2 (execute_ends.mono (fun _ s₂ h₂ => ?_) fun _ _ h => h.log.trans h₁.log)
    refine execute_ends.mono (fun _ s₃ h₃ => ?_) fun _ _ h => h.log.trans (h₂.log.trans h₁.log)
    refine h₁.trans ⟨h₂.live, h₃.live', h₃.faults.trans h₂.faults, h₃.log.trans h₂.log, ?_⟩
    rw [h₃.db, h₂.db, h₁.db]
    exact .intro hw haddr hb ha hp (Int.not_lt.1 hlt)

/-- **Withdrawal requests.** -/
theorem transferToExternalWallet_cases (u : Nat) (address amount : String) (faults : Faults)
    (w : World) :
    (transferToExternalWallet R u address amount faults w).submissions = w.submissions ∧
      ((transferToExternalWallet R u address amount faults w).db = w.db ∨
        Requested R u address amount w.db
          (transferToExternalWallet R u address amount faults w).db) :=
  run_cases (requestTransfer_ends.mono (fun _ _ h => ⟨h.log, h.db⟩) fun _ _ h => h)

/-- **Deposits.** -/
theorem transferListener_cases (event : TransferEvent) (faults : Faults) (w : World) :
    (transferListener R event faults w).submissions = w.submissions ∧
      ((transferListener R event faults w).db = w.db ∨
        ∃ user, userOfAddress w.db event.toAddress = some user ∧ event.amount ≠ 0 ∧
          (transferListener R event faults w).db =
            insertDeposit user (R.formatEther event.amount) event.transactionHash w.db) := by
  unfold transferListener
  cases hu : userOfAddress w.db event.toAddress with
  | none => exact ⟨rfl, .inl rfl⟩
  | some user =>
    by_cases ha : event.amount = 0
    · simp only [ha, ↓reduceIte]
      exact ⟨trivial, .inl trivial⟩
    · simp only [ha, ↓reduceIte]
      have hrun := @run_cases w faults
        (execute (insertDeposit user (R.formatEther event.amount) event.transactionHash))
        (· = insertDeposit user (R.formatEther event.amount) event.transactionHash w.db)
        (execute_ends.mono (fun _ _ h => ⟨h.log, h.db⟩) fun _ _ h => h.log)
      exact ⟨hrun.1, hrun.2.imp_right fun h => ⟨user, rfl, ha, h⟩⟩

/-- An invariant of the database that deposits, requests and the handling of a row keep is one of
the step. -/
theorem step_inv {I : WalletDb → Prop} {a : Action} (h0 : I w.db)
    (hdeposit : ∀ (user : User) (amount : Nat) (hash : String),
      I (insertDeposit user (R.formatEther amount) hash w.db))
    (hrequest : ∀ u address amount faults d',
      a = .transferToExternalWallet u address amount faults →
      Requested R u address amount w.db d' → I d')
    (hhandled : ∀ t o d d', t.toWalletTransfer ∈ d.transfers.rows → t.Open → I d →
      Handled R t o d d' → I d') : I (step R w a).db := by
  cases a with
  | transferListener event faults =>
    rcases (transferListener_cases event faults w).2 with h | ⟨user, -, -, h⟩
    · exact h ▸ h0
    · exact h ▸ hdeposit user event.amount event.transactionHash
  | transferToExternalWallet u address amount faults =>
    rcases (transferToExternalWallet_cases u address amount faults w).2 with h | h
    · exact h ▸ h0
    · exact hrequest u address amount faults _ rfl h
  | processTransfers b =>
    have hcases := processTransfers_cases (R := R) b w
    simp only [step]
    generalize processTransfers R b w = w' at hcases
    cases hcases with
    | commit hd =>
      refine hd.inv (fun t ht => (mem_selectTransfers ht).1) (nodup_selectTransfers b.nodup) h0 ?_
      exact fun t ht d d' hcur hI h => hhandled t _ d d' hcur (mem_selectTransfers ht).2 hI h
    | rollback => exact h0

end MkcRelay

end Cme.Blockchain
