import CmeBackend.Blockchain.Steps
import Mathlib.Data.List.Dedup
import Mathlib.Data.List.Forall2
import Mathlib.Data.List.Perm.Subperm

/-!
# Deposits

`transferListener` registers a deposit for a `Transfer` event to a user's wallet. It inserts the
row with `ON CONFLICT (source_transaction_hash) DO NOTHING`, so that an event that is delivered
again is not registered again. The key has the transaction but not the event: of two events of
one transaction only the first is registered (`two_events_one_row`).

`registered_iff`: the rows correspond to the events exactly if no two events that concern users
share a transaction.
-/

namespace Cme.Blockchain

open Transaction

namespace MkcRelay

variable {R : Relay} {d : WalletDb} {w : World} {e e' : TransferEvent}
  {events : List TransferEvent}

/-- The recipient of the event is a user, and its amount is not zero. -/
def Relevant (d : WalletDb) (e : TransferEvent) : Prop :=
  (userOfAddress d e.toAddress).isSome ∧ e.amount ≠ 0

instance (d : WalletDb) (e : TransferEvent) : Decidable (Relevant d e) :=
  inferInstanceAs (Decidable (_ ∧ _))

/-- Events delivered one after the other. -/
def deliver (R : Relay) (events : List TransferEvent) (w : World) : World :=
  events.foldl (fun w e => transferListener R e Faults.none w) w

/-- The row `t` is the deposit of the event `e`. -/
structure DepositOf (R : Relay) (d : WalletDb) (t : WalletTransfer) (e : TransferEvent) : Prop where
  user : ∃ user, userOfAddress d e.toAddress = some user ∧ t.userId = user.id
  type : t.type = .toGameWallet
  amount : R.parseEther t.mkcAmount = some (e.amount : Int)
  source : t.sourceTransactionHash = some e.transactionHash

/-- Two deliveries with the transaction and the index of one event are deliveries of it. -/
def Consistent (events : List TransferEvent) : Prop :=
  ∀ e ∈ events, ∀ e' ∈ events, e.transactionHash = e'.transactionHash → e.logIndex = e'.logIndex →
    e = e'

instance (events : List TransferEvent) : Decidable (Consistent events) :=
  inferInstanceAs (Decidable (∀ e ∈ events, ∀ e' ∈ events, _ → _ → e = e'))

/-- The events that concern users, each once. -/
def relevantEvents (d : WalletDb) (events : List TransferEvent) : List TransferEvent :=
  (events.filter (Relevant d)).dedup

/-- The rows that were added to the deposits of `d₀` correspond one to one to the events that
concern users. -/
def Registered (R : Relay) (d₀ : WalletDb) (events : List TransferEvent) (d : WalletDb) : Prop :=
  ∃ created es, d.transfers.rows = d₀.transfers.rows ++ created ∧
    List.Forall₂ (DepositOf R d₀) created es ∧ es.Perm (relevantEvents d₀ events)

/-! ## One delivery -/

theorem run_execute {f : WalletDb → WalletDb} :
    w.run Faults.none (execute f) = ⟨f w.db, w.submissions⟩ := rfl

theorem transferListener_of_not_relevant (h : ¬Relevant w.db e) :
    transferListener R e Faults.none w = w := by
  unfold transferListener
  cases hu : userOfAddress w.db e.toAddress with
  | none => rfl
  | some user =>
    have ha : e.amount = 0 := by
      by_contra ha
      exact h ⟨by simp [hu], ha⟩
    simp [ha]

theorem transferListener_of_relevant {user : User} (hu : userOfAddress w.db e.toAddress = some user)
    (ha : e.amount ≠ 0) :
    transferListener R e Faults.none w =
      ⟨insertDeposit user (R.formatEther e.amount) e.transactionHash w.db, w.submissions⟩ := by
  unfold transferListener
  simp only [hu, ha, ↓reduceIte]
  exact run_execute

/-! ## All deliveries -/

/-- What the deliveries leave behind: the rows of the first event of each transaction. -/
structure Delivered (R : Relay) (d₀ : WalletDb) (events es : List TransferEvent)
    (created : List WalletTransfer) (d : WalletDb) : Prop where
  users : d.users = d₀.users
  rows : d.transfers.rows = d₀.transfers.rows ++ created
  deposits : List.Forall₂ (DepositOf R d₀) created es
  mem : ∀ e ∈ es, e ∈ events ∧ Relevant d₀ e
  nodup : (es.map (·.transactionHash)).Nodup
  complete : ∀ e ∈ events, Relevant d₀ e → e.transactionHash ∈ es.map (·.transactionHash)

theorem sources_of_deposits {created : List WalletTransfer} {es : List TransferEvent}
    (h : List.Forall₂ (DepositOf R d) created es) :
    created.map (·.sourceTransactionHash) = (es.map (·.transactionHash)).map some := by
  induction h with
  | nil => rfl
  | cons h _ ih => rw [List.map_cons, List.map_cons, List.map_cons, h.source, ih]

theorem Delivered.relevant_iff {d₀ : WalletDb} {es created} (h : Delivered R d₀ events es created d) :
    Relevant d e ↔ Relevant d₀ e := by
  unfold Relevant userOfAddress
  rw [h.users]

/-- An event is skipped exactly if its transaction was registered before. -/
theorem Delivered.any_source_iff {d₀ : WalletDb} {es created}
    (h : Delivered R d₀ events es created d)
    (hfresh : ∀ t ∈ d₀.transfers.rows, t.sourceTransactionHash ≠ some e.transactionHash) :
    d.transfers.rows.any (·.sourceTransactionHash == some e.transactionHash) = true ↔
      e.transactionHash ∈ es.map (·.transactionHash) := by
  have hcreated : some e.transactionHash ∈ created.map (·.sourceTransactionHash) ↔
      e.transactionHash ∈ es.map (·.transactionHash) := by
    rw [sources_of_deposits h.deposits]
    simp
  rw [← hcreated, List.any_eq_true, h.rows, List.mem_map]
  constructor
  · rintro ⟨t, ht, hsource⟩
    rw [beq_iff_eq] at hsource
    rcases List.mem_append.1 ht with ht | ht
    · exact absurd hsource (hfresh t ht)
    · exact ⟨t, ht, hsource⟩
  · rintro ⟨t, ht, hsource⟩
    exact ⟨t, List.mem_append_right _ ht, beq_iff_eq.2 hsource⟩

/-- One more delivery. -/
theorem Delivered.next {w₀ : World} {es created} (h : Delivered R w₀.db events es created w.db)
    (hfresh : ∀ t ∈ w₀.db.transfers.rows, t.sourceTransactionHash ≠ some e.transactionHash) :
    ∃ es' created', Delivered R w₀.db (events ++ [e]) es' created'
      (transferListener R e Faults.none w).db := by
  have hmem : ∀ e' ∈ es, e' ∈ events ++ [e] ∧ Relevant w₀.db e' := fun e' he' =>
    ⟨List.mem_append_left _ (h.mem e' he').1, (h.mem e' he').2⟩
  by_cases hrel : Relevant w₀.db e
  · obtain ⟨user, hu⟩ := Option.isSome_iff_exists.1 (h.relevant_iff.2 hrel).1
    rw [transferListener_of_relevant hu hrel.2]
    dsimp only [insertDeposit]
    by_cases hany : w.db.transfers.rows.any (·.sourceTransactionHash == some e.transactionHash) = true
    · -- The transaction was registered before.
      rw [if_pos hany]
      refine ⟨es, created, h.users, h.rows, h.deposits, hmem, h.nodup, fun e' he' hrel' => ?_⟩
      rcases List.mem_append.1 he' with he' | he'
      · exact h.complete e' he' hrel'
      · rw [List.mem_singleton.1 he']
        exact (h.any_source_iff hfresh).1 hany
    · rw [if_neg hany]
      have hnew : e.transactionHash ∉ es.map (·.transactionHash) := fun hin =>
        hany ((h.any_source_iff hfresh).2 hin)
      let row : WalletTransfer := ⟨w.db.transfers.next, user.id, .toGameWallet, .pending, 0, none,
        some e.transactionHash, R.formatEther e.amount, none⟩
      refine ⟨es ++ [e], created ++ [row], h.users, ?_, ?_, ?_, ?_, ?_⟩
      · exact (congrArg (· ++ [row]) h.rows).trans (List.append_assoc _ _ _)
      · refine List.rel_append h.deposits (.cons ⟨⟨user, ?_, rfl⟩, rfl, ?_, rfl⟩ .nil)
        · unfold userOfAddress at hu ⊢
          rwa [← h.users]
        · exact R.parse_format _
      · intro e' he'
        rcases List.mem_append.1 he' with he' | he'
        · exact hmem e' he'
        · rw [List.mem_singleton.1 he']
          exact ⟨by simp, hrel⟩
      · rw [List.map_append, List.map_singleton]
        exact List.nodup_append.2 ⟨h.nodup, List.nodup_singleton _, fun a ha b hb hab =>
          hnew (List.mem_singleton.1 hb ▸ hab ▸ ha)⟩
      · intro e' he' hrel'
        rw [List.map_append, List.mem_append]
        rcases List.mem_append.1 he' with he' | he'
        · exact .inl (h.complete e' he' hrel')
        · rw [List.mem_singleton.1 he']
          exact .inr (by simp)
  · rw [transferListener_of_not_relevant fun hr => hrel (h.relevant_iff.1 hr)]
    refine ⟨es, created, h.users, h.rows, h.deposits, hmem, h.nodup, fun e' he' hrel' => ?_⟩
    rcases List.mem_append.1 he' with he' | he'
    · exact h.complete e' he' hrel'
    · rw [List.mem_singleton.1 he'] at hrel'
      exact absurd hrel' hrel

/-- The deliveries register the first relevant event of each transaction. -/
theorem delivered (hfresh : ∀ e ∈ events, ∀ t ∈ w.db.transfers.rows,
      t.sourceTransactionHash ≠ some e.transactionHash) :
    ∃ es created, Delivered R w.db events es created (deliver R events w).db := by
  induction events using List.reverseRecOn with
  | nil => exact ⟨[], [], rfl, (List.append_nil _).symm, .nil, by simp, List.nodup_nil, by simp⟩
  | append_singleton events e ih =>
    obtain ⟨es, created, h⟩ := ih fun e he => hfresh e (List.mem_append_left _ he)
    have hnext := h.next (e := e) (hfresh e (by simp))
    have hlast : deliver R (events ++ [e]) w =
        transferListener R e Faults.none (deliver R events w) := List.foldl_concat ..
    rwa [hlast]

theorem mem_relevantEvents : e ∈ relevantEvents d events ↔ e ∈ events ∧ Relevant d e := by
  unfold relevantEvents
  rw [List.mem_dedup, List.mem_filter, decide_eq_true_iff]

/-- **Deposits.** The deposits correspond to the events that concern users exactly if no two of
these events share a transaction. -/
theorem registered_iff (hsame : Consistent events)
    (hfresh : ∀ e ∈ events, ∀ t ∈ w.db.transfers.rows,
      t.sourceTransactionHash ≠ some e.transactionHash) :
    Registered R w.db events (deliver R events w).db ↔
      ∀ e ∈ events, ∀ e' ∈ events, Relevant w.db e → Relevant w.db e' →
        e.transactionHash = e'.transactionHash → e.logIndex = e'.logIndex := by
  obtain ⟨es, created, h⟩ := delivered (R := R) hfresh
  have hsub : ∀ e ∈ es, e ∈ relevantEvents w.db events := fun e he => mem_relevantEvents.2 (h.mem e he)
  have hnodup : es.Nodup := h.nodup.of_map _
  constructor
  · rintro ⟨created', es', hrows, hdep, hperm⟩
    -- The rows are as many as the events, so every event is the first one of its transaction.
    have heq : created' = created := List.append_cancel_left (hrows.symm.trans h.rows)
    have hlength : (relevantEvents w.db events).length ≤ es.length := by
      rw [← hperm.length_eq, ← hdep.length_eq, heq, h.deposits.length_eq]
    have hperm' : es.Perm (relevantEvents w.db events) :=
      (List.subperm_of_subset hnodup hsub).perm_of_length_le hlength
    intro e he e' he' hrel hrel' hhash
    have hin : e ∈ es := hperm'.mem_iff.2 (mem_relevantEvents.2 ⟨he, hrel⟩)
    have hin' : e' ∈ es := hperm'.mem_iff.2 (mem_relevantEvents.2 ⟨he', hrel'⟩)
    rw [List.inj_on_of_nodup_map h.nodup hin hin' hhash]
  · intro hone
    refine ⟨created, es, h.rows, h.deposits, ?_⟩
    refine (List.perm_ext_iff_of_nodup hnodup (List.nodup_dedup _)).2 fun e => ⟨hsub e, fun he => ?_⟩
    obtain ⟨hin, hrel⟩ := mem_relevantEvents.1 he
    obtain ⟨e', he', hhash⟩ := List.mem_map.1 (h.complete e hin hrel)
    obtain ⟨hin', hrel'⟩ := h.mem e' he'
    have hindex := hone e' hin' e hin hrel' hrel hhash
    rwa [← hsame e' hin' e hin hhash hindex]

/-- An event that is delivered twice, and another one. -/
def sampleEvents : List TransferEvent :=
  [⟨sampleAddress, 5, "0x01", 0⟩, ⟨sampleAddress, 5, "0x01", 0⟩, ⟨sampleAddress, 7, "0x02", 3⟩]

theorem registered_iff_sample :
    Registered sampleRelay sampleWorld.db sampleEvents
      (deliver sampleRelay sampleEvents sampleWorld).db :=
  (registered_iff (by decide) (by decide)).2 (by decide)

/-- Two events of one transaction: the second one is lost. -/
theorem two_events_one_row :
    ¬∀ (w : World) (events : List TransferEvent), Consistent events →
      w.db.transfers.rows = [] →
      Registered sampleRelay w.db events (deliver sampleRelay events w).db := by
  intro h
  let events : List TransferEvent := [⟨sampleAddress, 5, "0x01", 0⟩, ⟨sampleAddress, 7, "0x01", 1⟩]
  obtain ⟨created, es, hrows, hdep, hperm⟩ := h sampleWorld events (by decide) rfl
  have hone : created.length = 1 := congrArg List.length hrows.symm
  have htwo : (relevantEvents sampleWorld.db events).length = 2 := by decide
  have hlength := hdep.length_eq.trans hperm.length_eq
  omega

end MkcRelay

end Cme.Blockchain
