import CmeBackend.Blockchain.Entities

/-!
# In-game MKC balances (`blockchain-ms-ingame-mkc.service.ts`)

The balance operations of `BlockchainMsIngameMKCService`, which run inside the transaction of
their caller. Each has one lemma (`incrementBalance_ends`, `decreasePendingBalance_ends`,
`decreaseBalance_ends`) that says what it does to the database when it returns (`Credit`,
`Release`, `Debit`), and that an exception leaves the database alone or the transaction aborted.
-/

namespace Cme.Blockchain

open Transaction

/-- A `transferMkc` submission that the chain accepted. -/
structure Submission where
  /-- The row of `user_wallet_transfers` it was made for. -/
  transferId : Nat
  receipt : String
  amount : Int
  signer : Option String
  deriving DecidableEq, Repr

/-- Programs in a transaction of the wallet database. The submissions outlive a rollback. -/
abbrev DbM (α : Type) := TxM WalletDb (List Submission) α

/-- A transaction in progress. -/
abbrev DbTx := Tx WalletDb (List Submission)

/-- `utils.parseEther`, which throws on a text that is not a decimal. -/
def Ethers.parse (R : Ethers) (text : String) : DbM Int :=
  match R.parseEther text with
  | some w => pure w
  | none => throw .library

/-- `utils.parseEther` of a nullable column. -/
def Ethers.parseNullable (R : Ethers) : Option String → DbM Int
  | some text => R.parse text
  | none => throw .library

/-- `text ? utils.parseEther(text) : BigNumber.from(0)` -/
def Ethers.parseOrZero (R : Ethers) : Option String → DbM Int
  | some text => R.parse text
  | none => pure 0

/-- The wei of the reserve; a wallet without one has none. -/
def Ethers.pendingWei? (R : Ethers) (w : MkcWallet) : Option Int :=
  match w.balancePendingWithdrawal with
  | some pending => R.parseEther pending
  | none => some 0

namespace IngameMkc

variable (R : Ethers)

def incrementBalance (userId : Nat) (amount : String) : DbM Unit := do
  match ← select (·.walletOf userId) with
  | none => execute (·.insertWallet userId amount)
  | some balance =>
    let balanceInWei ← R.parse balance.balance
    let amountInWei ← R.parse amount
    let newBalance := R.formatEther (balanceInWei + amountInWei)
    execute (·.updateWallet userId balance.id fun w => { w with balance := newBalance })

structure LockedBalance where
  balanceId : Nat
  newBalance : String
  newBalancePending : String

def lockBalanceForDecrease (userId : Nat) (decreaseAmount : String) : DbM LockedBalance := do
  match ← select (·.walletOf userId) with
  | none => throw (.error "Insufficient MKC balance")
  | some balance =>
    let decreaseAmountInWei ← R.parse decreaseAmount
    let balanceInWei ← R.parse balance.balance
    let balancePendingInWei ← R.parseNullable balance.balancePendingWithdrawal
    if balanceInWei < decreaseAmountInWei ∨ balancePendingInWei < decreaseAmountInWei then
      throw (.error "Insufficient MKC balance")
    else
      pure {
        balanceId := balance.id
        newBalance := R.formatEther (balanceInWei - decreaseAmountInWei)
        newBalancePending := R.formatEther (balancePendingInWei - decreaseAmountInWei) }

def decreasePendingBalance (userId : Nat) (amount : String) : DbM Unit := do
  let lockedBalance ← lockBalanceForDecrease R userId amount
  execute (·.updateWallet userId lockedBalance.balanceId fun w =>
    { w with balancePendingWithdrawal := some lockedBalance.newBalancePending })

def decreaseBalance (userId : Nat) (amount : String) : DbM Unit := do
  let lockedBalance ← lockBalanceForDecrease R userId amount
  execute (·.updateWallet userId lockedBalance.balanceId fun w =>
    { w with
      balance := lockedBalance.newBalance
      balancePendingWithdrawal := some lockedBalance.newBalancePending })

/-! ## What the operations do to the database -/

/-- What `incrementBalance` does when it returns: it creates the wallet, or adds to its balance. -/
inductive Credit (d : WalletDb) (userId : Nat) (amount : String) : WalletDb → Prop
  | create : d.walletOf userId = none → Credit d userId amount (d.insertWallet userId amount)
  | add {w : MkcWallet} {b a : Int} : d.walletOf userId = some w →
      R.parseEther w.balance = some b → R.parseEther amount = some a →
      Credit d userId amount (d.updateWallet userId w.id fun w =>
        { w with balance := R.formatEther (b + a) })

/-- What the guard of a decrease finds: a wallet with at least `a` wei in both columns. -/
structure Locked (d : WalletDb) (userId : Nat) (amount : String) (w : MkcWallet) (a b p : Int) :
    Prop where
  wallet : d.walletOf userId = some w
  parse_amount : R.parseEther amount = some a
  parse_balance : R.parseEther w.balance = some b
  parse_pending : w.balancePendingWithdrawal.bind R.parseEther = some p
  le_balance : a ≤ b
  le_pending : a ≤ p

/-- What `decreasePendingBalance` does when it returns. -/
inductive Release (d : WalletDb) (userId : Nat) (amount : String) : WalletDb → Prop
  | intro {w : MkcWallet} {a b p : Int} : Locked R d userId amount w a b p →
      Release d userId amount (d.updateWallet userId w.id fun w =>
        { w with balancePendingWithdrawal := some (R.formatEther (p - a)) })

/-- What `decreaseBalance` does when it returns. -/
inductive Debit (d : WalletDb) (userId : Nat) (amount : String) : WalletDb → Prop
  | intro {w : MkcWallet} {a b p : Int} : Locked R d userId amount w a b p →
      Debit d userId amount (d.updateWallet userId w.id fun w =>
        { w with
          balance := R.formatEther (b - a)
          balancePendingWithdrawal := some (R.formatEther (p - a)) })

end IngameMkc

/-! ## States of a transaction -/

/-- `s'` follows `s` in a live transaction: nothing was submitted, and `D` holds of the
database. -/
structure Steps (D : WalletDb → Prop) (s s' : DbTx) : Prop where
  live : s.aborted = false
  live' : s'.aborted = false
  faults : s'.faults = s.faults
  log : s'.log = s.log
  db : D s'.db

/-- A statement after `s` has failed. -/
structure Failed (s s' : DbTx) : Prop where
  aborted : s'.aborted = true
  log : s'.log = s.log
  fault : ¬Reliable s

/-- An exception after `s`: nothing was submitted, and the database is as in `s` unless the
transaction is aborted. Where no statement fails, `C` is the reason. -/
structure Threw (C : Prop) (s s' : DbTx) : Prop where
  log : s'.log = s.log
  live : s'.aborted = false → s.aborted = false ∧ s'.db = s.db
  cause : Reliable s → C ∧ Reliable s'

section States

variable {s s' s'' : DbTx} {D D' : WalletDb → Prop} {C : Prop}

theorem Threw.refl (hC : C) : Threw C s s := ⟨rfl, fun h => ⟨h, rfl⟩, fun h => ⟨hC, h⟩⟩

theorem Failed.threw (h : Failed s s') : Threw C s s' :=
  ⟨h.log, fun hl => by simp [h.aborted] at hl, fun hr => absurd hr h.fault⟩

theorem Steps.reliable (h : Steps D s s') (hr : Reliable s) : Reliable s' :=
  ⟨h.live', h.faults ▸ hr.2⟩

theorem Steps.trans (h : Steps (· = s.db) s s') (h' : Steps D s' s'') : Steps D s s'' :=
  ⟨h.live, h'.live', h'.faults.trans h.faults, h'.log.trans h.log, h'.db⟩

theorem Steps.mono (h : Steps D s s') (hD : ∀ d, D d → D' d) : Steps D' s s' :=
  ⟨h.live, h.live', h.faults, h.log, hD _ h.db⟩

theorem Steps.threw (h : Steps (· = s.db) s s') (ht : Threw C s' s'') : Threw C s s'' :=
  ⟨ht.log.trans h.log, fun hs => ⟨h.live, (ht.live hs).2.trans h.db⟩,
    fun hr => ht.cause (h.reliable hr)⟩

theorem Steps.failed (h : Steps D s s') (ht : Failed s' s'') : Failed s s'' :=
  ⟨ht.aborted, ht.log.trans h.log, fun hr => ht.fault (h.reliable hr)⟩

end States

section Primitives

variable {s : DbTx} {α : Type} {R : Ethers}

theorem select_ends {f : WalletDb → α} :
    Ends (select f) (fun a s' => a = f s.db ∧ Steps (· = s.db) s s') (fun _ s' => Failed s s') s :=
  ends_query (fun hs => ⟨rfl, hs, hs, rfl, rfl, rfl⟩) fun hf => ⟨rfl, rfl, hf⟩

theorem execute_ends {f : WalletDb → WalletDb} :
    Ends (execute f) (fun _ s' => Steps (· = f s.db) s s') (fun _ s' => Failed s s') s :=
  ends_query (fun hs => ⟨hs, hs, rfl, rfl, rfl⟩) fun hf => ⟨rfl, rfl, hf⟩

theorem parse_ends {text : String} :
    Ends (R.parse text) (fun w s' => R.parseEther text = some w ∧ s' = s)
      (fun _ s' => R.parseEther text = none ∧ s' = s) s := by
  unfold Ethers.parse
  split
  · rename_i w h; exact ends_pure.2 ⟨h, rfl⟩
  · rename_i h; exact ends_throw.2 ⟨h, rfl⟩

theorem parseNullable_ends {text : Option String} :
    Ends (R.parseNullable text) (fun w s' => text.bind R.parseEther = some w ∧ s' = s)
      (fun _ s' => text.bind R.parseEther = none ∧ s' = s) s := by
  cases text with
  | some text => exact parse_ends.mono (fun _ _ h => h) fun _ _ h => h
  | none => exact ends_throw.2 ⟨rfl, rfl⟩

theorem parseOrZero_ends {w : MkcWallet} :
    Ends (R.parseOrZero w.balancePendingWithdrawal)
      (fun p s' => R.pendingWei? w = some p ∧ s' = s) (fun _ s' => s' = s) s := by
  unfold Ethers.pendingWei?
  cases w.balancePendingWithdrawal with
  | some text => exact parse_ends.mono (fun _ _ h => h) fun _ _ h => h.2
  | none => exact ends_pure.2 ⟨rfl, rfl⟩

end Primitives

/-! ## The operations -/

namespace IngameMkc

variable {R : Ethers} {s : DbTx} {u : Nat} {amount : String}

theorem incrementBalance_ends :
    Ends (incrementBalance R u amount) (fun _ s' => Steps (Credit R s.db u amount) s s')
      (fun _ s' => Threw True s s') s := by
  unfold incrementBalance
  refine ends_bind.2 (select_ends.mono ?_ fun _ _ h => h.threw)
  rintro row s₁ ⟨rfl, h₁⟩
  have hthrow : ∀ {s'}, s' = s₁ → Threw True s s' := fun h => h ▸ h₁.threw (.refl trivial)
  cases hw : s.db.walletOf u with
  | none =>
    refine execute_ends.mono (fun _ s₂ h₂ => h₁.trans (h₂.mono ?_)) fun _ _ h => (h₁.failed h).threw
    rintro _ rfl
    rw [h₁.db]
    exact .create hw
  | some w =>
    refine ends_bind.2 (parse_ends.mono ?_ fun _ _ h => hthrow h.2)
    rintro b _ ⟨hb, rfl⟩
    refine ends_bind.2 (parse_ends.mono ?_ fun _ _ h => hthrow h.2)
    rintro a _ ⟨ha, rfl⟩
    refine execute_ends.mono (fun _ s₂ h₂ => h₁.trans (h₂.mono ?_)) fun _ _ h => (h₁.failed h).threw
    rintro _ rfl
    rw [h₁.db]
    exact .add hw hb ha

/-- The wallet covers the amount in both columns. -/
def Covers (R : Ethers) (d : WalletDb) (userId : Nat) (amount : String) : Prop :=
  ∃ w a b p, Locked R d userId amount w a b p

/-- The guard of a decrease returns the new columns of a wallet that covers the amount, and throws
where the wallet does not. -/
theorem lockBalanceForDecrease_ends :
    Ends (lockBalanceForDecrease R u amount)
      (fun l s' => Steps (· = s.db) s s' ∧ ∃ w a b p, Locked R s.db u amount w a b p ∧
        l = ⟨w.id, R.formatEther (b - a), R.formatEther (p - a)⟩)
      (fun _ s' => Threw (¬Covers R s.db u amount) s s') s := by
  unfold lockBalanceForDecrease
  refine ends_bind.2 (select_ends.mono ?_ fun _ _ h => h.threw)
  rintro row s₁ ⟨rfl, h₁⟩
  have hthrow : ∀ {s'}, s' = s₁ → ¬Covers R s.db u amount → Threw (¬Covers R s.db u amount) s s' :=
    fun h hc => h ▸ h₁.threw (.refl hc)
  cases hw : s.db.walletOf u with
  | none => exact ends_throw.2 (hthrow rfl fun ⟨w, _, _, _, hl⟩ => by simp [hl.wallet] at hw)
  | some w =>
    have heq : ∀ {w' a b p}, Locked R s.db u amount w' a b p → w' = w := fun hl =>
      Option.some.inj (hl.wallet.symm.trans hw)
    refine ends_bind.2 (parse_ends.mono ?_ fun _ _ h => hthrow h.2 ?_)
    rotate_left
    · rintro ⟨_, _, _, _, hl⟩
      simp [hl.parse_amount] at h
    rintro a _ ⟨ha, rfl⟩
    refine ends_bind.2 (parse_ends.mono ?_ fun _ _ h => hthrow h.2 ?_)
    rotate_left
    · rintro ⟨_, _, _, _, hl⟩
      have hb := hl.parse_balance
      rw [heq hl, h.1] at hb
      cases hb
    rintro b _ ⟨hb, rfl⟩
    refine ends_bind.2 (parseNullable_ends.mono ?_ fun _ _ h => hthrow h.2 ?_)
    rotate_left
    · rintro ⟨_, _, _, _, hl⟩
      have hp := hl.parse_pending
      rw [heq hl, h.1] at hp
      cases hp
    rintro p _ ⟨hp, rfl⟩
    split
    · rename_i hlt
      refine ends_throw.2 (hthrow rfl ?_)
      rintro ⟨w', a', b', p', hl⟩
      obtain rfl := heq hl
      have hea : a' = a := Option.some.inj (hl.parse_amount.symm.trans ha)
      have heb : b' = b := Option.some.inj (hl.parse_balance.symm.trans hb)
      have hep : p' = p := Option.some.inj (hl.parse_pending.symm.trans hp)
      have := hl.le_balance
      have := hl.le_pending
      omega
    · rename_i hle
      rw [not_or, Int.not_lt, Int.not_lt] at hle
      exact ends_pure.2 ⟨h₁, w, a, b, p, ⟨hw, ha, hb, hp, hle.1, hle.2⟩, rfl⟩

theorem decreasePendingBalance_ends :
    Ends (decreasePendingBalance R u amount) (fun _ s' => Steps (Release R s.db u amount) s s')
      (fun _ s' => Threw (¬Covers R s.db u amount) s s') s := by
  unfold decreasePendingBalance
  refine ends_bind.2 (lockBalanceForDecrease_ends.mono ?_ fun _ _ h => h)
  rintro _ s₁ ⟨h₁, w, a, b, p, hl, rfl⟩
  refine execute_ends.mono (fun _ s₂ h₂ => h₁.trans (h₂.mono ?_)) fun _ _ h => (h₁.failed h).threw
  rintro _ rfl
  rw [h₁.db]
  exact .intro hl

theorem decreaseBalance_ends :
    Ends (decreaseBalance R u amount) (fun _ s' => Steps (Debit R s.db u amount) s s')
      (fun _ s' => Threw (¬Covers R s.db u amount) s s') s := by
  unfold decreaseBalance
  refine ends_bind.2 (lockBalanceForDecrease_ends.mono ?_ fun _ _ h => h)
  rintro _ s₁ ⟨h₁, w, a, b, p, hl, rfl⟩
  refine execute_ends.mono (fun _ s₂ h₂ => h₁.trans (h₂.mono ?_)) fun _ _ h => (h₁.failed h).threw
  rintro _ rfl
  rw [h₁.db]
  exact .intro hl

end IngameMkc

end Cme.Blockchain
