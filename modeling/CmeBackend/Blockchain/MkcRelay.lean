import CmeBackend.Blockchain.IngameMkc

/-!
# The MKC relay (`blockchain-ms-mkc-relay.service.ts`)

A deposit is a `toGameWallet` transfer that `transferListener` creates, a withdrawal a
`toExternalWallet` transfer that `transferToExternalWallet` creates. The cron job
`processTransfers` moves both on, a batch of transfers in one transaction: a pending transfer is
submitted to the chain, and one in progress is settled against the user's balance once the chain
has confirmed it. An attempt that fails counts a retry; the sixth one fails the transfer.

What the code does not decide is part of the action of a step (`Action`): the events and requests,
what the chain answers for each transfer of a batch (`ChainOutcome`), which rows the `SELECT`
of a batch returns in which order (it skips rows that another batch has locked), and which
statements and commits fail.
-/

namespace Cme.Blockchain

open Transaction

def REQUIRED_CONFIRMATIONS : Nat := 50

def MAX_TRANSFER_RETRIES : Nat := 5

/-- The answer to a receipt lookup. -/
inductive Receipt where
  | throws
  | missing
  | mined (confirmations : Nat)
  deriving DecidableEq, Repr

/-- What happens to a submission. It may reach the chain although the call throws (`lost`). -/
inductive Submit where
  | rejected
  | lost
  | accepted (hash : String)
  deriving DecidableEq, Repr

/-- What the chain answers while one transfer is processed. -/
structure ChainOutcome where
  receipt : Receipt
  submit : Submit
  /-- `wait(1)` returns. -/
  waited : Bool
  deriving DecidableEq, Repr

/-- A row that `processTransfers` selects: a transfer, joined with its user's key. -/
structure SelectedTransfer extends WalletTransfer where
  ethPrivateKey : Option String

/-! ## Calls to the chain -/

def getTransactionReceipt (o : ChainOutcome) : DbM (Option Nat) :=
  match o.receipt with
  | .throws => throw .library
  | .missing => pure none
  | .mined confirmations => pure (some confirmations)

/-- `blockchainService.transferMkc`: returns the hash of the submitted transaction. -/
def transferMkc (o : ChainOutcome) (submission : Submission) : DbM String :=
  match o.submit with
  | .rejected => throw .library
  | .lost => do
    emit (· ++ [submission])
    throw .library
  | .accepted hash => do
    emit (· ++ [submission])
    pure hash

/-- `transferTx.wait(1)` -/
def waitOne (o : ChainOutcome) : DbM Unit :=
  if o.waited then pure () else throw .library

/-- `!tx || tx.confirmations < REQUIRED_CONFIRMATIONS` -/
def unconfirmed : Option Nat → Bool
  | none => true
  | some confirmations => confirmations < REQUIRED_CONFIRMATIONS

namespace MkcRelay

variable (R : Relay)

/-! ## Transfers -/

def incrementTransferRetriesOrRevert (transfer : SelectedTransfer) : DbM Unit := do
  if transfer.retries = MAX_TRANSFER_RETRIES then
    if transfer.type = .toExternalWallet ∧ transfer.status = .pending then
      IngameMkc.decreasePendingBalance R.toEthers transfer.userId transfer.mkcAmount
    execute (·.updateTransfer transfer.id fun t => { t with status := .failed })
  else
    execute (·.updateTransfer transfer.id fun t => { t with retries := transfer.retries + 1 })

/-- Records the transaction of a submitted transfer. -/
def recordSubmission (transfer : SelectedTransfer) (hash : String) : DbM Unit :=
  execute (·.updateTransfer transfer.id fun t =>
    { t with retries := 0, transactionHash := some hash, status := .inProgress })

def recordDone (transfer : SelectedTransfer) : DbM Unit :=
  execute (·.updateTransfer transfer.id fun t => { t with status := .done })

def processGamePendingTransfer (transfer : SelectedTransfer) (o : ChainOutcome) : DbM Unit :=
  tryCatch (do
    let tx ← getTransactionReceipt o
    if unconfirmed tx then pure () else
      let amount ← R.parse transfer.mkcAmount
      let hash ← transferMkc o
        { transferId := transfer.id, receipt := R.gameAccount, amount,
          signer := transfer.ethPrivateKey }
      waitOne o
      recordSubmission transfer hash)
    fun _ => incrementTransferRetriesOrRevert R transfer

def processGameInProgressTransfer (transfer : SelectedTransfer) (o : ChainOutcome) : DbM Unit :=
  tryCatch (do
    let tx ← getTransactionReceipt o
    if unconfirmed tx then pure () else
      IngameMkc.incrementBalance R.toEthers transfer.userId transfer.mkcAmount
      recordDone transfer)
    fun _ => incrementTransferRetriesOrRevert R transfer

def processExternalPendingTransfer (transfer : SelectedTransfer) (o : ChainOutcome) : DbM Unit :=
  tryCatch (do
    let amount ← R.parse transfer.mkcAmount
    let hash ← transferMkc o
      { transferId := transfer.id, receipt := transfer.externalWalletAddress.getD "", amount,
        signer := none }
    waitOne o
    recordSubmission transfer hash)
    fun _ => incrementTransferRetriesOrRevert R transfer

def processExternalInProgressTransfer (transfer : SelectedTransfer) (o : ChainOutcome) :
    DbM Unit :=
  tryCatch (do
    let tx ← getTransactionReceipt o
    if unconfirmed tx then pure () else
      IngameMkc.decreaseBalance R.toEthers transfer.userId transfer.mkcAmount
      recordDone transfer)
    fun _ => incrementTransferRetriesOrRevert R transfer

/-- The body of the loop of `processTransfers`. -/
def processTransfer (transfer : SelectedTransfer) (o : ChainOutcome) : DbM Unit :=
  match transfer.type, transfer.status with
  | .toGameWallet, .pending => processGamePendingTransfer R transfer o
  | .toGameWallet, .inProgress => processGameInProgressTransfer R transfer o
  | .toExternalWallet, .pending => processExternalPendingTransfer R transfer o
  | .toExternalWallet, .inProgress => processExternalInProgressTransfer R transfer o
  | _, _ => pure ()

def processEach (chain : Nat → ChainOutcome) : List SelectedTransfer → DbM Unit
  | [] => pure ()
  | transfer :: transfers => do
    processTransfer R transfer (chain transfer.id)
    processEach chain transfers

/-- The rows that `processTransfers` selects: of the transfers with these ids, those that are
open, joined with their users. -/
def selectTransfers (ids : List Nat) (d : WalletDb) : List SelectedTransfer :=
  ids.filterMap fun id => do
    let tr ← d.transfers.get? id
    let u ← d.users.get? tr.userId
    if tr.status = .pending ∨ tr.status = .inProgress then
      some { tr with ethPrivateKey := u.ethPrivateKey }
    else none

/-- One run of `processTransfers`. -/
structure Batch where
  /-- The rows that are not locked by another batch, in the order the `SELECT` returns them. -/
  ids : List Nat
  nodup : ids.Nodup
  chain : Nat → ChainOutcome
  faults : Faults

def processBatch (b : Batch) : DbM Unit := do
  let transfersToProcess ← select (selectTransfers b.ids)
  processEach R b.chain transfersToProcess

/-- An ERC-20 `Transfer` event. -/
structure TransferEvent where
  toAddress : String
  amount : Nat
  transactionHash : String
  logIndex : Nat
  deriving DecidableEq, Repr

/-- `userRepository.findOne({ where: { eth_wallet_addresses: to } })` -/
def userOfAddress (d : WalletDb) (address : String) : Option User :=
  d.users.rows.find? (·.ethWalletAddresses == some address)

/-- `INSERT INTO user_wallet_transfers ... ON CONFLICT (source_transaction_hash) DO NOTHING` -/
def insertDeposit (user : User) (amountToTransferInMKC transactionHash : String)
    (d : WalletDb) : WalletDb :=
  if d.transfers.rows.any (·.sourceTransactionHash == some transactionHash) then d
  else d.insertTransfer user.id .toGameWallet .pending amountToTransferInMKC
    (some transactionHash) none

def requestTransfer (userId : Nat) (address amount : String) : DbM Unit := do
  match ← select (·.walletOf userId) with
  | none => throw (.error "Insufficient MKC balance")
  | some balance =>
    if R.isAddress address = false then
      throw (.error "External wallet address is not valid")
    else
      let userBalanceInWei ← R.parse balance.balance
      let amountToTransferInWei ← R.parse amount
      let userBalancePendingInWei ← R.parseOrZero balance.balancePendingWithdrawal
      if userBalanceInWei - userBalancePendingInWei < amountToTransferInWei then
        throw (.error "Insufficient MKC balance")
      else
        execute (·.insertTransfer userId .toExternalWallet .pending amount none (some address))
        let pending := R.formatEther (userBalancePendingInWei + amountToTransferInWei)
        execute (·.updateWalletById balance.id fun w =>
          { w with balancePendingWithdrawal := some pending })

/-! ## The system -/

/-- The wallet database and what was submitted to the chain. -/
structure World where
  db : WalletDb
  submissions : List Submission

/-- A transaction of the relay as a step of the system. -/
def World.run {α : Type} (w : World) (faults : Faults) (x : DbM α) : World :=
  let out := transact w.db w.submissions faults x
  ⟨out.db, out.log⟩

def transferListener (event : TransferEvent) (faults : Faults) (w : World) : World :=
  match userOfAddress w.db event.toAddress with
  | none => w
  | some user =>
    if event.amount = 0 then w
    else w.run faults
      (execute (insertDeposit user (R.formatEther event.amount) event.transactionHash))

def transferToExternalWallet (userId : Nat) (address amount : String) (faults : Faults)
    (w : World) : World :=
  w.run faults (requestTransfer R userId address amount)

def processTransfers (b : Batch) (w : World) : World :=
  w.run b.faults (processBatch R b)

inductive Action where
  | transferListener (event : TransferEvent) (faults : Faults)
  | transferToExternalWallet (userId : Nat) (address amount : String) (faults : Faults)
  | processTransfers (b : Batch)

def step (w : World) : Action → World
  | .transferListener event faults => transferListener R event faults w
  | .transferToExternalWallet userId address amount faults =>
    transferToExternalWallet R userId address amount faults w
  | .processTransfers b => processTransfers R b w

/-! ## A sample world -/

def sampleRelay : Relay :=
  { decimalEthers with gameAccount := "0x00000000000000000000000000000000000000ff" }

def sampleAddress : String := "0x00000000000000000000000000000000000000a2"

/-- Two users; the first has a wallet with 5 MKC. -/
def sampleWorld : World where
  db := {
    users := (Table.empty.insert fun id =>
        ⟨id, some "0x00000000000000000000000000000000000000a1", some "0x01"⟩).insert fun id =>
      ⟨id, some sampleAddress, some "0x02"⟩
    wallets := Table.empty.insert fun id => ⟨id, 1, "5", none⟩
    transfers := .empty }
  submissions := []

/-- A batch of one transfer. -/
def sampleBatch (id : Nat) (o : ChainOutcome) : Action :=
  .processTransfers ⟨[id], List.nodup_singleton id, fun _ => o, Faults.none⟩

/-- The chain confirms everything. -/
def sampleSuccess : ChainOutcome := ⟨.mined REQUIRED_CONFIRMATIONS, .accepted "0xabc", true⟩

/-- No call to the chain succeeds. -/
def sampleFailure : ChainOutcome := ⟨.throws, .rejected, false⟩

end MkcRelay

end Cme.Blockchain
