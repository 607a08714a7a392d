import CmeBackend.Lib.Table
import CmeBackend.Lib.Decimal
import CmeBackend.Lib.Transaction

/-!
# The tables of the MKC wallet

The rows of `users`, `user_mkc_wallets` and `user_wallet_transfers` that `blockchain-ms` reads
and writes (`user-global-mkc.entity.ts`, `user-wallet-transfers.entity.ts` and the migrations).
A `decimal` column reads back as a text of the number that was written, so a row has the text.

`Ethers` is what the services use of `ethers.utils`: the conversion between a decimal text and
wei, and the address check. Formatting is exact: the formatted text parses to the same number.
-/

namespace Cme.Blockchain

open Transaction

/-- The functions of `ethers.utils` that the services call. -/
structure Ethers where
  /-- The wei of a decimal text; `none` where it throws. -/
  parseEther : String → Option Int
  formatEther : Int → String
  isAddress : String → Bool
  parse_format : ∀ w, parseEther (formatEther w) = some w

/-- What the relay service gets in its constructor. -/
structure Relay extends Ethers where
  /-- `crypto.gameAccount.address` -/
  gameAccount : String

/-- The wei of a text that is a decimal. -/
def Ethers.wei (R : Ethers) (text : String) : Int := (R.parseEther text).getD 0

@[simp] theorem Ethers.wei_format (R : Ethers) (w : Int) : R.wei (R.formatEther w) = w := by
  simp [wei, R.parse_format]

theorem Ethers.wei_of_parse {R : Ethers} {text : String} {w : Int}
    (h : R.parseEther text = some w) : R.wei text = w := by simp [wei, h]

/-- `ethers` with 18 decimal places. Of the addresses it accepts, those in lower case, which carry
no checksum. -/
def decimalEthers : Ethers where
  parseEther := Decimal.parse 18
  formatEther := Decimal.format 18
  isAddress text := match text.toList with
    | '0' :: 'x' :: cs => cs.length = 40 && cs.all fun c => c.isDigit || ('a' ≤ c && c ≤ 'f')
    | _ => false
  parse_format := Decimal.parse_format (by decide)

inductive TransferStatus where
  | pending
  | inProgress
  | done
  | failed
  deriving DecidableEq, Repr

inductive TransferType where
  | toGameWallet
  | toExternalWallet
  deriving DecidableEq, Repr

/-- A row of `users`. -/
structure User where
  id : Nat
  ethWalletAddresses : Option String
  ethPrivateKey : Option String
  deriving DecidableEq, Repr

/-- A row of `user_mkc_wallets` (`UserGlobalMKC`). -/
structure MkcWallet where
  id : Nat
  userId : Nat
  balance : String
  balancePendingWithdrawal : Option String
  deriving DecidableEq, Repr

/-- A row of `user_wallet_transfers` (`UserWalletTranfer`). -/
structure WalletTransfer where
  id : Nat
  userId : Nat
  type : TransferType
  status : TransferStatus
  retries : Nat
  transactionHash : Option String
  /-- The transaction that funds the user's wallet, for `toGameWallet` transfers. -/
  sourceTransactionHash : Option String
  mkcAmount : String
  externalWalletAddress : Option String
  deriving DecidableEq, Repr

/-- A transfer that is not settled yet. -/
def WalletTransfer.Open (t : WalletTransfer) : Prop := t.status = .pending ∨ t.status = .inProgress

instance (t : WalletTransfer) : Decidable t.Open :=
  inferInstanceAs (Decidable (t.status = .pending ∨ t.status = .inProgress))

instance : Keyed User := ⟨User.id⟩
instance : Keyed MkcWallet := ⟨MkcWallet.id⟩
instance : Keyed WalletTransfer := ⟨WalletTransfer.id⟩

structure WalletDb where
  users : Table User
  wallets : Table MkcWallet
  transfers : Table WalletTransfer

namespace WalletDb

/-- `SELECT * FROM user_mkc_wallets WHERE user_id = userId FOR UPDATE LIMIT 1` -/
def walletOf (d : WalletDb) (userId : Nat) : Option MkcWallet :=
  d.wallets.rows.find? (·.userId == userId)

/-- `INSERT INTO user_mkc_wallets (user_id, balance)` -/
def insertWallet (d : WalletDb) (userId : Nat) (balance : String) : WalletDb :=
  { d with wallets := d.wallets.insert fun id =>
      { id, userId, balance, balancePendingWithdrawal := none } }

/-- `UPDATE user_mkc_wallets SET ... WHERE id = id` -/
def updateWalletById (d : WalletDb) (id : Nat) (f : MkcWallet → MkcWallet)
    (hf : ∀ w, key (f w) = key w := by intro _; rfl) : WalletDb :=
  { d with wallets := d.wallets.update id f hf }

/-- `UPDATE user_mkc_wallets SET ... WHERE user_id = userId AND id = id` -/
def updateWallet (d : WalletDb) (userId id : Nat) (f : MkcWallet → MkcWallet)
    (hf : ∀ w, key (f w) = key w := by intro _; rfl) : WalletDb :=
  d.updateWalletById id (fun w => if w.userId = userId then f w else w) fun w => by
    split
    · exact hf w
    · rfl

/-- `INSERT INTO user_wallet_transfers`; `retries` has the default of its column. -/
def insertTransfer (d : WalletDb) (userId : Nat) (type : TransferType) (status : TransferStatus)
    (mkcAmount : String) (sourceTransactionHash externalWalletAddress : Option String) : WalletDb :=
  { d with transfers := d.transfers.insert fun id =>
      { id, userId, type, status, retries := 0, transactionHash := none, sourceTransactionHash,
        mkcAmount, externalWalletAddress } }

/-- `getRepository(UserWalletTranfer).update(id, ...)` -/
def updateTransfer (d : WalletDb) (id : Nat) (f : WalletTransfer → WalletTransfer)
    (hf : ∀ t, key (f t) = key t := by intro _; rfl) : WalletDb :=
  { d with transfers := d.transfers.update id f hf }

/-! ## What a statement changes -/

section Statements

variable {d : WalletDb} {u v : Nat} {w : MkcWallet}

@[simp] theorem walletOf_insertTransfer {type status amount source address} :
    (d.insertTransfer u type status amount source address).walletOf v = d.walletOf v := rfl

@[simp] theorem transfers_updateWalletById {id : Nat} {f : MkcWallet → MkcWallet}
    {hf : ∀ w, key (f w) = key w} : (d.updateWalletById id f hf).transfers = d.transfers := rfl

@[simp] theorem transfers_updateTransfer {id : Nat} {f : WalletTransfer → WalletTransfer}
    {hf : ∀ t, key (f t) = key t} :
    (d.updateTransfer id f hf).transfers = d.transfers.update id f hf := rfl

theorem userId_of_walletOf (h : d.walletOf u = some w) : w.userId = u := by
  simpa using List.find?_some h

/-- The wallet that an update finds by its user and writes by its id is that user's wallet, and
no other. -/
theorem walletOf_updateWalletById {f : MkcWallet → MkcWallet} {hf : ∀ w, key (f w) = key w}
    (h : d.walletOf u = some w) (hu : ∀ w, (f w).userId = w.userId := by intro _; rfl) :
    (d.updateWalletById w.id f hf).walletOf v = if v = u then some (f w) else d.walletOf v := by
  have hkeep : ∀ x : MkcWallet, ((f x).userId == v) = (x.userId == v) := fun x => by rw [hu]
  have hfind : (d.updateWalletById w.id f hf).walletOf v =
      (d.walletOf v).map (Table.patch w.id f) := Table.find?_update hf hkeep
  have hw := userId_of_walletOf h
  rw [hfind]
  by_cases hv : v = u
  · subst hv
    rw [h, Option.map_some, if_pos rfl]
    exact congrArg some (Table.patch_self f w)
  · rw [if_neg hv]
    cases hx : d.walletOf v with
    | none => rfl
    | some x =>
      -- The wallet of another user is another row.
      have hne : key x ≠ w.id := by
        intro hk
        have hxw : x = w := Table.eq_of_key (List.mem_of_find?_eq_some hx)
          (List.mem_of_find?_eq_some h) hk
        exact hv (by rw [← userId_of_walletOf hx, hxw, hw])
      rw [Option.map_some, Table.patch_ne hne]

theorem walletOf_updateWallet {f : MkcWallet → MkcWallet} {hf : ∀ w, key (f w) = key w}
    (h : d.walletOf u = some w) (hu : ∀ w, (f w).userId = w.userId := by intro _; rfl) :
    (d.updateWallet u w.id f hf).walletOf v = if v = u then some (f w) else d.walletOf v := by
  have hu' : ∀ x : MkcWallet, (if x.userId = u then f x else x).userId = x.userId := by
    intro x; split
    · exact hu x
    · rfl
  unfold updateWallet
  rw [walletOf_updateWalletById h hu', if_pos (userId_of_walletOf h)]

theorem walletOf_insertWallet {balance : String} (h : d.walletOf u = none) :
    (d.insertWallet u balance).walletOf v =
      if v = u then some ⟨d.wallets.next, u, balance, none⟩ else d.walletOf v := by
  simp only [walletOf, insertWallet, Table.insert, List.find?_append]
  split
  · rename_i hv
    subst hv
    rw [show d.wallets.rows.find? (fun x => x.userId == v) = none from h]
    simp
  · rename_i hv
    have hne : (u == v) = false := by simpa using fun e => hv e.symm
    simp [hne]

end Statements

end WalletDb

end Cme.Blockchain
