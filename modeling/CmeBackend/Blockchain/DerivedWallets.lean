import CmeBackend.Blockchain.Entities
import CmeBackend.Lib.Runs
import CmeBackend.Lib.Weights

/-!
# The wallet of a user

`createWallet`, `getWallet` and `deriveWallet` (`blockchain-ms-mkc-relay.service.ts`) for runs in
which the events and the requests come in any order and any number. A user is loaded, gets a random
`derivation_id`, and is saved with all columns. The save compares the user with its row and writes
in one step.

* `deriveWallet`: the path of a derivation id. `derivePath` of the `HDNode` is a parameter.
* `State.wallets`: the wallets that have been stored or returned.
* `Stable`: a user has had one wallet. `Unassigned`: a save finds none, or its own.
-/

namespace Cme.Blockchain.DerivedWallets

open Runs Weights

/-- What the service reads of an `HDNode`. -/
structure HDNode where
  address : String
  privateKey : String
  deriving DecidableEq

/-- A row of `users` with its `derivation_id`. -/
structure WalletUser extends User where
  derivationId : Option String
  deriving DecidableEq

instance : Keyed WalletUser := ⟨fun u => u.id⟩

/-- `user.derivation_id`, if it counts as true. -/
def WalletUser.assigned (u : WalletUser) : Option String := u.derivationId.filter (· ≠ "")

def WALLET_DERIVATION_BASE_PATH : String := "m/44'/60'"

def DERIVATION_INDEX_SIZE : Nat := 15

/-- `nanoid(DERIVATION_INDEX_SIZE)` -/
structure NanoId where
  text : String
  length_eq : text.length = DERIVATION_INDEX_SIZE

/-- `accountIndexBN`, the number whose digits are the bytes of the id. -/
def accountIndex (derivationId : String) : Nat :=
  derivationId.toUTF8.data.toList.foldl (fun n byte => 256 * n + byte.toNat) 0

/-- `accountIndexBN.shr(31 * i).mask(31)` -/
def account (derivationId : String) (i : Nat) : Nat :=
  accountIndex derivationId / 2 ^ (31 * i) % 2 ^ 31

def derivationPath (derivationId : String) : String :=
  s!"{WALLET_DERIVATION_BASE_PATH}/{account derivationId 0}'/{account derivationId 1}'/" ++
    s!"{account derivationId 2}'/{account derivationId 3}'/0"

def deriveWallet (derivePath : String → HDNode) (derivationId : String) : HDNode :=
  derivePath (derivationPath derivationId)

/-! ## The steps -/

/-- A call that is under way. -/
inductive Worker where
  /-- `save` of a user with a new derivation id -/
  | saving (user : User) (derivationId : NanoId)
  | ended

/-- A wallet that is stored for a user, or returned. -/
structure Assignment where
  userId : Nat
  derivationId : String
  wallet : HDNode
  deriving DecidableEq

structure State where
  users : Table WalletUser
  workers : List Worker
  wallets : List Assignment

inductive Action where
  /-- `createWallet`, up to its save. -/
  | create (userId : Nat) (derivationId : NanoId)
  /-- `getWallet`, up to its save, or to its end if there is none. -/
  | get (userId : Nat) (derivationId : NanoId)
  /-- The save of the call `k`. -/
  | save (k : Nat) (reply : Reply)

variable (derivePath : String → HDNode)

/-- The wallet of a derivation id. -/
def assignment (userId : Nat) (derivationId : String) : Assignment :=
  ⟨userId, derivationId, deriveWallet derivePath derivationId⟩

/-- The user that `createWallet` saves. -/
def withWallet (user : User) (wallet : HDNode) : User :=
  { user with ethWalletAddresses := some wallet.address, ethPrivateKey := some wallet.privateKey }

/-- The columns of a user that is saved. -/
def savedRow (user : User) (derivationId : NanoId) (row : WalletUser) : WalletUser :=
  { row with
    ethWalletAddresses := user.ethWalletAddresses
    ethPrivateKey := user.ethPrivateKey
    derivationId := some derivationId.text }

/-- `userRepository.save(user)` -/
def saveUser (users : Table WalletUser) (user : User) (derivationId : NanoId) : Table WalletUser :=
  users.update user.id (savedRow user derivationId)

def step (s : State) : Action → State
  | .create userId derivationId =>
    match s.users.get? userId with
    | some user =>
      let wallet := deriveWallet derivePath derivationId.text
      { s with workers := s.workers ++ [.saving (withWallet user.toUser wallet) derivationId] }
    | none => s
  | .get userId derivationId =>
    match s.users.get? userId with
    | some user =>
      match user.assigned with
      | some old => { s with wallets := s.wallets ++ [assignment derivePath user.id old] }
      | none => { s with workers := s.workers ++ [.saving user.toUser derivationId] }
    | none => s
  | .save k reply =>
    match s.workers[k]?, reply with
    | some (.saving _ _), .refused => { s with workers := s.workers.set k .ended }
    | some (.saving user derivationId), _ =>
      { users := saveUser s.users user derivationId
        workers := s.workers.set k .ended
        wallets := s.wallets ++ [assignment derivePath user.id derivationId.text] }
    | _, _ => s

/-- No call is under way, and the wallets that are stored are known. -/
def start (users : Table WalletUser) : State where
  users := users
  workers := []
  wallets := users.rows.filterMap fun u => u.assigned.map (assignment derivePath u.id)

/-! ## The property and its condition -/

/-- All wallets that have been stored for a user or returned are the same. -/
def Stable (s : State) : Prop :=
  ∀ a ∈ s.wallets, ∀ b ∈ s.wallets, a.userId = b.userId →
    a.derivationId = b.derivationId ∧ a.wallet = b.wallet

/-- The address and the key of a user are those of the derivation id. -/
def Consistent (users : Table WalletUser) : Prop :=
  ∀ u ∈ users.rows, ∀ address ∈ u.ethWalletAddresses, ∀ privateKey ∈ u.ethPrivateKey,
    ∃ id ∈ u.assigned, deriveWallet derivePath id = ⟨address, privateKey⟩

/-- The row that a save overwrites has no derivation id yet, or the one that is saved. -/
def Worker.Unassigned (users : Table WalletUser) : Worker → Prop
  | .saving user derivationId =>
    ∀ row ∈ users.get? user.id, ∀ old ∈ row.assigned, old = derivationId.text
  | .ended => True

def Unassigned (s : State) : Action → Prop
  | .save k reply => reply ≠ .refused → ∀ w ∈ s.workers[k]?, w.Unassigned s.users
  | _ => True

instance (users : Table WalletUser) (w : Worker) : Decidable (w.Unassigned users) :=
  match w with
  | .saving _ _ => inferInstanceAs (Decidable (∀ row ∈ _, ∀ old ∈ _, _))
  | .ended => isTrue trivial

instance (s : State) (a : Action) : Decidable (Unassigned s a) :=
  match a with
  | .save _ _ => inferInstanceAs (Decidable (_ → ∀ w ∈ _, _))
  | .create _ _ | .get _ _ => isTrue trivial

/-! ## What is so in every run -/

variable {derivePath} {s s' : State} {users : Table WalletUser} {user : User} {id : NanoId}
  {k : Nat} {u : WalletUser}

theorem NanoId.ne_empty (id : NanoId) : id.text ≠ "" := by
  intro h
  have hlength := id.length_eq
  rw [h] at hlength
  cases hlength

theorem assigned_savedRow (user : User) (id : NanoId) (row : WalletUser) :
    (savedRow user id row).assigned = some id.text :=
  Option.filter_some_pos (decide_eq_true id.ne_empty)

/-- The user that a worker saves has a row, and what it saves is consistent. -/
def Worker.Sound (derivePath : String → HDNode) (users : Table WalletUser) : Worker → Prop
  | .saving user id => (users.get? user.id).isSome ∧
    ∀ address ∈ user.ethWalletAddresses, ∀ privateKey ∈ user.ethPrivateKey,
      deriveWallet derivePath id.text = ⟨address, privateKey⟩
  | .ended => True

/-- The wallets that have been stored or returned, and the rows. -/
structure Traced (derivePath : String → HDNode) (s : State) : Prop where
  recorded : ∀ u ∈ s.users.rows, ∀ id ∈ u.assigned, assignment derivePath u.id id ∈ s.wallets
  assigned : ∀ a ∈ s.wallets, ∃ u ∈ s.users.rows, u.id = a.userId ∧ u.assigned.isSome
  derived : ∀ a ∈ s.wallets, a = assignment derivePath a.userId a.derivationId
  consistent : Consistent derivePath s.users
  workers : ∀ w ∈ s.workers, w.Sound derivePath s.users

theorem Traced.start (h : Consistent derivePath users) :
    Traced derivePath (start derivePath users) where
  recorded u hu id hid :=
    List.mem_filterMap.2 ⟨u, hu, Option.map_eq_some_iff.2 ⟨id, hid, rfl⟩⟩
  assigned a ha := by
    obtain ⟨u, hu, hassign⟩ := List.mem_filterMap.1 ha
    obtain ⟨id, hid, rfl⟩ := Option.map_eq_some_iff.1 hassign
    exact ⟨u, hu, rfl, hid ▸ rfl⟩
  derived a ha := by
    obtain ⟨u, hu, hassign⟩ := List.mem_filterMap.1 ha
    obtain ⟨id, hid, rfl⟩ := Option.map_eq_some_iff.1 hassign
    rfl
  consistent := h
  workers _ hw := absurd hw List.not_mem_nil

namespace Traced

/-- A call that will save. -/
theorem spawn (h : Traced derivePath s) {w : Worker} (hw : w.Sound derivePath s.users) :
    Traced derivePath { s with workers := s.workers ++ [w] } :=
  ⟨h.recorded, h.assigned, h.derived, h.consistent,
    List.forall_mem_append.2 ⟨h.workers, List.forall_mem_singleton.2 hw⟩⟩

/-- A wallet that is stored is returned. -/
theorem returned (h : Traced derivePath s) (hu : u ∈ s.users.rows) {old : String}
    (hold : old ∈ u.assigned) :
    Traced derivePath { s with wallets := s.wallets ++ [assignment derivePath u.id old] } where
  recorded u' hu' id hid := List.mem_append_left _ (h.recorded u' hu' id hid)
  assigned := List.forall_mem_append.2
    ⟨h.assigned, List.forall_mem_singleton.2 ⟨u, hu, rfl, Option.isSome_iff_exists.2 ⟨old, hold⟩⟩⟩
  derived := List.forall_mem_append.2 ⟨h.derived, List.forall_mem_singleton.2 rfl⟩
  consistent := h.consistent
  workers := h.workers

/-- A user is saved. -/
theorem saved (h : Traced derivePath s) (hk : s.workers[k]? = some (.saving user id)) :
    Traced derivePath
      { users := saveUser s.users user id
        workers := s.workers.set k .ended
        wallets := s.wallets ++ [assignment derivePath user.id id.text] } := by
  obtain ⟨hfound, hwallet⟩ := h.workers _ (List.mem_of_getElem? hk)
  obtain ⟨row, hrow⟩ := Option.isSome_iff_exists.1 hfound
  obtain ⟨hmem, hkey⟩ := Table.get?_eq_some.1 hrow
  have hid : row.id = user.id := hkey
  -- What holds of the row that is saved and of the other rows holds of all of them.
  have hrows : ∀ {P : WalletUser → Prop}, P (savedRow user id row) →
      (∀ u ∈ s.users.rows, u.id ≠ user.id → P u) →
      ∀ u ∈ (saveUser s.users user id).rows, P u := by
    intro P hsaved hothers
    exact Table.forall_mem_update (f := savedRow user id) (fun _ => rfl) hmem hkey hsaved hothers
  have hnew : savedRow user id row ∈ (saveUser s.users user id).rows :=
    (Table.get?_eq_some.1 (Table.get?_update_self (f := savedRow user id) hrow)).1
  have hold : ∀ u ∈ s.users.rows, u.id ≠ user.id → u ∈ (saveUser s.users user id).rows :=
    fun u hu hne => Table.mem_update_of_ne hu hne
  refine ⟨hrows ?_ ?_, ?_, ?_, hrows ?_ ?_, ?_⟩
  · intro id' hid'
    rw [assigned_savedRow] at hid'
    obtain rfl := Option.some.inj hid'
    refine List.mem_append_right _ (List.mem_singleton.2 ?_)
    rw [← hid]
    rfl
  · exact fun u hu _ id' hid' => List.mem_append_left _ (h.recorded u hu id' hid')
  · refine List.forall_mem_append.2 ⟨fun a ha => ?_, List.forall_mem_singleton.2 ?_⟩
    · obtain ⟨u, hu, hua, hassigned⟩ := h.assigned a ha
      by_cases heq : u.id = user.id
      · exact ⟨_, hnew, hid.trans (heq.symm.trans hua), by rw [assigned_savedRow]; rfl⟩
      · exact ⟨u, hold u hu heq, hua, hassigned⟩
    · exact ⟨_, hnew, hid, by rw [assigned_savedRow]; rfl⟩
  · exact List.forall_mem_append.2 ⟨h.derived, List.forall_mem_singleton.2 rfl⟩
  · intro address haddress privateKey hprivate
    exact ⟨id.text, assigned_savedRow user id row, hwallet address haddress privateKey hprivate⟩
  · exact fun u hu _ => h.consistent u hu
  · refine forall_mem_set (fun w hw => ?_) trivial
    have hsound := h.workers w hw
    cases w with
    | saving user' id' => exact ⟨(Table.isSome_get?_update _).trans hsound.1, hsound.2⟩
    | ended => trivial

theorem step (h : Traced derivePath s) (a : Action) : Traced derivePath (step derivePath s a) := by
  cases a with
  | create userId id =>
    simp only [DerivedWallets.step]
    split
    next u hu =>
      refine h.spawn ⟨?_, ?_⟩
      · show (s.users.get? u.id).isSome
        rw [show u.id = userId from (Table.get?_eq_some.1 hu).2, hu]
        rfl
      · intro address haddress privateKey hprivate
        cases haddress
        cases hprivate
        rfl
    · exact h
  | get userId id =>
    simp only [DerivedWallets.step]
    split
    next u hu =>
      obtain ⟨hmem, hkey⟩ := Table.get?_eq_some.1 hu
      split
      next old hold => exact h.returned hmem hold
      next hnone =>
        refine h.spawn ⟨?_, fun address haddress privateKey hprivate => ?_⟩
        · show (s.users.get? u.id).isSome
          rw [show u.id = userId from hkey, hu]
          rfl
        · -- A user without a derivation id has no address and key.
          obtain ⟨id', hid', -⟩ := h.consistent u hmem address haddress privateKey hprivate
          rw [hnone] at hid'
          cases hid'
    · exact h
  | save k reply =>
    simp only [DerivedWallets.step]
    split
    · exact ⟨h.recorded, h.assigned, h.derived, h.consistent, forall_mem_set h.workers trivial⟩
    next hk _ => exact h.saved hk
    · exact h

end Traced

/-! ## One step -/

/-- A wallet is stored or returned again. -/
theorem stable_append_iff
    (hderived : ∀ a ∈ s.wallets, a = assignment derivePath a.userId a.derivationId)
    (hstable : Stable s) {b : Assignment} (hb : b = assignment derivePath b.userId b.derivationId)
    (hwallets : s'.wallets = s.wallets ++ [b]) :
    Stable s' ↔ ∀ a ∈ s.wallets, a.userId = b.userId → a.derivationId = b.derivationId := by
  have hwallet : ∀ a ∈ s.wallets, a.derivationId = b.derivationId → a.wallet = b.wallet := by
    intro a ha hid
    rw [hderived a ha, hb]
    show deriveWallet derivePath a.derivationId = deriveWallet derivePath b.derivationId
    rw [hid]
  unfold Stable
  rw [hwallets]
  constructor
  · intro h a ha hid
    exact (h a (List.mem_append_left _ ha) b (List.mem_append_right _ List.mem_cons_self) hid).1
  · intro h
    refine List.forall_mem_append.2 ⟨fun a ha => List.forall_mem_append.2
      ⟨fun a' ha' => hstable a ha a' ha', List.forall_mem_singleton.2 fun hid => ?_⟩,
      List.forall_mem_singleton.2 (List.forall_mem_append.2
        ⟨fun a ha hid => ?_, List.forall_mem_singleton.2 fun _ => ⟨rfl, rfl⟩⟩)⟩
    · exact ⟨h a ha hid, hwallet a ha (h a ha hid)⟩
    · have hsame := h a ha hid.symm
      exact ⟨hsame.symm, (hwallet a ha hsame).symm⟩

/-- The derivation id of a row is that of all wallets of the user. -/
theorem derivationId_of_assigned (h : Traced derivePath s) (hstable : Stable s)
    (hu : u ∈ s.users.rows) {old : String} (hold : old ∈ u.assigned) :
    ∀ a ∈ s.wallets, a.userId = u.id → a.derivationId = old := fun a ha hid =>
  (hstable a ha _ (h.recorded u hu old hold) hid).1

/-- A step keeps the wallets of users exactly if it saves a user that has none, or its own. -/
theorem stable_step_iff (h : Traced derivePath s) (hstable : Stable s) (a : Action) :
    Stable (step derivePath s a) ↔ Unassigned s a := by
  cases a with
  | create userId id =>
    refine iff_of_true ?_ trivial
    simp only [step]
    split <;> exact hstable
  | get userId id =>
    refine iff_of_true ?_ trivial
    simp only [step]
    split
    next u hu =>
      split
      next old hold =>
        refine (stable_append_iff h.derived hstable rfl rfl).2 ?_
        exact derivationId_of_assigned h hstable (Table.get?_eq_some.1 hu).1 hold
      · exact hstable
    · exact hstable
  | save k reply =>
    simp only [step]
    split
    · exact iff_of_true hstable fun hne => absurd rfl hne
    next user id hk hne =>
      refine (stable_append_iff h.derived hstable rfl rfl).trans ?_
      constructor
      · intro hsame _ w hw
        obtain rfl := Option.some.inj (hk.symm.trans hw)
        intro row hrow old hold
        obtain ⟨hmem, hkey⟩ := Table.get?_eq_some.1 hrow
        exact hsame _ (h.recorded row hmem old hold) hkey
      · intro hok a ha hid
        obtain ⟨u, hu, hua, hassigned⟩ := h.assigned a ha
        obtain ⟨old, hold⟩ := Option.isSome_iff_exists.1 hassigned
        have hrow : s.users.get? user.id = some u := Table.get?_eq_some.2 ⟨hu, hua.trans hid⟩
        rw [← hok hne _ hk u hrow old hold]
        exact derivationId_of_assigned h hstable hu hold a ha hua.symm
    next hother _ =>
      refine iff_of_true hstable fun hne w hw => ?_
      cases w with
      | saving user id => exact (hother user id hw).elim
      | ended => trivial

/-! ## Runs -/

/-- The wallets that have been stored or returned are not forgotten. -/
theorem Stable.of_step {a : Action} (h : Stable (step derivePath s a)) : Stable s := by
  have hsub : ∀ b ∈ s.wallets, b ∈ (step derivePath s a).wallets := by
    intro b hb
    cases a with
    | create userId id =>
      simp only [step]
      split <;> exact hb
    | get userId id =>
      simp only [step]
      split
      · split
        · exact List.mem_append_left _ hb
        · exact hb
      · exact hb
    | save k reply =>
      simp only [step]
      split
      · exact hb
      · exact List.mem_append_left _ hb
      · exact hb
  exact fun a ha b hb => h a (hsub a ha) b (hsub b hb)

/-- The wallets of all users stay the same in a run exactly if every save in it finds no wallet, or
its own. The address and the key of a user are those of the derivation id in every run. -/
theorem wallet_stable_iff (derivePath : String → HDNode) {users : Table WalletUser}
    (h : Consistent derivePath users) (as : List Action) :
    Consistent derivePath (as.foldl (step derivePath) (start derivePath users)).users ∧
      (Stable (as.foldl (step derivePath) (start derivePath users)) ↔
        Meets (step derivePath) Unassigned (start derivePath users) as) := by
  have hrun : ∀ as : List Action,
      Traced derivePath (as.foldl (step derivePath) (start derivePath users)) :=
    foldl_inv (Traced.start h) fun _ a hs => hs.step a
  refine ⟨(hrun as).consistent, iff_meets (P := fun as =>
    Stable (as.foldl (step derivePath) (start derivePath users))) ?_ (fun as a has => ?_)
    (fun as a has => ?_) as⟩
  · -- Every user has at most one wallet at the start.
    intro a ha b hb hid
    obtain ⟨u, hu, hua⟩ := List.mem_filterMap.1 ha
    obtain ⟨v, hv, hvb⟩ := List.mem_filterMap.1 hb
    obtain ⟨id, hid₁, rfl⟩ := Option.map_eq_some_iff.1 hua
    obtain ⟨id', hid₂, rfl⟩ := Option.map_eq_some_iff.1 hvb
    obtain rfl : u = v := Table.eq_of_key hu hv hid
    obtain rfl := Option.some.inj (hid₁.symm.trans hid₂)
    exact ⟨rfl, rfl⟩
  · rw [List.foldl_concat] at has
    exact has.of_step
  · rw [List.foldl_concat]
    exact stable_step_iff (hrun as) has a

/-! ## One user -/

/-- A user that has no wallet. -/
def sampleUsers : Table WalletUser where
  rows := [⟨⟨1, none, none⟩, none⟩]
  next := 2
  nodup := by decide
  lt_next := by decide

def sampleId : NanoId := ⟨"Uakgb_J5m9g-0JD", by decide⟩

def sampleId' : NanoId := ⟨"V1StGXR8_Z5jdHi", by decide⟩

/-- The state after a list of actions. -/
def after (derivePath : String → HDNode) (as : List Action) : State :=
  as.foldl (step derivePath) (start derivePath sampleUsers)

/-- A request assigns a wallet, and the next one returns it. -/
def sampleRequests : List Action := [.get 1 sampleId, .save 0 .ok, .get 1 sampleId']

/-- The event is delivered twice. -/
def sampleRepeated : List Action :=
  [.create 1 sampleId, .save 0 .ok, .create 1 sampleId', .save 1 .ok]

theorem consistent_sampleUsers (derivePath : String → HDNode) :
    Consistent derivePath sampleUsers := by
  intro u hu address haddress
  obtain rfl := List.mem_singleton.1 hu
  cases haddress

theorem wallet_stable_iff_sample :
    (after (fun path => ⟨path, path⟩) sampleRequests).wallets.map Assignment.derivationId =
      [sampleId.text, sampleId.text] ∧ Stable (after (fun path => ⟨path, path⟩) sampleRequests) :=
  ⟨rfl, (wallet_stable_iff _ (consistent_sampleUsers _) sampleRequests).2.2 (by decide +kernel)⟩

/-- The second event replaces the wallet that the first one has stored, whatever the derivation. -/
theorem wallet_replaced :
    (∀ derivePath : String → HDNode, (after derivePath sampleRepeated).wallets =
      [assignment derivePath 1 sampleId.text, assignment derivePath 1 sampleId'.text]) ∧
    ∀ derivePath : String → HDNode, ¬Stable (after derivePath sampleRepeated) := by
  refine ⟨fun _ => rfl, fun derivePath h => ?_⟩
  obtain ⟨hid, -⟩ := h (assignment derivePath 1 sampleId.text) List.mem_cons_self
    (assignment derivePath 1 sampleId'.text) (List.mem_cons_of_mem _ List.mem_cons_self) rfl
  revert hid
  show ¬sampleId.text = sampleId'.text
  decide

end Cme.Blockchain.DerivedWallets
