import CmeBackend.Blockchain.Entities
import CmeBackend.Lib.Runs
import CmeBackend.Lib.Weights

/-!
# The wallet rows of a user

`getBalance` and `incrementBalance` (`blockchain-ms-ingame-mkc.service.ts`) for runs in which their
statements come in any order. Both look for the row of a user and insert one if there is none,
`getBalance` on its own and `incrementBalance` in the transaction of `processTransfers`. The table
has no constraint on the user (`UserWallet` migration).

* `Row`: a row with the transaction that has inserted it, until it commits. Others do not see it.
  The balances that are updated are left out: an update adds no row.
* `OneRow`: a user has at most one row.
* `Free`: a row that becomes visible is the first one of its user.
-/

namespace Cme.Blockchain.WalletRows

open Runs Weights

/-- A row of `user_mkc_wallets`. -/
structure Row extends MkcWallet where
  /-- The transaction that has inserted the row and is not committed. -/
  insertedBy : Option Nat
  deriving DecidableEq

instance : Keyed Row := ⟨fun r => r.id⟩

/-- A call that is under way. -/
inductive Worker where
  /-- `save` of `getBalance`, which has found no row. -/
  | creating (userId : Nat)
  /-- The transaction of `processTransfers`. -/
  | processing
  /-- The `INSERT` of `incrementBalance`, which has found no row. -/
  | inserting (userId : Nat) (amount : String)
  | ended
  deriving DecidableEq

structure State where
  wallets : Table Row
  workers : List Worker

inductive Action where
  /-- `getBalance`, up to its save. -/
  | getBalance (userId : Nat)
  /-- The save of the call `k`. -/
  | create (k : Nat) (reply : Reply)
  /-- A batch of `processTransfers` begins. -/
  | begin
  /-- The `SELECT` of `incrementBalance` in the batch `k`. -/
  | select (k userId : Nat) (amount : String)
  /-- The `INSERT` of `incrementBalance` in the batch `k`. -/
  | insert (k : Nat) (reply : Reply)
  | commit (k : Nat) (reply : Reply)
  | rollback (k : Nat)

/-! ## The statements -/

/-- What a statement sees: the rows that are committed, and those of its own transaction. -/
def Row.visible (transaction : Option Nat) (r : Row) : Bool :=
  r.insertedBy = none || r.insertedBy = transaction

/-- `SELECT ... WHERE user_id = userId LIMIT 1` -/
def walletOf (wallets : Table Row) (transaction : Option Nat) (userId : Nat) : Option Row :=
  wallets.rows.find? fun r => r.visible transaction && r.userId = userId

/-- `INSERT INTO user_mkc_wallets (user_id, balance)` -/
def insertWallet (wallets : Table Row) (transaction : Option Nat) (userId : Nat)
    (balance : String) : Table Row :=
  wallets.insert fun id =>
    { id, userId, balance, balancePendingWithdrawal := none, insertedBy := transaction }

/-- A row when the transaction `k` is committed. -/
def Row.commit (k : Nat) (r : Row) : Row :=
  { r with insertedBy := if r.insertedBy = some k then none else r.insertedBy }

/-- The rows of the transaction `k` are committed. -/
def commitRows (wallets : Table Row) (k : Nat) : Table Row := wallets.map (Row.commit k)

/-- The rows of the transaction `k` are dropped. -/
def dropRows (wallets : Table Row) (k : Nat) : Table Row where
  rows := wallets.rows.filter fun r => r.insertedBy ≠ some k
  next := wallets.next
  nodup := wallets.nodup.sublist (List.filter_sublist.map _)
  lt_next := fun r hr => wallets.lt_next r (List.mem_of_mem_filter hr)

/-! ## The steps -/

namespace State

variable (s : State)

def goto (k : Nat) (w : Worker) : State := { s with workers := s.workers.set k w }

/-- The transaction `k` ends with a rollback. -/
def abort (k : Nat) : State :=
  { wallets := dropRows s.wallets k, workers := s.workers.set k .ended }

end State

def step (s : State) : Action → State
  | .getBalance userId =>
    match walletOf s.wallets none userId with
    | some _ => s
    | none => { s with workers := s.workers ++ [.creating userId] }
  | .create k reply =>
    match s.workers[k]?, reply with
    | some (.creating _), .refused => s.goto k .ended
    | some (.creating userId), _ =>
      { s with wallets := insertWallet s.wallets none userId "0" }.goto k .ended
    | _, _ => s
  | .begin => { s with workers := s.workers ++ [.processing] }
  | .select k userId amount =>
    match s.workers[k]? with
    | some .processing =>
      match walletOf s.wallets (some k) userId with
      | some _ => s
      | none => s.goto k (.inserting userId amount)
    | _ => s
  | .insert k reply =>
    match s.workers[k]?, reply with
    | some (.inserting userId amount), .ok =>
      { s with wallets := insertWallet s.wallets (some k) userId amount }.goto k .processing
    | some (.inserting _ _), _ => s.abort k
    | _, _ => s
  | .commit k reply =>
    match s.workers[k]?, reply with
    | some .processing, .refused => s.abort k
    | some .processing, _ => { s with wallets := commitRows s.wallets k }.goto k .ended
    | _, _ => s
  | .rollback k =>
    match s.workers[k]? with
    | some .processing | some (.inserting _ _) => s.abort k
    | _ => s

/-- No call is under way. -/
def start (wallets : Table Row) : State := ⟨wallets, []⟩

/-! ## The property and its condition -/

/-- A row of a user that a transaction has inserted, or that is committed (`none`). -/
def Row.isOf (insertedBy : Option Nat) (userId : Nat) (r : Row) : Bool :=
  r.insertedBy = insertedBy ∧ r.userId = userId

def rowsOf (wallets : Table Row) (insertedBy : Option Nat) (userId : Nat) : List Row :=
  wallets.rows.filter (Row.isOf insertedBy userId)

/-- A user has at most one row. -/
def OneRow (wallets : Table Row) : Prop := ∀ userId, (rowsOf wallets none userId).length ≤ 1

/-- The row that a worker inserts on its own is the first one of its user. -/
def Worker.Free (wallets : Table Row) : Worker → Prop
  | .creating userId => rowsOf wallets none userId = []
  | _ => True

/-- A row that becomes visible is the first one of its user. -/
def Free (s : State) : Action → Prop
  | .create k reply => reply ≠ .refused → ∀ w ∈ s.workers[k]?, w.Free s.wallets
  | .commit k reply => reply ≠ .refused → s.workers[k]? = some .processing →
    ∀ r ∈ s.wallets.rows, r.insertedBy = some k → rowsOf s.wallets none r.userId = []
  | _ => True

instance (wallets : Table Row) (w : Worker) : Decidable (w.Free wallets) :=
  match w with
  | .creating _ => inferInstanceAs (Decidable (_ = []))
  | .processing | .inserting _ _ | .ended => isTrue trivial

instance (s : State) (a : Action) : Decidable (Free s a) :=
  match a with
  | .create _ _ => inferInstanceAs (Decidable (_ → ∀ w ∈ _, _))
  | .commit _ _ => inferInstanceAs (Decidable (_ → _ → ∀ r ∈ _, _ → _))
  | .getBalance _ | .begin | .select _ _ _ | .insert _ _ | .rollback _ => isTrue trivial

/-! ## Rows -/

variable {wallets : Table Row} {s : State} {k userId : Nat} {t : Option Nat} {balance : String}

theorem Row.isOf_iff {r : Row} : r.isOf t userId = true ↔ r.insertedBy = t ∧ r.userId = userId :=
  decide_eq_true_iff

/-- If no row is found, none is visible. -/
theorem walletOf_eq_none (h : walletOf wallets t userId = none) :
    rowsOf wallets none userId = [] ∧ rowsOf wallets t userId = [] := by
  have hnone := List.find?_eq_none.1 h
  constructor <;> refine List.filter_eq_nil_iff.2 fun r hr hown => hnone r hr ?_ <;>
    obtain ⟨hinserted, huser⟩ := Row.isOf_iff.1 hown <;> simp [Row.visible, hinserted, huser]

theorem rowsOf_insertWallet (t' : Option Nat) (u : Nat) :
    ∃ r, rowsOf (insertWallet wallets t userId balance) t' u =
      rowsOf wallets t' u ++ if t = t' ∧ userId = u then [r] else [] := by
  refine ⟨⟨⟨wallets.next, userId, balance, none⟩, t⟩, ?_⟩
  unfold rowsOf insertWallet Table.insert
  rw [List.filter_append, List.filter_cons, List.filter_nil]
  congr 1
  exact if_congr Row.isOf_iff rfl rfl

/-- A row that is inserted is one of its transaction. -/
theorem length_insertWallet (t' : Option Nat) (u : Nat) :
    (rowsOf (insertWallet wallets t userId balance) t' u).length =
      (rowsOf wallets t' u).length + if t = t' ∧ userId = u then 1 else 0 := by
  obtain ⟨r, hr⟩ : ∃ r, rowsOf (insertWallet wallets t userId balance) t' u =
      rowsOf wallets t' u ++ if t = t' ∧ userId = u then [r] else [] := rowsOf_insertWallet t' u
  rw [hr, List.length_append]
  split <;> rfl

/-- A commit of `k` moves the rows of `k` to those that are committed. -/
theorem isOf_commit_none (r : Row) (u : Nat) :
    (r.commit k).isOf none u = (r.isOf none u || r.isOf (some k) u) := by
  unfold Row.isOf Row.commit
  dsimp only
  split
  next h => simp [h]
  next h => simp [h]

theorem isOf_commit_some {j : Nat} (hj : j ≠ k) (r : Row) (u : Nat) :
    (r.commit k).isOf (some j) u = r.isOf (some j) u := by
  unfold Row.isOf Row.commit
  dsimp only
  split
  next h => simp [h, Ne.symm hj]
  next h => rfl

theorem isOf_commit_self (r : Row) (u : Nat) : (r.commit k).isOf (some k) u = false := by
  unfold Row.isOf Row.commit
  dsimp only
  split
  next h => simp
  next h => simp [h]

theorem length_rowsOf_commitRows (u : Nat) :
    (rowsOf (commitRows wallets k) none u).length =
      (rowsOf wallets none u).length + (rowsOf wallets (some k) u).length := by
  unfold rowsOf commitRows Table.map
  dsimp only
  induction wallets.rows with
  | nil => rfl
  | cons r rows ih =>
    have hnot : ¬(r.isOf none u = true ∧ r.isOf (some k) u = true) := by
      rintro ⟨hnone, hsome⟩
      have heq := (Row.isOf_iff.1 hnone).1.symm.trans (Row.isOf_iff.1 hsome).1
      cases heq
    simp only [List.map_cons, List.filter_cons, isOf_commit_none]
    cases hnone : r.isOf none u <;> cases hsome : r.isOf (some k) u
    · simpa using ih
    · simp only [Bool.or_true, if_true, List.length_cons, ih]
      simp
      omega
    · simp [ih]
      omega
    · exact absurd ⟨hnone, hsome⟩ hnot

theorem rowsOf_commitRows_some {j : Nat} (u : Nat) :
    (rowsOf (commitRows wallets k) (some j) u).length =
      if j = k then 0 else (rowsOf wallets (some j) u).length := by
  unfold rowsOf commitRows Table.map
  dsimp only
  rw [List.filter_map, List.length_map]
  by_cases hj : j = k
  · subst hj
    rw [if_pos rfl, List.length_eq_zero_iff, List.filter_eq_nil_iff]
    intro r _
    simp [isOf_commit_self]
  · rw [if_neg hj]
    congr 2
    funext r
    exact isOf_commit_some hj r u

theorem rowsOf_dropRows (t : Option Nat) (u : Nat) :
    rowsOf (dropRows wallets k) t u = if t = some k then [] else rowsOf wallets t u := by
  unfold rowsOf dropRows
  rw [List.filter_filter]
  by_cases ht : t = some k
  · rw [if_pos ht, List.filter_eq_nil_iff]
    intro r _ hboth
    obtain ⟨hown, hother⟩ := Bool.and_eq_true_iff.1 hboth
    exact of_decide_eq_true hother ((Row.isOf_iff.1 hown).1.trans ht)
  · rw [if_neg ht]
    refine List.filter_congr fun r _ => ?_
    cases hown : r.isOf t u with
    | false => rfl
    | true => simp [(Row.isOf_iff.1 hown).1, ht]

/-! ## What is so in every run -/

/-- A transaction that may still insert rows. -/
def Worker.isOpen : Worker → Bool
  | .processing | .inserting _ _ => true
  | .creating _ | .ended => false

/-- The rows that are not committed. -/
structure Sound (s : State) : Prop where
  own : ∀ k userId, (rowsOf s.wallets (some k) userId).length ≤ 1
  isOpen : ∀ k userId, rowsOf s.wallets (some k) userId ≠ [] →
    ∃ w, s.workers[k]? = some w ∧ w.isOpen = true
  inserting : ∀ k userId amount, s.workers[k]? = some (.inserting userId amount) →
    rowsOf s.wallets (some k) userId = []

namespace Sound

variable {w w₀ : Worker} {reply : Reply}

theorem start (h : ∀ r ∈ wallets.rows, r.insertedBy = none) : Sound (start wallets) := by
  have hnil : ∀ k userId, rowsOf wallets (some k) userId = [] := by
    refine fun k userId => List.filter_eq_nil_iff.2 fun r hr hown => ?_
    have heq := (h r hr).symm.trans (Row.isOf_iff.1 hown).1
    cases heq
  refine ⟨fun k userId => ?_, fun k userId hne => absurd (hnil k userId) hne,
    fun k userId _ _ => hnil k userId⟩
  show (rowsOf wallets (some k) userId).length ≤ 1
  rw [hnil]
  exact Nat.zero_le 1

/-- A new call. -/
theorem spawn (h : Sound s) (hw : ∀ userId amount, w ≠ .inserting userId amount) :
    Sound { s with workers := s.workers ++ [w] } := by
  refine ⟨h.own, fun k userId hne => ?_, fun k userId amount hk => ?_⟩
  · obtain ⟨w', hk, hopen⟩ := h.isOpen k userId hne
    exact ⟨w', List.getElem?_append_left (List.getElem?_eq_some_iff.1 hk).1 ▸ hk, hopen⟩
  · rcases getElem?_concat_cases hk with hk | rfl
    · exact h.inserting k userId amount hk
    · exact absurd rfl (hw userId amount)

/-- A call goes on with the rows `wallets`. -/
theorem goto (h : Sound s) (hk : s.workers[k]? = some w₀)
    (hothers : ∀ j ≠ k, ∀ userId,
      (rowsOf wallets (some j) userId).length = (rowsOf s.wallets (some j) userId).length)
    (hown : ∀ userId, (rowsOf wallets (some k) userId).length ≤ 1)
    (hopen : w.isOpen = false → ∀ userId, rowsOf wallets (some k) userId = [])
    (hinserting : ∀ userId amount, w = .inserting userId amount →
      rowsOf wallets (some k) userId = []) :
    Sound ⟨wallets, s.workers.set k w⟩ := by
  have hself : (s.workers.set k w)[k]? = some w :=
    List.getElem?_set_self (List.getElem?_eq_some_iff.1 hk).1
  refine ⟨fun j userId => ?_, fun j userId hne => ?_, fun j userId amount hj => ?_⟩
  · by_cases hj : j = k
    · exact hj ▸ hown userId
    · exact (hothers j hj userId).trans_le (h.own j userId)
  · by_cases hj : j = k
    · subst hj
      refine ⟨w, hself, ?_⟩
      by_contra hclosed
      exact hne (hopen (Bool.eq_false_iff.2 hclosed) userId)
    · obtain ⟨w', hw', hopen'⟩ := h.isOpen j userId fun hnil => hne (List.length_eq_zero_iff.1
        ((hothers j hj userId).trans (List.length_eq_zero_iff.2 hnil)))
      exact ⟨w', (List.getElem?_set_ne (Ne.symm hj)).trans hw', hopen'⟩
  · by_cases hjk : j = k
    · subst hjk
      exact hinserting userId amount (Option.some.inj (hself.symm.trans hj))
    · have hold := h.inserting j userId amount ((List.getElem?_set_ne (Ne.symm hjk)).symm.trans hj)
      exact List.length_eq_zero_iff.1 ((hothers j hjk userId).trans (List.length_eq_zero_iff.2 hold))

/-- A call that has no transaction has no rows of its own. -/
theorem closed (h : Sound s) (hk : s.workers[k]? = some w₀) (hclosed : w₀.isOpen = false)
    (userId : Nat) : rowsOf s.wallets (some k) userId = [] := by
  by_contra hne
  obtain ⟨w, hw, hopen⟩ := h.isOpen k userId hne
  obtain rfl := Option.some.inj (hk.symm.trans hw)
  rw [hclosed] at hopen
  cases hopen

theorem abort (h : Sound s) (hk : s.workers[k]? = some w₀) : Sound (s.abort k) := by
  have hnil : ∀ userId, rowsOf (dropRows s.wallets k) (some k) userId = [] := fun userId => by
    rw [rowsOf_dropRows, if_pos rfl]
  refine h.goto hk (fun j hj userId => ?_) (fun userId => ?_) (fun _ => hnil) fun _ _ hw => ?_
  · rw [rowsOf_dropRows, if_neg fun heq => hj (Option.some.inj heq)]
  · rw [hnil]
    exact Nat.zero_le 1
  · cases hw

/-- `getBalance` saves a row, or fails. -/
theorem create (h : Sound s) (hk : s.workers[k]? = some (.creating userId)) :
    Sound ({ s with wallets := insertWallet s.wallets none userId balance }.goto k .ended) := by
  have hsame : ∀ j u, (rowsOf (insertWallet s.wallets none userId balance) (some j) u).length =
      (rowsOf s.wallets (some j) u).length := by
    intro j u
    have hne : ¬((none : Option Nat) = some j ∧ userId = u) := fun heq => by cases heq.1
    rw [length_insertWallet, if_neg hne, add_zero]
  have hnil := h.closed hk rfl
  refine h.goto hk (fun j _ => hsame j) (fun u => ?_) (fun _ u => ?_) fun _ _ hw => by cases hw
  · exact (hsame k u).trans_le (h.own k u)
  · exact List.length_eq_zero_iff.1 ((hsame k u).trans (List.length_eq_zero_iff.2 (hnil u)))

/-- `incrementBalance` inserts a row. -/
theorem insert (h : Sound s) {amount : String}
    (hk : s.workers[k]? = some (.inserting userId amount)) :
    Sound ({ s with wallets := insertWallet s.wallets (some k) userId amount }.goto k
      .processing) := by
  have hnone := h.inserting k userId amount hk
  refine h.goto hk (fun j hj u => ?_) (fun u => ?_) (fun hw => by cases hw) fun _ _ hw => by cases hw
  · rw [length_insertWallet, if_neg fun heq => hj (Option.some.inj heq.1).symm, add_zero]
  · rw [length_insertWallet]
    by_cases hu : userId = u
    · subst hu
      rw [hnone, if_pos ⟨rfl, rfl⟩]
      exact le_rfl
    · rw [if_neg fun heq => hu heq.2, add_zero]
      exact h.own k u

/-- A batch commits. -/
theorem commit (h : Sound s) (hk : s.workers[k]? = some w₀) :
    Sound ({ s with wallets := commitRows s.wallets k }.goto k .ended) := by
  have hlength : ∀ j u, (rowsOf (commitRows s.wallets k) (some j) u).length =
      if j = k then 0 else (rowsOf s.wallets (some j) u).length := fun j u =>
    rowsOf_commitRows_some u
  refine h.goto hk (fun j hj u => ?_) (fun u => ?_) (fun _ u => ?_) fun _ _ hw => by cases hw
  · rw [hlength, if_neg hj]
  · rw [hlength, if_pos rfl]
    exact Nat.zero_le 1
  · exact List.length_eq_zero_iff.1 ((hlength k u).trans (if_pos rfl))

theorem step (h : Sound s) (a : Action) : Sound (step s a) := by
  cases a with
  | getBalance userId =>
    simp only [WalletRows.step]
    split
    · exact h
    · exact h.spawn fun _ _ hw => by cases hw
  | create k reply =>
    simp only [WalletRows.step]
    split
    next hk =>
      exact h.goto hk (fun _ _ _ => rfl) (h.own k) (fun _ => h.closed hk rfl)
        fun _ _ hw => by cases hw
    next hk _ => exact h.create hk
    · exact h
  | begin => exact h.spawn fun _ _ hw => by cases hw
  | select k userId amount =>
    simp only [WalletRows.step]
    split
    next hk =>
      split
      · exact h
      next hnone =>
        refine h.goto hk (fun _ _ _ => rfl) (h.own k) (fun hw => by cases hw) fun u a hw => ?_
        cases hw
        exact (walletOf_eq_none hnone).2
    · exact h
  | insert k reply =>
    simp only [WalletRows.step]
    split
    next hk => exact h.insert hk
    next hk _ => exact h.abort hk
    · exact h
  | commit k reply =>
    simp only [WalletRows.step]
    split
    next hk => exact h.abort hk
    next hk _ => exact h.commit hk
    · exact h
  | rollback k =>
    simp only [WalletRows.step]
    split
    next hk => exact h.abort hk
    next hk => exact h.abort hk
    · exact h

end Sound

/-! ## One step -/

/-- A row that is saved on its own is the only one of its user if there was none. -/
theorem oneRow_create_iff (hone : OneRow wallets) :
    OneRow (insertWallet wallets none userId balance) ↔ rowsOf wallets none userId = [] := by
  rw [← List.length_eq_zero_iff]
  have hlength : ∀ u, (rowsOf (insertWallet wallets none userId balance) none u).length =
      (rowsOf wallets none u).length + if none = (none : Option Nat) ∧ userId = u then 1 else 0 :=
    fun u => length_insertWallet none u
  constructor
  · intro h
    have hle := h userId
    rw [hlength, if_pos ⟨rfl, rfl⟩] at hle
    omega
  · intro hnone u
    have hle := hone u
    rw [hlength]
    by_cases hu : userId = u
    · subst hu
      rw [hnone, if_pos ⟨rfl, rfl⟩]
    · rw [if_neg fun heq => hu heq.2]
      exact hle

/-- The rows of a transaction are the only ones of their users if there were none. -/
theorem oneRow_commit_iff (hone : OneRow wallets)
    (hown : ∀ userId, (rowsOf wallets (some k) userId).length ≤ 1) :
    OneRow (commitRows wallets k) ↔
      ∀ r ∈ wallets.rows, r.insertedBy = some k → rowsOf wallets none r.userId = [] := by
  constructor
  · intro h r hr hinserted
    have hle := h r.userId
    have hmem : r ∈ rowsOf wallets (some k) r.userId :=
      List.mem_filter.2 ⟨hr, Row.isOf_iff.2 ⟨hinserted, rfl⟩⟩
    have hpos := List.length_pos_of_mem hmem
    rw [length_rowsOf_commitRows] at hle
    exact List.length_eq_zero_iff.1 (by omega)
  · intro h userId
    rw [length_rowsOf_commitRows]
    cases hrows : rowsOf wallets (some k) userId with
    | nil => exact hone userId
    | cons r rest =>
      have hmem : r ∈ rowsOf wallets (some k) userId := hrows ▸ List.mem_cons_self
      obtain ⟨hr, hof⟩ := List.mem_filter.1 hmem
      obtain ⟨hinserted, rfl⟩ := Row.isOf_iff.1 hof
      have hle := hown r.userId
      rw [h r hr hinserted, ← hrows]
      exact (Nat.zero_add _).trans_le hle

/-- The rows of a transaction that is rolled back were not visible. -/
theorem oneRow_abort (hone : OneRow s.wallets) (k : Nat) : OneRow (s.abort k).wallets := by
  intro userId
  show (rowsOf (dropRows s.wallets k) none userId).length ≤ 1
  rw [rowsOf_dropRows, if_neg fun heq => by cases heq]
  exact hone userId

/-- A row of a transaction is not visible. -/
theorem oneRow_insert (hone : OneRow wallets) :
    OneRow (insertWallet wallets (some k) userId balance) := by
  intro u
  have hne : ¬(some k = none ∧ userId = u) := fun heq => by cases heq.1
  rw [length_insertWallet, if_neg hne]
  exact hone u

/-- A step keeps the property exactly if the rows that become visible are the first ones. -/
theorem oneRow_step_iff (h : Sound s) (hone : OneRow s.wallets) (a : Action) :
    OneRow (step s a).wallets ↔ Free s a := by
  cases a with
  | getBalance userId =>
    refine iff_of_true ?_ trivial
    simp only [step]
    split <;> exact hone
  | begin => exact iff_of_true hone trivial
  | select k userId amount =>
    refine iff_of_true ?_ trivial
    simp only [step]
    split
    · split <;> exact hone
    · exact hone
  | insert k reply =>
    refine iff_of_true ?_ trivial
    simp only [step]
    split
    · exact oneRow_insert hone
    · exact oneRow_abort hone k
    · exact hone
  | rollback k =>
    refine iff_of_true ?_ trivial
    simp only [step]
    split
    · exact oneRow_abort hone k
    · exact oneRow_abort hone k
    · exact hone
  | create k reply =>
    simp only [step]
    split
    · exact iff_of_true hone fun hne => absurd rfl hne
    next userId hk hne =>
      refine (oneRow_create_iff hone).trans ⟨fun hnone _ w hw => ?_, fun hfree => ?_⟩
      · obtain rfl := Option.some.inj (hk.symm.trans hw)
        exact hnone
      · exact hfree hne _ hk
    next hother _ =>
      refine iff_of_true hone fun _ w hw => ?_
      cases w with
      | creating userId => exact (hother userId hw).elim
      | _ => trivial
  | commit k reply =>
    simp only [step]
    split
    · exact iff_of_true (oneRow_abort hone k) fun hne => absurd rfl hne
    next hk hne =>
      refine (oneRow_commit_iff hone (h.own k)).trans ⟨fun hfree _ _ => hfree, fun hfree => ?_⟩
      exact hfree hne hk
    next hother _ => exact iff_of_true hone fun _ hk => (hother hk).elim

/-! ## Runs -/

/-- A user has at most one wallet row at every point of a run exactly if every row that becomes
visible in it is the first one of its user. -/
theorem one_wallet_iff (hcommitted : ∀ r ∈ wallets.rows, r.insertedBy = none)
    (hone : OneRow wallets) (as : List Action) :
    (∀ bs, bs <+: as → OneRow (bs.foldl step (start wallets)).wallets) ↔
      Meets step Free (start wallets) as :=
  holds_iff_meets (I := Sound) (P := fun s => OneRow s.wallets) (Sound.start hcommitted)
    (fun _ a hs => hs.step a) hone (fun _ a hs h => oneRow_step_iff hs h a) as

/-! ## One user -/

/-- The state after a list of actions on an empty table. -/
def after (as : List Action) : State := as.foldl step (start .empty)

/-- A deposit of a user that has asked for the balance before. -/
def sampleDeposit : List Action :=
  [.getBalance 1, .create 0 .ok, .begin, .select 1 1 "5", .commit 1 .ok]

/-- A request finds no row, and saves one after a batch has inserted the row of the user. -/
def sampleOverlap : List Action :=
  [.getBalance 1, .begin, .select 1 1 "5", .insert 1 .ok, .commit 1 .ok, .create 0 .ok]

theorem oneRow_empty : OneRow .empty := fun _ => Nat.zero_le 1

theorem one_wallet_iff_sample :
    (rowsOf (after sampleDeposit).wallets none 1).length = 1 ∧
      ∀ bs, bs <+: sampleDeposit → OneRow (after bs).wallets :=
  ⟨rfl, (one_wallet_iff (fun _ hr => absurd hr List.not_mem_nil) oneRow_empty sampleDeposit).2
    (by decide +kernel)⟩

/-- The user has a row with the deposit and an empty one, and a reader sees the deposit only if the
database returns that row first. Two requests at once leave two empty rows. -/
theorem two_wallets :
    ((rowsOf (after sampleOverlap).wallets none 1).map (·.balance) = ["5", "0"] ∧
      ¬OneRow (after sampleOverlap).wallets) ∧
    ¬OneRow (after [.getBalance 1, .getBalance 1, .create 0 .ok, .create 1 .ok]).wallets :=
  ⟨⟨by decide +kernel, fun h => absurd (h 1) (by decide +kernel)⟩,
    fun h => absurd (h 1) (by decide +kernel)⟩

end Cme.Blockchain.WalletRows
