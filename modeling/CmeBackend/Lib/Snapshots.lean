import Mathlib.Algebra.Group.Pi.Basic
import Mathlib.Tactic.Abel

/-!
# Updates that write back what they have read

A store maps cells to amounts. An operation may add to cells (`State.add`), or read some of them,
compute, and write the new values later (`State.write`). A write stores the values that go with what
was read, whatever the cells hold by then.

The state has the ledger of what the finished operations were meant to add.

* `Balanced init s`: the store is the initial one with the ledger.
* `balanced_add`: additions keep the balance.
* `balanced_write_iff`: a write keeps it exactly if every cell holds what was read (`Fresh`).
-/

namespace Snapshots

variable {κ α : Type} [AddCommGroup α]

structure State (κ α : Type) where
  store : κ → α
  ledger : κ → α

/-- The cells that an operation has read, with what they held, and what it means to add to each. -/
structure Pending (κ α : Type) where
  read : κ → Option α
  delta : κ → α

namespace Pending

variable (p : Pending κ α)

/-- The store after the write. -/
def apply (store : κ → α) (k : κ) : α :=
  match p.read k with
  | some x => x + p.delta k
  | none => store k

/-- What the write is meant to add to a cell. -/
def moves (k : κ) : α :=
  match p.read k with
  | some _ => p.delta k
  | none => 0

/-- Every cell holds what was read of it. -/
def Fresh (store : κ → α) : Prop := ∀ k x, p.read k = some x → store k = x

/-- A write adds what it is meant to add exactly if nothing has changed. -/
theorem apply_eq_add_iff {store : κ → α} :
    p.apply store = store + p.moves ↔ p.Fresh store := by
  constructor
  · intro h k x hk
    have hcell := congrFun h k
    simp only [apply, moves, hk, Pi.add_apply] at hcell
    exact (add_right_cancel hcell).symm
  · intro h
    funext k
    cases hk : p.read k with
    | none => simp [apply, moves, hk]
    | some x => simp [apply, moves, hk, h k x hk]

end Pending

namespace State

/-- An operation adds to the cells. -/
def add (s : State κ α) (delta : κ → α) : State κ α := ⟨s.store + delta, s.ledger + delta⟩

/-- An operation writes back the cells that it has read. -/
def write (s : State κ α) (p : Pending κ α) : State κ α := ⟨p.apply s.store, s.ledger + p.moves⟩

end State

/-- The store is the initial one with what the finished operations were meant to add. -/
def Balanced (init : κ → α) (s : State κ α) : Prop := s.store = init + s.ledger

variable {init : κ → α} {s : State κ α}

theorem balanced_add (h : Balanced init s) (delta : κ → α) : Balanced init (s.add delta) := by
  show s.store + delta = init + (s.ledger + delta)
  rw [h, add_assoc]

theorem balanced_write_iff (h : Balanced init s) (p : Pending κ α) :
    Balanced init (s.write p) ↔ p.Fresh s.store := by
  rw [← p.apply_eq_add_iff]
  show p.apply s.store = init + (s.ledger + p.moves) ↔ _
  rw [h, add_assoc]

end Snapshots
