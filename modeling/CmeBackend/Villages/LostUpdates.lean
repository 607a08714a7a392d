import CmeBackend.Attacks.Steps
import CmeBackend.Exchanges.Military
import CmeBackend.Lib.Runs
import CmeBackend.Lib.Snapshots
import CmeBackend.Storage.Steps

/-!
# Concurrent changes of the counts

Attack creation, exchanges of base and of military resources and transfers to a storage load the
rows of a village, compute, and save all of them later. The cron of production, the producer of
units, buildings, orders and battles change counts by statements that add to what is stored.

* `State`: the tables, what every operation still has to do, and how much the finished saves and
  statements were meant to add to each row (`moved`).
* `step`: one call of one operation. The calls of different operations come in any order.
* `NoLostUpdate`: every count is the initial one with what was added.
* `abs`: the state as a store of cells with a ledger. A save is a write of what was read
  (`abs_save`), every other step leaves the store alone or adds to it (`abs_step`).
-/

namespace Cme.LostUpdates

open Js Runs

variable {C : Catalog}

/-- What an operation still has to save. -/
inductive Save (C : Catalog) where
  | counts (entities : List (Entity C))
  | vault (storage : VillageStorageResourceType C)

/-- Where an operation is. -/
inductive Phase (C : Catalog) where
  | idle
  /-- An exchange that has loaded the sender. -/
  | exchanging (military : Bool) (req : Exchanges.Request) (sender : Option (LoadedVillage C))
  | saving (saves : List (Save C))

structure State (C : Catalog) where
  db : Db C
  phase : ℕ → Phase C
  /-- What the finished saves and statements were meant to add, by the id of the row. -/
  moved : ℕ → ℤ

/-- What the operations need besides the tables. -/
structure Env (C : Catalog) where
  math : Math
  dev : Bool
  speedOf : C.Ref → Option ℚ

inductive Action (C : Catalog) where
  /-- The operation `i` is an attack: it loads the villages and stores the attack. -/
  | attack (i : ℕ) (clock : Attacks.Clock) (dto : Attacks.CreateAttackDto)
  /-- The operation `i` is an exchange: it loads the sender. -/
  | exchange (i : ℕ) (military : Bool) (req : Exchanges.Request)
  /-- The exchange `i` loads the receiver, and checks the request. -/
  | receiver (i : ℕ)
  /-- The operation `i` is a transfer: it loads the village, and opens the vault row. -/
  | transfer (i villageId facilityId : ℕ) (req : Storage.Request)
  /-- The operation `i` saves what comes next. -/
  | save (i : ℕ)
  /-- A statement that adds to counts. -/
  | update (villageId : ℕ) (values : List (ℕ × ℚ))
  /-- A statement that inserts a row. -/
  | insert (villageId : ℕ) (t : C.Ref) (count : ℤ)

/-! ## The steps -/

/-- The entity that is written to the row with an id. -/
def entityOf (d : Db C) (entities : List (Entity C)) (id : ℕ) : Option (Entity C) :=
  (d.villagesResourceTypes.get? id).bind fun _ => entities.find? (·.loaded.id = id)

/-- What the save of the entities is meant to add to the row with an id. -/
def meant (d : Db C) (entities : List (Entity C)) (id : ℕ) : ℤ :=
  ((entityOf d entities id).map fun e => e.count - e.loaded.count).getD 0

/-- The count of the row with an id. -/
def stored (d : Db C) (id : ℕ) : ℤ :=
  ((d.villagesResourceTypes.get? id).map VillageResourceType.count).getD 0

namespace State

variable (s : State C)

def goto (i : ℕ) (p : Phase C) : State C := { s with phase := Function.update s.phase i p }

/-- The tables after a statement that adds to the counts whatever it finds. -/
def execute (d : Db C) : State C :=
  { s with db := d, moved := fun id => s.moved id + (stored d id - stored s.db id) }

/-- One of the saves of an operation. -/
def save : Save C → State C
  | .counts entities =>
    { s with
      db := s.db.saveEntities entities
      moved := fun id => s.moved id + meant s.db entities id }
  | .vault storage => { s with db := Storage.saveStorage s.db storage }

end State

/-- What an exchange has to save, if it passes its checks. -/
def exchangeSaves (e : Env C) (military : Bool) (req : Exchanges.Request)
    (sender receiver : Option (LoadedVillage C)) : List (Save C) :=
  if military then
    match Exchanges.checkMilitary e.math e.speedOf req sender receiver with
    | .ok c => [.counts c.senderLeft]
    | .error _ => []
  else
    match Exchanges.checkExchange req sender receiver with
    | .ok c => [.counts c.senderLeft, .counts c.receiverTotal]
    | .error _ => []

/-- One call. An action that is not the next one of its operation does nothing. -/
def step (e : Env C) (s : State C) : Action C → State C
  | .attack i clock dto =>
    match s.phase i, Attacks.check e.math e.dev clock.loaded s.db dto with
    | .idle, .ok a =>
      { s with db := a.insert clock.departed s.db }.goto i
        (.saving (a.left.toList.map .counts))
    | _, _ => s
  | .exchange i military req =>
    match s.phase i, Exchanges.checkDifferent req with
    | .idle, .ok _ => s.goto i (.exchanging military req (s.db.findVillage req.senderVillageId))
    | _, _ => s
  | .receiver i =>
    match s.phase i with
    | .exchanging military req sender =>
      s.goto i (.saving
        (exchangeSaves e military req sender (s.db.findVillage req.receiverVillageId)))
    | _ => s
  | .transfer i villageId facilityId req =>
    match s.phase i, Storage.check s.db villageId facilityId req with
    | .idle, .ok c =>
      let (d, storage) := Storage.openStorage s.db c.facility.id c.resourceType
      { s with db := d }.goto i (.saving [.counts c.left, .vault (c.stored storage)])
    | _, _ => s
  | .save i =>
    match s.phase i with
    | .saving (next :: rest) => (s.save next).goto i (.saving rest)
    | .saving [] => s.goto i .idle
    | _ => s
  | .update villageId values => s.execute (s.db.addToCounts villageId values)
  | .insert villageId t count => s.execute (s.db.insertCount villageId t count)

/-- No operation is under way. -/
def start (d : Db C) : State C := ⟨d, fun _ => .idle, fun _ => 0⟩

/-! ## The property and its condition -/

/-- Every count is the initial one with what was added to it. A row that was not there at the start
had nothing. -/
def NoLostUpdate (d : Db C) (s : State C) : Prop :=
  ∀ r ∈ s.db.villagesResourceTypes.rows, r.count = stored d r.id + s.moved r.id

/-- The rows hold what was loaded. -/
def Unchanged (d : Db C) (entities : List (Entity C)) : Prop :=
  ∀ e ∈ entities, ∀ r ∈ d.villagesResourceTypes.rows,
    r.id = e.loaded.id → r.count = e.loaded.count

/-- The entities that are saved next. -/
def Phase.entities : Phase C → List (Entity C)
  | .saving (.counts entities :: _) => entities
  | _ => []

/-- A save finds the rows that it writes as they were loaded. -/
def Undisturbed (s : State C) : Action C → Prop
  | .save i => Unchanged s.db (s.phase i).entities
  | _ => True

instance (d : Db C) (s : State C) : Decidable (NoLostUpdate d s) :=
  inferInstanceAs (Decidable (∀ r ∈ _, _))

instance (d : Db C) (entities : List (Entity C)) : Decidable (Unchanged d entities) :=
  inferInstanceAs (Decidable (∀ e ∈ _, ∀ r ∈ _, _))

/-! ## The store of counts -/

/-- The counts by the ids of their rows, with what was meant to be added. -/
def abs (s : State C) : Snapshots.State ℕ ℤ := ⟨stored s.db, s.moved⟩

/-- The save of entities as a write of what was read. -/
def pending (d : Db C) (entities : List (Entity C)) : Snapshots.Pending ℕ ℤ where
  read id := (entityOf d entities id).map (·.loaded.count)
  delta := meant d entities

variable {e : Env C} {d : Db C} {s : State C} {entities : List (Entity C)} {r : VillageResourceType C}

theorem stored_of_mem (h : r ∈ d.villagesResourceTypes.rows) : stored d r.id = r.count := by
  have hget : d.villagesResourceTypes.get? r.id = some r := Table.get?_eq_some.2 ⟨h, rfl⟩
  rw [stored, hget]
  rfl

theorem stored_congr {d' : Db C} (h : d'.villagesResourceTypes = d.villagesResourceTypes) :
    stored d' = stored d := by
  unfold stored
  rw [h]

theorem stored_setCounts (f : VillageResourceType C → ℤ) (id : ℕ) :
    stored (d.setCounts f) id = ((d.villagesResourceTypes.get? id).map f).getD 0 := by
  unfold stored Db.setCounts
  rw [Table.get?_map, Option.map_map]
  rfl

/-- A balanced store has lost no update. -/
theorem noLostUpdate_of_balanced (h : Snapshots.Balanced (stored d) (abs s)) :
    NoLostUpdate d s := by
  intro r hr
  rw [← stored_of_mem hr]
  exact congrFun h r.id

/-- A save writes what the entities have, also where the rows have changed. -/
theorem abs_save : abs (s.save (.counts entities)) = (abs s).write (pending s.db entities) := by
  have hstore : stored (s.db.saveEntities entities) =
      (pending s.db entities).apply (stored s.db) := by
    funext id
    unfold Db.saveEntities Snapshots.Pending.apply
    rw [stored_setCounts]
    simp only [pending, meant, stored, entityOf]
    cases hr : s.db.villagesResourceTypes.get? id with
    | none => rfl
    | some r =>
      have hid : r.id = id := (Table.get?_eq_some.1 hr).2
      subst hid
      cases he : entities.find? (·.loaded.id = r.id) with
      | none => simp [he]
      | some e => simp [he]
  have hledger : (s.save (.counts entities)).moved =
      s.moved + (pending s.db entities).moves := by
    funext id
    show s.moved id + meant s.db entities id = s.moved id + _
    congr 1
    unfold Snapshots.Pending.moves
    simp only [pending, meant]
    cases entityOf s.db entities id <;> rfl
  unfold abs Snapshots.State.write
  rw [hledger, ← hstore]
  rfl

/-- A step that is no save of counts adds to the counts, or leaves them alone. -/
theorem abs_step (a : Action C) :
    (∃ delta, abs (step e s a) = (abs s).add delta) ∨
      ∃ i entities rest, a = .save i ∧ s.phase i = .saving (.counts entities :: rest) ∧
        abs (step e s a) = (abs s).write (pending s.db entities) := by
  have hsame : ∀ s' : State C, s'.db.villagesResourceTypes = s.db.villagesResourceTypes →
      s'.moved = s.moved → ∃ delta, abs s' = (abs s).add delta := by
    intro s' hrows hmoved
    refine ⟨0, ?_⟩
    unfold abs Snapshots.State.add
    rw [stored_congr hrows, hmoved, add_zero, add_zero]
  have hexecute : ∀ d : Db C, ∃ delta, abs (s.execute d) = (abs s).add delta := by
    intro d
    refine ⟨stored d - stored s.db, ?_⟩
    unfold abs Snapshots.State.add
    simp only [add_sub_cancel]
    rfl
  cases a with
  | attack i clock dto =>
    refine .inl (hsame _ ?_ ?_)
    · simp only [step]
      split <;> rfl
    · simp only [step]
      split <;> rfl
  | exchange i military req =>
    refine .inl (hsame _ ?_ ?_)
    · simp only [step]
      split <;> rfl
    · simp only [step]
      split <;> rfl
  | receiver i =>
    refine .inl (hsame _ ?_ ?_)
    · simp only [step]
      split <;> rfl
    · simp only [step]
      split <;> rfl
  | transfer i villageId facilityId req =>
    refine .inl (hsame _ ?_ ?_)
    · simp only [step]
      split
      · unfold Storage.openStorage
        split <;> rfl
      · rfl
    · simp only [step]
      split <;> rfl
  | save i =>
    simp only [step]
    split
    next next rest hphase =>
      cases next with
      | counts entities => exact .inr ⟨i, entities, rest, rfl, hphase, abs_save⟩
      | vault storage => exact .inl (hsame _ rfl rfl)
    · exact .inl (hsame _ rfl rfl)
    · exact .inl (hsame _ rfl rfl)
  | update villageId values => exact .inl (hexecute _)
  | insert villageId t count => exact .inl (hexecute _)

theorem fresh_of_unchanged (h : Unchanged s.db entities) :
    (pending s.db entities).Fresh (abs s).store := by
  intro id x hx
  obtain ⟨e, he, rfl⟩ := Option.map_eq_some_iff.1 hx
  obtain ⟨r, hr, he⟩ := Option.bind_eq_some_iff.1 he
  obtain ⟨hmem, hid⟩ := Table.get?_eq_some.1 hr
  have hloaded : e.loaded.id = id := by simpa using List.find?_some he
  show stored s.db id = e.loaded.count
  rw [← hid, show key r = r.id from rfl, stored_of_mem hmem]
  exact h e (List.mem_of_find?_eq_some he) r hmem (hid.trans hloaded.symm)

/-! ## Runs -/

/-- No update is lost in a run in which every save finds its rows as they were loaded. -/
theorem no_lost_update {e : Env C} {d : Db C} {s : State C}
    (h : Reach (graph (step e)) Undisturbed (start d) s) : NoLostUpdate d s := by
  apply noLostUpdate_of_balanced
  refine h.inv (I := fun s => Snapshots.Balanced (stored d) (abs s)) ?_ ?_
  · show stored d = stored d + fun _ => 0
    exact (add_zero _).symm
  · rintro s a s' hbalanced hok rfl
    rcases abs_step (e := e) a with ⟨delta, heq⟩ | ⟨i, entities, rest, rfl, hphase, heq⟩
    · rw [heq]
      exact Snapshots.balanced_add hbalanced delta
    · rw [heq]
      exact (Snapshots.balanced_write_iff hbalanced _).2
        (fresh_of_unchanged (by simpa only [Undisturbed, Phase.entities, hphase] using hok))

/-! ## An attack and a production -/

def sampleEnv : Env sampleCatalog := ⟨Attacks.sampleMath, false, fun _ => none⟩

/-- Village 1 loads its rows for an attack. -/
def sampleAttack : Action sampleCatalog :=
  .attack 0 Attacks.sampleClock (Attacks.sampleRequest Attacks.sampleHunters)

/-- The cron of production adds 10 food to village 1. -/
def sampleProduction : Action sampleCatalog := .update 1 [(1, 10)]

/-- Production after the attack is not lost. -/
theorem no_lost_update_sample :
    NoLostUpdate Attacks.sampleDb
      ([sampleAttack, .save 0, sampleProduction].foldl (step sampleEnv) (start Attacks.sampleDb)) :=
  no_lost_update (((Reach.refl.next sampleAttack trivial).next (.save 0)
    (by unfold Undisturbed; decide +kernel)).next sampleProduction trivial)

/-- Production between the load and the save of an attack is. The attack moves no food. -/
theorem production_lost :
    Reach (graph (step sampleEnv)) always (start Attacks.sampleDb)
        ([sampleAttack, sampleProduction, .save 0].foldl (step sampleEnv)
          (start Attacks.sampleDb)) ∧
      ¬NoLostUpdate Attacks.sampleDb
        ([sampleAttack, sampleProduction, .save 0].foldl (step sampleEnv)
          (start Attacks.sampleDb)) :=
  ⟨Reach.refl.foldl _, by decide +kernel⟩

end Cme.LostUpdates
