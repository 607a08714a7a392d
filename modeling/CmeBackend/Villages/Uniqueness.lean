import CmeBackend.Exchanges.Cron
import CmeBackend.Production.Producer
import CmeBackend.Villages.Creation

/-!
# One row for each resource type

New villages, the producer of units, military exchanges and the cron of their deliveries insert rows
of `villages_resource_types`. The producer and the cron look for a row first and insert one later.
The table has no constraint that keeps a second row out.

* `step`: one call of one of them. The calls come in any order.
* `Missing`: a row that is inserted is still missing then, and no delivery inserts two of a type.
* `one_row_per_type`: in runs in which all rows that are inserted are missing, no village gets two
  rows of a type.
-/

namespace Cme.Uniqueness

open Runs Weights Exchanges Production

variable {C : Catalog}

/-- A request or a tick of the producer. -/
inductive Task (C : Catalog) where
  /-- An exchange that has loaded the sender. -/
  | exchanging (req : Request) (sender : Option (LoadedVillage C))
  /-- An exchange that has passed its checks. -/
  | sending (c : CheckedMilitary C) (unique : ℚ)
  /-- An exchange that has saved the sender. -/
  | queueing (item : QueueItem)
  /-- A tick that has read the order and the row. -/
  | producing (token : OrderToken) (sel : Selected)
  | done

structure State (C : Catalog) where
  cron : Cron.State C
  orders : Table (Order C)
  production : ℕ → FacilityProduction
  tasks : List (Task C)

/-- What the exchanges need besides the tables. -/
structure Env (C : Catalog) where
  math : Js.Math
  speedOf : C.Ref → Option ℚ

inductive Action where
  | createVillage (v : NewVillage) (isNew : Bool)
  | generateVillage (v : NewVillage)
  /-- An exchange loads the sender. -/
  | exchange (req : Request)
  /-- The exchange `k` loads the receiver, and checks the request. -/
  | receiver (k : ℕ) (unique : ℚ)
  | saveSender (k : ℕ)
  | zadd (k : ℕ)
  /-- A tick pops an item, and reads the order and the row. -/
  | produce (token : OrderToken)
  | commit (k : ℕ) (now : ℤ)
  /-- A task fails. -/
  | abort (k : ℕ)
  | cron (a : Cron.Action)

/-! ## The steps -/

namespace State

variable (s : State C)

/-- The tables. -/
def game : GameDb C := { toDb := s.cron.db, orders := s.orders, production := s.production }

def setDb (d : Db C) : State C := { s with cron := { s.cron with db := d } }

def setGame (d : GameDb C) : State C :=
  { s with
    cron := { s.cron with db := d.toDb }
    orders := d.orders
    production := d.production }

def goto (k : ℕ) (t : Task C) : State C := { s with tasks := s.tasks.set k t }

end State

/-- One call. An action that is not the next one of its task does nothing. -/
def step (e : Env C) (s : State C) : Action → State C
  | .createVillage v isNew => s.setDb (s.cron.db.createVillage v isNew)
  | .generateVillage v => s.setDb (s.cron.db.generateVillage v)
  | .exchange req =>
    match checkDifferent req with
    | .ok _ =>
      { s with tasks := s.tasks ++ [.exchanging req (s.cron.db.findVillage req.senderVillageId)] }
    | .error _ => s
  | .receiver k unique =>
    match s.tasks[k]? with
    | some (.exchanging req sender) =>
      match checkMilitary e.math e.speedOf req sender
          (s.cron.db.findVillage req.receiverVillageId) with
      | .ok c => s.goto k (.sending c unique)
      | .error _ => s.goto k .done
    | _ => s
  | .saveSender k =>
    match s.tasks[k]? with
    | some (.sending c unique) =>
      (s.setDb (s.cron.db.saveEntities c.senderLeft)).goto k (.queueing (c.item unique))
    | _ => s
  | .zadd k =>
    match s.tasks[k]? with
    | some (.queueing item) =>
      { s with cron := { s.cron with queue := s.cron.queue.insert item } }.goto k .done
    | _ => s
  | .produce token =>
    match readRows (selectRows s.game token) with
    | some sel =>
      if sel.due token then { s with tasks := s.tasks ++ [.producing token sel] } else s
    | none => s
  | .commit k now =>
    match s.tasks[k]? with
    | some (.producing token sel) =>
      (s.setGame ((deliverUnit now s.game token sel).getD s.game)).goto k .done
    | _ => s
  | .abort k => s.goto k .done
  | .cron a => { s with cron := Cron.step s.cron a }

/-- Nothing is under way. -/
def start (d : GameDb C) : State C := ⟨Cron.start d.toDb [], d.orders, d.production, []⟩

/-! ## The condition -/

/-- The rows that a tick inserts. -/
def Task.Missing (d : Db C) : Task C → Prop
  | .producing token sel =>
    sel.villageResourceTypeCount = none → d.NoRow token.villageId token.resourceTypeId
  | _ => True

/-- The rows that a callback inserts. -/
def CallbackMissing (d : Db C) : Cron.Callback C → Prop
  | .found item data =>
    (data.created.map SentMilitary.id).Nodup ∧
      ∀ resource ∈ data.created, d.NoRow item.receiverVillageId resource.id
  | _ => True

/-- The rows that a step inserts are missing, and are of different types. -/
def Missing (s : State C) : Action → Prop
  | .commit k _ => ∀ t ∈ s.tasks[k]?, t.Missing s.cron.db
  | .cron (.save k _) => ∀ c ∈ s.cron.callbacks[k]?, CallbackMissing s.cron.db c
  | _ => True

instance (d : Db C) (t : Task C) : Decidable (t.Missing d) :=
  match t with
  | .producing _ _ => inferInstanceAs (Decidable (_ → _))
  | .exchanging _ _ | .sending _ _ | .queueing _ | .done => isTrue trivial

instance (d : Db C) (c : Cron.Callback C) : Decidable (CallbackMissing d c) :=
  match c with
  | .found _ _ => inferInstanceAs (Decidable (_ ∧ ∀ resource ∈ _, _))
  | .started _ | .failed _ | .reverting _ _ | .saved _ | .removed _ => isTrue trivial

/-! ## The invariant -/

/-- The tables have one row for each type, and their villages are in use. -/
def Inv (d : Db C) : Prop := d.OneRowPerType ∧ d.InUse

variable {d d' : Db C}

theorem Inv.setCounts {f : VillageResourceType C → ℤ} (h : Inv d) : Inv (d.setCounts f) :=
  ⟨Db.oneRowPerType_setCounts.2 h.1, h.2.setCounts⟩

theorem Inv.insertCount {v : ℕ} {t : C.Ref} (h : Inv d) (hv : (d.villages.get? v).isSome)
    (hno : d.NoRow v t.id) (n : ℤ) : Inv (d.insertCount v t n) := by
  obtain ⟨village, hvillage⟩ := Option.isSome_iff_exists.1 hv
  obtain ⟨hmem, rfl⟩ := Table.get?_eq_some.1 hvillage
  exact ⟨(Db.oneRowPerType_insertCount_iff h.1 n).2 hno,
    h.2.insertCount (d.villages.lt_next village hmem) n⟩

theorem insertResource_eq_some {v : ℕ} {resource : SentMilitary}
    (h : insertResource v d resource = some d') :
    ∃ t : C.Ref, t.id = resource.id ∧ (d.villages.get? v).isSome ∧
      d' = d.insertCount v t resource.count := by
  obtain ⟨t, ht, h⟩ := Option.bind_eq_some_iff.1 h
  obtain ⟨village, hv, h⟩ := Option.bind_eq_some_iff.1 h
  exact ⟨t, Catalog.ofId?_eq_some.1 ht, by rw [hv]; rfl, (Option.some.inj h).symm⟩

/-- Rows of different types, none of which the village has. -/
theorem Inv.insertResources {v : ℕ} {created : List SentMilitary} (h : Inv d)
    (hn : (created.map SentMilitary.id).Nodup) (hno : ∀ resource ∈ created, d.NoRow v resource.id)
    (hcreated : created.foldlM (insertResource v) d = some d') : Inv d' := by
  induction created generalizing d with
  | nil =>
    cases hcreated
    exact h
  | cons resource rest ih =>
    obtain ⟨hnot, hn'⟩ := List.nodup_cons.1 hn
    obtain ⟨hresource, hrest⟩ := List.forall_mem_cons.1 hno
    obtain ⟨d₁, h₁, hcreated⟩ := Option.bind_eq_some_iff.1 hcreated
    obtain ⟨t, ht, hv, rfl⟩ := insertResource_eq_some h₁
    refine ih (h.insertCount hv (ht ▸ hresource) _) hn' (fun r hr => ?_) hcreated
    refine (hrest r hr).insertCount (fun heq => hnot ?_) _
    exact List.mem_map.2 ⟨r, hr, heq.symm.trans ht⟩

theorem Inv.saveDelivery {v : ℕ} {data : Delivery C} (h : Inv d)
    (hn : (data.created.map SentMilitary.id).Nodup)
    (hno : ∀ resource ∈ data.created, d.NoRow v resource.id)
    (hsave : saveDelivery d v data = some d') : Inv d' := by
  have hrows : ∀ id, d.NoRow v id → (d.saveEntities data.found).NoRow v id := by
    intro id hid r hr
    rw [Db.saveEntities, Db.rowsOf_setCounts] at hr
    obtain ⟨r₀, hr₀, rfl⟩ := List.mem_map.1 hr
    exact hid r₀ hr₀
  exact Inv.insertResources h.setCounts hn (fun r hr => hrows _ (hno r hr)) hsave

theorem Inv.deliverUnit {g g' : GameDb C} {now : ℤ} {token : OrderToken} {sel : Selected}
    (h : Inv g.toDb) (hmissing : sel.villageResourceTypeCount = none →
      g.toDb.NoRow token.villageId token.resourceTypeId)
    (hdeliver : deliverUnit now g token sel = some g') : Inv g'.toDb := by
  obtain ⟨stored, hstored, hdeliver⟩ := Option.bind_eq_some_iff.1 hdeliver
  obtain ⟨facility, -, hdeliver⟩ := Option.bind_eq_some_iff.1 hdeliver
  cases hdeliver
  show Inv stored
  unfold storeUnit at hstored
  split at hstored
  next hnone =>
    obtain ⟨t, ht, hstored⟩ := Option.bind_eq_some_iff.1 hstored
    obtain ⟨village, hv, hstored⟩ := Option.bind_eq_some_iff.1 hstored
    cases hstored
    refine h.insertCount (by rw [hv]; rfl) ?_ 1
    rw [Catalog.ofId?_eq_some.1 ht]
    exact hmissing hnone
  · cases hstored
    exact h.setCounts

/-- A call of the cron whose insertions are missing. -/
theorem Inv.cronStep {c : Cron.State C} (h : Inv c.db) (a : Cron.Action)
    (hok : ∀ k fails, a = .save k fails → ∀ cb ∈ c.callbacks[k]?, CallbackMissing c.db cb) :
    Inv (Cron.step c a).db := by
  cases a with
  | run due => exact h
  | find k =>
    simp only [Cron.step]
    split <;> exact h
  | save k fails =>
    simp only [Cron.step]
    split
    next item data hk =>
      obtain ⟨hn, hno⟩ := hok k fails rfl _ hk
      split
      next hsave => exact h.saveDelivery hn hno hsave
      · exact h
    · exact h
  | findSender k =>
    simp only [Cron.step]
    split <;> exact h
  | giveBack k =>
    simp only [Cron.step]
    split
    · exact h.setCounts
    · exact h
  | zrem k =>
    simp only [Cron.step]
    split <;> exact h

theorem Inv.step {e : Env C} {s : State C} (h : Inv s.cron.db) (a : Action) (hok : Missing s a) :
    Inv (Uniqueness.step e s a).cron.db := by
  cases a with
  | createVillage v isNew => exact Db.oneRow_newVillage h.1 h.2 v _
  | generateVillage v => exact Db.oneRow_generateVillage h.1 h.2 v
  | exchange req =>
    simp only [Uniqueness.step]
    split <;> exact h
  | receiver k unique =>
    simp only [Uniqueness.step]
    split
    · split <;> exact h
    · exact h
  | saveSender k =>
    simp only [Uniqueness.step]
    split
    · exact h.setCounts
    · exact h
  | zadd k =>
    simp only [Uniqueness.step]
    split <;> exact h
  | produce token =>
    simp only [Uniqueness.step]
    split
    · split <;> exact h
    · exact h
  | commit k now =>
    simp only [Uniqueness.step]
    split
    next token sel hk =>
      show Inv ((Production.deliverUnit now s.game token sel).getD s.game).toDb
      cases hdeliver : Production.deliverUnit now s.game token sel with
      | none => exact h
      | some g =>
        have hmissing : sel.villageResourceTypeCount = none →
            s.game.NoRow token.villageId token.resourceTypeId := hok _ hk
        exact Inv.deliverUnit h hmissing hdeliver
    · exact h
  | abort k => exact h
  | cron a =>
    refine h.cronStep a ?_
    rintro k fails rfl
    exact hok

/-! ## Runs -/

/-- No village gets two rows of a type in a run in which every row that is inserted is missing. -/
theorem one_row_per_type {e : Env C} {d : GameDb C} {s : State C} (hone : d.OneRowPerType)
    (huse : d.InUse) (h : Reach (graph (step e)) Missing (start d) s) :
    s.cron.db.OneRowPerType := by
  refine (h.inv (I := fun s => Inv s.cron.db) ⟨hone, huse⟩ ?_).1
  rintro s a s' hinv hok rfl
  exact hinv.step a hok

/-! ## A type sent twice to a village without a row of it -/

def sampleGame : GameDb sampleCatalog where
  toDb := Exchanges.sampleDb
  orders := Table.empty
  production := fun _ => .none

def sampleEnv : Env sampleCatalog := ⟨Attacks.sampleMath, fun _ => some 10⟩

/-- An exchange from village 1 to village 3, and its delivery. -/
def sampleExchange (sent : List Sent) (item : QueueItem) : List Action :=
  [.exchange (sampleRequest sent), .receiver 0 (1 / 4), .saveSender 0, .zadd 0,
    .cron (.run [item]), .cron (.find 0), .cron (.save 0 false)]

def sampleItem : QueueItem := ⟨[⟨5, 5⟩], 3, 1, 1 / 4⟩

theorem one_row_per_type_sample :
    ((sampleExchange sampleOnce sampleItem).foldl (step sampleEnv)
      (start sampleGame)).cron.db.OneRowPerType :=
  one_row_per_type (by decide) (by unfold Db.InUse; decide)
    (((((((Reach.refl.next (Action.exchange (sampleRequest sampleOnce)) trivial).next
      (Action.receiver 0 (1 / 4)) trivial).next (Action.saveSender 0) trivial).next
      (Action.zadd 0) trivial).next (Action.cron (.run [sampleItem])) trivial).next
      (Action.cron (.find 0)) trivial).next (Action.cron (.save 0 false))
      (by unfold Missing; decide +kernel))

/-- Village 3 gets a row of stone hunters for each of the two entries. -/
theorem two_rows_of_a_type :
    (sampleGame.OneRowPerType ∧ sampleGame.InUse) ∧
      Reach (graph (step sampleEnv)) always (start sampleGame)
        ((sampleExchange sampleTwice ⟨[⟨5, 5⟩, ⟨5, 7⟩], 3, 1, 1 / 4⟩).foldl (step sampleEnv)
          (start sampleGame)) ∧
      ¬((sampleExchange sampleTwice ⟨[⟨5, 5⟩, ⟨5, 7⟩], 3, 1, 1 / 4⟩).foldl (step sampleEnv)
          (start sampleGame)).cron.db.OneRowPerType :=
  ⟨⟨by decide, by unfold Db.InUse; decide⟩, Reach.refl.foldl _, by decide +kernel⟩

end Cme.Uniqueness
