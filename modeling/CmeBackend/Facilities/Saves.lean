import CmeBackend.Facilities.Building
import CmeBackend.Production.Tokens

/-!
# Saves of facilities

The operations that write to `facilities` as workers that run at the same time: building,
`upgradeFacility`, the creation of orders, the producer and the production cron. All but the first
and the last save a facility that they have loaded before, with all of its columns.

* `Worker`: the next call of a worker, with what it has loaded. A transaction is one call, but for
  that of the producer, which loads the facility in between. A facility that is saved is compared
  with its row and written in one step.
* `Worker.commit`: the tables after the call.
* `State.events`: what the calls have done to the facilities so far.
* `Found`: the orders have their tokens (`Lifecycle.Held`), and the facilities of workers have rows.
-/

namespace Cme.Facilities.Saves

open GameRules Production Redis Runs

variable {C : Catalog}

/-- A worker, by its next call. -/
inductive Worker (C : Catalog) where
  /-- The transaction of `create` of a facility. -/
  | building (c : CheckedCreate C)
  /-- The transaction of `upgradeFacility`. -/
  | upgrading (c : CheckedUpgrade C)
  /-- The transaction of `create` of an order. -/
  | ordering (c : CheckedOrder C)
  /-- `zadd` of a new order -/
  | queueing (c : CheckedOrder C) (orderId : ℕ)
  /-- The query of `produce`, for an item of `pending:resourceType`. -/
  | selecting (resourceType : String) (token : OrderToken)
  /-- The transaction of `produce`, before it loads the facility. -/
  | loading (resourceType : String) (token : OrderToken) (sel : Selected)
  /-- The rest of the transaction of `produce`. -/
  | saving (resourceType : String) (token : OrderToken) (sel : Selected)
    (facility : LoadedFacility C)
  /-- `zadd` of an order that goes on -/
  | requeueing (resourceType : String) (token : OrderToken)
  /-- The query of the cron, which has begun at `startedAt` and found the facilities to stamp. -/
  | stamping (facilityIds : List ℕ) (startedAt : ℤ)
  | ended

/-- What is done to a facility. -/
inductive Event where
  | upgraded (facilityId : ℕ)
  /-- An order is created. -/
  | ordered (facilityId : ℕ)
  /-- The last unit of an order is delivered. -/
  | completed (facilityId : ℕ)
  deriving DecidableEq

def Event.facilityId : Event → ℕ
  | .upgraded f | .ordered f | .completed f => f

structure State (C : Catalog) where
  db : GameDb C
  queues : Queues String OrderToken
  workers : List (Worker C)
  events : List Event

/-- What the operations take as given. -/
structure Env where
  /-- The facility of an order is loaded with its village. -/
  withVillage : Bool
  /-- The types of facilities by their ids. -/
  facilityTypes : List (ℕ × String)

inductive Action where
  /-- A request is loaded and checked. -/
  | build (facility : CreateFacility) (userId : ℕ)
  | upgrade (facilityId userId : ℕ)
  | order (order : CreateOrder)
  /-- The query of the cron begins. -/
  | stamp (facilityIds : List ℕ) (now : ℤ)
  /-- A call of the mover of a type. -/
  | move (resourceType : String) (c : MoverCall)
  /-- `lpop` of the producer -/
  | pop (resourceType : MilitaryResource) (reply : Reply)
  /-- The next call of the worker `k`. -/
  | call (k : ℕ) (reply : Reply) (now : ℤ)
  /-- The process of the worker `k` stops. -/
  | stop (k : ℕ)

/-! ## The calls -/

/-- `updated_facilities` of `resourcesCronQuery` -/
def stamp (d : GameDb C) (facilityIds : List ℕ) (now : ℤ) : GameDb C :=
  { d with
    production := fun id =>
      if id ∈ facilityIds then { d.production id with lastProductionAt := some now }
      else d.production id }

/-- The completion of an order, if its last unit is delivered. -/
def completions (d : GameDb C) (orderId : ℕ) : List Event :=
  match d.orders.get? orderId with
  | some o => if Lifecycle.Open o then [] else [.completed o.facilityId]
  | none => []

namespace Worker

/-- The tables after a call at the time `now`. `none`: the call cannot go through. -/
def commit (now : ℤ) (d : GameDb C) : Worker C → Option (GameDb C)
  | .building c => some (Facilities.create d c)
  | .upgrading c => some (upgradeFacility d c)
  | .ordering c => placeOrder d c
  | .saving _ token sel facility => saveUnit now d token sel facility
  | .stamping facilityIds startedAt => some (stamp d facilityIds startedAt)
  | _ => some d

/-- The queues after a call. -/
def queued (queues : Queues String OrderToken) : Worker C → Queues String OrderToken
  | .queueing c orderId => queues.zadd c.resourceRequested.type (c.token orderId)
  | .requeueing resourceType token => queues.zadd resourceType (Lifecycle.again token)
  | _ => queues

/-- What a call has done that leaves the tables `d`. -/
def events (d : GameDb C) : Worker C → List Event
  | .upgrading c => [.upgraded c.facility.facility.id]
  | .ordering c => [.ordered c.facility.facility.id]
  | .saving _ token _ _ => completions d token.orderId
  | _ => []

/-- After the query of `produce`. -/
def selected (resourceType : String) (token : OrderToken) (sel : Option Selected) : Worker C :=
  match sel with
  | some sel => if sel.due token then .loading resourceType token sel else .ended
  | none => .ended

/-- After the query for the facility. -/
def loaded (d : GameDb C) (resourceType : String) (token : OrderToken) (sel : Selected) :
    Worker C :=
  match d.findFacility false token.facilityId with
  | some facility => .saving resourceType token sel facility
  | none => .ended

/-- After the transaction of `produce`. -/
def delivered (resourceType : String) (token : OrderToken) (sel : Selected) : Worker C :=
  if sel.continued token then .requeueing resourceType token else .ended

/-- A worker after its call, which has found the tables `d`. -/
def next (d : GameDb C) : Worker C → Worker C
  | .ordering c => .queueing c d.orders.next
  | .selecting resourceType token => selected resourceType token (readRows (selectRows d token))
  | .loading resourceType token sel => loaded d resourceType token sel
  | .saving resourceType token sel _ => delivered resourceType token sel
  | _ => .ended

end Worker

/-! ## The steps -/

namespace State

variable (s : State C)

def goto (k : ℕ) (w : Worker C) : State C := { s with workers := s.workers.set k w }

def spawn (w : Worker C) : State C := { s with workers := s.workers ++ [w] }

/-- The call of a worker has gone through. -/
def write (w : Worker C) (d : GameDb C) : State C :=
  { s with db := d, queues := w.queued s.queues, events := s.events ++ w.events d }

/-- The next call of the worker `k`, at the time `now`. -/
def advance (k : ℕ) (reply : Reply) (now : ℤ) (w : Worker C) : State C :=
  match w.commit now s.db, reply with
  | some d, .ok => (s.write w d).goto k (w.next s.db)
  | some d, .lost => (s.write w d).goto k .ended
  | _, _ => s.goto k .ended

end State

def step (e : Env) (s : State C) : Action → State C
  | .build facility userId =>
    match checkCreate e.facilityTypes s.db facility userId with
    | .ok c => s.spawn (.building c)
    | .error _ => s
  | .upgrade facilityId userId =>
    match checkUpgrade s.db facilityId userId with
    | .ok c => s.spawn (.upgrading c)
    | .error _ => s
  | .order order =>
    match checkOrder e.withVillage s.db order with
    | .ok c => s.spawn (.ordering c)
    | .error _ => s
  | .stamp facilityIds now => s.spawn (.stamping facilityIds now)
  | .move resourceType c => { s with queues := s.queues.mover resourceType c }
  | .pop resourceType reply =>
    match reply, s.queues.lpop resourceType.name with
    | .ok, some (token, q) =>
      { s with queues := q, workers := s.workers ++ [.selecting resourceType.name token] }
    | .lost, some (_, q) => { s with queues := q }
    | _, _ => s
  | .call k reply now =>
    match s.workers[k]? with
    | some w => s.advance k reply now w
    | none => s
  | .stop k => s.goto k .ended

/-- No worker is under way. -/
def start (d : GameDb C) (queues : Queues String OrderToken) : State C := ⟨d, queues, [], []⟩

/-! ## What a call writes to facilities -/

variable {d d' : GameDb C} {s : State C} {w w₀ : Worker C} {k : ℕ} {now : ℤ} {token : OrderToken}
  {facility : Facility} {p : FacilityProduction} {e : Env}

/-- The columns of the facility that a worker saves. -/
def Worker.saved (now : ℤ) : Worker C → Option (Facility × FacilityProduction)
  | .upgrading c =>
    some ({ c.facility.facility with level := c.facility.facility.level + 1 },
      c.facility.production)
  | .ordering c => some (c.facility.facility, c.busy)
  | .saving _ token sel facility =>
    some (facility.facility, producedAt now (sel.continued token) facility.production)
  | _ => none

/-- What the statements that pay leave as it is. -/
theorem pay_eq (e : Db C) (village : LoadedVillage C) (costs : List FacilityTypeResPrice) :
    (pay e village costs).villages = e.villages ∧
      ∀ v t, (pay e village costs).rowsOfType v t = [] → e.rowsOfType v t = [] := by
  unfold pay
  generalize payments village costs = ps
  induction ps generalizing e with
  | nil => exact ⟨rfl, fun _ _ h => h⟩
  | cons cost ps ih =>
    obtain ⟨hvillages, hrows⟩ := ih (e.subtractFromCounts village.village.id [cost])
    refine ⟨hvillages, fun v t hnil => ?_⟩
    have hpaid := hrows v t hnil
    rw [Db.subtractFromCounts, Db.addToCounts, Db.rowsOfType_setCounts] at hpaid
    exact List.map_eq_nil_iff.1 hpaid

/-- Who saves a facility writes all of its columns. -/
theorem saved_of_commit (hsaved : w.saved now = some (facility, p))
    (hcommit : w.commit now d = some d') :
    d'.facilities = (d.saveFacility facility p).facilities ∧
      d'.production = (d.saveFacility facility p).production := by
  cases w with
  | upgrading c =>
    cases hsaved
    cases hcommit
    refine ⟨?_, rfl⟩
    show (pay d.toDb c.village c.resTypesCosts).facilities.update _ _ = _
    rw [facilities_pay]
    rfl
  | ordering c =>
    cases hsaved
    obtain ⟨amounts, -, -, rfl⟩ := placeOrder_eq_some.1 hcommit
    exact ⟨rfl, rfl⟩
  | saving resourceType token sel facility =>
    cases hsaved
    exact Lifecycle.saved_of_saveUnit hcommit
  | _ => cases hsaved

/-- The columns of a facility that others save. -/
structure Columns where
  level : ℤ
  isInProduction : Bool
  lastProductionAt : Option ℤ
  deriving DecidableEq

/-- The columns of a facility that is built. -/
def Columns.new : Columns := ⟨1, false, none⟩

def columns (d : GameDb C) (id : ℕ) : Option Columns :=
  (d.facilities.get? id).map fun f =>
    ⟨f.level, (d.production id).isInProduction, (d.production id).lastProductionAt⟩

theorem isSome_columns {id : ℕ} : (columns d id).isSome = (d.facilities.get? id).isSome :=
  Option.isSome_map

theorem columns_saved (hsaved : w.saved now = some (facility, p))
    (hcommit : w.commit now d = some d') (id : ℕ) :
    columns d' id = if id = facility.id then
      (columns d id).map fun _ => ⟨facility.level, p.isInProduction, p.lastProductionAt⟩
    else columns d id := by
  let save (f : Facility) : Facility :=
    { f with level := facility.level, facilityType := facility.facilityType }
  obtain ⟨hfacilities, hproduction⟩ := saved_of_commit hsaved hcommit
  have hrows : d'.facilities = d.facilities.update facility.id save := hfacilities
  have hupdate : d'.production = Function.update d.production facility.id p := hproduction
  unfold columns
  rw [hrows, hupdate]
  by_cases hid : id = facility.id
  · subst hid
    rw [if_pos rfl, Function.update_self]
    cases hrow : d.facilities.get? facility.id with
    | none =>
      rw [Table.get?_update (f := save) (fun _ => rfl), hrow]
      rfl
    | some f =>
      rw [Table.get?_update_self (f := save) hrow]
      rfl
  · rw [if_neg hid, Function.update_of_ne hid, Table.get?_update_of_ne (f := save) hid]

theorem columns_built (c : CheckedCreate C) (id : ℕ) :
    columns (Facilities.create d c) id =
      if id = d.facilities.next then some .new else columns d id := by
  unfold columns Facilities.create
  dsimp only
  rw [facilities_pay]
  by_cases hid : id = d.facilities.next
  · subst hid
    rw [if_pos rfl, Table.get?_insert_self, Function.update_self]
    rfl
  · rw [if_neg hid, Table.get?_insert_of_ne hid, Function.update_of_ne hid]

theorem columns_stamp (facilityIds : List ℕ) (startedAt : ℤ) (id : ℕ) :
    columns (stamp d facilityIds startedAt) id = if id ∈ facilityIds then
      (columns d id).map fun c => { c with lastProductionAt := some startedAt }
    else columns d id := by
  unfold columns stamp
  by_cases hid : id ∈ facilityIds
  · simp [hid, Function.comp_def]
  · simp [hid]

/-- A call deletes no facility. -/
theorem isSome_commit (hcommit : w.commit now d = some d') {id : ℕ}
    (h : (d.facilities.get? id).isSome) : (d'.facilities.get? id).isSome := by
  rw [← isSome_columns] at h ⊢
  have hsave : ∀ {facility p}, w.saved now = some (facility, p) → (columns d' id).isSome := by
    intro facility p hsaved
    rw [columns_saved hsaved hcommit]
    split
    · rwa [Option.isSome_map]
    · exact h
  cases w with
  | building c =>
    cases hcommit
    rw [columns_built]
    split
    · rfl
    · exact h
  | stamping facilityIds startedAt =>
    cases hcommit
    rw [columns_stamp]
    split
    · rwa [Option.isSome_map]
    · exact h
  | upgrading _ | ordering _ | saving _ _ _ _ => exact hsave rfl
  | queueing _ _ | selecting _ _ | loading _ _ _ | requeueing _ _ | ended =>
    cases hcommit
    exact h

/-! ## The orders of the workers -/

/-- A worker without what it does to facilities. -/
def Worker.view : Worker C → Lifecycle.Worker C
  | .ordering c => .paying c
  | .queueing c orderId => .queueing c orderId
  | .selecting resourceType token => .selecting resourceType token
  | .loading resourceType token sel => .delivering resourceType token sel
  | .saving resourceType token sel _ => .delivering resourceType token sel
  | .requeueing resourceType token => .requeueing resourceType token
  | .building _ | .upgrading _ | .stamping _ _ | .ended => .ended

def State.view (s : State C) : Lifecycle.State C := ⟨s.db, s.queues, s.workers.map Worker.view⟩

theorem view_goto (s : State C) (k : ℕ) (w : Worker C) :
    (s.goto k w).view = s.view.goto k w.view := by
  unfold State.goto State.view Lifecycle.State.goto
  rw [List.map_set]

theorem view_spawn (s : State C) (w : Worker C) :
    (s.spawn w).view = { s.view with workers := s.view.workers ++ [w.view] } := by
  unfold State.spawn State.view
  rw [List.map_append]
  rfl

theorem view_get (hk : s.workers[k]? = some w) : s.view.workers[k]? = some w.view := by
  show (s.workers.map Worker.view)[k]? = _
  rw [List.getElem?_map, hk]
  rfl

theorem view_selected (resourceType : String) (token : OrderToken) (sel : Option Selected) :
    (Worker.selected resourceType token sel : Worker C).view =
      Lifecycle.selected resourceType token sel := by
  cases sel with
  | none => rfl
  | some sel =>
    unfold Worker.selected Lifecycle.selected
    dsimp only
    split <;> rfl

theorem view_delivered (resourceType : String) (token : OrderToken) (sel : Selected) :
    (Worker.delivered resourceType token sel : Worker C).view =
      Lifecycle.delivered resourceType token sel := by
  unfold Worker.delivered Lifecycle.delivered
  split <;> rfl

/-- A call that has no part in the orders. -/
theorem keeps_commit (hview : w.view = .ended) (hcommit : w.commit now d = some d') :
    d'.orders = d.orders ∧ ∀ orderId, Lifecycle.Keeps orderId d d' := by
  have htables : d'.orders = d.orders ∧ d'.villages = d.villages ∧
      ∀ v t, d'.rowsOfType v t = [] → d.rowsOfType v t = [] := by
    cases w with
    | building c | upgrading c =>
      obtain ⟨hvillages, hrows⟩ := pay_eq d.toDb c.village c.resTypesCosts
      cases hcommit
      exact ⟨rfl, hvillages, hrows⟩
    | stamping facilityIds startedAt =>
      cases hcommit
      exact ⟨rfl, rfl, fun _ _ hnil => hnil⟩
    | ended =>
      cases hcommit
      exact ⟨rfl, rfl, fun _ _ hnil => hnil⟩
    | _ => cases hview
  obtain ⟨horders, hvillages, hrows⟩ := htables
  refine ⟨horders, fun orderId => ⟨fun id _ => ?_, fun id => ?_, fun id => ?_, hrows⟩⟩
  · exact congrArg (fun t : Table (Order C) => t.get? id) horders
  · exact congrArg (fun t : Table Village => (t.get? id).isSome) hvillages
  · exact isSome_commit hcommit

/-- A new worker that has no part in the orders. -/
theorem held_spawn (h : Lifecycle.Held s.view) (hview : w.view = .ended) :
    Lifecycle.Held (s.spawn w).view where
  queues := h.queues
  tasks := h.tasks
  workers := by
    rw [view_spawn, hview]
    exact List.forall_mem_append.2 ⟨h.workers, List.forall_mem_singleton.2 trivial⟩
  tokens id := by
    have hsame : ({ s.view with workers := s.view.workers ++ [.ended] } :
        Lifecycle.State C).tokens id = s.view.tokens id := by
      show s.queues.tokensOf id + Weights.weigh _ (s.view.workers ++ [.ended]) = s.view.tokens id
      rw [Weights.weigh_append_singleton, Lifecycle.holds_of_none rfl]
      rfl
    rw [view_spawn, hview]
    exact hsame.trans_le (h.tokens id)

/-- A call that goes through keeps the tokens of the orders. -/
theorem held_write (h : Lifecycle.Held s.view) (hk : s.workers[k]? = some w)
    (hcommit : w.commit now s.db = some d') :
    Lifecycle.Held ((s.write w d').goto k (w.next s.db)).view := by
  have hview := view_get hk
  have hgood := h.workers _ (List.mem_of_getElem? hview)
  rw [view_goto]
  cases w with
  | building _ | upgrading _ | stamping _ _ | ended =>
    obtain ⟨horders, hkeeps⟩ := keeps_commit rfl hcommit
    exact (h.keeps horders hkeeps).drop k
  | ordering c => exact h.paid hview hcommit
  | saving resourceType token sel facility =>
    have hdone := h.delivered hview (Lifecycle.counted_of_saveUnit hcommit)
    rw [← view_delivered] at hdone
    exact hdone
  | queueing c orderId =>
    cases hcommit
    exact h.zadd hview rfl hgood _
  | requeueing resourceType token =>
    cases hcommit
    have hqueued := h.zadd hview rfl hgood resourceType
    rw [← Lifecycle.again_of_known hgood] at hqueued
    exact hqueued
  | selecting resourceType token =>
    cases hcommit
    have hselected := h.selected hview
    rw [← view_selected] at hselected
    exact hselected
  | loading resourceType token sel =>
    cases hcommit
    show Lifecycle.Held (s.view.goto k (Worker.loaded s.db resourceType token sel).view)
    unfold Worker.loaded
    split
    · exact h.goto hview hgood fun _ => le_rfl
    · exact h.drop k

/-! ## What is so in every run -/

/-- The facility that a worker has loaded has a row. -/
def Worker.Found (d : GameDb C) : Worker C → Prop
  | .upgrading c => (d.facilities.get? c.facility.facility.id).isSome
  | .saving _ token _ facility => facility.facility.id = token.facilityId
  | _ => True

theorem Worker.Found.commit (h : w₀.Found d) (hcommit : w.commit now d = some d') :
    w₀.Found d' := by
  cases w₀ with
  | upgrading c => exact isSome_commit hcommit h
  | saving resourceType token sel facility => exact h
  | _ => trivial

structure Found (s : State C) : Prop where
  held : Lifecycle.Held s.view
  workers : ∀ w ∈ s.workers, w.Found s.db

namespace Found

/-- The facility that is saved has a row. -/
theorem row (h : Found s) (hk : s.workers[k]? = some w)
    (hsaved : w.saved now = some (facility, p)) :
    (s.db.facilities.get? facility.id).isSome := by
  have hgood := h.held.workers _ (List.mem_of_getElem? (view_get hk))
  have hfound := h.workers _ (List.mem_of_getElem? hk)
  cases w with
  | upgrading c =>
    cases hsaved
    exact hfound
  | ordering c =>
    cases hsaved
    exact hgood.facility
  | saving resourceType token sel loaded =>
    cases hsaved
    obtain ⟨o, hvalid, -⟩ := hgood
    have hid : loaded.facility.id = token.facilityId := hfound
    rw [hid]
    exact hvalid.facilityRow
  | _ => cases hsaved

/-- The order of a unit is open before, and it is open after unless the unit was its last one. -/
theorem order (h : Found s) {resourceType : String} {sel : Selected} {loaded : LoadedFacility C}
    (hk : s.workers[k]? = some (.saving resourceType token sel loaded))
    (hcommit : saveUnit now s.db token sel loaded = some d') :
    ∃ o o' : Order C, Lifecycle.Valid s.db token o ∧ Lifecycle.Open o ∧
      Lifecycle.Valid d' token o' ∧ (Lifecycle.Open o' ↔ sel.continued token = true) := by
  have hview := view_get hk
  obtain ⟨o, hvalid, hcount, hrows⟩ := h.held.workers _ (List.mem_of_getElem? hview)
  obtain ⟨o', hvalid', hopen'⟩ :=
    (Lifecycle.counted_of_saveUnit hcommit).order hvalid hcount hrows
  exact ⟨o, o', hvalid, h.held.open_of_only hview rfl hvalid.order, hvalid', hopen'⟩

/-- A worker ends. -/
theorem drop (h : Found s) (k : ℕ) : Found (s.goto k .ended) where
  held := by
    rw [view_goto]
    exact h.held.drop k
  workers := Weights.forall_mem_set h.workers trivial

/-- A new worker that has no part in the orders. -/
theorem spawn (h : Found s) (hview : w.view = .ended) (hfound : w.Found s.db) :
    Found (s.spawn w) :=
  ⟨held_spawn h.held hview,
    List.forall_mem_append.2 ⟨h.workers, List.forall_mem_singleton.2 hfound⟩⟩

/-- A call goes through. -/
theorem write (h : Found s) (hk : s.workers[k]? = some w)
    (hcommit : w.commit now s.db = some d') : Found ((s.write w d').goto k (w.next s.db)) := by
  refine ⟨held_write h.held hk hcommit, ?_⟩
  refine Weights.forall_mem_set (fun w' hw' => (h.workers w' hw').commit hcommit) ?_
  cases w with
  | selecting resourceType token =>
    show (Worker.selected resourceType token _).Found d'
    unfold Worker.selected
    split
    · split <;> trivial
    · trivial
  | loading resourceType token sel =>
    show (Worker.loaded s.db resourceType token sel).Found d'
    unfold Worker.loaded
    split
    next facility hfacility =>
      exact (Table.get?_eq_some.1 (GameDb.findFacility_eq_some hfacility).1).2
    · trivial
  | saving resourceType token sel facility =>
    show (Worker.delivered resourceType token sel).Found d'
    unfold Worker.delivered
    split <;> trivial
  | _ => trivial

theorem advance (h : Found s) (hk : s.workers[k]? = some w) (reply : Reply) (now : ℤ) :
    Found (s.advance k reply now w) := by
  unfold State.advance
  split
  next hcommit => exact h.write hk hcommit
  next d hcommit =>
    have hended : (s.write w d).goto k .ended =
        ((s.write w d).goto k (w.next s.db)).goto k .ended := by
      unfold State.goto
      rw [List.set_set]
    rw [hended]
    exact (h.write hk hcommit).drop k
  · exact h.drop k

theorem step (h : Found s) (a : Action) : Found (step e s a) := by
  cases a with
  | build facility userId =>
    simp only [Saves.step]
    split
    · exact h.spawn rfl trivial
    · exact h
  | upgrade facilityId userId =>
    simp only [Saves.step]
    split
    next c hc =>
      have hrow := (GameDb.findFacility_eq_some (checkUpgrade_eq_ok hc).facility).1
      have hid : c.facility.facility.id = facilityId := (Table.get?_eq_some.1 hrow).2
      refine h.spawn rfl ?_
      show (s.db.facilities.get? c.facility.facility.id).isSome
      rw [hid, hrow]
      rfl
    · exact h
  | order order =>
    simp only [Saves.step]
    split
    next c hc =>
      refine ⟨?_, List.forall_mem_append.2 ⟨h.workers, List.forall_mem_singleton.2 trivial⟩⟩
      rw [view_spawn]
      exact h.held.create hc
    · exact h
  | stamp facilityIds now => exact h.spawn rfl trivial
  | move resourceType c => exact ⟨h.held.mover resourceType c, h.workers⟩
  | pop resourceType reply =>
    simp only [Saves.step]
    split
    next token q hpop =>
      refine ⟨?_, List.forall_mem_append.2 ⟨h.workers, List.forall_mem_singleton.2 trivial⟩⟩
      show Lifecycle.Held ⟨s.db, q, (s.workers ++ [_]).map Worker.view⟩
      rw [List.map_append]
      exact h.held.pop hpop
    next hpop => exact ⟨h.held.pop_lost hpop, h.workers⟩
    · exact h
  | call k reply now =>
    simp only [Saves.step]
    split
    next hk => exact h.advance hk reply now
    · exact h
  | stop k => exact h.drop k

end Found

/-! ## The calls that go through -/

/-- If the step is a call of a worker that goes through, the worker meets `P`. -/
def Writing (P : ℤ → Worker C → Prop) (s : State C) : Action → Prop
  | .call k reply now =>
    reply ≠ .refused → ∀ w ∈ s.workers[k]?, (w.commit now s.db).isSome → P now w
  | _ => True

instance (P : ℤ → Worker C → Prop) [∀ now w, Decidable (P now w)] (s : State C) (a : Action) :
    Decidable (Writing P s a) :=
  match a with
  | .call _ _ _ => inferInstanceAs (Decidable (_ → ∀ w ∈ _, _ → _))
  | .build _ _ | .upgrade _ _ | .order _ | .stamp _ _ | .move _ _ | .pop _ _ | .stop _ =>
    isTrue trivial

theorem writing_call {P : ℤ → Worker C → Prop} {reply : Reply} (hk : s.workers[k]? = some w) :
    Writing P s (.call k reply now) ↔
      (reply ≠ .refused → (w.commit now s.db).isSome → P now w) := by
  show (_ → ∀ w ∈ s.workers[k]?, _) ↔ _
  rw [hk]
  exact forall_congr' fun _ => ⟨fun h => h w rfl, fun h w' hw' => by cases hw'; exact h⟩

/-- The call of a worker goes through, or it keeps the tables. -/
theorem advance_cases (s : State C) (k : ℕ) (reply : Reply) (now : ℤ) (w : Worker C) :
    (∃ d', reply ≠ .refused ∧ w.commit now s.db = some d' ∧ (s.advance k reply now w).db = d' ∧
      (s.advance k reply now w).events = s.events ++ w.events d') ∨
    (s.advance k reply now w).db = s.db ∧ (s.advance k reply now w).events = s.events ∧
      (reply = .refused ∨ w.commit now s.db = none) := by
  unfold State.advance
  cases hcommit : w.commit now s.db with
  | none => exact .inr ⟨rfl, rfl, .inr rfl⟩
  | some d' =>
    cases reply with
    | ok => exact .inl ⟨d', by decide, rfl, rfl, rfl⟩
    | refused => exact .inr ⟨rfl, rfl, .inl rfl⟩
    | lost => exact .inl ⟨d', by decide, rfl, rfl, rfl⟩

/-- A step is a call of a worker that goes through, or it keeps the tables. -/
theorem step_cases (e : Env) (s : State C) (a : Action) :
    (∃ (k : ℕ) (now : ℤ) (w : Worker C) (d' : GameDb C), s.workers[k]? = some w ∧
      w.commit now s.db = some d' ∧ (step e s a).db = d' ∧
      (step e s a).events = s.events ++ w.events d' ∧ ∀ P, Writing P s a ↔ P now w) ∨
    (step e s a).db = s.db ∧ (step e s a).events = s.events ∧ ∀ P, Writing P s a := by
  cases a with
  | call k reply now =>
    simp only [step]
    split
    next w hk =>
      rcases advance_cases s k reply now w with
        ⟨d', hreply, hcommit, hdb, hevents⟩ | ⟨hdb, hevents, hfail⟩
      · refine .inl ⟨k, now, w, d', hk, hcommit, hdb, hevents, fun P => ?_⟩
        rw [writing_call hk, hcommit]
        exact ⟨fun h => h hreply rfl, fun h _ _ => h⟩
      · refine .inr ⟨hdb, hevents, fun P => (writing_call hk).2 fun hreply hsome => ?_⟩
        rcases hfail with hfail | hfail
        · exact absurd hfail hreply
        · rw [hfail] at hsome
          cases hsome
    next hk =>
      refine .inr ⟨rfl, rfl, fun P _ w hw => ?_⟩
      rw [hk] at hw
      cases hw
  | build _ _ | upgrade _ _ | order _ =>
    simp only [step]
    split <;> exact .inr ⟨rfl, rfl, fun _ => trivial⟩
  | pop _ _ =>
    simp only [step]
    split <;> exact .inr ⟨rfl, rfl, fun _ => trivial⟩
  | stamp _ _ | move _ _ | stop _ => exact .inr ⟨rfl, rfl, fun _ => trivial⟩

/-- What the queues hold when a run starts. -/
theorem Found.start {queues : Queues String OrderToken}
    (h : Lifecycle.Held (⟨d, queues, []⟩ : Lifecycle.State C)) : Found (start d queues) :=
  ⟨h, fun _ hw => absurd hw List.not_mem_nil⟩

end Cme.Facilities.Saves
