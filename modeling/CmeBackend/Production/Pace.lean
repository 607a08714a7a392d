import CmeBackend.Lib.Delays
import CmeBackend.Production.Ending

/-!
# The pace of production

The runs of `Lifecycle` on a clock. A worker reads the time between two of its calls, and a mover when
it starts. The token of an order has the score of the time that was read and of the production time of
its unit, so an order gets at most one unit in each production time (`units_take_time`), whatever fails
and in whatever order the steps come.

* `Clocked`: a state with the clock, the scores of the sets, the time of the last call of each worker,
  and the time of the transaction of each order, which is not before its `created_at`.
* `Due`: the time for which the token of an order waits.
* `OnTime`: no token is in a list, and no worker has one in hand, before that time.
-/

namespace Cme.Production.Lifecycle

open GameRules Redis Runs Weights

variable {C : Catalog} {withVillage : Bool} {d d' : GameDb C} {k : ℕ} {token : OrderToken}
  {o : Order C} {w w₀ : Worker C} {reply : Reply} {t t' : ℤ}

/-! ## Runs on a clock -/

structure Clocked (C : Catalog) where
  state : State C
  clock : ℤ
  score : Scores String
  /-- The time of the last call of each worker. -/
  since : ℕ → ℤ
  /-- The time of the transaction of each order. -/
  createdAt : ℕ → ℤ

/-- `descriptor.productionTime * 1000` -/
def milliseconds (productionTime : ℕ) : ℤ := productionTime * 1000

/-- The scores after a call of a worker. -/
def Worker.scored (reply : Reply) (now : ℤ) (score : Scores String) : Worker C → Scores String
  | .queueing c orderId =>
    if reply = .refused then score
    else Function.update score (c.resourceRequested.type, orderId)
      (now + milliseconds (productionTime c.unit))
  | .requeueing resourceType token =>
    if reply = .refused then score
    else Function.update score (resourceType, token.orderId)
      (now + milliseconds token.productionTime)
  | _ => score

/-- The times of the transactions after a call of a worker. -/
def Worker.stamped (time : ℤ) (next : ℕ) (createdAt : ℕ → ℤ) : Worker C → ℕ → ℤ
  | .paying _ => Function.update createdAt next time
  | _ => createdAt

/-- The action as the time that was read has it. -/
def Clocked.actionAt (s : Clocked C) (now : ℤ) : Action → Action
  | .move resourceType c => .move resourceType (c.dueAt s.score now resourceType)
  | .call k reply _ => .call k reply now
  | a => a

/-- One step on the clock. -/
def tick (withVillage : Bool) (s : Clocked C) (a : Tick Action) : Clocked C :=
  let state := step withVillage s.state (s.actionAt a.now a.action)
  match a.action with
  | .call k reply _ =>
    match s.state.workers[k]? with
    | some w =>
      { state
        clock := a.time
        score := w.scored reply a.now s.score
        since := Function.update s.since k a.time
        createdAt := w.stamped a.time s.state.db.orders.next s.createdAt }
    | none => { s with state, clock := a.time }
  | _ => { s with state, clock := a.time }

/-- No worker is under way at the time `t`. -/
def startAt (d : GameDb C) (queues : Queues String OrderToken) (score : Scores String)
    (createdAt : ℕ → ℤ) (t : ℤ) : Clocked C :=
  ⟨start d queues, t, score, fun _ => t, createdAt⟩

/-- Whether a worker has read the time since its last call. -/
def Clocked.readInTurn (s : Clocked C) (now : ℤ) : Action → Prop
  | .call k _ _ => s.since k ≤ now
  | _ => True

/-- The clock does not go back, and a process has read the time before its call. -/
structure InOrder (s : Clocked C) (a : Tick Action) : Prop where
  clock : s.clock ≤ a.time
  now : a.now ≤ a.time
  since : s.readInTurn a.now a.action

instance (s : Clocked C) (now : ℤ) (a : Action) : Decidable (s.readInTurn now a) :=
  match a with
  | .call _ _ _ => inferInstanceAs (Decidable (_ ≤ _))
  | .create _ | .move _ _ | .pop _ _ | .stop _ => isTrue trivial

instance (s : Clocked C) (a : Tick Action) : Decidable (InOrder s a) :=
  decidable_of_iff (s.clock ≤ a.time ∧ a.now ≤ a.time ∧ s.readInTurn a.now a.action)
    ⟨fun h => ⟨h.1, h.2.1, h.2.2⟩, fun h => ⟨h.clock, h.now, h.since⟩⟩

/-! ## What a token waits for -/

/-- The production time of the unit of an order. -/
def period (o : Order C) : ℤ :=
  match MilitaryResource.ofName? o.resourceType.type with
  | some u => milliseconds (productionTime u)
  | none => 0

theorem period_of_name {u : MilitaryResource} (h : u.name = o.resourceType.type) :
    period o = milliseconds (productionTime u) := by
  unfold period
  rw [MilitaryResource.ofName?_eq_some.2 h]

/-- At the time `t`, the order of a token may get its next unit. -/
def Due (d : GameDb C) (createdAt : ℕ → ℤ) (token : OrderToken) (t : ℤ) : Prop :=
  ∀ o, d.orders.get? token.orderId = some o → milliseconds token.productionTime = period o ∧
    createdAt token.orderId + (o.deliveredQuantity + 1) * period o ≤ t

theorem Due.mono {createdAt : ℕ → ℤ} (h : Due d createdAt token t) (hle : t ≤ t') :
    Due d createdAt token t' :=
  fun o ho => ⟨(h o ho).1, (h o ho).2.trans hle⟩

/-- A step that changes no order but that with the id `orderId`. -/
def Spares (orderId : ℕ) (d d' : GameDb C) (createdAt createdAt' : ℕ → ℤ) : Prop :=
  ∀ id ≠ orderId, d'.orders.get? id = d.orders.get? id ∧ createdAt' id = createdAt id

theorem Due.spares {createdAt createdAt' : ℕ → ℤ} {orderId : ℕ} (h : Due d createdAt token t)
    (hspares : Spares orderId d d' createdAt createdAt') (hne : token.orderId ≠ orderId) :
    Due d' createdAt' token t := by
  obtain ⟨horder, hcreated⟩ := hspares _ hne
  unfold Due
  rw [horder, hcreated]
  exact h

/-- What a worker knows of the time, which has made its last call at `since`. -/
def Worker.OnTime (d : GameDb C) (createdAt : ℕ → ℤ) (clock since : ℤ) : Worker C → Prop
  | .paying c => c.unit.name = c.resourceRequested.type
  | .queueing c orderId =>
    Due d createdAt (c.token orderId) (since + milliseconds (productionTime c.unit))
  | .selecting _ token | .delivering _ token _ => Due d createdAt token clock
  | .requeueing _ token => Due d createdAt token (since + milliseconds token.productionTime)
  | .ended => True

theorem Worker.OnTime.mono {createdAt : ℕ → ℤ} {clock clock' since : ℤ}
    (h : w.OnTime d createdAt clock since) (hle : clock ≤ clock') :
    w.OnTime d createdAt clock' since := by
  cases w with
  | selecting resourceType token => exact Due.mono h hle
  | delivering resourceType token sel => exact Due.mono h hle
  | _ => exact h

/-- A worker does not notice a step that changes the order of another. -/
theorem Worker.OnTime.spares {createdAt createdAt' : ℕ → ℤ} {clock since : ℤ} {orderId : ℕ}
    (h : w.OnTime d createdAt clock since) (hspares : Spares orderId d d' createdAt createdAt')
    (hne : w.orderId ≠ some orderId) : w.OnTime d' createdAt' clock since := by
  have hother : ∀ {id}, w.orderId = some id → id ≠ orderId :=
    fun hid heq => hne (heq ▸ hid)
  cases w with
  | paying c => exact h
  | queueing c id => exact Due.spares h hspares (hother rfl)
  | selecting resourceType token => exact Due.spares h hspares (hother rfl)
  | delivering resourceType token sel => exact Due.spares h hspares (hother rfl)
  | requeueing resourceType token => exact Due.spares h hspares (hother rfl)
  | ended => trivial

/-! ## The invariant -/

variable {s : Clocked C} {first : ℕ}

/-- What holds after a call, if it goes through, if its worker does not hear of it, and if it fails. -/
theorem State.execute_cases {s : State C} {effect : Option (State C)} {next : Worker C}
    {P : State C → Prop} (hok : ∀ s' ∈ effect, P (s'.goto k next))
    (hlost : ∀ s' ∈ effect, P (s'.goto k .ended)) (hfail : P (s.goto k .ended)) :
    P (s.execute k reply effect next) := by
  unfold State.execute
  split
  next s' => exact hok s' rfl
  next s' => exact hlost s' rfl
  · exact hfail

/-- The orders with ids from `first` on have got no more than one unit in each production time. -/
structure OnTime (first : ℕ) (s : Clocked C) : Prop where
  held : Held s.state
  queues : Timely s.state.queues s.score s.clock (Due s.state.db s.createdAt)
  workers : ∀ k (w : Worker C), s.state.workers[k]? = some w →
    w.OnTime s.state.db s.createdAt s.clock (s.since k)
  pace : ∀ id o, first ≤ id → s.state.db.orders.get? id = some o →
    s.createdAt id + o.deliveredQuantity * period o ≤ s.clock

theorem OnTime.start {queues : Queues String OrderToken} {score : Scores String}
    {createdAt : ℕ → ℤ} (hheld : Held (start d queues))
    (hqueues : Timely queues score t (Due d createdAt))
    (hpace : ∀ o ∈ d.orders.rows, first ≤ o.id →
      createdAt o.id + o.deliveredQuantity * period o ≤ t) :
    OnTime first (startAt d queues score createdAt t) where
  held := hheld
  queues := hqueues
  workers _ _ hw := by cases hw
  pace id o hid ho := by
    obtain ⟨hmem, rfl⟩ := Table.get?_eq_some.1 ho
    exact hpace o hmem hid

namespace OnTime

/-- Time goes by. -/
theorem wait (h : OnTime first s) (hle : s.clock ≤ t) : OnTime first { s with clock := t } where
  held := h.held
  queues := h.queues.wait h.held.queues hle fun hx => hx.mono
  workers k w hk := (h.workers k w hk).mono hle
  pace id o hid ho := (h.pace id o hid ho).trans hle

/-- The workers after a step of one of them. -/
theorem workers_set (hk : s.state.workers[k]? = some w₀) {createdAt' : ℕ → ℤ} {clock : ℤ}
    (hothers : ∀ j (w' : Worker C), j ≠ k → s.state.workers[j]? = some w' →
      w'.OnTime d' createdAt' clock (s.since j))
    (hw : w.OnTime d' createdAt' clock t) :
    ∀ (j : ℕ) (w' : Worker C), (s.state.workers.set k w)[j]? = some w' →
      w'.OnTime d' createdAt' clock (Function.update s.since k t j) := by
  intro j w' hj
  by_cases hjk : j = k
  · subst hjk
    rw [List.getElem?_set_self (List.getElem?_eq_some_iff.1 hk).1] at hj
    obtain rfl := Option.some.inj hj
    rwa [Function.update_self]
  · rw [List.getElem?_set_ne (Ne.symm hjk)] at hj
    rw [Function.update_of_ne hjk]
    exact hothers j w' hjk hj

/-- A worker goes on, and the tables stay as they are. -/
theorem goto (h : OnTime first s) (hk : s.state.workers[k]? = some w₀)
    (hheld : Held (s.state.goto k w)) (hw : w.OnTime s.state.db s.createdAt s.clock t) :
    OnTime first { s with
      state := s.state.goto k w
      since := Function.update s.since k t } where
  held := hheld
  queues := h.queues
  workers := workers_set hk (fun j w' _ hj => h.workers j w' hj) hw
  pace := h.pace

/-- A worker ends. -/
theorem drop (h : OnTime first s) (k : ℕ) :
    OnTime first { s with state := s.state.goto k .ended } := by
  cases hk : s.state.workers[k]? with
  | some w =>
    have hended := h.goto (t := s.since k) hk (h.held.drop k) trivial
    rw [Function.update_eq_self] at hended
    exact hended
  | none =>
    rw [goto_of_none hk]
    exact h

/-- A worker goes on that has changed the order with the id `orderId`, of which nothing else has a
token. -/
theorem write (h : OnTime first s) (hk : s.state.workers[k]? = some w₀) {orderId : ℕ}
    {createdAt' : ℕ → ℤ} (hheld : Held (({ s.state with db := d' } : State C).goto k w))
    (hspares : Spares orderId s.state.db d' s.createdAt createdAt')
    (hqueues : s.state.queues.tokensOf orderId = 0)
    (hothers : ∀ j w', j ≠ k → s.state.workers[j]? = some w' → w'.orderId ≠ some orderId)
    (hw : w.OnTime d' createdAt' s.clock t)
    (hpace : ∀ o, d'.orders.get? orderId = some o →
      createdAt' orderId + o.deliveredQuantity * period o ≤ s.clock) :
    OnTime first { s with
      state := ({ s.state with db := d' } : State C).goto k w
      since := Function.update s.since k t
      createdAt := createdAt' } where
  held := hheld
  queues := h.queues.imp h.held.queues (Queues.all_of_tokensOf hqueues)
    (fun _ hne ha => ha.spares hspares hne) fun _ hne hx => hx.spares hspares hne
  workers := workers_set hk
    (fun j w' hj hw' => (h.workers j w' hw').spares hspares (hothers j w' hj hw')) hw
  pace id o hid ho := by
    by_cases heq : id = orderId
    · subst heq
      exact hpace o ho
    · obtain ⟨horder, hcreated⟩ := hspares id heq
      have ho' : s.state.db.orders.get? id = some o := horder ▸ ho
      show createdAt' id + _ ≤ s.clock
      rw [hcreated]
      exact h.pace id o hid ho'

/-- A worker queues the order in hand. -/
theorem zadd (h : OnTime first s) (hk : s.state.workers[k]? = some w)
    (hid : w.orderId = some token.orderId) (hknown : Known s.state.db token)
    (hdue : Due s.state.db s.createdAt token t) (resourceType : String) :
    OnTime first { s with
      state := { s.state with queues := s.state.queues.zadd resourceType token }.goto k .ended
      score := Function.update s.score (resourceType, token.orderId) t
      since := Function.update s.since k s.clock } where
  held := h.held.zadd hk hid hknown resourceType
  queues := h.queues.zadd_new (h.held.only hk hid).2.1 hdue resourceType
  workers := workers_set hk (fun j w' _ hj => h.workers j w' hj) trivial
  pace := h.pace

/-- The transaction of a request, or its failure. -/
theorem paid (h : OnTime first s) {c : CheckedOrder C} (hk : s.state.workers[k]? = some (.paying c))
    (hspares : Spares s.state.db.orders.next s.state.db d' s.createdAt
      (Function.update s.createdAt s.state.db.orders.next s.clock))
    (hheld : Held (({ s.state with db := d' } : State C).goto k w))
    (hw : w.OnTime d' (Function.update s.createdAt s.state.db.orders.next s.clock) s.clock s.clock)
    (hnew : ∀ o, d'.orders.get? s.state.db.orders.next = some o → o.deliveredQuantity = 0) :
    OnTime first { s with
      state := ({ s.state with db := d' } : State C).goto k w
      since := Function.update s.since k s.clock
      createdAt := Function.update s.createdAt s.state.db.orders.next s.clock } := by
  have hnone : openOrders s.state.db s.state.db.orders.next = 0 := by
    unfold openOrders
    rw [Table.get?_next]
    rfl
  have htokens : s.state.tokens s.state.db.orders.next = 0 :=
    Nat.le_zero.1 ((h.held.tokens _).trans_eq hnone)
  refine h.write hk hheld hspares (Nat.add_eq_zero_iff.1 htokens).1 (fun j w' _ hj hid => ?_) hw
    fun o ho => ?_
  · have hone := (h.held.only hj hid).1
    omega
  · rw [hnew o ho, Function.update_self, zero_mul, add_zero]

/-- A request pays, and its order waits for its first unit. -/
theorem call_paying (h : OnTime first s) {c : CheckedOrder C}
    (hk : s.state.workers[k]? = some (.paying c)) (now : ℤ) :
    OnTime first { s with
      state := s.state.advance k reply now (.paying c)
      since := Function.update s.since k s.clock
      createdAt := Function.update s.createdAt s.state.db.orders.next s.clock } := by
  have hname : c.unit.name = c.resourceRequested.type := h.workers k _ hk
  have hstamp : ∀ id ≠ s.state.db.orders.next,
      Function.update s.createdAt s.state.db.orders.next s.clock id = s.createdAt id :=
    fun id hid => Function.update_of_ne hid _ _
  have hplaced : ∀ d', placeOrder s.state.db c = some d' →
      Spares s.state.db.orders.next s.state.db d' s.createdAt
        (Function.update s.createdAt s.state.db.orders.next s.clock) ∧
      ∀ o, d'.orders.get? s.state.db.orders.next = some o →
        o.deliveredQuantity = 0 ∧ o.resourceType = c.resourceRequested := by
    intro d' hplace
    refine ⟨fun id hid => ⟨(keeps_placeOrder hplace).orders id hid, hstamp id hid⟩, fun o ho => ?_⟩
    obtain ⟨amounts, -, -, rfl⟩ := placeOrder_eq_some.1 hplace
    obtain rfl := Option.some.inj ((Table.get?_insert_self (t := s.state.db.orders)).symm.trans ho)
    exact ⟨rfl, rfl⟩
  refine State.execute_cases (P := fun s' => OnTime first { s with
    state := s'
    since := Function.update s.since k s.clock
    createdAt := Function.update s.createdAt s.state.db.orders.next s.clock }) ?_ ?_ ?_
  · rintro s' hs'
    obtain ⟨d', hplace, rfl⟩ := Option.map_eq_some_iff.1 hs'
    obtain ⟨hspares, hnew⟩ := hplaced d' hplace
    refine h.paid hk hspares (h.held.paid hk hplace) (fun o ho => ?_) fun o ho => (hnew o ho).1
    obtain ⟨hzero, htype⟩ := hnew o ho
    have hperiod : period o = milliseconds (productionTime c.unit) :=
      period_of_name (hname.trans (congrArg _ htype.symm))
    refine ⟨hperiod.symm, ?_⟩
    show Function.update s.createdAt s.state.db.orders.next s.clock s.state.db.orders.next + _ ≤ _
    rw [Function.update_self, hzero, hperiod, zero_add, one_mul]
  · rintro s' hs'
    obtain ⟨d', hplace, rfl⟩ := Option.map_eq_some_iff.1 hs'
    obtain ⟨hspares, hnew⟩ := hplaced d' hplace
    exact h.paid hk hspares (goto_goto ▸ (h.held.paid hk hplace).drop k) trivial
      fun o ho => (hnew o ho).1
  · refine h.paid hk (fun id hid => ⟨rfl, hstamp id hid⟩) (h.held.drop k) trivial fun o ho => ?_
    rw [Table.get?_next] at ho
    cases ho

/-- A tick delivers a unit, and the order waits for the next. -/
theorem call_delivering (h : OnTime first s) {resourceType : String} {sel : Selected}
    (hk : s.state.workers[k]? = some (.delivering resourceType token sel)) (now : ℤ) :
    OnTime first { s with
      state := s.state.advance k reply now (.delivering resourceType token sel)
      since := Function.update s.since k s.clock } := by
  have hdue : Due s.state.db s.createdAt token s.clock := h.workers k _ hk
  obtain ⟨o, hvalid, -, -⟩ := h.held.workers _ (List.mem_of_getElem? hk)
  obtain ⟨-, hqueues, hothers⟩ := h.held.only hk rfl
  obtain ⟨htime, hready⟩ := hdue o hvalid.order
  have hwrites : ∀ d', deliverUnit now s.state.db token sel = some d' →
      Spares token.orderId s.state.db d' s.createdAt s.createdAt ∧
      ∀ o', d'.orders.get? token.orderId = some o' →
        o'.deliveredQuantity = o.deliveredQuantity + 1 ∧ period o' = period o := by
    intro d' hdeliver
    have hcounted := (delivers_of_deliverUnit hdeliver).toCounted
    refine ⟨fun id hid => ⟨hcounted.keeps.orders id hid, rfl⟩, fun o' ho' => ?_⟩
    rw [hcounted.orders] at ho'
    obtain rfl := Option.some.inj ((Table.get?_update_self hvalid.order).symm.trans ho')
    exact ⟨rfl, rfl⟩
  have hpace : ∀ d', deliverUnit now s.state.db token sel = some d' →
      ∀ o', d'.orders.get? token.orderId = some o' →
        s.createdAt token.orderId + o'.deliveredQuantity * period o' ≤ s.clock := by
    intro d' hdeliver o' ho'
    obtain ⟨hcount, hperiod⟩ := (hwrites d' hdeliver).2 o' ho'
    rw [hcount, hperiod]
    exact hready
  refine State.execute_cases (P := fun s' => OnTime first { s with
    state := s'
    since := Function.update s.since k s.clock }) ?_ ?_ (h.goto hk (h.held.drop k) trivial)
  · rintro s' hs'
    obtain ⟨d', hdeliver, rfl⟩ := Option.map_eq_some_iff.1 hs'
    obtain ⟨hspares, hnew⟩ := hwrites d' hdeliver
    have hheld := h.held.delivered hk (delivers_of_deliverUnit hdeliver).toCounted
    refine h.write hk hheld hspares hqueues hothers ?_ (hpace d' hdeliver)
    unfold delivered
    split
    · intro o' ho'
      obtain ⟨hcount, hperiod⟩ := hnew o' ho'
      rw [hcount, hperiod, htime]
      refine ⟨rfl, ?_⟩
      linarith
    · trivial
  · rintro s' hs'
    obtain ⟨d', hdeliver, rfl⟩ := Option.map_eq_some_iff.1 hs'
    have hheld := h.held.delivered hk (delivers_of_deliverUnit hdeliver).toCounted
    exact h.write hk (goto_goto ▸ hheld.drop k) (hwrites d' hdeliver).1 hqueues hothers trivial
      (hpace d' hdeliver)

/-- A call of a worker that has read the time since its last one. -/
theorem call (h : OnTime first s) (hk : s.state.workers[k]? = some w) {now : ℤ}
    (hsince : s.since k ≤ now) :
    OnTime first { s with
      state := s.state.advance k reply now w
      score := w.scored reply now s.score
      since := Function.update s.since k s.clock
      createdAt := w.stamped s.clock s.state.db.orders.next s.createdAt } := by
  have hended := h.goto (t := s.clock) hk (h.held.drop k) trivial
  have hgood := h.held.workers w (List.mem_of_getElem? hk)
  have hontime := h.workers k w hk
  cases w with
  | paying c => exact h.call_paying hk now
  | delivering resourceType token sel => exact h.call_delivering hk now
  | queueing c orderId =>
    have hdue : Due s.state.db s.createdAt (c.token orderId)
        (now + milliseconds (productionTime c.unit)) :=
      Due.mono hontime (add_le_add_left hsince _)
    have hqueued := h.zadd hk rfl hgood hdue c.resourceRequested.type
    cases reply with
    | ok => exact hqueued
    | refused => exact hended
    | lost => exact hqueued
  | requeueing resourceType token =>
    have hdue : Due s.state.db s.createdAt token (now + milliseconds token.productionTime) :=
      Due.mono hontime (add_le_add_left hsince _)
    have hqueued := h.zadd hk rfl hgood hdue resourceType
    rw [← again_of_known hgood] at hqueued
    cases reply with
    | ok => exact hqueued
    | refused => exact hended
    | lost => exact hqueued
  | selecting resourceType token =>
    have hselected : (selected resourceType token (readRows (selectRows s.state.db token)) :
        Worker C).OnTime s.state.db s.createdAt s.clock s.clock := by
      unfold selected
      split
      · split
        · exact hontime
        · trivial
      · trivial
    refine State.execute_cases (P := fun s' => OnTime first { s with
      state := s'
      since := Function.update s.since k s.clock }) ?_ ?_ hended
    · rintro s' ⟨⟩
      exact h.goto hk (h.held.selected hk) hselected
    · rintro s' ⟨⟩
      exact hended
  | ended =>
    have hsame : s.state.goto k .ended = s.state := by
      obtain ⟨hlt, heq⟩ := List.getElem?_eq_some_iff.1 hk
      unfold State.goto
      rw [← heq, List.set_getElem_self]
    rw [hsame] at hended
    exact hended

/-- A new worker, with what the queues still hold. -/
theorem append (h : OnTime first s) {q : Queues String OrderToken}
    (hheld : Held { s.state with queues := q, workers := s.state.workers ++ [w] })
    (hqueues : Timely q s.score s.clock (Due s.state.db s.createdAt))
    (hw : ∀ since, w.OnTime s.state.db s.createdAt s.clock since) :
    OnTime first { s with
      state := { s.state with queues := q, workers := s.state.workers ++ [w] } } where
  held := hheld
  queues := hqueues
  workers k w' hk := by
    rw [List.getElem?_append] at hk
    split at hk
    · exact h.workers k w' hk
    · obtain rfl := List.mem_singleton.1 (List.mem_of_getElem? hk)
      exact hw _
  pace := h.pace

/-- The queues change. -/
theorem queues_change (h : OnTime first s) {q : Queues String OrderToken}
    (hheld : Held { s.state with queues := q })
    (hqueues : Timely q s.score s.clock (Due s.state.db s.createdAt)) :
    OnTime first { s with state := { s.state with queues := q } } where
  held := hheld
  queues := hqueues
  workers := h.workers
  pace := h.pace

theorem tick (h : OnTime first s) {a : Tick Action} (hok : InOrder s a) :
    OnTime first (tick withVillage s a) := by
  have hwait := h.wait hok.clock
  obtain ⟨-, hnow, hsince⟩ := hok
  obtain ⟨time, now, action⟩ := a
  cases action with
  | create order =>
    show OnTime first { s with state := step withVillage s.state (.create order), clock := time }
    simp only [step]
    split
    next c hc =>
      have hname : c.unit.name = c.resourceRequested.type := (checkOrder_eq_ok hc).unit
      exact hwait.append (h.held.create hc) hwait.queues fun _ => hname
    · exact hwait
  | move resourceType c =>
    exact hwait.queues_change (h.held.mover _ _)
      (hwait.queues.mover (fun hdue hle => hdue.mono hle) hnow c)
  | pop resourceType reply =>
    show OnTime first
      { s with state := step withVillage s.state (.pop resourceType reply), clock := time }
    simp only [step]
    split
    next hpop =>
      obtain ⟨hdue, hqueues⟩ := hwait.queues.lpop hpop
      exact hwait.append (h.held.pop hpop) hqueues fun _ => hdue
    next hpop => exact hwait.queues_change (h.held.pop_lost hpop) (hwait.queues.lpop hpop).2
    · exact hwait
  | call k reply _ =>
    unfold Lifecycle.tick
    cases hk : s.state.workers[k]? with
    | some w =>
      simp only [Clocked.actionAt, step, hk]
      exact hwait.call hk hsince
    | none =>
      simp only [Clocked.actionAt, step, hk]
      exact hwait
  | stop k => exact hwait.drop k

end OnTime

/-- **Units take their time.** In every run in which the clock does not go back, whatever fails and in
whatever order the steps come, an order has got no more units than its production time has gone by since
its transaction. At the start this is so for the orders with ids from `first` on, and no token has a
score that is before the time of its unit. -/
theorem units_take_time (withVillage : Bool) {queues : Queues String OrderToken}
    {score : Scores String} {createdAt : ℕ → ℤ} (hheld : Held (start d queues))
    (hqueues : Timely queues score t (Due d createdAt)) {first : ℕ}
    (hpace : ∀ o ∈ d.orders.rows, first ≤ o.id →
      createdAt o.id + o.deliveredQuantity * period o ≤ t) {ticks : List (Tick Action)}
    (hrun : Meets (tick withVillage) InOrder (startAt d queues score createdAt t) ticks) :
    let s := ticks.foldl (tick withVillage) (startAt d queues score createdAt t)
    ∀ o ∈ s.state.db.orders.rows, first ≤ o.id → ∀ u, u.name = o.resourceType.type →
      s.createdAt o.id + o.deliveredQuantity * milliseconds (productionTime u) ≤ s.clock := by
  intro s o ho hfirst u hu
  have hontime : OnTime first s :=
    hrun.inv (OnTime.start hheld hqueues hpace) fun s a h hok => h.tick hok
  rw [← period_of_name hu]
  exact hontime.pace o.id o hfirst (Table.get?_eq_some.2 ⟨ho, rfl⟩)

/-! ## Two units -/

/-- Two stone hunters have been ordered at 1000 and queued at 1200, and the first is delivered after
ten seconds. -/
def sampleTicks : List (Tick Action) :=
  [⟨11250, 11200, .move "stone_hunter" (.start [1])⟩,
    ⟨11260, 11260, .move "stone_hunter" (.move .ok)⟩, ⟨12000, 12000, .pop .stoneHunter .ok⟩,
    ⟨12010, 12010, .call 0 .ok 0⟩, ⟨12020, 12010, .call 0 .ok 0⟩, ⟨12030, 12025, .call 0 .ok 0⟩]

def sampleScores : Scores String := Function.update (fun _ => 0) ("stone_hunter", 1) 11200

/-- The state after a list of ticks. -/
def afterTicks (ticks : List (Tick Action)) : Clocked sampleCatalog :=
  ticks.foldl (tick false) (startAt sampleOrdered sampleQueues sampleScores (fun _ => 1000) 1300)

/-- A mover that comes early finds nothing that is due. -/
example : (afterTicks [⟨11199, 11199, .move "stone_hunter" (.start [1])⟩]).state.queues.moving
    "stone_hunter" = some [] := by
  decide +kernel

theorem due_sampleToken : Due sampleOrdered (fun _ => 1000) sampleToken 11200 := by
  intro o ho
  obtain rfl := Option.some.inj (valid_sampleToken.order.symm.trans ho)
  decide

theorem units_take_time_sample :
    (afterTicks sampleTicks).state.db.orders.rows.map Order.deliveredQuantity = [1] ∧
      ∀ o ∈ (afterTicks sampleTicks).state.db.orders.rows, 1 ≤ o.id →
        ∀ u : MilitaryResource, u.name = o.resourceType.type →
        (afterTicks sampleTicks).createdAt o.id +
          o.deliveredQuantity * milliseconds (productionTime u) ≤ (afterTicks sampleTicks).clock := by
  refine ⟨by decide +kernel, units_take_time false held_sampleOrdered ?_ ?_ (by decide +kernel)⟩
  · exact Timely.empty.zadd_new rfl due_sampleToken "stone_hunter"
  · decide

end Cme.Production.Lifecycle
