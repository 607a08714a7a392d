import CmeBackend.Production.Lifecycle
import CmeBackend.Villages.Totals

/-!
# One token for every open order

In a run in which no failure leaves an order behind, every order that is not delivered has exactly
one token if this is so at the start (`order_not_stranded`).

* `Valid`: what a token says about its order, which the steps of other orders keep (`Keeps`).
* `Worker.Good`: what a worker has found is still so.
* `Held`: an order has at most one token, and none unless it is open. This needs no condition.
* `Inv`: the tokens of an order are one if it is open, and none otherwise.
-/

namespace Cme.Production.Lifecycle

open GameRules Redis Runs Weights

variable {C : Catalog} {withVillage : Bool} {d d' : GameDb C} {s : State C} {k : ℕ}
  {token : OrderToken} {o : Order C} {w w₀ : Worker C} {reply : Reply}

/-! ## Tokens and their orders -/

/-- A token of the order `o`. -/
structure Valid (d : GameDb C) (token : OrderToken) (o : Order C) : Prop where
  order : d.orders.get? token.orderId = some o
  resourceType : o.resourceType.id = token.resourceTypeId
  quantity : o.orderedQuantity = token.orderedQuantity
  facility : o.facilityId = token.facilityId
  action : token.action = "create"
  village : (d.villages.get? token.villageId).isSome
  facilityRow : (d.facilities.get? token.facilityId).isSome
  /-- Units that have been delivered are in a row of the village. -/
  stored : d.rowsOfType token.villageId o.resourceType = [] → o.deliveredQuantity = 0

/-- A token of some order. -/
def Known (d : GameDb C) (token : OrderToken) : Prop := ∃ o, Valid d token o

/-- A step that changes no order but that with the id `orderId`, and deletes nothing. -/
structure Keeps (orderId : ℕ) (d d' : GameDb C) : Prop where
  orders : ∀ id ≠ orderId, d'.orders.get? id = d.orders.get? id
  villages : ∀ id, (d'.villages.get? id).isSome = (d.villages.get? id).isSome
  facilities : ∀ id, (d.facilities.get? id).isSome → (d'.facilities.get? id).isSome
  rows : ∀ v t, d'.rowsOfType v t = [] → d.rowsOfType v t = []

theorem Valid.keeps (h : Valid d token o) {orderId : ℕ} (hkeeps : Keeps orderId d d')
    (hne : token.orderId ≠ orderId) : Valid d' token o :=
  { h with
    order := (hkeeps.orders _ hne).trans h.order
    village := (hkeeps.villages _).trans h.village
    facilityRow := hkeeps.facilities _ h.facilityRow
    stored := fun hrows => h.stored (hkeeps.rows _ _ hrows) }

/-- An order that is paid can be stored, and its token is one of it. -/
structure Placeable (d : GameDb C) (c : CheckedOrder C) : Prop where
  village : (d.villages.get? c.village.village.id).isSome
  facility : (d.facilities.get? c.facility.facility.id).isSome
  quantity : 0 < c.orderedQuantity

theorem placeable_of_payable {order : CreateOrder} {c : CheckedOrder C}
    (h : Payable withVillage d order c) : Placeable d c where
  village := by
    obtain ⟨v, hv, -⟩ := Option.map_eq_some_iff.1 h.village_eq
    rw [h.village_id, hv]
    rfl
  facility := by
    rw [h.facility_id, h.get?_facility]
    rfl
  quantity := h.quantity_pos

/-- What a worker has found is still so. -/
def Worker.Good (d : GameDb C) : Worker C → Prop
  | .paying c => Placeable d c
  | .queueing c orderId => Known d (c.token orderId)
  | .selecting _ token | .requeueing _ token => Known d token
  | .delivering _ token sel => ∃ o, Valid d token o ∧ sel.deliveredQuantity = o.deliveredQuantity ∧
      (sel.villageResourceTypeCount.isSome → d.rowsOfType token.villageId o.resourceType ≠ [])
  | .ended => True

/-- A worker does not notice a step that changes the order of another. -/
theorem Worker.Good.keeps (h : w.Good d) {orderId : ℕ} (hkeeps : Keeps orderId d d')
    (hne : w.orderId ≠ some orderId) : w.Good d' := by
  have hother : ∀ {id}, w.orderId = some id → id ≠ orderId :=
    fun hid heq => hne (heq ▸ hid)
  cases w with
  | paying c =>
    exact ⟨(hkeeps.villages _).trans h.village, hkeeps.facilities _ h.facility, h.quantity⟩
  | queueing c id =>
    obtain ⟨o, hvalid⟩ := h
    exact ⟨o, hvalid.keeps hkeeps (hother rfl)⟩
  | selecting resourceType token =>
    obtain ⟨o, hvalid⟩ := h
    exact ⟨o, hvalid.keeps hkeeps (hother rfl)⟩
  | requeueing resourceType token =>
    obtain ⟨o, hvalid⟩ := h
    exact ⟨o, hvalid.keeps hkeeps (hother rfl)⟩
  | delivering resourceType token sel =>
    obtain ⟨o, hvalid, hdelivered, hrows⟩ := h
    exact ⟨o, hvalid.keeps hkeeps (hother rfl), hdelivered,
      fun hsome hnil => hrows hsome (hkeeps.rows _ _ hnil)⟩
  | ended => trivial

/-! ## The transactions -/

/-- The row of a facility that is saved keeps its id. -/
theorem isSome_saveFacility (d : GameDb C) (facility : Facility) (p : FacilityProduction) (id : ℕ) :
    ((d.saveFacility facility p).facilities.get? id).isSome = (d.facilities.get? id).isSome :=
  Table.isSome_get?_update id

theorem keeps_placeOrder {c : CheckedOrder C} (h : placeOrder d c = some d') :
    Keeps d.orders.next d d' := by
  obtain ⟨amounts, -, -, rfl⟩ := placeOrder_eq_some.1 h
  constructor
  · exact fun id hid => Table.get?_insert_of_ne hid
  · exact fun id => rfl
  · exact fun id hid => (isSome_saveFacility _ _ _ id).trans hid
  · intro v t hnil
    have hrows : (d.toDb.subtractFromCounts c.village.village.id amounts).rowsOfType v t = [] :=
      hnil
    rw [Db.subtractFromCounts, Db.addToCounts, Db.rowsOfType_setCounts] at hrows
    exact List.map_eq_nil_iff.1 hrows

/-- A new order, with its token. -/
theorem valid_placeOrder {c : CheckedOrder C} (h : placeOrder d c = some d') (hc : Placeable d c) :
    ∃ o, Valid d' (c.token d.orders.next) o ∧ Open o ∧ o.facilityId = c.facility.facility.id := by
  have hkeeps := keeps_placeOrder h
  obtain ⟨amounts, -, -, rfl⟩ := placeOrder_eq_some.1 h
  refine ⟨_, ⟨Table.get?_insert_self, rfl, rfl, rfl, rfl, ?_, ?_, fun _ => rfl⟩, ?_, rfl⟩
  · exact (hkeeps.villages _).trans hc.village
  · exact hkeeps.facilities _ hc.facility
  · exact Rat.num_pos.2 hc.quantity

/-- The tables after a unit is stored. -/
theorem storeUnit_eq_some {e e' : Db C} {count : Option ℤ} (h : storeUnit e token count = some e') :
    e'.villages = e.villages ∧ e'.facilities = e.facilities ∧
      (∀ v t, e'.rowsOfType v t = [] → e.rowsOfType v t = []) ∧
      (count = none → ∀ t : C.Ref, t.id = token.resourceTypeId →
        e'.rowsOfType token.villageId t ≠ []) := by
  unfold storeUnit at h
  split at h
  · obtain ⟨u, hu, h⟩ := Option.bind_eq_some_iff.1 h
    obtain ⟨village, -, h⟩ := Option.bind_eq_some_iff.1 h
    cases h
    refine ⟨rfl, rfl, fun v t hnil => ?_, fun _ t ht hnil => ?_⟩
    · obtain ⟨r, hr⟩ := e.rowsOfType_insertCount (v := v) (w := token.villageId) (t := t) (u := u) 1
      rw [hr] at hnil
      exact (List.append_eq_nil_iff.1 hnil).1
    · obtain rfl : u = t := Catalog.Ref.eq_of_id ((Catalog.ofId?_eq_some.1 hu).trans ht.symm)
      obtain ⟨r, hr⟩ := e.rowsOfType_insertCount (v := token.villageId) (w := token.villageId)
        (t := u) (u := u) 1
      rw [hr, if_pos ⟨rfl, rfl⟩] at hnil
      exact absurd (List.append_eq_nil_iff.1 hnil).2 (List.cons_ne_nil _ _)
  · cases h
    refine ⟨rfl, rfl, fun v t hnil => ?_, fun hnone => by cases hnone⟩
    rw [Db.addToCounts, Db.rowsOfType_setCounts] at hnil
    exact List.map_eq_nil_iff.1 hnil

/-- The transaction of `produce` goes through for a valid token. -/
theorem isSome_deliverUnit (h : Valid d token o) (now : ℤ) (sel : Selected) :
    (deliverUnit now d token sel).isSome := by
  obtain ⟨village, hvillage⟩ := Option.isSome_iff_exists.1 h.village
  obtain ⟨facility, hfacility⟩ := Option.isSome_iff_exists.1 h.facilityRow
  have hstore : (storeUnit d.toDb token sel.villageResourceTypeCount).isSome := by
    unfold storeUnit
    split
    · rw [Catalog.ofId?_eq_some.2 h.resourceType, hvillage]
      rfl
    · rfl
  obtain ⟨stored, hstored⟩ := Option.isSome_iff_exists.1 hstore
  unfold deliverUnit GameDb.findFacility
  rw [hstored, hfacility]
  rfl

/-- What the transaction of `produce` writes to the order and to the village. -/
structure Counted (d d' : GameDb C) (token : OrderToken) (sel : Selected) : Prop where
  keeps : Keeps token.orderId d d'
  orders : d'.orders = (deliverOne d token.orderId).orders
  /-- A unit that has no row gets one. -/
  stored : sel.villageResourceTypeCount = none → ∀ t : C.Ref, t.id = token.resourceTypeId →
    d'.rowsOfType token.villageId t ≠ []

/-- What the transaction of `produce` writes. -/
structure Delivers (d d' : GameDb C) (token : OrderToken) (sel : Selected) : Prop
    extends Counted d d' token sel where
  /-- The facility is free if the order is delivered, and as it was if not. -/
  facility : (d'.production token.facilityId).isInProduction =
    if sel.continued token then (d.production token.facilityId).isInProduction else false
  facilities : ∀ f ≠ token.facilityId, d'.production f = d.production f

/-- The columns of a facility that is saved are those of the entity. -/
theorem saved_of_saveUnit {now : ℤ} {sel : Selected} {facility : LoadedFacility C}
    (h : saveUnit now d token sel facility = some d') :
    let p := producedAt now (sel.continued token) facility.production
    d'.facilities = (d.saveFacility facility.facility p).facilities ∧
      d'.production = (d.saveFacility facility.facility p).production := by
  obtain ⟨stored, hstored, h⟩ := Option.bind_eq_some_iff.1 h
  cases h
  refine ⟨?_, rfl⟩
  show (stored.facilities.update _ _) = _
  rw [(storeUnit_eq_some hstored).2.1]
  rfl

theorem counted_of_saveUnit {now : ℤ} {sel : Selected} {facility : LoadedFacility C}
    (h : saveUnit now d token sel facility = some d') : Counted d d' token sel := by
  obtain ⟨stored, hstored, h⟩ := Option.bind_eq_some_iff.1 h
  cases h
  obtain ⟨hvillages, hfacilities, hrows, hnew⟩ := storeUnit_eq_some hstored
  refine ⟨⟨?_, ?_, ?_, hrows⟩, rfl, hnew⟩
  · exact fun id hid => Table.get?_update_of_ne hid
  · exact fun id => congrArg (fun t : Table Village => (t.get? id).isSome) hvillages
  · intro id hid
    refine (isSome_saveFacility _ _ _ id).trans ?_
    rwa [hfacilities]

theorem delivers_of_deliverUnit {now : ℤ} {sel : Selected}
    (h : deliverUnit now d token sel = some d') : Delivers d d' token sel := by
  obtain ⟨facility, hfacility, hsave⟩ := deliverUnit_eq_some.1 h
  obtain ⟨hrow, hproduction⟩ := GameDb.findFacility_eq_some hfacility
  have hid : facility.facility.id = token.facilityId := (Table.get?_eq_some.1 hrow).2
  have hsaved : d'.production = Function.update d.production facility.facility.id
      (producedAt now (sel.continued token) facility.production) := (saved_of_saveUnit hsave).2
  refine ⟨counted_of_saveUnit hsave, ?_, fun f hf => ?_⟩
  · rw [hsaved, hid, Function.update_self, ← hproduction]
    unfold producedAt
    rfl
  · rw [hsaved, hid, Function.update_of_ne hf]

/-- The order after a unit. -/
theorem Counted.order {sel : Selected} (h : Counted d d' token sel) (hvalid : Valid d token o)
    (hcount : sel.deliveredQuantity = o.deliveredQuantity)
    (hrows : sel.villageResourceTypeCount.isSome →
      d.rowsOfType token.villageId o.resourceType ≠ []) :
    ∃ o', Valid d' token o' ∧ (Open o' ↔ sel.continued token = true) := by
  have hstored : d'.rowsOfType token.villageId o.resourceType ≠ [] := by
    intro hnil
    cases hsel : sel.villageResourceTypeCount with
    | none => exact h.stored hsel _ hvalid.resourceType hnil
    | some count => exact hrows (hsel ▸ rfl) (h.keeps.rows _ _ hnil)
  refine ⟨{ o with deliveredQuantity := o.deliveredQuantity + 1 }, ?_, ?_⟩
  · exact { hvalid with
      order := by
        rw [h.orders]
        exact Table.get?_update_self hvalid.order
      village := (h.keeps.villages _).trans hvalid.village
      facilityRow := h.keeps.facilities _ hvalid.facilityRow
      stored := fun hnil => absurd hnil hstored }
  · unfold Selected.continued Open
    rw [decide_eq_true_iff, hcount, ← hvalid.quantity]

/-- The query of `produce` for a valid token of an open order finds what the order and the village
have. -/
theorem good_selected (h : Valid d token o) (hopen : Open o)
    (hone : (selectRows d token).length ≤ 1) (resourceType : String) :
    ∃ sel, selected resourceType token (readRows (selectRows d token)) =
        (.delivering resourceType token sel : Worker C) ∧
      (Worker.delivering resourceType token sel : Worker C).Good d := by
  have hselect : selectRows d token =
      (d.rowsOfType token.villageId o.resourceType).map fun vrt => (o, vrt) := by
    unfold selectRows
    rw [h.order]
  rw [hselect, List.length_map] at hone
  rw [hselect]
  match hrows : d.rowsOfType token.villageId o.resourceType, hone with
  | [], _ =>
    refine ⟨⟨0, none⟩, ?_, o, h, (h.stored hrows).symm, fun hsome => by cases hsome⟩
    simp [selected, readRows, Selected.due, h.action]
  | [vrt], _ =>
    refine ⟨⟨o.deliveredQuantity, some vrt.count⟩, ?_, o, h, rfl, fun _ hnil => ?_⟩
    · have hlt : o.deliveredQuantity < token.orderedQuantity := h.quantity ▸ hopen
      simp [selected, readRows, Selected.due, h.action, hlt]
    · rw [hrows] at hnil
      cases hnil

/-- More than one row is an error. -/
theorem readRows_of_length {rows : List (Order C × VillageResourceType C)} (h : 1 < rows.length) :
    readRows rows = none :=
  match rows, h with
  | _ :: _ :: _, _ => rfl

/-- An item that is queued again is as it was. -/
theorem again_of_known (h : Known d token) : again token = token := by
  obtain ⟨o, hvalid⟩ := h
  unfold again
  rw [← hvalid.action]

/-! ## Tokens of open orders -/

/-- Whether an order is open, as a number. -/
def openOrders (d : GameDb C) (orderId : ℕ) : ℕ :=
  ((d.orders.get? orderId).map fun o => if Open o then 1 else 0).getD 0

theorem openOrders_of_get? {orderId : ℕ} (h : d.orders.get? orderId = some o) :
    openOrders d orderId = if Open o then 1 else 0 := by
  rw [openOrders, h]
  rfl

theorem openOrders_le (d : GameDb C) (orderId : ℕ) : openOrders d orderId ≤ 1 := by
  unfold openOrders
  cases d.orders.get? orderId with
  | none => exact Nat.zero_le 1
  | some o =>
    show (if Open o then 1 else 0) ≤ 1
    split <;> decide

theorem openOrders_ne_zero {orderId : ℕ} (h : openOrders d orderId ≠ 0) :
    ∃ o, d.orders.get? orderId = some o ∧ Open o := by
  cases ho : d.orders.get? orderId with
  | none =>
    unfold openOrders at h
    rw [ho] at h
    exact absurd rfl h
  | some o =>
    rw [openOrders_of_get? ho] at h
    exact ⟨o, rfl, by_contra fun hnot => h (if_neg hnot)⟩

theorem Keeps.openOrders {orderId : ℕ} (h : Keeps orderId d d') {id : ℕ} (hid : id ≠ orderId) :
    openOrders d' id = openOrders d id := by
  unfold Lifecycle.openOrders
  rw [h.orders id hid]

/-- A worker that goes on takes its order along. -/
theorem tokens_goto (hk : s.workers[k]? = some w₀) (w : Worker C) (id : ℕ) :
    (s.goto k w).tokens id + w₀.holds id = s.tokens id + w.holds id := by
  have hset := weigh_set (w := Worker.holds id) (b := w) hk
  show s.queues.tokensOf id + weigh _ (s.workers.set k w) + w₀.holds id =
    s.queues.tokensOf id + weigh _ s.workers + w.holds id
  omega

theorem holds_of_orderId {orderId : ℕ} (h : w.orderId = some orderId) (id : ℕ) :
    w.holds id = if orderId = id then 1 else 0 := by
  unfold Worker.holds
  rw [h]
  exact if_congr ⟨Option.some.inj, congrArg some⟩ rfl rfl

theorem holds_self {id : ℕ} (h : w.orderId = some id) : w.holds id = 1 := if_pos h

theorem holds_of_none (h : w.orderId = none) (id : ℕ) : w.holds id = 0 := by
  unfold Worker.holds
  rw [h]
  rfl

/-- The order of a worker after a unit. -/
theorem holds_delivered {resourceType : String} {sel : Selected} {id : ℕ} :
    (delivered (C := C) resourceType token sel).holds id =
      if token.orderId = id then if sel.continued token = true then 1 else 0 else 0 := by
  unfold delivered
  split
  · exact holds_of_orderId rfl id
  · rw [ite_self]
    exact holds_of_none rfl id

/-- A worker that does not exist. -/
theorem goto_of_none (hk : s.workers[k]? = none) (w : Worker C) : s.goto k w = s := by
  unfold State.goto
  rw [List.set_eq_of_length_le (List.getElem?_eq_none_iff.1 hk)]

/-- A worker that goes on twice. -/
theorem goto_goto {w' : Worker C} : (s.goto k w).goto k w' = s.goto k w' := by
  unfold State.goto
  rw [List.set_set]

theorem tokens_create (c : CheckedOrder C) (id : ℕ) :
    ({ s with workers := s.workers ++ [.paying c] } : State C).tokens id = s.tokens id := by
  have hpaying := holds_of_none (w := .paying c) rfl id
  show s.queues.tokensOf id + weigh _ (s.workers ++ [.paying c]) = s.tokens id
  rw [weigh_append_singleton, hpaying]
  rfl

theorem tokens_pop {name : String} {q : Queues String OrderToken}
    (hpop : s.queues.lpop name = some (token, q)) (id : ℕ) :
    ({ s with queues := q, workers := s.workers ++ [.selecting name token] } : State C).tokens id =
      s.tokens id := by
  have htaken := Queues.tokensOf_lpop (k := id) hpop
  have hholds : (Worker.selecting name token : Worker C).holds id =
      if key token = id then 1 else 0 := holds_of_orderId rfl id
  show q.tokensOf id + weigh _ (s.workers ++ [.selecting name token]) =
    s.queues.tokensOf id + weigh _ s.workers
  rw [weigh_append_singleton, hholds]
  omega

theorem tokens_mover (h : s.queues.Sound) (resourceType : String) (c : MoverCall) (id : ℕ) :
    ({ s with queues := s.queues.mover resourceType c } : State C).tokens id = s.tokens id := by
  have hsame : (s.queues.mover resourceType c).tokensOf id = s.queues.tokensOf id :=
    Queues.census_mover h c
  show (s.queues.mover resourceType c).tokensOf id + weigh _ s.workers = _
  rw [hsame]
  rfl

/-- An order has at most one token, and none unless it is open. Every step keeps this. -/
structure Held (s : State C) : Prop where
  queues : s.queues.Sound
  tasks : s.queues.All (Known s.db)
  workers : ∀ w ∈ s.workers, w.Good s.db
  tokens : ∀ id, s.tokens id ≤ openOrders s.db id

theorem Held.start (d : GameDb C) : Held (start d Queues.empty) where
  queues := Queues.sound_empty
  tasks := Queues.all_empty
  workers _ hw := absurd hw List.not_mem_nil
  tokens _ := Nat.zero_le _

namespace Held

/-- A token of an open order that has none. -/
theorem zadd_start {queues : Queues String OrderToken} (h : Held (Lifecycle.start d queues))
    (hvalid : Valid d token o) (hopen : Open o) (hnew : queues.tokensOf token.orderId = 0)
    (resourceType : String) : Held (Lifecycle.start d (queues.zadd resourceType token)) where
  queues := h.queues.zadd _ _
  tasks := h.tasks.zadd ⟨o, hvalid⟩ _
  workers := h.workers
  tokens id := by
    have htokens : (queues.zadd resourceType token).tokensOf id =
        queues.tokensOf id + if token.orderId = id then 1 else 0 :=
      Queues.tokensOf_zadd hnew resourceType
    have hbefore : queues.tokensOf id ≤ openOrders d id := h.tokens id
    show (queues.zadd resourceType token).tokensOf id ≤ openOrders d id
    rw [htokens]
    by_cases hid : token.orderId = id
    · subst hid
      rw [hnew, if_pos rfl, openOrders_of_get? hvalid.order, if_pos hopen]
    · rwa [if_neg hid]

/-- The order of a worker is open, and nothing else has a token of it. -/
theorem only (h : Held s) (hk : s.workers[k]? = some w) {id : ℕ} (hid : w.orderId = some id) :
    openOrders s.db id = 1 ∧ s.queues.tokensOf id = 0 ∧
      ∀ j w', j ≠ k → s.workers[j]? = some w' → w'.orderId ≠ some id := by
  have hle := le_weigh_get (w := Worker.holds id) hk
  have htokens := h.tokens id
  have hopen := openOrders_le s.db id
  rw [holds_self hid] at hle
  unfold State.tokens at htokens
  refine ⟨by omega, by omega, fun j w' hj hw' hid' => ?_⟩
  have hsum := add_le_weigh (w := Worker.holds id) hw' hk hj
  rw [holds_self hid, holds_self hid'] at hsum
  omega

theorem open_of_only (h : Held s) (hk : s.workers[k]? = some w) {id : ℕ}
    (hid : w.orderId = some id) (ho : s.db.orders.get? id = some o) : Open o := by
  have hopen := (h.only hk hid).1
  rw [openOrders_of_get? ho] at hopen
  by_contra hnot
  rw [if_neg hnot] at hopen
  cases hopen

/-- A worker goes on, with the order in hand or without it. -/
theorem goto (h : Held s) (hk : s.workers[k]? = some w₀) (hgood : w.Good s.db)
    (hholds : ∀ id, w.holds id ≤ w₀.holds id) : Held (s.goto k w) where
  queues := h.queues
  tasks := h.tasks
  workers := forall_mem_set h.workers hgood
  tokens id := by
    have htokens := tokens_goto hk w id
    have hopen := h.tokens id
    have hle := hholds id
    show (s.goto k w).tokens id ≤ openOrders s.db id
    omega

/-- A worker ends. -/
theorem drop (h : Held s) (k : ℕ) : Held (s.goto k .ended) := by
  cases hk : s.workers[k]? with
  | some w =>
    refine h.goto hk trivial fun id => ?_
    rw [holds_of_none rfl]
    exact Nat.zero_le _
  | none =>
    rw [goto_of_none hk]
    exact h

/-- The token of a worker that queues its order is the one that it has had in hand. -/
theorem tokens_zadd (h : Held s) (hk : s.workers[k]? = some w)
    (hid : w.orderId = some token.orderId) (resourceType : String) (id : ℕ) :
    ({ s with queues := s.queues.zadd resourceType token }.goto k .ended).tokens id =
      s.tokens id := by
  obtain ⟨-, hzero, -⟩ := h.only hk hid
  have hset := weigh_set (w := Worker.holds id) (b := .ended) hk
  have hqueued := Queues.tokensOf_zadd (k := id) hzero resourceType
  have hended := holds_of_none (w := (.ended : Worker C)) rfl id
  have hholds : w.holds id = if key token = id then 1 else 0 := holds_of_orderId hid id
  show (s.queues.zadd resourceType token).tokensOf id + weigh _ (s.workers.set k .ended) =
    s.queues.tokensOf id + weigh _ s.workers
  omega

theorem zadd (h : Held s) (hk : s.workers[k]? = some w) (hid : w.orderId = some token.orderId)
    (hknown : Known s.db token) (resourceType : String) :
    Held ({ s with queues := s.queues.zadd resourceType token }.goto k .ended) where
  queues := h.queues.zadd _ _
  tasks := h.tasks.zadd hknown _
  workers := forall_mem_set h.workers trivial
  tokens id := (h.tokens_zadd hk hid resourceType id).trans_le (h.tokens id)

/-- A new order is open, and has its token. -/
theorem tokens_paid {c : CheckedOrder C} (hk : s.workers[k]? = some (.paying c))
    (hplace : placeOrder s.db c = some d') (hc : Placeable s.db c) (id : ℕ) :
    ({ s with db := d' }.goto k (.queueing c s.db.orders.next)).tokens id + openOrders s.db id =
      s.tokens id + openOrders d' id := by
  have hkeeps := keeps_placeOrder hplace
  obtain ⟨o, hvalid, hopen, -⟩ := valid_placeOrder hplace hc
  have htokens := tokens_goto hk (.queueing c s.db.orders.next) id
  have hpaying := holds_of_none (w := .paying c) rfl id
  have hqueueing := holds_of_orderId (w := .queueing c s.db.orders.next) rfl id
  show (s.goto k (.queueing c s.db.orders.next)).tokens id + openOrders s.db id =
    s.tokens id + openOrders d' id
  by_cases hid : id = s.db.orders.next
  · subst hid
    have hget : d'.orders.get? s.db.orders.next = some o := hvalid.order
    have hzero : openOrders s.db s.db.orders.next = 0 := by
      unfold openOrders
      rw [Table.get?_next]
      rfl
    rw [openOrders_of_get? hget, if_pos hopen]
    rw [if_pos rfl] at hqueueing
    omega
  · rw [hkeeps.openOrders hid]
    rw [if_neg (Ne.symm hid)] at hqueueing
    omega

/-- An order is paid. -/
theorem paid (h : Held s) {c : CheckedOrder C} (hk : s.workers[k]? = some (.paying c))
    (hplace : placeOrder s.db c = some d') :
    Held ({ s with db := d' }.goto k (.queueing c s.db.orders.next)) := by
  have hc : Placeable s.db c := h.workers _ (List.mem_of_getElem? hk)
  have hkeeps := keeps_placeOrder hplace
  obtain ⟨o, hvalid, -⟩ := valid_placeOrder hplace hc
  have hnext : ∀ {token : OrderToken}, Known s.db token → token.orderId ≠ s.db.orders.next := by
    rintro token ⟨o, hvalid⟩ heq
    have hnone := s.db.orders.get?_next
    rw [← heq, hvalid.order] at hnone
    cases hnone
  refine ⟨h.queues, ?_, ?_, fun id => ?_⟩
  · refine h.tasks.imp fun token hknown => ?_
    obtain ⟨o, hvalid⟩ := hknown
    exact ⟨o, hvalid.keeps hkeeps (hnext ⟨o, hvalid⟩)⟩
  · refine forall_mem_set (fun w hw => (h.workers w hw).keeps hkeeps fun hid => ?_) ⟨o, hvalid⟩
    obtain ⟨j, hj⟩ := List.mem_iff_getElem?.1 hw
    have hone := (h.only hj hid).1
    unfold openOrders at hone
    rw [Table.get?_next] at hone
    cases hone
  · have hsame := tokens_paid hk hplace hc id
    have hbefore := h.tokens id
    show _ ≤ openOrders d' id
    omega

/-- The order of a tick has its token after the unit if it is still open. -/
theorem tokens_delivered (h : Held s) {resourceType : String} {sel : Selected}
    (hk : s.workers[k]? = some (.delivering resourceType token sel))
    (hwrites : Counted s.db d' token sel) (id : ℕ) :
    ({ s with db := d' }.goto k (delivered resourceType token sel)).tokens id +
      openOrders s.db id = s.tokens id + openOrders d' id := by
  obtain ⟨o, hvalid, hcount, hrows⟩ := h.workers _ (List.mem_of_getElem? hk)
  obtain ⟨o', hvalid', hopen'⟩ := hwrites.order hvalid hcount hrows
  have hget' : d'.orders.get? token.orderId = some o' := hvalid'.order
  have htokens := tokens_goto hk (delivered resourceType token sel) id
  have hheld : (Worker.delivering resourceType token sel : Worker C).holds id =
      if token.orderId = id then 1 else 0 := holds_of_orderId rfl id
  rw [hheld, holds_delivered] at htokens
  show (s.goto k (delivered resourceType token sel)).tokens id + openOrders s.db id =
    s.tokens id + openOrders d' id
  by_cases hid : id = token.orderId
  · subst hid
    have hone := (h.only hk rfl).1
    rw [openOrders_of_get? hget', if_congr hopen' rfl rfl]
    rw [if_pos rfl, if_pos rfl] at htokens
    omega
  · rw [hwrites.keeps.openOrders hid]
    rw [if_neg (Ne.symm hid), if_neg (Ne.symm hid)] at htokens
    omega

/-- A unit is delivered. -/
theorem delivered (h : Held s) {resourceType : String} {sel : Selected}
    (hk : s.workers[k]? = some (.delivering resourceType token sel))
    (hwrites : Counted s.db d' token sel) :
    Held ({ s with db := d' }.goto k (delivered resourceType token sel)) := by
  obtain ⟨o, hvalid, hcount, hrows⟩ := h.workers _ (List.mem_of_getElem? hk)
  obtain ⟨o', hvalid', -⟩ := hwrites.order hvalid hcount hrows
  obtain ⟨-, hzero, hothers⟩ := h.only hk rfl
  refine ⟨h.queues, ?_, ?_, fun id => ?_⟩
  · refine (h.tasks.and (Queues.all_of_tokensOf hzero)).imp ?_
    rintro token' ⟨⟨o₁, hvalid₁⟩, hne⟩
    exact ⟨o₁, hvalid₁.keeps hwrites.keeps hne⟩
  · refine forall_mem_set_of_ne (fun j w hj hw => ?_) ?_
    · exact (h.workers w (List.mem_of_getElem? hw)).keeps hwrites.keeps (hothers j w hj hw)
    · unfold Lifecycle.delivered
      split
      · exact ⟨o', hvalid'⟩
      · trivial
  · have hsame := h.tokens_delivered hk hwrites id
    have hbefore := h.tokens id
    show _ ≤ openOrders d' id
    omega

/-- A step of others, which keeps all orders. -/
theorem keeps (h : Held s) (horders : d'.orders = s.db.orders)
    (hkeeps : ∀ orderId, Keeps orderId s.db d') : Held { s with db := d' } where
  queues := h.queues
  tasks := h.tasks.imp fun token ⟨o, hvalid⟩ =>
    ⟨o, hvalid.keeps (hkeeps (token.orderId + 1)) (Nat.succ_ne_self _).symm⟩
  workers w hw := by
    cases hid : w.orderId with
    | none => exact (h.workers w hw).keeps (hkeeps 0) (by simp [hid])
    | some id => exact (h.workers w hw).keeps (hkeeps (id + 1)) (by simp [hid])
  tokens id := by
    have hsame : openOrders d' id = openOrders s.db id := by
      unfold openOrders
      rw [horders]
    exact (h.tokens id).trans_eq hsame.symm

/-- A worker that has no order in hand is new. -/
theorem create (h : Held s) {order : CreateOrder} {c : CheckedOrder C}
    (hc : checkOrder withVillage s.db order = .ok c) :
    Held { s with workers := s.workers ++ [.paying c] } where
  queues := h.queues
  tasks := h.tasks
  workers := by
    refine List.forall_mem_append.2 ⟨h.workers, List.forall_mem_singleton.2 ?_⟩
    exact placeable_of_payable (checkOrder_eq_ok hc)
  tokens id := (tokens_create c id).trans_le (h.tokens id)

/-- A token is taken by a worker. -/
theorem pop (h : Held s) {name : String} {q : Queues String OrderToken}
    (hpop : s.queues.lpop name = some (token, q)) :
    Held { s with queues := q, workers := s.workers ++ [.selecting name token] } where
  queues := h.queues.lpop hpop
  tasks := (h.tasks.lpop hpop).2
  workers := by
    exact List.forall_mem_append.2 ⟨h.workers, List.forall_mem_singleton.2 (h.tasks.lpop hpop).1⟩
  tokens id := (tokens_pop hpop id).trans_le (h.tokens id)

/-- A token is lost. -/
theorem pop_lost (h : Held s) {name : String} {q : Queues String OrderToken}
    (hpop : s.queues.lpop name = some (token, q)) : Held { s with queues := q } where
  queues := h.queues.lpop hpop
  tasks := (h.tasks.lpop hpop).2
  workers := h.workers
  tokens id := by
    have htaken := Queues.tokensOf_lpop (k := id) hpop
    have hbefore := h.tokens id
    unfold State.tokens at hbefore
    show q.tokensOf id + weigh _ s.workers ≤ openOrders s.db id
    omega

theorem mover (h : Held s) (resourceType : String) (c : MoverCall) :
    Held { s with queues := s.queues.mover resourceType c } where
  queues := h.queues.mover _ _
  tasks := Queues.All.mover h.queues h.tasks _ _
  workers := h.workers
  tokens id := (tokens_mover h.queues resourceType c id).trans_le (h.tokens id)

/-- A call that goes through, or that has its effect and whose worker ends. -/
theorem execute (h : Held s) {effect : Option (State C)} {next : Worker C}
    (heffect : ∀ s', effect = some s' → Held (s'.goto k next)) :
    Held (s.execute k reply effect next) := by
  unfold State.execute
  split
  next s' => exact heffect s' rfl
  next s' =>
    rw [← goto_goto (w := next)]
    exact (heffect s' rfl).drop k
  · exact h.drop k

/-- The query of `produce`. -/
theorem selected (h : Held s) {resourceType : String}
    (hk : s.workers[k]? = some (.selecting resourceType token)) :
    Held (s.goto k (selected resourceType token (readRows (selectRows s.db token)))) := by
  obtain ⟨o, hvalid⟩ := h.workers _ (List.mem_of_getElem? hk)
  have hopen := h.open_of_only hk rfl hvalid.order
  by_cases hone : (selectRows s.db token).length ≤ 1
  · obtain ⟨sel, hsel, hfound⟩ := good_selected hvalid hopen hone resourceType
    rw [hsel]
    exact h.goto hk hfound fun _ => le_rfl
  · rw [readRows_of_length (not_le.1 hone)]
    exact h.drop k

theorem advance (h : Held s) (hk : s.workers[k]? = some w) (now : ℤ) :
    Held (s.advance k reply now w) := by
  have hgood := h.workers w (List.mem_of_getElem? hk)
  cases w with
  | paying c =>
    refine h.execute fun s' hs' => ?_
    obtain ⟨d', hplace, rfl⟩ := Option.map_eq_some_iff.1 hs'
    exact h.paid hk hplace
  | queueing c orderId =>
    refine h.execute fun s' hs' => ?_
    obtain rfl := Option.some.inj hs'
    exact h.zadd hk rfl hgood _
  | selecting resourceType token =>
    refine h.execute fun s' hs' => ?_
    obtain rfl := Option.some.inj hs'
    exact h.selected hk
  | delivering resourceType token sel =>
    refine h.execute fun s' hs' => ?_
    obtain ⟨d', hdeliver, rfl⟩ := Option.map_eq_some_iff.1 hs'
    exact h.delivered hk (delivers_of_deliverUnit hdeliver).toCounted
  | requeueing resourceType token =>
    refine h.execute fun s' hs' => ?_
    obtain rfl := Option.some.inj hs'
    rw [again_of_known hgood]
    exact h.zadd hk rfl hgood _
  | ended => exact h

theorem step (h : Held s) (a : Action) : Held (step withVillage s a) := by
  cases a with
  | create order =>
    simp only [Lifecycle.step]
    split
    next hc => exact h.create hc
    · exact h
  | move resourceType c => exact h.mover _ c
  | pop resourceType reply =>
    simp only [Lifecycle.step]
    split
    next hpop => exact h.pop hpop
    next hpop => exact h.pop_lost hpop
    · exact h
  | call k reply now =>
    simp only [Lifecycle.step]
    split
    next w hw => exact h.advance hw now
    · exact h
  | stop k => exact h.drop k

end Held

/-! ## The invariant -/

structure Inv (s : State C) : Prop where
  queues : s.queues.Sound
  tasks : s.queues.All (Known s.db)
  workers : ∀ w ∈ s.workers, w.Good s.db
  tokens : ∀ id, s.tokens id = openOrders s.db id
  facility : ∀ f, (s.db.production f).isInProduction = true →
    ∃ o ∈ s.db.orders.rows, o.facilityId = f ∧ Open o

namespace Inv

theorem held (h : Inv s) : Held s :=
  ⟨h.queues, h.tasks, h.workers, fun id => (h.tokens id).le⟩

theorem of_held (h : Held s) (htokens : ∀ id, s.tokens id = openOrders s.db id)
    (hfacility : ∀ f, (s.db.production f).isInProduction = true →
      ∃ o ∈ s.db.orders.rows, o.facilityId = f ∧ Open o) : Inv s :=
  ⟨h.queues, h.tasks, h.workers, htokens, hfacility⟩

theorem of_notStranded (h : Held s) (hs : NotStranded s) : Inv s := by
  refine of_held h (fun id => ?_) fun f hf => ?_
  · have hle := h.tokens id
    by_cases hzero : openOrders s.db id = 0
    · omega
    · obtain ⟨o, ho, hopen⟩ := openOrders_ne_zero hzero
      obtain ⟨hmem, rfl⟩ := Table.get?_eq_some.1 ho
      rw [openOrders_of_get? ho, if_pos hopen]
      exact hs.order o hmem hopen
  · obtain ⟨o, ho, hfacility, hopen, -⟩ := hs.facility f hf
    exact ⟨o, ho, hfacility, hopen⟩

/-- A worker goes on with the order in hand. -/
theorem goto (h : Inv s) (hk : s.workers[k]? = some w₀) (hgood : w.Good s.db)
    (hid : w.orderId = w₀.orderId) : Inv (s.goto k w) := by
  have hholds : ∀ id, w.holds id = w₀.holds id := by
    intro id
    unfold Worker.holds
    rw [hid]
  refine of_held (h.held.goto hk hgood fun id => (hholds id).le) (fun id => ?_) h.facility
  have htokens := tokens_goto hk w id
  have hopen := h.tokens id
  have hsame := hholds id
  show (s.goto k w).tokens id = openOrders s.db id
  omega

/-- A worker queues the order in hand. -/
theorem zadd (h : Inv s) (hk : s.workers[k]? = some w) (hid : w.orderId = some token.orderId)
    (hknown : Known s.db token) (resourceType : String) :
    Inv ({ s with queues := s.queues.zadd resourceType token }.goto k .ended) :=
  of_held (h.held.zadd hk hid hknown resourceType)
    (fun id => (h.held.tokens_zadd hk hid resourceType id).trans (h.tokens id)) h.facility

/-- The facilities that have no part in a new order. -/
theorem facility_paid (h : Inv s) {c : CheckedOrder C} (hplace : placeOrder s.db c = some d')
    {f : ℕ} (hne : f ≠ c.facility.facility.id) (hf : (d'.production f).isInProduction = true) :
    ∃ o ∈ d'.orders.rows, o.facilityId = f ∧ Open o := by
  obtain ⟨amounts, -, -, rfl⟩ := placeOrder_eq_some.1 hplace
  have hsame : Function.update s.db.production c.facility.facility.id c.busy f =
      s.db.production f := Function.update_of_ne hne _ _
  obtain ⟨o, ho, hfacility, hopen⟩ := h.facility f (hsame ▸ hf)
  exact ⟨o, Table.mem_insert.2 (.inl ho), hfacility, hopen⟩

/-- An order is paid. -/
theorem paid (h : Inv s) {c : CheckedOrder C} (hk : s.workers[k]? = some (.paying c))
    (hplace : placeOrder s.db c = some d') :
    Inv ({ s with db := d' }.goto k (.queueing c s.db.orders.next)) := by
  have hc : Placeable s.db c := h.workers _ (List.mem_of_getElem? hk)
  obtain ⟨o, hvalid, hopen, hfacility⟩ := valid_placeOrder hplace hc
  refine of_held (h.held.paid hk hplace) (fun id => ?_) fun f hf => ?_
  · have hsame := Held.tokens_paid hk hplace hc id
    have hbefore := h.tokens id
    show _ = openOrders d' id
    omega
  · by_cases heq : f = c.facility.facility.id
    · exact ⟨o, (Table.get?_eq_some.1 hvalid.order).1, hfacility.trans heq.symm, hopen⟩
    · exact h.facility_paid hplace heq hf

/-- The facilities that have no part in a unit. -/
theorem facility_delivered (h : Inv s) {sel : Selected} (hwrites : Delivers s.db d' token sel)
    (hvalid : Valid s.db token o) {f : ℕ} (hne : f ≠ token.facilityId)
    (hf : (d'.production f).isInProduction = true) :
    ∃ o ∈ d'.orders.rows, o.facilityId = f ∧ Open o := by
  rw [hwrites.facilities f hne] at hf
  obtain ⟨o₁, ho₁, hfacility₁, hopen₁⟩ := h.facility f hf
  refine ⟨o₁, ?_, hfacility₁, hopen₁⟩
  -- The order of another facility is another order.
  have hother : key o₁ ≠ token.orderId := by
    intro hkey
    have hsame := Table.get?_eq_some.2 ⟨ho₁, hkey⟩
    rw [hvalid.order] at hsame
    obtain rfl := Option.some.inj hsame
    exact hne (hfacility₁.symm.trans hvalid.facility)
  have hsame := Table.get?_eq_some.2 ⟨ho₁, rfl⟩
  rw [← hwrites.keeps.orders _ hother] at hsame
  exact (Table.get?_eq_some.1 hsame).1

/-- A unit is delivered. -/
theorem delivered (h : Inv s) {resourceType : String} {sel : Selected} {now : ℤ}
    (hk : s.workers[k]? = some (.delivering resourceType token sel))
    (hdeliver : deliverUnit now s.db token sel = some d') :
    Inv ({ s with db := d' }.goto k (delivered resourceType token sel)) := by
  have hwrites := delivers_of_deliverUnit hdeliver
  obtain ⟨o, hvalid, hcount, hrows⟩ := h.workers _ (List.mem_of_getElem? hk)
  obtain ⟨o', hvalid', hopen'⟩ := hwrites.order hvalid hcount hrows
  refine of_held (h.held.delivered hk hwrites.toCounted) (fun id => ?_) fun f hf => ?_
  · have hsame := h.held.tokens_delivered hk hwrites.toCounted id
    have hbefore := h.tokens id
    show _ = openOrders d' id
    omega
  · by_cases heq : f = token.facilityId
    · subst heq
      have hf' : (d'.production token.facilityId).isInProduction = true := hf
      rw [hwrites.facility] at hf'
      have hgo : sel.continued token = true := by
        by_contra hend
        rw [if_neg hend] at hf'
        cases hf'
      exact ⟨o', (Table.get?_eq_some.1 hvalid'.order).1, hvalid'.facility, hopen'.2 hgo⟩
    · exact h.facility_delivered hwrites hvalid heq hf

/-- A worker without an order ends. -/
theorem stop (h : Inv s) (hnone : ∀ w ∈ s.workers[k]?, w.orderId = none) :
    Inv (s.goto k .ended) := by
  cases hk : s.workers[k]? with
  | some w => exact h.goto hk trivial (hnone w hk).symm
  | none =>
    rw [goto_of_none hk]
    exact h

/-- A call that does not fail where that leaves an order behind. -/
theorem advance (h : Inv s) (hk : s.workers[k]? = some w) (hok : w.Spared s reply) (now : ℤ) :
    Inv (s.advance k reply now w) := by
  have hgood := h.workers w (List.mem_of_getElem? hk)
  cases w with
  | paying c =>
    have hended : Inv (s.goto k .ended) := h.goto hk trivial rfl
    show Inv (s.execute k reply _ _)
    cases hplace : placeOrder s.db c with
    | none => exact hended
    | some d' =>
      cases reply with
      | ok => exact h.paid hk hplace
      | refused => exact hended
      | lost => exact absurd rfl hok
  | queueing c orderId =>
    have hqueued := h.zadd hk rfl hgood c.resourceRequested.type
    cases reply with
    | ok => exact hqueued
    | refused => exact absurd rfl hok
    | lost => exact hqueued
  | selecting resourceType token =>
    obtain ⟨rfl, hone⟩ := hok
    obtain ⟨o, hvalid⟩ := hgood
    have hopen := h.held.open_of_only hk rfl hvalid.order
    obtain ⟨sel, hsel, hfound⟩ := good_selected hvalid hopen hone resourceType
    show Inv (s.goto k (selected resourceType token _))
    rw [hsel]
    exact h.goto hk hfound rfl
  | delivering resourceType token sel =>
    obtain ⟨o, hvalid, -⟩ := hgood
    obtain ⟨d', hdeliver⟩ := Option.isSome_iff_exists.1 (isSome_deliverUnit hvalid now sel)
    have hdone := h.delivered hk hdeliver
    show Inv (s.execute k reply ((deliverUnit now s.db token sel).map _) _)
    rw [hdeliver]
    rcases hok with rfl | ⟨rfl, hend⟩
    · exact hdone
    · unfold Lifecycle.delivered at hdone
      rw [hend] at hdone
      exact hdone
  | requeueing resourceType token =>
    have hqueued := h.zadd hk rfl hgood resourceType
    rw [← again_of_known hgood] at hqueued
    cases reply with
    | ok => exact hqueued
    | refused => exact absurd rfl hok
    | lost => exact hqueued
  | ended => exact h

/-- A worker that has no order in hand is new. -/
theorem create (h : Inv s) {order : CreateOrder} {c : CheckedOrder C}
    (hc : checkOrder withVillage s.db order = .ok c) :
    Inv { s with workers := s.workers ++ [.paying c] } :=
  of_held (h.held.create hc) (fun id => (tokens_create c id).trans (h.tokens id)) h.facility

/-- A worker takes a token. -/
theorem pop (h : Inv s) {name : String} {q : Queues String OrderToken}
    (hpop : s.queues.lpop name = some (token, q)) :
    Inv { s with queues := q, workers := s.workers ++ [.selecting name token] } :=
  of_held (h.held.pop hpop) (fun id => (tokens_pop hpop id).trans (h.tokens id)) h.facility

theorem mover (h : Inv s) (resourceType : String) (c : MoverCall) :
    Inv { s with queues := s.queues.mover resourceType c } :=
  of_held (h.held.mover resourceType c)
    (fun id => (tokens_mover h.queues resourceType c id).trans (h.tokens id)) h.facility

theorem step (h : Inv s) {a : Action} (hok : Undisturbed s a) : Inv (step withVillage s a) := by
  cases a with
  | create order =>
    simp only [Lifecycle.step]
    split
    next hc => exact h.create hc
    · exact h
  | move resourceType c => exact h.mover resourceType c
  | pop resourceType reply =>
    simp only [Lifecycle.step]
    split
    next hpop => exact h.pop hpop
    · exact absurd rfl hok
    · exact h
  | call k reply now =>
    simp only [Lifecycle.step]
    split
    next w hw => exact h.advance hw (hok w hw) now
    · exact h
  | stop k => exact h.stop hok

theorem notStranded (h : Inv s) : NotStranded s := by
  have htoken : ∀ o ∈ s.db.orders.rows, Open o → s.tokens o.id = 1 := by
    intro o ho hopen
    have hget : s.db.orders.get? o.id = some o := Table.get?_eq_some.2 ⟨ho, rfl⟩
    rw [h.tokens o.id, openOrders_of_get? hget, if_pos hopen]
  refine ⟨htoken, fun f hf => ?_⟩
  obtain ⟨o, ho, hfacility, hopen⟩ := h.facility f hf
  exact ⟨o, ho, hfacility, hopen, htoken o ho hopen⟩

end Inv

/-- In a run in which no failure leaves an order behind, every order that is not delivered has one
token, and a facility that is in production has an order whose token will free it, if this is so at
the start. -/
theorem order_not_stranded {queues : Queues String OrderToken}
    (h : Reach (graph (step withVillage)) Undisturbed (start d queues) s)
    (hheld : Held (start d queues)) (hstart : NotStranded (start d queues)) : NotStranded s := by
  have hinv : Inv s := by
    refine h.inv (Inv.of_notStranded hheld hstart) ?_
    rintro s a s' hinv hok rfl
    exact hinv.step hok
  exact hinv.notStranded

/-! ## One order -/

/-- A village with a barrack, and with the costs of two stone hunters. -/
def sampleBarrack : GameDb sampleCatalog where
  villages :=
    { rows := [⟨1, some 1, 3, 4, 0, 0⟩]
      next := 2
      nodup := by decide
      lt_next := by decide }
  villagesResourceTypes :=
    { rows := [⟨1, some 1, food, 1000⟩, ⟨2, some 1, wood, 1000⟩, ⟨3, some 1, iron, 1000⟩]
      next := 4
      nodup := by decide
      lt_next := by decide }
  facilities :=
    { rows := [⟨1, 1, "barrack", 1⟩]
      next := 2
      nodup := by decide
      lt_next := by decide }
  villagesStorageResourceTypes := Table.empty
  attacks := Table.empty
  orders := Table.empty
  production := fun _ => .none

/-- Its barrack has an order of two stone hunters. -/
def sampleOrdered : GameDb sampleCatalog :=
  { sampleBarrack with
    orders :=
      { rows := [⟨1, 1, stoneHunter, 2, 0⟩]
        next := 2
        nodup := by decide
        lt_next := by decide }
    production := Function.update (fun _ => .none) 1 ⟨true, none⟩ }

def sampleToken : OrderToken where
  orderId := 1
  resourceTypeId := stoneHunter.id
  orderedQuantity := 2
  productionTime := productionTime .stoneHunter
  villageId := 1
  facilityId := 1
  queue := "pending:stone_hunter"
  action := "create"

/-- The order is queued. -/
def sampleQueues : Queues String OrderToken := Queues.empty.zadd "stone_hunter" sampleToken

theorem valid_sampleToken : Valid sampleOrdered sampleToken ⟨1, 1, stoneHunter, 2, 0⟩ :=
  ⟨by decide, rfl, rfl, rfl, rfl, by decide, by decide, fun _ => rfl⟩

theorem held_sampleOrdered : Held (start sampleOrdered sampleQueues) :=
  (Held.start sampleOrdered).zadd_start valid_sampleToken (by decide) rfl _

theorem notStranded_sampleOrdered : NotStranded (start sampleOrdered sampleQueues) where
  order := by decide +kernel
  facility f hf := by
    have hone : f = 1 := by
      by_contra hne
      have hfree : sampleOrdered.production f = .none := by
        show Function.update (fun _ => FacilityProduction.none) 1 ⟨true, none⟩ f = .none
        rw [Function.update_of_ne hne]
      have hbusy : (sampleOrdered.production f).isInProduction = true := hf
      rw [hfree] at hbusy
      cases hbusy
    subst hone
    exact ⟨_, List.mem_cons_self, rfl, by decide, by decide +kernel⟩

/-- The worker `k` of the producer delivers a stone hunter. -/
def sampleTick (k : ℕ) (queued : Reply) : List Action :=
  [.move "stone_hunter" (.start [1]), .move "stone_hunter" (.move .ok), .move "stone_hunter" .stop,
    .pop .stoneHunter .ok, .call k .ok 12000, .call k .ok 12000, .call k queued 12000]

/-- The state after a list of actions. -/
def after (as : List Action) : State sampleCatalog :=
  as.foldl (step false) (start sampleOrdered sampleQueues)

/-- An order waits for its units. -/
def Waiting (s : State C) : Prop := ∃ o ∈ s.db.orders.rows, Open o

instance (s : State C) : Decidable (Waiting s) := inferInstanceAs (Decidable (∃ _ ∈ _, _))

example : ¬Waiting (after (sampleTick 0 .ok ++ sampleTick 1 .ok)) := by decide +kernel

theorem order_not_stranded_sample :
    Waiting (after (sampleTick 0 .ok)) ∧ NotStranded (after (sampleTick 0 .ok)) :=
  ⟨by decide +kernel,
    order_not_stranded (Reach.refl.meets (by decide +kernel)) held_sampleOrdered
      notStranded_sampleOrdered⟩

/-- A unit is delivered, and the command that queues the order again fails. The error is caught: the
order is open, its facility is in production, and there is no token. -/
theorem order_stranded :
    Held (start sampleOrdered sampleQueues) ∧ NotStranded (start sampleOrdered sampleQueues) ∧
      ∃ s, Reach (graph (step false)) always (start sampleOrdered sampleQueues) s ∧ Waiting s ∧
        s.tokens 1 = 0 ∧ (s.db.production 1).isInProduction = true ∧ ¬NotStranded s := by
  refine ⟨held_sampleOrdered, notStranded_sampleOrdered, after (sampleTick 0 .refused),
    Reach.refl.foldl _, by decide +kernel, by decide +kernel, by decide +kernel, fun h => ?_⟩
  obtain ⟨o, ho, -, -, htoken⟩ := h.facility 1 (by decide +kernel)
  have hid : o.id = 1 := by
    revert o
    decide +kernel
  have hzero : (after (sampleTick 0 .refused)).tokens 1 = 0 := by decide +kernel
  rw [hid, hzero] at htoken
  cases htoken

end Cme.Production.Lifecycle
