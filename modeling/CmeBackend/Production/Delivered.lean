import CmeBackend.Production.Tokens
import CmeBackend.Villages.Creation

/-!
# Units against orders

In a run in which the producer works on one item after the other, an order has at most one token,
is never delivered beyond its quantity, and the units that a village gains are those that its orders
count as delivered (`delivered_as_recorded`). Every call may fail, and every transaction may be
rolled back.

* `Worker.Placed`: the village of a token is that of its facility.
* `Worker.Missing`: a unit that is stored in a new row has no row yet.
* `Accounts`: the invariant, with the units of each type and village as a balance.
-/

namespace Cme.Production.Lifecycle

open GameRules Redis Runs Weights

variable {C : Catalog} {withVillage : Bool} {d d' d₀ : GameDb C} {s : State C} {k : ℕ}
  {token : OrderToken} {o : Order C} {w w₀ : Worker C} {reply : Reply} {v : ℕ} {t : C.Ref}

/-- A worker is in a tick of the producer. -/
def Worker.ticking : Worker C → Bool
  | .selecting _ _ | .delivering _ _ _ | .requeueing _ _ => true
  | _ => false

/-- A tick of the producer takes its item when no other tick is under way. -/
def InTurn (s : State C) : Action → Prop
  | .pop _ _ => ∀ w ∈ s.workers, w.ticking = false
  | _ => True

instance (s : State C) (a : Action) : Decidable (InTurn s a) :=
  match a with
  | .pop _ _ => inferInstanceAs (Decidable (∀ w ∈ _, _))
  | .create _ | .move _ _ | .call _ _ _ | .stop _ => isTrue trivial

/-- The village of a facility. -/
def villageOf (d : GameDb C) (facilityId : ℕ) : Option ℕ :=
  (d.facilities.get? facilityId).map Facility.villageId

/-- What an order has delivered of a type in a village. -/
def deliveredOf (d : GameDb C) (v : ℕ) (t : C.Ref) (o : Order C) : ℤ :=
  if o.resourceType = t ∧ villageOf d o.facilityId = some v then o.deliveredQuantity else 0

/-- What the orders of a village have delivered of a type. -/
def deliveredIn (d : GameDb C) (v : ℕ) (t : C.Ref) : ℤ := d.orders.total (deliveredOf d v t)

/-- A resource type that is a unit. -/
def IsUnit (t : C.Ref) : Prop := ∃ u : MilitaryResource, u.name = t.type

/-- A token names the village of its facility. -/
def Placed (d : GameDb C) (token : OrderToken) : Prop :=
  villageOf d token.facilityId = some token.villageId

def Worker.Placed (d : GameDb C) : Worker C → Prop
  | .paying c | .queueing c _ => villageOf d c.facility.facility.id = some c.village.village.id
  | .selecting _ token | .delivering _ token _ | .requeueing _ token => Lifecycle.Placed d token
  | .ended => True

/-- The row that a worker inserts is missing. -/
def Worker.Missing (d : GameDb C) : Worker C → Prop
  | .delivering _ token sel => sel.villageResourceTypeCount = none →
      d.NoRow token.villageId token.resourceTypeId
  | _ => True

theorem Worker.Missing.of_not_ticking (h : w.ticking = false) : w.Missing d := by
  cases w with
  | delivering resourceType token sel => cases h
  | _ => trivial

/-! ## The transactions -/

theorem rowsOfType_eq_nil : d.rowsOfType v t = [] ↔ d.NoRow v t.id := by
  unfold Db.rowsOfType
  rw [List.filter_eq_nil_iff]
  constructor
  · exact fun h r hr hid => h r hr (decide_eq_true (Catalog.Ref.eq_of_id hid))
  · exact fun h r hr ht => h r hr (congrArg _ (of_decide_eq_true ht))

/-- A facility that is saved stays in its village. -/
theorem villageOf_saveFacility (facility : Facility) (p : FacilityProduction) (f : ℕ) :
    villageOf (d.saveFacility facility p) f = villageOf d f := by
  let save (f : Facility) : Facility :=
    { f with level := facility.level, facilityType := facility.facilityType }
  exact Table.map_get?_update (t := d.facilities) (f := save) (g := Facility.villageId)
    (fun _ => rfl) f

/-- No unit is paid with. -/
theorem lookup_amounts {c : CheckedOrder C} {amounts : List (ℕ × ℚ)}
    (h : resourceTypeIdAmounts c = some amounts) (ht : IsUnit t) :
    (amounts.map fun v => (v.1, -v.2)).lookup t.id = none := by
  obtain ⟨u, hu⟩ := ht
  have hcost : ∀ cost ∈ productionCosts c.unit, ∀ p, resourceTypeIdAmount c cost = some p →
      t.id ≠ p.1 := by
    rintro cost hcost p hp hid
    obtain ⟨r, hr, rfl⟩ := Option.map_eq_some_iff.1 hp
    have htype : r.resourceType.type = cost.1 := by simpa using List.find?_some hr
    obtain rfl : t = r.resourceType := Catalog.Ref.eq_of_id hid
    refine u.name_not_mem_lootedResources ?_
    rw [hu, htype]
    exact productionCosts_looted c.unit cost hcost
  have hamount : ∀ p ∈ amounts, t.id ≠ p.1 := by
    unfold resourceTypeIdAmounts at h
    split at h
    · cases h
    next first rest heq =>
      obtain ⟨amount, hfirst, rfl⟩ := Option.map_eq_some_iff.1 h
      rw [heq] at hcost
      refine List.forall_mem_cons.2 ⟨hcost _ List.mem_cons_self _ hfirst, fun p hp => ?_⟩
      obtain ⟨cost, hmem, hp⟩ := List.mem_filterMap.1 hp
      exact hcost cost (List.mem_cons_of_mem _ hmem) p hp
  refine List.lookup_eq_none_iff.2 fun p hp => ?_
  obtain ⟨q, hq, rfl⟩ := List.mem_map.1 hp
  simpa using hamount q hq

/-- What the transaction of `create` leaves as it is. -/
structure Pays (d d' : GameDb C) : Prop where
  villageOf : ∀ f, villageOf d' f = villageOf d f
  oneRow : d.OneRowPerType → d'.OneRowPerType
  noRow : ∀ v id, d.NoRow v id → d'.NoRow v id
  units : ∀ v t, IsUnit t → d'.totalOf v t = d.totalOf v t
  delivered : ∀ v t, deliveredIn d' v t = deliveredIn d v t
  quantity : (∀ o ∈ d.orders.rows, o.deliveredQuantity ≤ o.orderedQuantity) →
    ∀ o ∈ d'.orders.rows, o.deliveredQuantity ≤ o.orderedQuantity

theorem pays_placeOrder {c : CheckedOrder C} (h : placeOrder d c = some d') (hc : Placeable d c) :
    Pays d d' := by
  obtain ⟨amounts, hamounts, -, rfl⟩ := placeOrder_eq_some.1 h
  have hplaces : ∀ f, villageOf ((storeOrder d c amounts).saveFacility c.facility.facility c.busy) f
      = villageOf d f := fun f => villageOf_saveFacility _ _ f
  refine ⟨hplaces, ?_, ?_, ?_, ?_, ?_⟩
  · exact fun hone => Db.oneRowPerType_setCounts.2 hone
  · intro v id hno r hr
    have hr' : r ∈ (d.toDb.subtractFromCounts c.village.village.id amounts).rowsOf v := hr
    rw [Db.subtractFromCounts, Db.addToCounts, Db.rowsOf_setCounts] at hr'
    obtain ⟨r₀, hr₀, rfl⟩ := List.mem_map.1 hr'
    exact hno r₀ hr₀
  · intro v t ht
    have hrows := Db.rowsOfType_addToCounts_of_none (d := d.toDb) (v := v) (t := t)
      (w := c.village.village.id) fun _ => lookup_amounts hamounts ht
    show ((Db.rowsOfType (d.toDb.subtractFromCounts _ amounts) v t).map _).sum = _
    rw [Db.subtractFromCounts, hrows]
    rfl
  · intro v t
    unfold deliveredIn
    show Table.total (Table.insert d.orders _) _ = _
    rw [Table.total_insert]
    have hnew : ∀ f, deliveredOf f v t (⟨d.orders.next, c.facility.facility.id,
        c.resourceRequested, c.orderedQuantity.num, 0⟩ : Order C) = 0 := fun _ => ite_self _
    rw [hnew, add_zero]
    refine Table.total_congr fun o _ => ?_
    unfold deliveredOf
    rw [hplaces]
  · intro hquantity o ho
    rcases Table.mem_insert.1 ho with ho | rfl
    · exact hquantity o ho
    · exact (Rat.num_pos.2 hc.quantity).le

/-- What the transaction of `produce` adds to the units and to the orders. -/
structure Produces (d d' : GameDb C) (token : OrderToken) (o : Order C) : Prop where
  villageOf : ∀ f, villageOf d' f = villageOf d f
  oneRow : d'.OneRowPerType
  units : ∀ v t, d'.totalOf v t =
    d.totalOf v t + if token.villageId = v ∧ o.resourceType = t then 1 else 0
  delivered : ∀ v t, deliveredIn d' v t =
    deliveredIn d v t + if token.villageId = v ∧ o.resourceType = t then 1 else 0
  quantity : (∀ o ∈ d.orders.rows, o.deliveredQuantity ≤ o.orderedQuantity) →
    ∀ o ∈ d'.orders.rows, o.deliveredQuantity ≤ o.orderedQuantity

/-- The row of the village grows by one unit, or is new with one. -/
theorem totalOf_storeUnit {e e' : Db C} {count : Option ℤ} (h : storeUnit e token count = some e')
    (hone : e.OneRowPerType) (htype : t.id = token.resourceTypeId)
    (hmissing : count = none → e.NoRow token.villageId token.resourceTypeId)
    (hfound : count.isSome → e.rowsOfType token.villageId t ≠ []) :
    e'.OneRowPerType ∧ ∀ v u, e'.totalOf v u =
      e.totalOf v u + if token.villageId = v ∧ t = u then 1 else 0 := by
  unfold storeUnit at h
  split at h
  · obtain ⟨u, hu, h⟩ := Option.bind_eq_some_iff.1 h
    obtain ⟨village, -, h⟩ := Option.bind_eq_some_iff.1 h
    cases h
    obtain rfl : u = t := Catalog.Ref.eq_of_id ((Catalog.ofId?_eq_some.1 hu).trans htype.symm)
    refine ⟨(Db.oneRowPerType_insertCount_iff hone 1).2 ?_, fun v u => Db.totalOf_insertCount 1⟩
    rw [htype]
    exact hmissing rfl
  · cases h
    refine ⟨Db.oneRowPerType_setCounts.2 hone, fun v u => ?_⟩
    by_cases heq : token.villageId = v ∧ t = u
    · obtain ⟨rfl, rfl⟩ := heq
      obtain ⟨r, hr⟩ : ∃ r, e.rowsOfType token.villageId t = [r] := by
        have hle := hone.length_le token.villageId t
        match hrows : e.rowsOfType token.villageId t, hle with
        | [], _ => exact absurd hrows (hfound rfl)
        | [r], _ => exact ⟨r, rfl⟩
      have hlookup : [(token.resourceTypeId, (1 : ℚ))].lookup t.id = some ((1 : ℤ) : ℚ) := by
        simp [htype]
      have hadd := Db.rowsOfType_addToCounts hr hlookup
      unfold Db.totalOf
      rw [hadd, hr, if_pos ⟨rfl, rfl⟩]
      simp
    · rw [if_neg heq, add_zero]
      unfold Db.totalOf
      rw [Db.rowsOfType_addToCounts_of_none fun hv => ?_]
      refine List.lookup_eq_none_iff.2 (List.forall_mem_singleton.2 ?_)
      simp only [bne_iff_ne, ne_eq]
      exact fun hid => heq ⟨hv.symm, Catalog.Ref.eq_of_id (htype.trans hid.symm)⟩

theorem produces_deliverUnit {now : ℤ} {sel : Selected}
    (h : deliverUnit now d token sel = some d') (hvalid : Valid d token o) (hopen : Open o)
    (hplaced : Placed d token) (hone : d.OneRowPerType)
    (hmissing : sel.villageResourceTypeCount = none →
      d.NoRow token.villageId token.resourceTypeId)
    (hfound : sel.villageResourceTypeCount.isSome →
      d.rowsOfType token.villageId o.resourceType ≠ []) : Produces d d' token o := by
  have hwrites := delivers_of_deliverUnit h
  obtain ⟨stored, hstored, h⟩ := Option.bind_eq_some_iff.1 h
  obtain ⟨facility, -, h⟩ := Option.bind_eq_some_iff.1 h
  cases h
  obtain ⟨hrows, hunits⟩ := totalOf_storeUnit hstored hone hvalid.resourceType hmissing hfound
  have hplaces : ∀ f, villageOf (({ deliverOne d token.orderId with toDb := stored } :
      GameDb C).saveFacility facility.facility
        (producedAt now (sel.continued token) facility.production)) f = villageOf d f := by
    intro f
    rw [villageOf_saveFacility]
    exact congrArg (fun t : Table Facility => (t.get? f).map Facility.villageId)
      (storeUnit_eq_some hstored).2.1
  obtain ⟨ho, hid⟩ := Table.get?_eq_some.1 hvalid.order
  refine ⟨hplaces, hrows, hunits, fun v t => ?_, fun hquantity => ?_⟩
  · unfold deliveredIn
    rw [hwrites.orders]
    show (Table.update d.orders token.orderId _).total _ = _
    have hsame : ∀ o ∈ (Table.update d.orders token.orderId
        (fun o => { o with deliveredQuantity := o.deliveredQuantity + 1 })).rows,
        deliveredOf _ v t o = deliveredOf d v t o := fun o _ => by
      unfold deliveredOf
      rw [hplaces]
    rw [Table.total_congr hsame, Table.total_update ho hid]
    have hplace : villageOf d o.facilityId = some token.villageId := hvalid.facility ▸ hplaced
    unfold deliveredOf
    dsimp only
    rw [hplace]
    by_cases heq : token.villageId = v ∧ o.resourceType = t
    · obtain ⟨rfl, rfl⟩ := heq
      rw [if_pos ⟨rfl, rfl⟩, if_pos ⟨rfl, rfl⟩, if_pos ⟨rfl, rfl⟩]
      ring
    · rw [if_neg heq, if_neg, if_neg, sub_zero]
      · exact fun h => heq ⟨Option.some.inj h.2, h.1⟩
      · exact fun h => heq ⟨Option.some.inj h.2, h.1⟩
  · rw [hwrites.orders]
    let one (o : Order C) : Order C := { o with deliveredQuantity := o.deliveredQuantity + 1 }
    exact Table.forall_mem_update (f := one) (fun _ => rfl) ho hid hopen
      fun x hx _ => hquantity x hx

/-- The query of `produce` has seen that a row is missing. -/
theorem missing_selected (h : Valid d token o) (resourceType : String) :
    (selected resourceType token (readRows (selectRows d token)) : Worker C).Missing d := by
  have hselect : selectRows d token =
      (d.rowsOfType token.villageId o.resourceType).map fun vrt => (o, vrt) := by
    unfold selectRows
    rw [h.order]
  rw [hselect]
  unfold selected
  split
  next sel hsel =>
    split
    · intro hnone
      rw [← h.resourceType, ← rowsOfType_eq_nil]
      match hrows : d.rowsOfType token.villageId o.resourceType with
      | [] => rfl
      | [vrt] =>
        rw [hrows] at hsel
        cases hsel
        cases hnone
      | _ :: _ :: _ =>
        rw [hrows] at hsel
        cases hsel
    · trivial
  · trivial

theorem placed_selected (h : Placed d token) (resourceType : String) (sel : Option Selected) :
    (selected resourceType token sel : Worker C).Placed d := by
  unfold selected
  split
  · split
    · exact h
    · trivial
  · trivial

theorem placed_delivered (h : Placed d token) (resourceType : String) (sel : Selected) :
    (delivered resourceType token sel : Worker C).Placed d := by
  unfold delivered
  split
  · exact h
  · trivial

/-- What a worker knows of the villages of facilities. -/
theorem Worker.Placed.congr (h : w.Placed d) (hplaces : ∀ f, villageOf d' f = villageOf d f) :
    w.Placed d' := by
  cases w with
  | ended => trivial
  | _ => exact (hplaces _).trans h

/-- A payment leaves a row missing. -/
theorem Worker.Missing.pays (h : w.Missing d) (hpays : Pays d d') : w.Missing d' := by
  cases w with
  | delivering resourceType token sel => exact fun hnone => hpays.noRow _ _ (h hnone)
  | _ => trivial

/-! ## The invariant -/

/-- Whether a worker is in a tick, as a number. -/
def Worker.tick (w : Worker C) : ℕ := if w.ticking then 1 else 0

theorem Worker.tick_of_not_ticking (h : w.ticking = false) : w.tick = 0 := by
  unfold Worker.tick
  rw [h]
  rfl

theorem Worker.tick_of_ticking (h : w.ticking = true) : w.tick = 1 := if_pos h

theorem Worker.tick_le (w : Worker C) : w.tick ≤ 1 := by
  unfold Worker.tick
  split <;> decide

structure Accounts (d₀ : GameDb C) (s : State C) : Prop where
  held : Held s
  tasks : s.queues.All (Placed s.db)
  placed : ∀ w ∈ s.workers, w.Placed s.db
  missing : ∀ w ∈ s.workers, w.Missing s.db
  /-- At most one worker is in a tick. -/
  turn : weigh Worker.tick s.workers ≤ 1
  oneRow : s.db.OneRowPerType
  quantity : ∀ o ∈ s.db.orders.rows, o.deliveredQuantity ≤ o.orderedQuantity
  units : ∀ v t, IsUnit t →
    s.db.totalOf v t - d₀.totalOf v t = deliveredIn s.db v t - deliveredIn d₀ v t

theorem Accounts.start {queues : Queues String OrderToken} (hheld : Held (start d queues))
    (hplaced : queues.All (Placed d)) (hone : d.OneRowPerType)
    (hquantity : ∀ o ∈ d.orders.rows, o.deliveredQuantity ≤ o.orderedQuantity) :
    Accounts d (start d queues) where
  held := hheld
  tasks := hplaced
  placed _ hw := absurd hw List.not_mem_nil
  missing _ hw := absurd hw List.not_mem_nil
  turn := Nat.zero_le 1
  oneRow := hone
  quantity := hquantity
  units v t _ := (sub_self (d.totalOf v t)).trans (sub_self (deliveredIn d v t)).symm

namespace Accounts

/-- One worker goes on, in its tick or out of it. -/
theorem turn_goto (h : Accounts d₀ s) (hk : s.workers[k]? = some w₀) (hle : w.tick ≤ w₀.tick) :
    weigh Worker.tick (s.workers.set k w) ≤ 1 := by
  have hset := weigh_set (w := Worker.tick) (b := w) hk
  have hturn := h.turn
  omega

/-- The other workers are not in a tick. -/
theorem others (h : Accounts d₀ s) (hk : s.workers[k]? = some w₀) (htick : w₀.ticking = true)
    {j : ℕ} (hj : j ≠ k) (hw : s.workers[j]? = some w) : w.ticking = false := by
  have hsum := add_le_weigh (w := Worker.tick) hw hk hj
  have hturn := h.turn
  rw [Worker.tick_of_ticking htick] at hsum
  cases hticking : w.ticking with
  | false => rfl
  | true =>
    rw [Worker.tick_of_ticking hticking] at hsum
    omega

theorem goto (h : Accounts d₀ s) (hk : s.workers[k]? = some w₀) (hheld : Held (s.goto k w))
    (hplaced : w.Placed s.db) (hmissing : w.Missing s.db) (hle : w.tick ≤ w₀.tick) :
    Accounts d₀ (s.goto k w) where
  held := hheld
  tasks := h.tasks
  placed := forall_mem_set h.placed hplaced
  missing := forall_mem_set h.missing hmissing
  turn := h.turn_goto hk hle
  oneRow := h.oneRow
  quantity := h.quantity
  units := h.units

theorem drop (h : Accounts d₀ s) (k : ℕ) : Accounts d₀ (s.goto k .ended) := by
  cases hk : s.workers[k]? with
  | some w => exact h.goto hk (h.held.drop k) trivial trivial (Nat.zero_le _)
  | none =>
    rw [goto_of_none hk]
    exact h

/-- A worker queues the order in hand. -/
theorem zadd (h : Accounts d₀ s) (hk : s.workers[k]? = some w)
    (hid : w.orderId = some token.orderId) (hknown : Known s.db token) (hplaced : Placed s.db token)
    (resourceType : String) :
    Accounts d₀ ({ s with queues := s.queues.zadd resourceType token }.goto k .ended) where
  held := h.held.zadd hk hid hknown resourceType
  tasks := h.tasks.zadd hplaced _
  placed := forall_mem_set h.placed trivial
  missing := forall_mem_set h.missing trivial
  turn := h.turn_goto hk (Nat.zero_le _)
  oneRow := h.oneRow
  quantity := h.quantity
  units := h.units

theorem paid (h : Accounts d₀ s) {c : CheckedOrder C} (hk : s.workers[k]? = some (.paying c))
    (hplace : placeOrder s.db c = some d') :
    Accounts d₀ ({ s with db := d' }.goto k (.queueing c s.db.orders.next)) := by
  have hworker := List.mem_of_getElem? hk
  have hpays := pays_placeOrder hplace (h.held.workers _ hworker)
  have hpaying := h.placed _ hworker
  have hplaced : ∀ {w : Worker C}, w.Placed s.db → w.Placed d' :=
    fun hw => hw.congr hpays.villageOf
  refine ⟨h.held.paid hk hplace, ?_, ?_, ?_, h.turn_goto hk le_rfl, hpays.oneRow h.oneRow,
    hpays.quantity h.quantity, fun v t ht => ?_⟩
  · exact h.tasks.imp fun token htoken => (hpays.villageOf _).trans htoken
  · exact forall_mem_set (fun w hw => hplaced (h.placed w hw))
      (hplaced (w := .queueing c s.db.orders.next) hpaying)
  · exact forall_mem_set (fun w hw => (h.missing w hw).pays hpays) trivial
  · show d'.totalOf v t - d₀.totalOf v t = deliveredIn d' v t - deliveredIn d₀ v t
    rw [hpays.units v t ht, hpays.delivered v t]
    exact h.units v t ht

theorem delivered (h : Accounts d₀ s) {resourceType : String} {sel : Selected} {now : ℤ}
    (hk : s.workers[k]? = some (.delivering resourceType token sel))
    (hdeliver : deliverUnit now s.db token sel = some d') :
    Accounts d₀ ({ s with db := d' }.goto k (delivered resourceType token sel)) := by
  have hworker := List.mem_of_getElem? hk
  obtain ⟨o, hvalid, hcount, hfound⟩ := h.held.workers _ hworker
  have hopen := h.held.open_of_only hk rfl hvalid.order
  have hproduces := produces_deliverUnit hdeliver hvalid hopen (h.placed _ hworker) h.oneRow
    (h.missing _ hworker) hfound
  have hplaced : ∀ {w : Worker C}, w.Placed s.db → w.Placed d' :=
    fun hw => hw.congr hproduces.villageOf
  refine ⟨h.held.delivered hk (delivers_of_deliverUnit hdeliver).toCounted, ?_, ?_, ?_, ?_, hproduces.oneRow,
    hproduces.quantity h.quantity, fun v t ht => ?_⟩
  · exact h.tasks.imp fun token htoken => (hproduces.villageOf _).trans htoken
  · exact forall_mem_set (fun w hw => hplaced (h.placed w hw))
      (hplaced (placed_delivered (h.placed _ hworker) _ _))
  · -- No other tick is under way, so no other row is known to be missing.
    refine forall_mem_set_of_ne (fun j w hj hw => ?_) ?_
    · exact Worker.Missing.of_not_ticking (h.others hk rfl hj hw)
    · unfold Lifecycle.delivered
      split <;> trivial
  · exact h.turn_goto hk (Worker.tick_le _)
  · have hunits := h.units v t ht
    show d'.totalOf v t - d₀.totalOf v t = deliveredIn d' v t - deliveredIn d₀ v t
    rw [hproduces.units v t, hproduces.delivered v t]
    omega

theorem execute (h : Accounts d₀ s) {effect : Option (State C)} {next : Worker C}
    (heffect : ∀ s', effect = some s' → Accounts d₀ (s'.goto k next)) :
    Accounts d₀ (s.execute k reply effect next) := by
  unfold State.execute
  split
  next s' => exact heffect s' rfl
  next s' =>
    rw [← goto_goto (w := next)]
    exact (heffect s' rfl).drop k
  · exact h.drop k

theorem advance (h : Accounts d₀ s) (hk : s.workers[k]? = some w) (now : ℤ) :
    Accounts d₀ (s.advance k reply now w) := by
  have hworker := List.mem_of_getElem? hk
  have hgood := h.held.workers w hworker
  have hplaced := h.placed w hworker
  cases w with
  | paying c =>
    refine h.execute fun s' hs' => ?_
    obtain ⟨d', hplace, rfl⟩ := Option.map_eq_some_iff.1 hs'
    exact h.paid hk hplace
  | queueing c orderId =>
    refine h.execute fun s' hs' => ?_
    obtain rfl := Option.some.inj hs'
    exact h.zadd hk rfl hgood hplaced _
  | selecting resourceType token =>
    refine h.execute fun s' hs' => ?_
    obtain rfl := Option.some.inj hs'
    obtain ⟨o, hvalid⟩ := hgood
    exact h.goto hk (h.held.selected hk) (placed_selected hplaced _ _)
      (missing_selected hvalid _) (Worker.tick_le _)
  | delivering resourceType token sel =>
    refine h.execute fun s' hs' => ?_
    obtain ⟨d', hdeliver, rfl⟩ := Option.map_eq_some_iff.1 hs'
    exact h.delivered hk hdeliver
  | requeueing resourceType token =>
    refine h.execute fun s' hs' => ?_
    obtain rfl := Option.some.inj hs'
    rw [again_of_known hgood]
    exact h.zadd hk rfl hgood hplaced _
  | ended => exact h

/-- A new worker, with what the queues still hold. -/
theorem append (h : Accounts d₀ s) {q : Queues String OrderToken}
    (hheld : Held { s with queues := q, workers := s.workers ++ [w] })
    (htasks : q.All (Placed s.db)) (hplaced : w.Placed s.db) (hmissing : w.Missing s.db)
    (hturn : weigh Worker.tick s.workers + w.tick ≤ 1) :
    Accounts d₀ { s with queues := q, workers := s.workers ++ [w] } where
  held := hheld
  tasks := htasks
  placed := List.forall_mem_append.2 ⟨h.placed, List.forall_mem_singleton.2 hplaced⟩
  missing := List.forall_mem_append.2 ⟨h.missing, List.forall_mem_singleton.2 hmissing⟩
  turn := weigh_append_singleton.trans_le hturn
  oneRow := h.oneRow
  quantity := h.quantity
  units := h.units

/-- The queues change. -/
theorem queues (h : Accounts d₀ s) {q : Queues String OrderToken}
    (hheld : Held { s with queues := q }) (htasks : q.All (Placed s.db)) :
    Accounts d₀ { s with queues := q } :=
  { h with held := hheld, tasks := htasks }

theorem step (h : Accounts d₀ s) {a : Action} (hok : InTurn s a) :
    Accounts d₀ (step withVillage s a) := by
  cases a with
  | create order =>
    simp only [Lifecycle.step]
    split
    next c hc =>
      have hpayable := checkOrder_eq_ok hc
      refine h.append (h.held.create hc) h.tasks ?_ trivial h.turn
      show (s.db.facilities.get? c.facility.facility.id).map Facility.villageId = _
      rw [hpayable.facility_id, hpayable.get?_facility, hpayable.village_id]
      rfl
    · exact h
  | move resourceType c =>
    exact h.queues (h.held.mover _ c) (Queues.All.mover h.held.queues h.tasks _ c)
  | pop resourceType reply =>
    simp only [Lifecycle.step]
    split
    next hpop =>
      obtain ⟨hplaced, htasks⟩ := h.tasks.lpop hpop
      refine h.append (h.held.pop hpop) htasks hplaced trivial ?_
      rw [weigh_eq_zero fun w hw => Worker.tick_of_not_ticking (hok w hw)]
      exact le_rfl
    next hpop => exact h.queues (h.held.pop_lost hpop) (h.tasks.lpop hpop).2
    · exact h
  | call k reply now =>
    simp only [Lifecycle.step]
    split
    next w hw => exact h.advance hw now
    · exact h
  | stop k => exact h.drop k

end Accounts

/-- In a run in which the producer works on one item after the other, an order has at most one
token and is not delivered beyond its quantity, and the units that production adds to a village are
those that its orders count as delivered. The queues of the start hold tokens of open orders, at most
one of each, which name the village of the facility. -/
theorem delivered_as_recorded {queues : Queues String OrderToken}
    (h : Reach (graph (step withVillage)) InTurn (start d queues) s)
    (hheld : Held (start d queues)) (hplaced : queues.All (Placed d)) (hone : d.OneRowPerType)
    (hquantity : ∀ o ∈ d.orders.rows, o.deliveredQuantity ≤ o.orderedQuantity) :
    (∀ orderId, s.tokens orderId ≤ 1) ∧
      (∀ o ∈ s.db.orders.rows, o.deliveredQuantity ≤ o.orderedQuantity) ∧
      ∀ v t, IsUnit t →
        s.db.totalOf v t - d.totalOf v t = deliveredIn s.db v t - deliveredIn d v t := by
  have haccounts : Accounts d s := by
    refine h.inv (Accounts.start hheld hplaced hone hquantity) ?_
    rintro s a s' haccounts hok rfl
    exact haccounts.step hok
  refine ⟨fun orderId => ?_, haccounts.quantity, haccounts.units⟩
  exact (haccounts.held.tokens orderId).trans (openOrders_le s.db orderId)

/-- One of two stone hunters is delivered. -/
theorem delivered_as_recorded_sample :
    let s := after (sampleTick 0 .ok)
    s.db.totalOf 1 stoneHunter = 1 ∧ s.tokens 1 ≤ 1 ∧
      s.db.totalOf 1 stoneHunter - sampleOrdered.totalOf 1 stoneHunter =
        deliveredIn s.db 1 stoneHunter - deliveredIn sampleOrdered 1 stoneHunter := by
  have hrun : Reach (graph (step false)) InTurn (start sampleOrdered sampleQueues)
      (after (sampleTick 0 .ok)) := Reach.refl.meets (by decide +kernel)
  have hplaced : Placed sampleOrdered sampleToken := rfl
  obtain ⟨htokens, -, hunits⟩ := delivered_as_recorded hrun held_sampleOrdered
    (Queues.all_empty.zadd hplaced _) (by decide) (by decide)
  exact ⟨by decide +kernel, htokens 1, hunits 1 stoneHunter ⟨.stoneHunter, rfl⟩⟩

end Cme.Production.Lifecycle
