import CmeBackend.Facilities.Reverts

/-!
# One running order for each facility

A facility has at most one order that is not delivered, and is in production exactly while it has
one, as long as every save finds `is_in_production` as the worker expects it (`one_running_iff`).

* `running`: the orders of a facility that are not delivered.
* `OneRunning`: the property, and `runs` the number of these orders.
* `Worker.Exclusive`: what a worker that saves `is_in_production` expects of it.
-/

namespace Cme.Facilities.Saves

open GameRules Production Redis Runs

variable {C : Catalog}

/-! ## The property and its condition -/

/-- The orders of a facility that are not delivered. -/
def running (d : GameDb C) (id : ℕ) : List (Order C) :=
  d.orders.rows.filter fun o => o.facilityId = id ∧ Lifecycle.Open o

/-- At most one order of a facility is running, and it is in production exactly while there is
one. -/
def OneRunning (d : GameDb C) : Prop :=
  ∀ id, ∀ c ∈ columns d id, (running d id).length ≤ 1 ∧
    (c.isInProduction = true ↔ ∃ o ∈ d.orders.rows, o.facilityId = id ∧ Lifecycle.Open o)

/-- The property by the rows of `facilities`. -/
theorem oneRunning_iff_rows {d : GameDb C} :
    OneRunning d ↔ ∀ f ∈ d.facilities.rows, (running d f.id).length ≤ 1 ∧
      ((d.production f.id).isInProduction = true ↔
        ∃ o ∈ d.orders.rows, o.facilityId = f.id ∧ Lifecycle.Open o) := by
  constructor
  · intro h f hf
    have hrow : d.facilities.get? f.id = some f := Table.get?_eq_some.2 ⟨hf, rfl⟩
    refine h f.id ⟨f.level, _, (d.production f.id).lastProductionAt⟩ ?_
    unfold columns
    rw [hrow]
    rfl
  · intro h id c hc
    obtain ⟨f, hf, rfl⟩ := Option.map_eq_some_iff.1 hc
    obtain ⟨hrow, rfl⟩ := Table.get?_eq_some.1 hf
    exact h f hrow

instance (d : GameDb C) : Decidable (OneRunning d) := decidable_of_iff _ oneRunning_iff_rows.symm

/-- `FOREIGN KEY (facility_id)` of `orders` -/
def Referenced (d : GameDb C) : Prop :=
  ∀ o ∈ d.orders.rows, (columns d o.facilityId).isSome

instance (d : GameDb C) : Decidable (Referenced d) :=
  inferInstanceAs (Decidable (∀ o ∈ _, _))

/-- An order is created for a facility that is free, and the flag that another save repeats is as
it was loaded. -/
def Worker.Exclusive (d : GameDb C) : Worker C → Prop
  | .upgrading c => ∀ row ∈ columns d c.facility.facility.id,
    row.isInProduction = c.facility.production.isInProduction
  | .ordering c => ∀ row ∈ columns d c.facility.facility.id, row.isInProduction = false
  | .saving _ token sel facility => ∀ row ∈ columns d facility.facility.id,
    sel.continued token = true → row.isInProduction = facility.production.isInProduction
  | _ => True

instance (d : GameDb C) (w : Worker C) : Decidable (w.Exclusive d) :=
  match w with
  | .upgrading _ | .ordering _ => inferInstanceAs (Decidable (∀ row ∈ _, _ = _))
  | .saving _ _ _ _ => inferInstanceAs (Decidable (∀ row ∈ _, _ → _))
  | .building _ | .stamping _ _ | .queueing _ _ | .selecting _ _ | .loading _ _ _
  | .requeueing _ _ | .ended => isTrue trivial

/-- A worker that saves a facility is exclusive. -/
def Exclusive (s : State C) (a : Action) : Prop := Writing (fun _ w => w.Exclusive s.db) s a

instance (s : State C) (a : Action) : Decidable (Exclusive s a) :=
  inferInstanceAs (Decidable (Writing _ s a))

/-! ## The number of running orders -/

variable {d d' : GameDb C} {s s' : State C} {w : Worker C} {k : ℕ} {now : ℤ}
  {facility : Facility} {p : FacilityProduction} {e : Env} {id : ℕ}

/-- Whether an order of a facility is running, as a number. -/
def runsOn (id : ℕ) (o : Order C) : ℤ := if o.facilityId = id ∧ Lifecycle.Open o then 1 else 0

/-- The number of the running orders of a facility. -/
def runs (d : GameDb C) (id : ℕ) : ℤ := d.orders.total (runsOn id)

theorem runs_eq_length (d : GameDb C) (id : ℕ) : runs d id = (running d id).length := by
  unfold runs running Table.total
  generalize d.orders.rows = rows
  induction rows with
  | nil => rfl
  | cons o rows ih =>
    rw [List.map_cons, List.sum_cons, ih, List.filter_cons]
    unfold runsOn
    by_cases ho : o.facilityId = id ∧ Lifecycle.Open o
    · rw [if_pos ho, if_pos (decide_eq_true ho), List.length_cons]
      push_cast
      ring
    · rw [if_neg ho, if_neg (by simpa using ho), zero_add]

/-- The property in terms of the number. -/
theorem oneRunning_iff :
    OneRunning d ↔ ∀ id, ∀ c ∈ columns d id, runs d id = if c.isInProduction then 1 else 0 := by
  refine forall_congr' fun id => forall₂_congr fun c _ => ?_
  have hexists : (∃ o ∈ d.orders.rows, o.facilityId = id ∧ Lifecycle.Open o) ↔
      running d id ≠ [] := by
    unfold running
    simp [List.filter_eq_nil_iff]
  rw [runs_eq_length, hexists]
  generalize running d id = os
  match os with
  | [] => cases c.isInProduction <;> simp
  | [o] => cases c.isInProduction <;> simp
  | o :: o' :: rest =>
    have hmany : ¬(o :: o' :: rest).length ≤ 1 := by simp
    refine iff_of_false (fun h => hmany h.1) ?_
    simp only [List.length_cons]
    push_cast
    split <;> omega

/-! ## One step -/

theorem runs_congr (h : d'.orders = d.orders) (id : ℕ) : runs d' id = runs d id := by
  unfold runs
  rw [h]

/-- A new order runs on its facility. -/
theorem runs_placeOrder {c : CheckedOrder C} (h : placeOrder d c = some d')
    (hc : Lifecycle.Placeable d c) (id : ℕ) :
    runs d' id = runs d id + if c.facility.facility.id = id then 1 else 0 := by
  obtain ⟨amounts, -, -, rfl⟩ := placeOrder_eq_some.1 h
  have hopen : 0 < c.orderedQuantity.num := Rat.num_pos.2 hc.quantity
  unfold runs
  show (Table.insert d.orders _).total _ = _
  rw [Table.total_insert]
  congr 1
  exact if_congr (and_iff_left hopen) rfl rfl

/-- A unit ends the run of its order if it was the last one. -/
theorem runs_saveUnit (h : Found s) {resourceType : String} {token : OrderToken} {sel : Selected}
    {loaded : LoadedFacility C}
    (hk : s.workers[k]? = some (.saving resourceType token sel loaded))
    (hcommit : saveUnit now s.db token sel loaded = some d') (id : ℕ) :
    runs d' id = runs s.db id +
      if loaded.facility.id = id then if sel.continued token then 0 else -1 else 0 := by
  have hid : loaded.facility.id = token.facilityId := h.workers _ (List.mem_of_getElem? hk)
  obtain ⟨o, o', hvalid, hopen, hvalid', hopen'⟩ := h.order hk hcommit
  obtain ⟨ho, hkey⟩ := Table.get?_eq_some.1 hvalid.order
  have horders : d'.orders = (deliverOne s.db token.orderId).orders :=
    (Lifecycle.counted_of_saveUnit hcommit).orders
  let one (o : Order C) : Order C := { o with deliveredQuantity := o.deliveredQuantity + 1 }
  have ho' : o' = one o := by
    have hget := hvalid'.order
    rw [horders] at hget
    exact Option.some.inj (hget.symm.trans (Table.get?_update_self (f := one) hvalid.order))
  have htotal : runs d' id = runs s.db id - runsOn id o + runsOn id (one o) := by
    unfold runs
    rw [horders]
    show (s.db.orders.update token.orderId one).total _ = _
    exact Table.total_update ho hkey
  rw [htotal, ← ho']
  unfold runsOn
  rw [hvalid.facility, hvalid'.facility, hid]
  by_cases heq : token.facilityId = id
  · rw [if_pos ⟨heq, hopen⟩, if_pos heq]
    cases hcontinued : sel.continued token with
    | true =>
      rw [if_pos ⟨heq, hopen'.2 hcontinued⟩, if_pos rfl]
      ring
    | false =>
      have hclosed : ¬Lifecycle.Open o' := fun ho' => by
        rw [hopen'.1 ho'] at hcontinued
        cases hcontinued
      rw [if_neg fun h => hclosed h.2, if_neg Bool.false_ne_true]
      ring
  · rw [if_neg fun h => heq h.1, if_neg fun h => heq h.1, if_neg heq]
    ring

/-- Whether a save keeps the property depends on the flag that it overwrites, where `n` is what it
adds to the running orders. -/
theorem oneRunning_saved (hfound : Found s) (hone : OneRunning s.db) (hk : s.workers[k]? = some w)
    (hcommit : w.commit now s.db = some d') (hsaved : w.saved now = some (facility, p)) {n : ℤ}
    (hruns : ∀ id, runs d' id = runs s.db id + if facility.id = id then n else 0) :
    OneRunning d' ↔ ∀ row ∈ columns s.db facility.id,
      (if row.isInProduction then 1 else 0) + n = if p.isInProduction then 1 else 0 := by
  obtain ⟨row, hrow⟩ := Option.isSome_iff_exists.1 (isSome_columns.trans (hfound.row hk hsaved))
  have hcolumns := columns_saved hsaved hcommit
  have hself := hcolumns facility.id
  rw [if_pos rfl, hrow, Option.map_some] at hself
  have hcount : runs d' facility.id = (if row.isInProduction then 1 else 0) + n := by
    rw [hruns, if_pos rfl, oneRunning_iff.1 hone _ row hrow]
  rw [oneRunning_iff]
  constructor
  · intro h row' hrow'
    obtain rfl := Option.some.inj (hrow.symm.trans hrow')
    exact hcount.symm.trans (h facility.id _ hself)
  · intro h id c hc
    by_cases hid : id = facility.id
    · subst hid
      obtain rfl := Option.some.inj (hself.symm.trans hc)
      exact hcount.trans (h row hrow)
    · rw [hcolumns, if_neg hid] at hc
      rw [hruns, if_neg (Ne.symm hid), add_zero]
      exact oneRunning_iff.1 hone id c hc

/-- A facility that is built has no orders. -/
theorem oneRunning_built (hrefs : Referenced d) (hone : OneRunning d) (c : CheckedCreate C) :
    OneRunning (Facilities.create d c) := by
  rw [oneRunning_iff] at hone ⊢
  intro id c' hc'
  rw [columns_built] at hc'
  rw [runs_congr (show (Facilities.create d c).orders = d.orders from rfl)]
  split at hc'
  next hid =>
    obtain rfl := Option.some.inj hc'
    rw [runs_eq_length]
    have hnil : running d id = [] := by
      refine List.filter_eq_nil_iff.2 fun o ho hrun => ?_
      have hrow := hrefs o ho
      rw [(of_decide_eq_true hrun).1, hid, isSome_columns, Table.get?_next] at hrow
      cases hrow
    rw [hnil]
    rfl
  next hid => exact hone id c' hc'

theorem oneRunning_stamp (hone : OneRunning d) (facilityIds : List ℕ) (startedAt : ℤ) :
    OneRunning (stamp d facilityIds startedAt) := by
  rw [oneRunning_iff] at hone ⊢
  intro id c hc
  rw [columns_stamp] at hc
  rw [runs_congr (show (stamp d facilityIds startedAt).orders = d.orders from rfl)]
  split at hc
  · obtain ⟨row, hrow, rfl⟩ := Option.map_eq_some_iff.1 hc
    exact hone id row hrow
  · exact hone id c hc

/-- A step keeps the property exactly if it is exclusive. -/
theorem oneRunning_step_iff (hfound : Found s) (hrefs : Referenced s.db) (hone : OneRunning s.db)
    (a : Action) : OneRunning (step e s a).db ↔ Exclusive s a := by
  rcases step_cases e s a with ⟨k, now, w, d', hk, hcommit, hdb, -, hwriting⟩ | ⟨hdb, -, hwriting⟩
  · refine Iff.trans ?_ (hwriting fun _ w => w.Exclusive s.db).symm
    rw [hdb]
    cases w with
    | building c =>
      cases hcommit
      exact iff_of_true (oneRunning_built hrefs hone c) trivial
    | stamping facilityIds startedAt =>
      cases hcommit
      exact iff_of_true (oneRunning_stamp hone facilityIds startedAt) trivial
    | upgrading c =>
      have hruns : ∀ id, runs d' id =
          runs s.db id + if c.facility.facility.id = id then 0 else 0 := by
        intro id
        rw [ite_self, add_zero]
        exact runs_congr (keeps_commit rfl hcommit).1 id
      refine (oneRunning_saved hfound hone hk hcommit rfl hruns).trans ?_
      refine forall₂_congr fun row _ => ?_
      cases row.isInProduction <;> cases c.facility.production.isInProduction <;> simp
    | ordering c =>
      have hc : Lifecycle.Placeable s.db c :=
        hfound.held.workers _ (List.mem_of_getElem? (view_get hk))
      refine (oneRunning_saved hfound hone hk hcommit rfl (runs_placeOrder hcommit hc)).trans ?_
      refine forall₂_congr fun row _ => ?_
      show (if row.isInProduction then 1 else 0) + 1 = (if true = true then 1 else 0) ↔ _
      cases row.isInProduction <;> simp
    | saving resourceType token sel loaded =>
      have hruns := runs_saveUnit hfound hk hcommit
      refine (oneRunning_saved hfound hone hk hcommit rfl hruns).trans ?_
      refine forall₂_congr fun row hrow => ?_
      -- The order of the unit is running, so the facility is in production.
      have hid : loaded.facility.id = token.facilityId :=
        hfound.workers _ (List.mem_of_getElem? hk)
      obtain ⟨o, -, hvalid, hopen, -⟩ := hfound.order hk hcommit
      have hbusy : row.isInProduction = true := (hone _ row hrow).2.2
        ⟨o, (Table.get?_eq_some.1 hvalid.order).1, hvalid.facility.trans hid.symm, hopen⟩
      rw [hbusy]
      unfold producedAt
      cases sel.continued token <;> cases loaded.production.isInProduction <;> simp
    | queueing _ _ | selecting _ _ | loading _ _ _ | requeueing _ _ | ended =>
      cases hcommit
      exact iff_of_true hone trivial
  · rw [hdb]
    exact iff_of_true hone (hwriting _)

/-! ## Runs -/

/-- The facility of an order has a row. -/
theorem Referenced.step (h : Referenced s.db) (hfound : Found s) (a : Action) :
    Referenced (step e s a).db := by
  rcases step_cases e s a with ⟨k, now, w, d', hk, hcommit, hdb, -⟩ | ⟨hdb, -⟩
  · rw [hdb]
    have hkeep : ∀ {id}, (columns s.db id).isSome → (columns d' id).isSome := by
      intro id hsome
      rw [isSome_columns] at hsome ⊢
      exact isSome_commit hcommit hsome
    intro o ho
    cases w with
    | ordering c =>
      have hsaved : (Worker.ordering c).saved now = some (c.facility.facility, c.busy) := rfl
      have hrow := hfound.row hk hsaved
      obtain ⟨amounts, -, -, rfl⟩ := placeOrder_eq_some.1 hcommit
      rcases Table.mem_insert.1 ho with ho | rfl
      · exact hkeep (h o ho)
      · exact hkeep (isSome_columns.trans hrow)
    | saving resourceType token sel loaded =>
      rw [(Lifecycle.counted_of_saveUnit hcommit).orders] at ho
      obtain ⟨o₀, ho₀, rfl⟩ := List.mem_map.1 ho
      have hrow := hkeep (h o₀ ho₀)
      unfold Table.patch
      split <;> exact hrow
    | building _ | upgrading _ | stamping _ _ =>
      rw [(keeps_commit rfl hcommit).1] at ho
      exact hkeep (h o ho)
    | queueing _ _ | selecting _ _ | loading _ _ _ | requeueing _ _ | ended =>
      cases hcommit
      exact h o ho
  · rw [hdb]
    exact h

/-- A facility has at most one running order, and is in production exactly while it has one, at
every point of a run exactly if every save in it is exclusive. -/
theorem one_running_iff {queues : Queues String OrderToken}
    (h : Lifecycle.Held (⟨d, queues, []⟩ : Lifecycle.State C)) (hrefs : Referenced d)
    (hone : OneRunning d) (e : Env) (as : List Action) :
    (∀ bs, bs <+: as → OneRunning (bs.foldl (step e) (start d queues)).db) ↔
      Meets (step e) Exclusive (start d queues) as :=
  holds_iff_meets (I := fun s => Found s ∧ Referenced s.db)
    (P := fun s : State C => OneRunning s.db) ⟨.start h, hrefs⟩
    (fun _ a hs => ⟨hs.1.step a, hs.2.step hs.1 a⟩) hone
    (fun _ a hs hrunning => oneRunning_step_iff hs.1 hs.2 hrunning a) as

/-! ## An order of one barrack -/

/-- The barrack has an order of one stone hunter. -/
def sampleOrdered : GameDb sampleCatalog :=
  { sampleUpgrades with
    orders :=
      { rows := [⟨1, 3, stoneHunter, 1, 0⟩]
        next := 2
        nodup := by decide
        lt_next := by decide }
    production := Function.update (fun _ => .none) 3 ⟨true, none⟩ }

def sampleToken : OrderToken where
  orderId := 1
  resourceTypeId := stoneHunter.id
  orderedQuantity := 1
  productionTime := productionTime .stoneHunter
  villageId := 1
  facilityId := 3
  queue := "pending:stone_hunter"
  action := "create"

/-- The order is queued. -/
def sampleQueues : Queues String OrderToken := Queues.empty.zadd "stone_hunter" sampleToken

theorem held_sampleQueues :
    Lifecycle.Held (Lifecycle.start sampleOrdered sampleQueues : Lifecycle.State sampleCatalog) := by
  have hvalid : Lifecycle.Valid sampleOrdered sampleToken ⟨1, 3, stoneHunter, 1, 0⟩ :=
    ⟨by decide, rfl, rfl, rfl, rfl, by decide, by decide, fun _ => rfl⟩
  exact (Lifecycle.Held.start sampleOrdered).zadd_start hvalid (by decide) rfl _

/-- The state after a list of actions during the order. -/
def producing (as : List Action) : State sampleCatalog :=
  as.foldl (step ⟨false, []⟩) (start sampleOrdered sampleQueues)

/-- The worker `k` delivers the unit. -/
def sampleTick (k : ℕ) : List Action :=
  [.move "stone_hunter" (.start [1]), .move "stone_hunter" (.move .ok), .move "stone_hunter" .stop,
    .pop .stoneHunter .ok, .call k .ok 12000, .call k .ok 12000, .call k .ok 12000]

theorem one_running_iff_sample :
    (running sampleOrdered 3).length = 1 ∧ running (producing (sampleTick 0)).db 3 = [] ∧
      ∀ bs, bs <+: sampleTick 0 → OneRunning (producing bs).db :=
  ⟨by decide +kernel, by decide +kernel,
    (one_running_iff held_sampleQueues (by decide +kernel) (by decide +kernel) ⟨false, []⟩
      (sampleTick 0)).2 (by decide +kernel)⟩

/-- An upgrade that loads the barrack before its order is completed, and saves it afterwards. -/
def sampleLate : List Action := .upgrade 3 1 :: sampleTick 1 ++ [.call 0 .ok 13000]

/-- The barrack stays in production, although its order is completed. -/
theorem busy_without_order :
    OneRunning sampleOrdered ∧ running (producing sampleLate).db 3 = [] ∧
      columns (producing sampleLate).db 3 = some ⟨2, true, none⟩ ∧
      ¬OneRunning (producing sampleLate).db := by
  decide +kernel

end Cme.Facilities.Saves
