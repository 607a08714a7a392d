import CmeBackend.Exchanges.Conservation
import CmeBackend.Lib.Runs
import CmeBackend.Lib.Weights

/-!
# The cron of the deliveries

`resourceTransferWithRedis` (`resources-ms-exchanges.service.ts`) starts a callback for every item
that is due, and waits for none of them. A callback finds the rows of the receiver, saves what it
has computed, and removes the item from the queue. If the save fails, it gives the units back.

* `Callback`: where a callback is, with what it holds.
* `step`: one call of one callback, or a new run. The calls of the callbacks come in any order.
* `Delivered`: every total has grown by the items that have left the queue.
* `Undisturbed`: a save finds its rows as they were found, and its item has not been saved before.
-/

namespace Cme.Exchanges.Cron

open Runs Weights

variable {C : Catalog}

/-- A callback. -/
inductive Callback (C : Catalog) where
  | started (item : QueueItem)
  | found (item : QueueItem) (data : Delivery C)
  /-- The save has failed. -/
  | failed (item : QueueItem)
  | reverting (item : QueueItem) (data : List (Entity C))
  | saved (item : QueueItem)
  | removed (item : QueueItem)

structure State (C : Catalog) where
  db : Db C
  /-- The members of `receiver-village-resources`. -/
  queue : List QueueItem
  callbacks : List (Callback C)

inductive Action where
  /-- A run finds the items of a list due. -/
  | run (due : List QueueItem)
  | find (k : ℕ)
  | save (k : ℕ) (fails : Bool)
  | findSender (k : ℕ)
  | giveBack (k : ℕ)
  | zrem (k : ℕ)

/-! ## The steps -/

def State.goto (s : State C) (k : ℕ) (c : Callback C) : State C :=
  { s with callbacks := s.callbacks.set k c }

/-- One call. An action that is not the next one of its callback does nothing. -/
def step (s : State C) : Action → State C
  | .run due =>
    let items := s.queue.filter fun item => item ∈ due
    { s with callbacks := s.callbacks ++ items.map .started }
  | .find k =>
    match s.callbacks[k]? with
    | some (.started item) =>
      s.goto k (.found item (deliver (s.db.rowsOf item.receiverVillageId) item.resources))
    | _ => s
  | .save k fails =>
    match s.callbacks[k]? with
    | some (.found item data) =>
      match fails, saveDelivery s.db item.receiverVillageId data with
      | false, some d => { s with db := d }.goto k (.saved item)
      | _, _ => s.goto k (.failed item)
    | _ => s
  | .findSender k =>
    match s.callbacks[k]? with
    | some (.failed item) =>
      s.goto k (.reverting item (revert (s.db.rowsOf item.senderVillageId) item.resources))
    | _ => s
  | .giveBack k =>
    match s.callbacks[k]? with
    | some (.reverting item data) => { s with db := s.db.saveEntities data }.goto k (.saved item)
    | _ => s
  | .zrem k =>
    match s.callbacks[k]? with
    | some (.saved item) => { s with queue := s.queue.erase item }.goto k (.removed item)
    | _ => s

/-- No callback has started. -/
def start (d : Db C) (queue : List QueueItem) : State C := ⟨d, queue, []⟩

/-! ## The property and its condition -/

/-- What an item is to add to the total of a type in a village. -/
def QueueItem.share (v : ℕ) (t : C.Ref) (item : QueueItem) : ℤ :=
  if item.receiverVillageId = v then queued item.resources t else 0

/-- Every total has grown by the items that have left the queue. -/
def Delivered (d : Db C) (queue : List QueueItem) (s : State C) : Prop :=
  ∀ v t, s.db.totalOf v t =
    d.totalOf v t + ((queue.filter (· ∉ s.queue)).map (QueueItem.share v t)).sum

/-- The item of a callback that has saved. -/
def Callback.delivered : Callback C → Option QueueItem
  | .saved item => some item
  | .removed item => some item
  | _ => none

/-- A callback that has removed its item. -/
def Callback.isRemoved : Callback C → Bool
  | .removed _ => true
  | _ => false

/-- All callbacks have finished. -/
def Finished (s : State C) : Prop := ∀ c ∈ s.callbacks, c.isRemoved

instance (s : State C) : Decidable (Finished s) := inferInstanceAs (Decidable (∀ c ∈ _, _))

/-- A save goes through, of what the rows would give now, and of an item that no callback has saved
before. -/
def MaySave (s : State C) (fails : Bool) : Callback C → Prop
  | .found item data =>
    fails = false ∧ (saveDelivery s.db item.receiverVillageId data).isSome ∧
      data = deliver (s.db.rowsOf item.receiverVillageId) item.resources ∧
      ∀ c ∈ s.callbacks, c.delivered ≠ some item
  | _ => True

instance (s : State C) (fails : Bool) (c : Callback C) : Decidable (MaySave s fails c) :=
  match c with
  | .found _ _ => inferInstanceAs (Decidable (_ ∧ _ ∧ _ ∧ ∀ c ∈ _, _))
  | .started _ | .failed _ | .reverting _ _ | .saved _ | .removed _ => isTrue trivial

def Undisturbed (s : State C) : Action → Prop
  | .save k fails => ∀ c ∈ s.callbacks[k]?, MaySave s fails c
  | _ => True

/-! ## The invariant -/

/-- Whether a callback has saved an item, as a number. -/
def Callback.saves (item : QueueItem) (c : Callback C) : ℕ :=
  if c.delivered = some item then 1 else 0

/-- What the callback of an item has added. -/
def Callback.share (v : ℕ) (t : C.Ref) (c : Callback C) : ℤ :=
  (c.delivered.map (QueueItem.share v t)).getD 0

/-- The item of a callback. -/
def Callback.item : Callback C → QueueItem
  | .started item | .found item _ | .failed item | .reverting item _ | .saved item
  | .removed item => item

/-- The save of a callback has not failed. -/
def Callback.Running : Callback C → Prop
  | .failed _ | .reverting _ _ => False
  | _ => True

structure Inv (d : Db C) (queue : List QueueItem) (s : State C) : Prop where
  once : ∀ item, weigh (Callback.saves item) s.callbacks ≤ 1
  items : ∀ c ∈ s.callbacks, c.item ∈ queue
  running : ∀ c ∈ s.callbacks, c.Running
  left : ∀ item, item ∈ s.queue ↔ item ∈ queue ∧ .removed item ∉ s.callbacks
  nodup : s.queue.Nodup
  total : ∀ v t, s.db.totalOf v t = d.totalOf v t + weigh (Callback.share v t) s.callbacks

namespace Inv

variable {d : Db C} {queue : List QueueItem} {s : State C} {k : ℕ} {c c' : Callback C}

theorem start (hqueue : queue.Nodup) : Inv d queue (Cron.start d queue) where
  once _ := Nat.zero_le _
  items c hc := by cases hc
  running c hc := by cases hc
  left item := by simp [Cron.start]
  nodup := hqueue
  total v t := (add_zero _).symm

theorem run (h : Inv d queue s) (due : List QueueItem) : Inv d queue (step s (.run due)) where
  once item := by
    have hnew : weigh (Callback.saves (C := C) item)
        ((s.queue.filter fun item => item ∈ due).map .started) = 0 := by
      refine weigh_eq_zero fun c hc => ?_
      obtain ⟨item', -, rfl⟩ := List.mem_map.1 hc
      rfl
    show weigh _ (s.callbacks ++ _) ≤ 1
    rw [weigh_append, hnew, add_zero]
    exact h.once item
  items c hc := by
    rcases List.mem_append.1 hc with hc | hc
    · exact h.items c hc
    · obtain ⟨item, hitem, rfl⟩ := List.mem_map.1 hc
      exact ((h.left item).1 (List.mem_filter.1 hitem).1).1
  running c hc := by
    rcases List.mem_append.1 hc with hc | hc
    · exact h.running c hc
    · obtain ⟨item, hitem, rfl⟩ := List.mem_map.1 hc
      trivial
  left item := by
    rw [show (step s (.run due)).queue = s.queue from rfl, h.left]
    simp [step]
  nodup := h.nodup
  total v t := by
    have hnew : weigh (Callback.share v t)
        ((s.queue.filter fun item => item ∈ due).map (Callback.started (C := C))) = 0 := by
      refine weigh_eq_zero fun c hc => ?_
      obtain ⟨item', -, rfl⟩ := List.mem_map.1 hc
      rfl
    show s.db.totalOf v t = _ + weigh _ (s.callbacks ++ _)
    rw [weigh_append, hnew, add_zero]
    exact h.total v t

/-- A callback that has found its rows. -/
theorem find (h : Inv d queue s) {item : QueueItem} (hk : s.callbacks[k]? = some (.started item))
    (data : Delivery C) : Inv d queue (s.goto k (.found item data)) where
  once item' := by
    have hset := weigh_set (w := Callback.saves item') (b := .found item data) hk
    exact (add_right_cancel hset).trans_le (h.once item')
  items := forall_mem_set h.items (h.items (.started item) (List.mem_of_getElem? hk) : item ∈ queue)
  running := forall_mem_set h.running trivial
  left item' := by
    rw [show (s.goto k (.found item data)).queue = s.queue from rfl, h.left]
    show _ ↔ _ ∧ _ ∉ s.callbacks.set k _
    rw [mem_set_iff hk (by simp)]
    simp
  nodup := h.nodup
  total v t := by
    have hset := weigh_set (w := Callback.share v t) (b := .found item data) hk
    exact (h.total v t).trans (congrArg _ (add_right_cancel hset).symm)

/-- A callback that has saved its item, the first that does. -/
theorem save (h : Inv d queue s) {item : QueueItem} {data : Delivery C} {d' : Db C}
    (hk : s.callbacks[k]? = some (.found item data)) (hreceive : receive s.db item = some d')
    (hfirst : ∀ c ∈ s.callbacks, c.delivered ≠ some item) :
    Inv d queue ({ s with db := d' }.goto k (.saved item)) where
  once item' := by
    have hset := weigh_set (w := Callback.saves item') (b := .saved item) hk
    have honce := h.once item'
    have hfound : Callback.saves item' (.found item data) = 0 := rfl
    show weigh _ (s.callbacks.set k _) ≤ 1
    by_cases heq : item = item'
    · subst heq
      have hzero : weigh (Callback.saves (C := C) item) s.callbacks = 0 :=
        weigh_eq_zero fun c hc => if_neg (hfirst c hc)
      have hsaved : Callback.saves item (.saved item : Callback C) = 1 := if_pos rfl
      omega
    · have hsaved : Callback.saves item' (.saved item : Callback C) = 0 :=
        if_neg fun h => heq (Option.some.inj h)
      omega
  items := forall_mem_set h.items (h.items (.found item data) (List.mem_of_getElem? hk) : item ∈ queue)
  running := forall_mem_set h.running trivial
  left item' := by
    show item' ∈ s.queue ↔ _ ∧ _ ∉ s.callbacks.set k _
    rw [h.left, mem_set_iff hk (by simp)]
    simp
  nodup := h.nodup
  total v t := by
    have hset := weigh_set (w := Callback.share v t) (b := .saved item) hk
    have htotal := h.total v t
    have hadded : d'.totalOf v t = s.db.totalOf v t + QueueItem.share v t item := by
      unfold QueueItem.share
      by_cases hv : item.receiverVillageId = v
      · rw [if_pos hv, ← hv, totalOf_receive hreceive]
      · rw [if_neg hv, add_zero, totalOf_receive_of_ne hreceive fun heq => hv heq.symm]
    have hnone : Callback.share v t (.found item data) = 0 := rfl
    have hsaved : Callback.share v t (.saved item : Callback C) = QueueItem.share v t item := rfl
    show d'.totalOf v t = _ + weigh _ (s.callbacks.set k _)
    rw [hnone, hsaved, add_zero] at hset
    rw [hadded, hset, htotal, add_assoc]

/-- A callback that has removed its item. -/
theorem zrem (h : Inv d queue s) {item : QueueItem} (hk : s.callbacks[k]? = some (.saved item)) :
    Inv d queue ({ s with queue := s.queue.erase item }.goto k (.removed item)) where
  once item' := by
    have hset := weigh_set (w := Callback.saves item') (b := .removed item) hk
    exact (add_right_cancel hset).trans_le (h.once item')
  items := forall_mem_set h.items (h.items (.saved item) (List.mem_of_getElem? hk) : item ∈ queue)
  running := forall_mem_set h.running trivial
  left item' := by
    show item' ∈ s.queue.erase item ↔ _ ∧ _ ∉ s.callbacks.set k _
    rw [h.nodup.mem_erase_iff, h.left, mem_set_iff hk (by simp)]
    simp only [Callback.removed.injEq, not_or]
    tauto
  nodup := h.nodup.erase _
  total v t := by
    have hset := weigh_set (w := Callback.share v t) (b := .removed item) hk
    exact (h.total v t).trans (congrArg _ (add_right_cancel hset).symm)

theorem step (h : Inv d queue s) (a : Action) (hok : Undisturbed s a) :
    Inv d queue (Cron.step s a) := by
  cases a with
  | run due => exact h.run due
  | find k =>
    simp only [Cron.step]
    split
    next hk => exact h.find hk _
    · exact h
  | save k fails =>
    simp only [Cron.step]
    split
    next item data hk =>
      obtain ⟨rfl, hsome, hdata, hfirst⟩ := hok _ hk
      obtain ⟨d', hd'⟩ := Option.isSome_iff_exists.1 hsome
      simp only [hd']
      exact h.save hk (by rw [receive, ← hdata, hd']) hfirst
    · exact h
  | findSender k =>
    simp only [Cron.step]
    split
    next hk => exact absurd (h.running _ (List.mem_of_getElem? hk)) id
    · exact h
  | giveBack k =>
    simp only [Cron.step]
    split
    next hk => exact absurd (h.running _ (List.mem_of_getElem? hk)) id
    · exact h
  | zrem k =>
    simp only [Cron.step]
    split
    next hk => exact h.zrem hk
    · exact h

/-- What has been saved is what has left the queue, once all callbacks have finished. -/
theorem delivered (h : Inv d queue s) (hqueue : queue.Nodup) (hfinished : Finished s) :
    Delivered d queue s := by
  intro v t
  have hshare : weigh (Callback.share v t) s.callbacks =
      ((s.callbacks.filterMap Callback.delivered).map (QueueItem.share v t)).sum := by
    induction s.callbacks with
    | nil => rfl
    | cons c rest ih =>
      rw [weigh_cons, ih, List.filterMap_cons]
      cases hc : c.delivered with
      | none => simp [Callback.share, hc]
      | some item => simp [Callback.share, hc]
  have hperm : (s.callbacks.filterMap Callback.delivered).Perm
      (queue.filter (· ∉ s.queue)) := by
    refine (List.perm_ext_iff_of_nodup ?_ (hqueue.filter _)).2 fun item => ?_
    · refine List.nodup_iff_count_le_one.2 fun item => ?_
      rw [count_filterMap]
      exact h.once item
    · have hleft := h.left item
      simp only [List.mem_filterMap, List.mem_filter, decide_eq_true_eq]
      constructor
      · rintro ⟨c, hc, hitem⟩
        have hremoved := hfinished c hc
        cases c with
        | removed item' =>
          obtain rfl : item' = item := Option.some.inj hitem
          exact ⟨h.items _ hc, fun hmem => (hleft.1 hmem).2 hc⟩
        | _ => cases hremoved
      · rintro ⟨hmem, hnot⟩
        by_contra hnone
        exact hnot (hleft.2 ⟨hmem, fun hremoved => hnone ⟨_, hremoved, rfl⟩⟩)
  rw [h.total v t, hshare, (hperm.map _).sum_eq]

end Inv

/-! ## Runs -/

/-- In a run in which every save finds its rows as they were found, and saves its item for the
first time, every item that has left the queue has been delivered once. -/
theorem delivered_once {d : Db C} {queue : List QueueItem} {s : State C} (hqueue : queue.Nodup)
    (h : Reach (graph step) Undisturbed (start d queue) s) (hfinished : Finished s) :
    Delivered d queue s := by
  refine Inv.delivered (h.inv (I := Inv d queue) (Inv.start hqueue) ?_) hqueue hfinished
  rintro s a s' hinv hok rfl
  exact hinv.step a hok

/-! ## Two items for one village -/

/-- 5 and 7 stone hunters from village 2, on their way to village 1. -/
def sampleQueue : List QueueItem := [⟨[⟨5, 5⟩], 1, 2, 1 / 4⟩, ⟨[⟨5, 7⟩], 1, 2, 1 / 2⟩]

/-- A callback after the other. -/
def sampleTurns : List Action :=
  [.run sampleQueue, .find 0, .save 0 false, .zrem 0, .find 1, .save 1 false, .zrem 1]

/-- Both callbacks find the rows before either of them saves. -/
def sampleOverlap : List Action :=
  [.run sampleQueue, .find 0, .find 1, .save 0 false, .save 1 false, .zrem 0, .zrem 1]

theorem delivered_once_sample :
    Delivered Attacks.sampleDb sampleQueue
      (sampleTurns.foldl step (start Attacks.sampleDb sampleQueue)) :=
  delivered_once (by decide) (((((((Reach.refl.next (Action.run sampleQueue) trivial).next
    (Action.find 0) trivial).next (Action.save 0 false) (by unfold Undisturbed; decide +kernel)).next
    (Action.zrem 0) trivial).next (Action.find 1) trivial).next (Action.save 1 false)
    (by unfold Undisturbed; decide +kernel)).next (Action.zrem 1) trivial)
    (by decide +kernel)

/-- Of 12 stone hunters that have left the queue, village 1 has got 7. -/
theorem delivery_lost :
    sampleQueue.Nodup ∧ Reach (graph step) always (start Attacks.sampleDb sampleQueue)
        (sampleOverlap.foldl step (start Attacks.sampleDb sampleQueue)) ∧
      Finished (sampleOverlap.foldl step (start Attacks.sampleDb sampleQueue)) ∧
      ¬Delivered Attacks.sampleDb sampleQueue
        (sampleOverlap.foldl step (start Attacks.sampleDb sampleQueue)) := by
  refine ⟨by decide, Reach.refl.foldl _, ?_, fun h => ?_⟩
  · decide +kernel
  · have htotal := h 1 stoneHunter
    revert htotal
    decide +kernel

end Cme.Exchanges.Cron
