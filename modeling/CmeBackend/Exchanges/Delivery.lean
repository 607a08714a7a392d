import CmeBackend.Exchanges.Military
import CmeBackend.Villages.Totals

/-!
# Delivering units

What `resourceTransferWithRedis` (`resources-ms-exchanges.service.ts`) does with one due item: it
finds the rows of the receiver, adds the units, and saves (`deliver`, `saveDelivery`). If the save
fails, it adds the units to the rows of the sender (`revert`).

* `Delivery`: the array `data`. A row that is pushed twice is one object, whose count has grown
  twice. A type without a row is a new row for each entry.
* `queued`: the units of a type in an item.
-/

namespace Cme.Exchanges

variable {C : Catalog}

/-- `data` -/
structure Delivery (C : Catalog) where
  found : List (Entity C)
  created : List SentMilitary
  deriving DecidableEq

/-! ## The code -/

/-- `resourceType.count += resource.count; data.push(resourceType)` -/
def push (found : List (Entity C)) (r : VillageResourceType C) (count : ℤ) : List (Entity C) :=
  if found.any (·.loaded.id = r.id) then
    found.map (Table.patch r.id fun e => { e with count := e.count + count })
  else found ++ [⟨r, r.count + count⟩]

/-- The row of the type of an entry. -/
def findResource (villageResources : List (VillageResourceType C)) (resource : SentMilitary) :
    Option (VillageResourceType C) :=
  villageResources.find? (·.resourceType.id = resource.id)

/-- The callback of `queueData.resources.forEach`. -/
def addResource (villageResources : List (VillageResourceType C)) (data : Delivery C)
    (resource : SentMilitary) : Delivery C :=
  match findResource villageResources resource with
  | some r => { data with found := push data.found r resource.count }
  | none => { data with created := data.created ++ [resource] }

def deliver (villageResources : List (VillageResourceType C)) (resources : List SentMilitary) :
    Delivery C :=
  resources.foldl (addResource villageResources) ⟨[], []⟩

/-- The loop that gives the units back. A type without a row is skipped. -/
def revert (senderVillageResources : List (VillageResourceType C)) (resources : List SentMilitary) :
    List (Entity C) :=
  resources.foldl (fun data resource =>
    match findResource senderVillageResources resource with
    | some r => push data r resource.count
    | none => data) []

/-- The insert of a new row, whose village and resource type have to exist. -/
def insertResource (villageId : ℕ) (d : Db C) (resource : SentMilitary) : Option (Db C) := do
  let t ← C.ofId? resource.id
  let _ ← d.villages.get? villageId
  return d.insertCount villageId t resource.count

/-- `villagesResourceTypesRepository.save(data)`, which is one transaction. -/
def saveDelivery (d : Db C) (villageId : ℕ) (data : Delivery C) : Option (Db C) :=
  data.created.foldlM (insertResource villageId) (d.saveEntities data.found)

/-- A due item that is delivered with nothing in between. -/
def receive (d : Db C) (item : QueueItem) : Option (Db C) :=
  saveDelivery d item.receiverVillageId (deliver (d.rowsOf item.receiverVillageId) item.resources)

/-- A due item that is given back with nothing in between. -/
def giveBack (d : Db C) (item : QueueItem) : Db C :=
  d.saveEntities (revert (d.rowsOf item.senderVillageId) item.resources)

/-! ## How much is delivered -/

/-- The counts of a type in a list of entries. -/
def countsOf (resources : List SentMilitary) (t : C.Ref) : List ℤ :=
  (resources.filter (·.id = t.id)).map SentMilitary.count

/-- The units of a type in a list of entries. -/
def queued (resources : List SentMilitary) (t : C.Ref) : ℤ := (countsOf resources t).sum

/-- What the save of a delivery adds to the total of a type. -/
def Delivery.amount (v : ℕ) (t : C.Ref) (data : Delivery C) : ℤ :=
  (data.found.map (Entity.gain v t)).sum + queued data.created t

variable {rows : List (VillageResourceType C)} {found : List (Entity C)}
  {r : VillageResourceType C} {v : ℕ} {t : C.Ref}

/-- The objects of an array are rows that were found, each once. -/
structure Loaded (rows : List (VillageResourceType C)) (found : List (Entity C)) : Prop where
  nodup : (found.map key).Nodup
  mem : ∀ e ∈ found, e.loaded ∈ rows

theorem Loaded.push (h : Loaded rows found) (hr : r ∈ rows) (n : ℤ) :
    Loaded rows (push found r n) := by
  unfold Exchanges.push
  split
  next hany =>
    constructor
    · rw [List.map_map]
      have hkey : key ∘ Table.patch r.id (fun e : Entity C => { e with count := e.count + n }) =
          key := funext (Table.key_patch fun _ => rfl)
      rw [hkey]
      exact h.nodup
    · intro e he
      obtain ⟨e', he', rfl⟩ := List.mem_map.1 he
      unfold Table.patch
      split
      · exact h.mem e' he'
      · exact h.mem e' he'
  next hany =>
    constructor
    · rw [List.map_append, List.nodup_append]
      refine ⟨h.nodup, List.nodup_singleton _, ?_⟩
      intro a ha b hb hab
      obtain ⟨e, he, rfl⟩ := List.mem_map.1 ha
      obtain rfl : b = r.id := List.mem_singleton.1 hb
      exact hany (List.any_eq_true.2 ⟨e, he, decide_eq_true hab⟩)
    · intro e he
      rcases List.mem_append.1 he with he | he
      · exact h.mem e he
      · rw [List.mem_singleton.1 he]
        exact hr

/-- A push adds its count to what the array adds to the type of its row. -/
theorem sum_gain_push (h : Loaded rows found) (hid : (rows.map key).Nodup) (hr : r ∈ rows)
    (hv : r.villageId = some v) (n : ℤ) :
    ((push found r n).map (Entity.gain v t)).sum =
      (found.map (Entity.gain v t)).sum + if r.resourceType = t then n else 0 := by
  unfold push
  split
  next hany =>
    obtain ⟨e, he, heq⟩ := List.any_eq_true.1 hany
    have hkey : e.loaded.id = r.id := of_decide_eq_true heq
    have hloaded : e.loaded = r := List.inj_on_of_nodup_map hid (h.mem e he) hr hkey
    have hsum := Table.sum_patch (f := fun e => { e with count := e.count + n })
      (w := Entity.gain v t) h.nodup he
    rw [← hkey]
    refine hsum.trans ?_
    unfold Entity.gain
    rw [hloaded]
    by_cases ht : r.resourceType = t
    · simp only [hv, ht, true_and, if_true]
      ring
    · simp [ht]
  next =>
    rw [List.map_append, List.sum_append, List.map_singleton, List.sum_singleton]
    congr 1
    unfold Entity.gain
    by_cases ht : r.resourceType = t
    · simp [hv, ht]
    · simp [ht]

theorem findResource_eq_some {resource : SentMilitary} (h : findResource rows resource = some r) :
    r ∈ rows ∧ r.resourceType.id = resource.id :=
  ⟨List.mem_of_find?_eq_some h, by simpa using List.find?_some h⟩

/-- One entry adds its count to what is delivered of its type. -/
theorem amount_addResource {data : Delivery C} (resource : SentMilitary)
    (h : Loaded rows data.found) (hid : (rows.map key).Nodup)
    (hv : ∀ r ∈ rows, r.villageId = some v) :
    Loaded rows (addResource rows data resource).found ∧
      (addResource rows data resource).amount v t =
        data.amount v t + if resource.id = t.id then resource.count else 0 := by
  unfold addResource
  split
  next r hfind =>
    obtain ⟨hr, hrid⟩ := findResource_eq_some hfind
    refine ⟨h.push hr _, ?_⟩
    have htype : r.resourceType = t ↔ resource.id = t.id :=
      ⟨fun heq => hrid ▸ congrArg _ heq, fun heq => Catalog.Ref.eq_of_id (hrid.trans heq)⟩
    simp only [Delivery.amount, sum_gain_push h hid hr (hv r hr), htype]
    ring
  · refine ⟨h, ?_⟩
    simp only [Delivery.amount, queued, countsOf, List.filter_append, List.map_append,
      List.sum_append]
    rw [add_assoc]
    congr 2
    by_cases hid : resource.id = t.id
    · simp [hid]
    · simp [hid]

theorem amount_foldl (data : Delivery C) (resources : List SentMilitary)
    (h : Loaded rows data.found) (hid : (rows.map key).Nodup)
    (hv : ∀ r ∈ rows, r.villageId = some v) :
    Loaded rows (resources.foldl (addResource rows) data).found ∧
      (resources.foldl (addResource rows) data).amount v t =
        data.amount v t + queued resources t := by
  induction resources generalizing data with
  | nil => exact ⟨h, (add_zero _).symm⟩
  | cons resource rest ih =>
    obtain ⟨hloaded, hamount⟩ := amount_addResource (t := t) resource h hid hv
    obtain ⟨hloaded', hamount'⟩ := ih _ hloaded
    refine ⟨hloaded', ?_⟩
    rw [List.foldl_cons, hamount', hamount, add_assoc]
    congr 1
    unfold queued countsOf
    by_cases heq : resource.id = t.id
    · simp [heq]
    · simp [heq]

/-- A delivery adds every entry of the item to its type. -/
theorem amount_deliver (resources : List SentMilitary) (hid : (rows.map key).Nodup)
    (hv : ∀ r ∈ rows, r.villageId = some v) :
    Loaded rows (deliver rows resources).found ∧
      (deliver rows resources).amount v t = queued resources t := by
  have hempty : Loaded rows ([] : List (Entity C)) := ⟨List.nodup_nil, fun e he => by cases he⟩
  obtain ⟨hloaded, hamount⟩ := amount_foldl (t := t) ⟨[], []⟩ resources hempty hid hv
  exact ⟨hloaded, hamount.trans (by simp [Delivery.amount, queued, countsOf])⟩

/-! ## What a save adds -/

variable {d d' : Db C}

/-- The rows of a village as the table has them. -/
theorem nodup_rowsOf (d : Db C) (v : ℕ) : ((d.rowsOf v).map key).Nodup :=
  d.villagesResourceTypes.nodup.sublist (List.filter_sublist.map _)

theorem totalOf_insertResource {resource : SentMilitary} {w : ℕ}
    (h : insertResource w d resource = some d') :
    d'.totalOf v t = d.totalOf v t + if w = v ∧ resource.id = t.id then resource.count else 0 := by
  obtain ⟨u, hu, h⟩ := Option.bind_eq_some_iff.1 h
  obtain ⟨village, -, h⟩ := Option.bind_eq_some_iff.1 h
  cases h
  have htype : u = t ↔ resource.id = t.id := by
    rw [← Catalog.ofId?_eq_some.1 hu]
    exact ⟨fun heq => congrArg _ heq, Catalog.Ref.eq_of_id⟩
  rw [Db.totalOf_insertCount]
  simp only [htype]

theorem totalOf_insertResources {created : List SentMilitary} {w : ℕ}
    (h : created.foldlM (insertResource w) d = some d') :
    d'.totalOf v t = d.totalOf v t + if w = v then queued created t else 0 := by
  induction created generalizing d with
  | nil =>
    cases h
    simp [queued, countsOf]
  | cons resource rest ih =>
    obtain ⟨d₁, h₁, h⟩ := Option.bind_eq_some_iff.1 h
    rw [ih h, totalOf_insertResource h₁]
    unfold queued countsOf
    by_cases hw : w = v
    · by_cases heq : resource.id = t.id
      · simp [hw, heq, add_assoc]
      · simp [hw, heq]
    · simp [hw]

/-- A save of rows as they were loaded adds what the delivery has of each type. -/
theorem totalOf_saveDelivery {data : Delivery C} (h : saveDelivery d v data = some d')
    (hn : (data.found.map key).Nodup)
    (hfresh : ∀ e ∈ data.found, e.loaded ∈ d.villagesResourceTypes.rows) :
    d'.totalOf v t = d.totalOf v t + data.amount v t := by
  rw [totalOf_insertResources h, Db.totalOf_saveEntities hn hfresh, if_pos rfl, add_assoc]
  rfl

/-- An item adds what it has of each type to the receiver. -/
theorem totalOf_receive {item : QueueItem} (h : receive d item = some d') :
    d'.totalOf item.receiverVillageId t =
      d.totalOf item.receiverVillageId t + queued item.resources t := by
  obtain ⟨hloaded, hamount⟩ := amount_deliver (t := t) item.resources
    (nodup_rowsOf d item.receiverVillageId) fun r hr => (Db.mem_rowsOf.1 hr).2
  rw [totalOf_saveDelivery h hloaded.nodup fun e he => (Db.mem_rowsOf.1 (hloaded.mem e he)).1,
    hamount]

/-- An item leaves the totals of the other villages alone. -/
theorem totalOf_receive_of_ne {item : QueueItem} (h : receive d item = some d')
    (hv : v ≠ item.receiverVillageId) : d'.totalOf v t = d.totalOf v t := by
  obtain ⟨hloaded, -⟩ := amount_deliver (t := t) item.resources
    (nodup_rowsOf d item.receiverVillageId) fun r hr => (Db.mem_rowsOf.1 hr).2
  have hgain : ∀ e ∈ (deliver (d.rowsOf item.receiverVillageId) item.resources).found,
      Entity.gain v t e = 0 := by
    intro e he
    have hvillage := (Db.mem_rowsOf.1 (hloaded.mem e he)).2
    refine if_neg fun h => hv ?_
    exact Option.some.inj (h.1.symm.trans hvillage)
  rw [totalOf_insertResources h, if_neg fun h => hv h.symm, add_zero,
    Db.totalOf_saveEntities hloaded.nodup fun e he => (Db.mem_rowsOf.1 (hloaded.mem e he)).1,
    List.map_congr_left hgain]
  simp

/-- The loop that gives back pushes the rows that a delivery would. -/
theorem revert_eq (resources : List SentMilitary) :
    revert rows resources = (deliver rows resources).found := by
  suffices h : ∀ data : Delivery C, resources.foldl (fun found resource =>
      match findResource rows resource with
      | some r => push found r resource.count
      | none => found) data.found = (resources.foldl (addResource rows) data).found from
    h ⟨[], []⟩
  induction resources with
  | nil => exact fun data => rfl
  | cons resource rest ih =>
    intro data
    rw [List.foldl_cons, List.foldl_cons, ← ih]
    congr 1
    unfold addResource
    split <;> rfl

/-- A village with rows of all types needs no new ones. -/
theorem created_deliver {resources : List SentMilitary}
    (h : ∀ resource ∈ resources, (findResource rows resource).isSome) :
    (deliver rows resources).created = [] := by
  suffices hfold : ∀ data : Delivery C,
      (resources.foldl (addResource rows) data).created = data.created from hfold _
  induction resources with
  | nil => exact fun data => rfl
  | cons resource rest ih =>
    intro data
    obtain ⟨hfound, hrest⟩ := List.forall_mem_cons.1 h
    obtain ⟨r, hr⟩ := Option.isSome_iff_exists.1 hfound
    rw [List.foldl_cons, ih hrest]
    unfold addResource
    rw [hr]

/-- An item that comes back adds what it has of each type to the sender, if the sender has rows of
its types. -/
theorem totalOf_giveBack {item : QueueItem} (hrows : ∀ resource ∈ item.resources,
      (findResource (d.rowsOf item.senderVillageId) resource).isSome) :
    (giveBack d item).totalOf item.senderVillageId t =
      d.totalOf item.senderVillageId t + queued item.resources t := by
  obtain ⟨hloaded, hamount⟩ := amount_deliver (t := t) item.resources
    (nodup_rowsOf d item.senderVillageId) fun r hr => (Db.mem_rowsOf.1 hr).2
  unfold giveBack
  rw [revert_eq, Db.totalOf_saveEntities hloaded.nodup fun e he =>
    (Db.mem_rowsOf.1 (hloaded.mem e he)).1, ← hamount, Delivery.amount, created_deliver hrows]
  simp [queued, countsOf]

end Cme.Exchanges
