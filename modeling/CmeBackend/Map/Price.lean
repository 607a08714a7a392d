import CmeBackend.GameRules.Facilities
import CmeBackend.Lib.Charge
import CmeBackend.Map.Sequence

/-!
# The price of a village

`VillagesService.create` (`villages.service.ts`) as a whole, in a run without failures or overlaps:
the checks and the transaction (`Sequence.create`), the price that the villages of the user pay, and
the first facilities. A user who has a village has to hold the price. Only a user who has two is
charged.

* `removeFromRows`: the loop that takes what is left of the price from one row after the other.
* `filter_savedRow`: of each resource, the loop is a `charge` of the rows.
* `exists_create_iff`, `heldBy_create`: when a request succeeds, and what the villages hold then.
* `create_paid_iff`: when the villages have paid.
-/

namespace Cme.Map.Price

open Charge GameRules

variable {C : Catalog}

/-! ## The code -/

/-- `['food', 'iron', 'wood']` -/
def chargedResources : List String := ["food", "iron", "wood"]

/-- `leftToRemove`, by the name of the resource. -/
abbrev LeftToRemove := String → ℤ

/-- One row: what is left to remove after it, and the entity to save, if the row pays. -/
def removeFromRow (leftToRemove : LeftToRemove) (res : VillageResourceType C) :
    LeftToRemove × Option (Entity C) :=
  let type := res.resourceType.type
  if 0 < leftToRemove type ∧ 0 < res.count then
    let shouldRemove := min res.count (leftToRemove type)
    (Function.update leftToRemove type (leftToRemove type - shouldRemove),
      some ⟨res, max (res.count - shouldRemove) 0⟩)
  else (leftToRemove, none)

/-- `villageResourceTypesAfter`, with what is left to remove. -/
def removeFromRows (leftToRemove : LeftToRemove) :
    List (VillageResourceType C) → LeftToRemove × List (Entity C)
  | [] => (leftToRemove, [])
  | res :: rest =>
    let (leftToRemove, after) := removeFromRow leftToRemove res
    let (leftToRemove, afterRest) := removeFromRows leftToRemove rest
    (leftToRemove, after.toList ++ afterRest)

/-- The rows of a village that pay. -/
def chargedRows (village : LoadedVillage C) : List (VillageResourceType C) :=
  village.villagesResourceTypes.filter (·.resourceType.type ∈ chargedResources)

/-- The loop over the villages, with a `save` for each of them. -/
def removeFromVillages (d : Db C) (leftToRemove : LeftToRemove) : List (LoadedVillage C) → Db C
  | [] => d
  | village :: rest =>
    let (leftToRemove, after) := removeFromRows leftToRemove (chargedRows village)
    removeFromVillages (d.saveEntities after) leftToRemove rest

/-- `removeResourcesForVillageCreation` -/
def removeResourcesForVillageCreation (d : Db C) (villages : List (LoadedVillage C)) : Db C :=
  removeFromVillages d (fun _ => RESOURCES_NEEDED_NEW_VILLAGE) villages

/-- `BASE_FACILITIES` -/
def baseFacilities : List FacilityType := [.cropland, .ironMine, .sawmill, .monkeyCoinMine]

/-- `createFirstFacilitiesForVillage`, with the types of the rows of `facility_types`. -/
def createFirstFacilitiesForVillage (d : Db C) (facilityTypes : List String) (villageId : ℕ) :
    Db C :=
  (facilityTypes.filter (· ∈ baseFacilities.map FacilityType.name)).foldl (fun d type =>
    { d with facilities := d.facilities.insert fun id =>
        { id, level := 1, facilityType := type, villageId } }) d

/-- `VillagesService.create` -/
def create (facilityTypes : List String) (d : MapDb C) (dto : CreateVillageDto) (userId : ℕ)
    (now : ℤ) : Except Failure (MapDb C) := do
  let villages := villagesForThisUser d userId
  let created ← Sequence.create d dto userId now
  let charged :=
    if 1 < villages.length ∧ checkIfHasEnoughResourcesForNewVillage villages then
      removeResourcesForVillageCreation created.toDb villages
    else created.toDb
  return { created with
    toDb := createFirstFacilitiesForVillage charged facilityTypes d.villages.next }

/-! ## What the villages hold -/

/-- What villages hold of a resource, when their rows are read again. -/
def heldBy (d : Db C) (villages : List (LoadedVillage C)) (type : String) : ℤ :=
  totalOfVillages (villages.map fun v => ⟨v.village, d.rowsOf v.village.id⟩) type

/-- The villages hold the price of a village before a request, and less by the price after it. -/
structure Paid (d d' : Db C) (villages : List (LoadedVillage C)) : Prop where
  held : ∀ type ∈ chargedResources, RESOURCES_NEEDED_NEW_VILLAGE ≤ heldBy d villages type
  charged : ∀ type ∈ chargedResources,
    heldBy d' villages type = heldBy d villages type - RESOURCES_NEEDED_NEW_VILLAGE

/-- A request passes the checks, and no constraint refuses its village. -/
def Accepts (d : MapDb C) (dto : CreateVillageDto) (userId : ℕ) : Prop :=
  (d.users.get? userId).isSome ∧ ∃ named, checkOccupiedMapTile d dto = .ok named ∧
    checkVillages d named (villagesForThisUser d userId) = .ok () ∧
    ¬d.Taken (named.x, named.y) named.name

/-! ## The loop over the rows -/

section Rows

variable {left : LeftToRemove} {rows : List (VillageResourceType C)} {t : C.Ref}

/-- A row pays what it has, up to what is left, or nothing. -/
theorem removeFromRow_cases (left : LeftToRemove) (r : VillageResourceType C) :
    (0 < left r.resourceType.type ∧ 0 < r.count) ∧ removeFromRow left r =
        (Function.update left r.resourceType.type
            (left r.resourceType.type - min r.count (left r.resourceType.type)),
          some ⟨r, r.count - min r.count (left r.resourceType.type)⟩) ∨
      ¬(0 < left r.resourceType.type ∧ 0 < r.count) ∧ removeFromRow left r = (left, none) := by
  by_cases hpay : 0 < left r.resourceType.type ∧ 0 < r.count
  · have hmax : max (r.count - min r.count (left r.resourceType.type)) 0 =
        r.count - min r.count (left r.resourceType.type) := by omega
    refine .inl ⟨hpay, (if_pos hpay).trans ?_⟩
    rw [hmax]
  · exact .inr ⟨hpay, if_neg hpay⟩

/-- The entity of a row is of this row. -/
theorem loaded_eq {r : VillageResourceType C} {e : Entity C}
    (he : e ∈ (removeFromRow left r).2.toList) : e.loaded = r := by
  rcases removeFromRow_cases left r with ⟨-, hrow⟩ | ⟨-, hrow⟩
  · rw [hrow] at he
    rw [List.mem_singleton.1 he]
  · rw [hrow] at he
    cases he

/-- The entities are of rows of the list. -/
theorem loaded_mem {e : Entity C} (he : e ∈ (removeFromRows left rows).2) : e.loaded ∈ rows := by
  induction rows generalizing left with
  | nil => cases he
  | cons r rest ih =>
    rcases List.mem_append.1 he with he | he
    · rw [loaded_eq he]
      exact List.mem_cons_self
    · exact List.mem_cons_of_mem _ (ih he)

/-- No entity is of a row whose id is not in the list. -/
theorem find?_removeFromRows {id : ℕ} (h : ∀ r ∈ rows, r.id ≠ id) :
    (removeFromRows left rows).2.find? (·.loaded.id = id) = none :=
  List.find?_eq_none.2 fun _ he heq => h _ (loaded_mem he) (of_decide_eq_true heq)

/-- Of each resource, the loop is a `charge` of the rows. -/
theorem filter_savedRow (hn : (rows.map VillageResourceType.id).Nodup) (h : 0 ≤ left t.type) :
    ((rows.filter (·.resourceType = t)).map fun r =>
        (Db.savedRow (removeFromRows left rows).2 r).count) =
      charge (left t.type) ((rows.filter (·.resourceType = t)).map VillageResourceType.count) := by
  induction rows generalizing left with
  | nil => rfl
  | cons r rest ih =>
    obtain ⟨hnot, hn'⟩ := List.nodup_cons.1 hn
    have hother : ∀ r' ∈ rest, r'.id ≠ r.id := fun r' hr' heq => hnot (heq ▸ List.mem_map_of_mem hr')
    have hrows : (removeFromRows left (r :: rest)).2 = (removeFromRow left r).2.toList ++
        (removeFromRows (removeFromRow left r).1 rest).2 := rfl
    -- The entity of a row is not that of a later one.
    have hskip : ∀ r' ∈ rest, Db.savedRow (removeFromRows left (r :: rest)).2 r' =
        Db.savedRow (removeFromRows (removeFromRow left r).1 rest).2 r' := by
      intro r' hr'
      unfold Db.savedRow
      rw [hrows, List.find?_append]
      have hnone : (removeFromRow left r).2.toList.find? (·.loaded.id = r'.id) = none := by
        refine List.find?_eq_none.2 fun e he heq => hother r' hr' ?_
        rw [← of_decide_eq_true heq, loaded_eq he]
      rw [hnone, Option.none_or]
    have hrest : ((rest.filter (·.resourceType = t)).map fun r' =>
        (Db.savedRow (removeFromRows left (r :: rest)).2 r').count) =
        (rest.filter (·.resourceType = t)).map fun r' =>
          (Db.savedRow (removeFromRows (removeFromRow left r).1 rest).2 r').count :=
      List.map_congr_left fun r' hr' => by rw [hskip r' (List.mem_filter.1 hr').1]
    have hlater : (removeFromRows (removeFromRow left r).1 rest).2.find? (·.loaded.id = r.id) =
        none := find?_removeFromRows hother
    have hsaved : Db.savedRow (removeFromRows left (r :: rest)).2 r =
        Db.savedRow (removeFromRow left r).2.toList r := by
      unfold Db.savedRow
      rw [hrows, List.find?_append, hlater, Option.or_none]
    by_cases ht : r.resourceType = t
    · subst ht
      rw [List.filter_cons_of_pos (by simp), List.map_cons, List.map_cons, hrest, hsaved, charge]
      rcases removeFromRow_cases left r with ⟨hpay, hrow⟩ | ⟨hpay, hrow⟩
      · have hleft : (removeFromRow left r).1 r.resourceType.type =
            left r.resourceType.type - min r.count (left r.resourceType.type) := by
          rw [hrow]
          exact Function.update_self _ _ _
        rw [if_pos hpay, ih hn' (by omega), hleft, hrow]
        congr 1
        simp [Db.savedRow]
      · rw [if_neg hpay, hrow, ih hn' h]
        rfl
    · rw [List.filter_cons_of_neg (by simpa using ht), hrest]
      have hleft : (removeFromRow left r).1 t.type = left t.type := by
        have hne : t.type ≠ r.resourceType.type := fun heq => ht (Catalog.Ref.eq_of_type heq.symm)
        rcases removeFromRow_cases left r with ⟨-, hrow⟩ | ⟨-, hrow⟩
        · rw [hrow]
          exact Function.update_of_ne hne _ _
        · rw [hrow]
      rw [ih hn' (by rw [hleft]; exact h), hleft]

theorem removeFromRows_append (left : LeftToRemove) (rows rows' : List (VillageResourceType C)) :
    removeFromRows left (rows ++ rows') =
      ((removeFromRows (removeFromRows left rows).1 rows').1,
        (removeFromRows left rows).2 ++ (removeFromRows (removeFromRows left rows).1 rows').2) := by
  induction rows generalizing left with
  | nil => rfl
  | cons r rest ih =>
    show ((removeFromRows (removeFromRow left r).1 (rest ++ rows')).1,
      (removeFromRow left r).2.toList ++ (removeFromRows (removeFromRow left r).1 (rest ++ rows')).2) = _
    rw [ih, ← List.append_assoc]
    rfl

end Rows

/-! ## The loop over the villages -/

section Villages

variable {d d' : Db C} {left : LeftToRemove} {villages : List (LoadedVillage C)} {t : C.Ref}

/-- Two saves of different rows are one. -/
theorem savedRow_append {es es' : List (Entity C)} {r : VillageResourceType C}
    (h : ∀ e ∈ es, ∀ e' ∈ es', e.loaded.id ≠ e'.loaded.id) :
    Db.savedRow es' (Db.savedRow es r) = Db.savedRow (es ++ es') r := by
  unfold Db.savedRow
  rw [List.find?_append]
  dsimp only
  cases hf : es.find? (·.loaded.id = r.id) with
  | none => rfl
  | some e =>
    have hid : e.loaded.id = r.id := by simpa using List.find?_some hf
    have hnone : es'.find? (·.loaded.id = r.id) = none :=
      List.find?_eq_none.2 fun e' he' heq =>
        h e (List.mem_of_find?_eq_some hf) e' he' (hid.trans (of_decide_eq_true heq).symm)
    rw [hnone]
    rfl

/-- The saves of the villages are one save of all entities. -/
theorem rows_removeFromVillages
    (hn : ((villages.flatMap chargedRows).map VillageResourceType.id).Nodup) :
    (removeFromVillages d left villages).villagesResourceTypes.rows =
      d.villagesResourceTypes.rows.map
        (Db.savedRow (removeFromRows left (villages.flatMap chargedRows)).2) := by
  induction villages generalizing d left with
  | nil => exact (List.map_id _).symm
  | cons v rest ih =>
    rw [List.flatMap_cons, List.map_append, List.nodup_append] at hn
    obtain ⟨-, hrest, hdisjoint⟩ := hn
    refine (ih hrest).trans ?_
    rw [Db.rows_saveEntities, List.map_map, List.flatMap_cons, removeFromRows_append]
    refine List.map_congr_left fun r _ => savedRow_append fun e he e' he' => ?_
    exact hdisjoint _ (List.mem_map_of_mem (loaded_mem he)) _ (List.mem_map_of_mem (loaded_mem he'))

theorem rowsOf_of_rows {es : List (Entity C)} {v : ℕ}
    (h : d'.villagesResourceTypes.rows = d.villagesResourceTypes.rows.map (Db.savedRow es)) :
    d'.rowsOf v = (d.rowsOf v).map (Db.savedRow es) := by
  unfold Db.rowsOf
  rw [h, List.filter_map]
  rfl

/-- The rows of different villages of one table are different. -/
theorem nodup_rowsOf (d : Db C) {ids : List ℕ} (hn : ids.Nodup) :
    ((ids.flatMap d.rowsOf).map VillageResourceType.id).Nodup := by
  refine List.Nodup.map_on (fun r hr r' hr' heq => ?_) ?_
  · obtain ⟨v, -, hv⟩ := List.mem_flatMap.1 hr
    obtain ⟨v', -, hv'⟩ := List.mem_flatMap.1 hr'
    exact Table.eq_of_key (Db.mem_rowsOf.1 hv).1 (Db.mem_rowsOf.1 hv').1 heq
  · rw [List.nodup_flatMap]
    refine ⟨fun v _ => ?_, hn.imp fun {v v'} hne => ?_⟩
    · exact (List.Nodup.of_map _ d.villagesResourceTypes.nodup).filter _
    · intro r hr hr'
      have hv := (Db.mem_rowsOf.1 hr).2
      exact hne (Option.some.inj (hv.symm.trans (Db.mem_rowsOf.1 hr').2))

/-- Villages as they were loaded. -/
def Loaded (d : Db C) (villages : List (LoadedVillage C)) : Prop :=
  (villages.map (·.village.id)).Nodup ∧
    ∀ v ∈ villages, v.villagesResourceTypes = d.rowsOf v.village.id

theorem Loaded.flatMap_rows (h : Loaded d villages) :
    villages.flatMap (·.villagesResourceTypes) = (villages.map (·.village.id)).flatMap d.rowsOf := by
  rw [List.flatMap_map]
  exact List.flatMap_congr h.2

/-- Loaded villages hold what their rows say. -/
theorem heldBy_of_loaded (h : Loaded d villages) (type : String) :
    heldBy d villages type = totalOfVillages villages type := by
  unfold heldBy totalOfVillages
  rw [List.flatMap_map, h.flatMap_rows, List.flatMap_map]

/-- What villages hold of a resource type, as a sum over their rows. -/
theorem totalOfVillages_eq (villages : List (LoadedVillage C)) (t : C.Ref) :
    totalOfVillages villages t.type =
      (((villages.flatMap (·.villagesResourceTypes)).filter (·.resourceType = t)).map
        VillageResourceType.count).sum := by
  unfold totalOfVillages
  refine congrArg (fun l => (List.map _ l).sum) (List.filter_congr fun r _ => ?_)
  have hiff : r.resourceType.type = t.type ↔ r.resourceType = t :=
    ⟨Catalog.Ref.eq_of_type, fun heq => congrArg _ heq⟩
  simp only [hiff]

/-- The rows that pay are those of the three resources. -/
theorem flatMap_chargedRows (villages : List (LoadedVillage C)) :
    villages.flatMap chargedRows =
      (villages.flatMap (·.villagesResourceTypes)).filter
        (·.resourceType.type ∈ chargedResources) :=
  List.filter_flatMap.symm

/-- The entities that are saved for villages. -/
def savedForVillages (villages : List (LoadedVillage C)) : List (Entity C) :=
  (removeFromRows (fun _ => RESOURCES_NEEDED_NEW_VILLAGE) (villages.flatMap chargedRows)).2

/-- Of each resource, villages that hold the price have less by the price in their rows. -/
theorem sum_savedRow
    (hn : ((villages.flatMap (·.villagesResourceTypes)).map VillageResourceType.id).Nodup)
    (ht : t.type ∈ chargedResources)
    (henough : RESOURCES_NEEDED_NEW_VILLAGE ≤ totalOfVillages villages t.type) :
    (((villages.flatMap (·.villagesResourceTypes)).filter (·.resourceType = t)).map fun r =>
      (Db.savedRow (savedForVillages villages) r).count).sum =
      totalOfVillages villages t.type - RESOURCES_NEEDED_NEW_VILLAGE := by
  have hcharged : ((villages.flatMap chargedRows).map VillageResourceType.id).Nodup := by
    rw [flatMap_chargedRows]
    exact hn.sublist (List.filter_sublist.map _)
  have hfilter : (villages.flatMap chargedRows).filter (·.resourceType = t) =
      (villages.flatMap (·.villagesResourceTypes)).filter (·.resourceType = t) := by
    rw [flatMap_chargedRows, List.filter_filter]
    refine List.filter_congr fun r _ => ?_
    by_cases h : r.resourceType = t
    · simp [h, ht]
    · simp [h]
  have hcharge := @filter_savedRow C (fun _ => RESOURCES_NEEDED_NEW_VILLAGE)
    (villages.flatMap chargedRows) t hcharged (by decide)
  rw [hfilter] at hcharge
  rw [totalOfVillages_eq] at henough ⊢
  exact (congrArg List.sum hcharge).trans (sum_charge_of_le (by decide) henough)

/-- Villages that hold the price pay it. -/
theorem heldBy_removeResources (hloaded : Loaded d villages)
    (hrows : ∀ v ∈ villages, d'.rowsOf v.village.id = d.rowsOf v.village.id)
    (ht : t.type ∈ chargedResources)
    (henough : RESOURCES_NEEDED_NEW_VILLAGE ≤ heldBy d villages t.type) :
    heldBy (removeResourcesForVillageCreation d' villages) villages t.type =
      heldBy d villages t.type - RESOURCES_NEEDED_NEW_VILLAGE := by
  have hn : ((villages.flatMap (·.villagesResourceTypes)).map VillageResourceType.id).Nodup := by
    rw [hloaded.flatMap_rows]
    exact nodup_rowsOf d hloaded.1
  have hcharged : ((villages.flatMap chargedRows).map VillageResourceType.id).Nodup := by
    rw [flatMap_chargedRows]
    exact hn.sublist (List.filter_sublist.map _)
  have hsaved := @rows_removeFromVillages C d' (fun _ => RESOURCES_NEEDED_NEW_VILLAGE) villages
    hcharged
  have hflat : (villages.map fun v => (⟨v.village,
      (removeResourcesForVillageCreation d' villages).rowsOf v.village.id⟩ :
        LoadedVillage C)).flatMap (·.villagesResourceTypes) =
      (villages.flatMap (·.villagesResourceTypes)).map (Db.savedRow (savedForVillages villages)) := by
    rw [List.flatMap_map, List.map_flatMap]
    refine List.flatMap_congr fun v hv => ?_
    rw [hloaded.2 v hv, ← hrows v hv]
    exact rowsOf_of_rows hsaved
  rw [heldBy_of_loaded hloaded] at henough ⊢
  rw [← sum_savedRow hn ht henough, heldBy, totalOfVillages_eq, hflat, List.filter_map,
    List.map_map]
  rfl

end Villages

/-! ## Requests -/

section Create

variable {d d' : MapDb C} {dto : CreateVillageDto} {userId : ℕ} {now : ℤ}
  {facilityTypes : List String}

theorem rowsOf_createFirstFacilities (d : Db C) (villageId v : ℕ) :
    (createFirstFacilitiesForVillage d facilityTypes villageId).rowsOf v = d.rowsOf v := by
  unfold createFirstFacilitiesForVillage
  induction facilityTypes.filter _ generalizing d with
  | nil => rfl
  | cons type rest ih => exact ih _

theorem rowsOf_insertCounts {w v : ℕ} (hne : w ≠ v) (d : Db C) (counts : List (C.Ref × ℤ)) :
    (d.insertCounts w counts).rowsOf v = d.rowsOf v := by
  unfold Db.insertCounts
  induction counts generalizing d with
  | nil => rfl
  | cons p rest ih =>
    refine (ih _).trans ?_
    unfold Db.rowsOf Db.insertCount Table.insert
    rw [List.filter_append]
    simp [hne]

theorem loaded_villagesForThisUser (d : MapDb C) (userId : ℕ) :
    Loaded d.toDb (villagesForThisUser d userId) := by
  unfold villagesForThisUser
  constructor
  · rw [List.map_map]
    exact d.villages.nodup.sublist (List.filter_sublist.map _)
  · intro v hv
    obtain ⟨row, -, rfl⟩ := List.mem_map.1 hv
    rfl

/-- The checks and the transaction of a request. -/
theorem sequence_create_eq_ok_iff :
    Sequence.create d dto userId now = .ok d' ↔
      ∃ user named, d.users.get? userId = some user ∧ checkOccupiedMapTile d dto = .ok named ∧
        checkVillages d named (villagesForThisUser d userId) = .ok () ∧
        createVillage d named user now = some d' := by
  unfold Sequence.create
  cases huser : d.users.get? userId with
  | none => simp
  | some user =>
    have hid : user.id = userId := (Table.get?_eq_some.1 huser).2
    dsimp only
    rw [bind_eq_ok, hid]
    constructor
    · rintro ⟨named, htile, h⟩
      obtain ⟨⟨⟩, hvillages, h⟩ := bind_eq_ok.1 h
      refine ⟨user, named, rfl, htile, hvillages, ?_⟩
      cases hcreate : createVillage d named user now with
      | none =>
        rw [hcreate] at h
        cases h
      | some created =>
        rw [hcreate] at h
        exact congrArg some (Except.ok.inj h)
    · rintro ⟨_, named, huser', htile, hvillages, hcreate⟩
      obtain rfl := Option.some.inj huser'
      refine ⟨named, htile, bind_eq_ok.2 ⟨(), hvillages, ?_⟩⟩
      rw [hcreate]

/-- A request succeeds exactly if it is accepted. -/
theorem exists_create_iff :
    (∃ d', create facilityTypes d dto userId now = .ok d') ↔ Accepts d dto userId := by
  have hcreate : (∃ d', create facilityTypes d dto userId now = .ok d') ↔
      ∃ created, Sequence.create d dto userId now = .ok created := by
    constructor
    · rintro ⟨_, h⟩
      obtain ⟨created, hcreated, -⟩ := bind_eq_ok.1 h
      exact ⟨created, hcreated⟩
    · rintro ⟨created, hcreated⟩
      exact ⟨_, bind_eq_ok.2 ⟨created, hcreated, rfl⟩⟩
  rw [hcreate]
  unfold Accepts
  simp only [sequence_create_eq_ok_iff]
  constructor
  · rintro ⟨created, user, named, huser, htile, hvillages, h⟩
    refine ⟨by rw [huser]; rfl, named, htile, hvillages, fun htaken => ?_⟩
    rw [createVillage, if_pos htaken] at h
    cases h
  · rintro ⟨huser, named, htile, hvillages, htaken⟩
    obtain ⟨user, huser⟩ := Option.isSome_iff_exists.1 huser
    exact ⟨_, user, named, huser, htile, hvillages, if_neg htaken⟩

/-- The transaction does not change the rows of the villages before. -/
theorem rowsOf_created (h : Sequence.create d dto userId now = .ok d') :
    ∀ v ∈ villagesForThisUser d userId, d'.rowsOf v.village.id = d.rowsOf v.village.id := by
  intro v hv
  obtain ⟨row, hrow, rfl⟩ := List.mem_map.1 hv
  have hlt : row.id < d.villages.next := d.villages.lt_next row (List.mem_filter.1 hrow).1
  obtain ⟨user, named, -, -, -, h⟩ := sequence_create_eq_ok_iff.1 h
  unfold createVillage at h
  split at h
  · cases h
  · cases h
    exact rowsOf_insertCounts hlt.ne' _ _

/-- The check of the price is about what the villages hold. -/
theorem checkIfHasEnough_iff {d : Db C} {villages : List (LoadedVillage C)} (h : Loaded d villages) :
    checkIfHasEnoughResourcesForNewVillage villages = true ↔
      ∀ type ∈ chargedResources, RESOURCES_NEEDED_NEW_VILLAGE ≤ heldBy d villages type := by
  simp only [heldBy_of_loaded h, chargedResources, checkIfHasEnoughResourcesForNewVillage,
    List.forall_mem_cons, decide_eq_true_iff]
  simp only [List.not_mem_nil, false_imp_iff, implies_true, and_true]
  tauto

/-- A resource of which villages hold the price is the name of a type. -/
theorem exists_type {villages : List (LoadedVillage C)} {type : String}
    (h : RESOURCES_NEEDED_NEW_VILLAGE ≤ totalOfVillages villages type) :
    ∃ t : C.Ref, t.type = type := by
  by_contra hnone
  have hempty : (villages.flatMap (·.villagesResourceTypes)).filter
      (·.resourceType.type = type) = [] := by
    refine List.filter_eq_nil_iff.2 fun r _ htype => hnone ?_
    exact ⟨r.resourceType, of_decide_eq_true htype⟩
  rw [totalOfVillages, hempty] at h
  exact absurd h (by simp [RESOURCES_NEEDED_NEW_VILLAGE])

/-- What the villages hold after a request, if they hold the price before it. -/
theorem heldBy_create (h : create facilityTypes d dto userId now = .ok d') {type : String}
    (ht : type ∈ chargedResources)
    (henough : checkIfHasEnoughResourcesForNewVillage (villagesForThisUser d userId) = true) :
    heldBy d'.toDb (villagesForThisUser d userId) type =
      heldBy d.toDb (villagesForThisUser d userId) type -
        if 1 < (villagesForThisUser d userId).length then RESOURCES_NEEDED_NEW_VILLAGE else 0 := by
  obtain ⟨created, hcreated, h⟩ := bind_eq_ok.1 h
  have hrows := rowsOf_created hcreated
  have hloaded := loaded_villagesForThisUser d userId
  have hheld := (checkIfHasEnough_iff hloaded).1 henough type ht
  cases h
  have hfacilities : ∀ (d₁ : Db C), heldBy (createFirstFacilitiesForVillage d₁ facilityTypes
      d.villages.next) (villagesForThisUser d userId) type =
      heldBy d₁ (villagesForThisUser d userId) type := by
    intro d₁
    simp only [heldBy, rowsOf_createFirstFacilities]
  rw [hfacilities]
  by_cases hone : 1 < (villagesForThisUser d userId).length
  · rw [if_pos ⟨hone, henough⟩, if_pos hone]
    obtain ⟨t, rfl⟩ := exists_type hheld
    exact heldBy_removeResources hloaded hrows ht hheld
  · rw [if_neg fun hboth => hone hboth.1, if_neg hone, sub_zero]
    unfold heldBy
    refine congrArg (totalOfVillages · type) (List.map_congr_left fun v hv => ?_)
    rw [hrows v hv]

/-- An accepted request of a user who has a village finds the price. -/
theorem Accepts.enough (h : Accepts d dto userId)
    (hn : 1 ≤ (villagesForThisUser d userId).length) :
    checkIfHasEnoughResourcesForNewVillage (villagesForThisUser d userId) = true := by
  obtain ⟨-, named, -, hvillages, -⟩ := h
  unfold checkVillages at hvillages
  split at hvillages
  · cases hvillages
  split at hvillages
  · cases hvillages
  split at hvillages
  · cases hvillages
  next hneeds => simpa [Nat.lt_of_succ_le hn] using hneeds

/-- The villages of a user who has some have paid for a new one exactly if the request is refused,
or they are two at least. -/
theorem create_paid_iff (facilityTypes : List String) (now : ℤ)
    (hn : 1 ≤ (villagesForThisUser d userId).length ∧ (villagesForThisUser d userId).length < 5) :
    (∀ d', create facilityTypes d dto userId now = .ok d' →
        Paid d.toDb d'.toDb (villagesForThisUser d userId)) ↔
      (Accepts d dto userId → 2 ≤ (villagesForThisUser d userId).length) := by
  constructor
  · intro hpaid haccepts
    by_contra htwo
    obtain ⟨d', h⟩ : ∃ d', create facilityTypes d dto userId now = .ok d' :=
      exists_create_iff.2 haccepts
    have hfood := (hpaid d' h).charged "food" (by decide)
    rw [heldBy_create h (by decide) (haccepts.enough hn.1), if_neg (by omega)] at hfood
    revert hfood
    unfold RESOURCES_NEEDED_NEW_VILLAGE
    omega
  · intro htwo d' h
    have haccepts := exists_create_iff.1 ⟨d', h⟩
    have henough := haccepts.enough hn.1
    refine ⟨(checkIfHasEnough_iff (loaded_villagesForThisUser d userId)).1 henough,
      fun type ht => ?_⟩
    rw [heldBy_create h ht henough, if_pos (Nat.lt_of_succ_le (htwo haccepts))]

end Create

/-! ## A second village, and a third -/

/-- User 1 has one village with 40000 of each resource, and user 2 has two with 20000. -/
def sampleOwners : MapDb sampleCatalog where
  villages :=
    { rows := [⟨1, some 1, 0, 0, 0, 0⟩, ⟨2, some 2, 1, 0, 0, 0⟩, ⟨3, some 2, 2, 0, 0, 0⟩]
      next := 4
      nodup := by decide
      lt_next := by decide }
  villagesResourceTypes :=
    { rows := [⟨1, some 1, food, 40000⟩, ⟨2, some 1, wood, 40000⟩, ⟨3, some 1, iron, 40000⟩,
        ⟨4, some 2, food, 20000⟩, ⟨5, some 2, wood, 20000⟩, ⟨6, some 2, iron, 20000⟩,
        ⟨7, some 3, food, 20000⟩, ⟨8, some 3, wood, 20000⟩, ⟨9, some 3, iron, 20000⟩]
      next := 10
      nodup := by decide
      lt_next := by decide }
  facilities := Table.empty
  villagesStorageResourceTypes := Table.empty
  attacks := Table.empty
  users :=
    { rows := [⟨1, false⟩, ⟨2, false⟩, ⟨3, true⟩]
      next := 4
      nodup := by decide
      lt_next := by decide }
  columns := fun _ => ⟨"", false⟩
  mapTiles := Table.empty
  mapBlocks := []
  automatedVillageHistory := Table.empty

/-- A village for a user, with its facilities. -/
def sampleCreate (userId : ℕ) : Except Failure (MapDb sampleCatalog) :=
  create (baseFacilities.map FacilityType.name) sampleOwners ⟨"north", 0, 5⟩ userId 0

/-- What the villages of a user hold of food, iron and wood. -/
def sampleHeld (d : MapDb sampleCatalog) (userId : ℕ) : List ℤ :=
  chargedResources.map (heldBy d.toDb (villagesForThisUser sampleOwners userId))

/-- The two villages of user 2 pay for a third one. -/
theorem create_paid_iff_sample :
    (sampleCreate 2).toOption.map (sampleHeld · 2) = some [5000, 5000, 5000] ∧
      ∀ d', sampleCreate 2 = .ok d' →
        Paid sampleOwners.toDb d'.toDb (villagesForThisUser sampleOwners 2) :=
  ⟨by decide +kernel,
    (create_paid_iff (baseFacilities.map FacilityType.name) 0 (by decide +kernel)).2
      fun _ => by decide +kernel⟩

/-- The village of user 1 does not pay for a second one. -/
theorem second_village_free :
    (sampleCreate 1).toOption.map (sampleHeld · 1) = some [40000, 40000, 40000] ∧
      ¬∀ d', sampleCreate 1 = .ok d' →
        Paid sampleOwners.toDb d'.toDb (villagesForThisUser sampleOwners 1) := by
  refine ⟨by decide +kernel, fun hpaid => ?_⟩
  obtain ⟨d', h⟩ : ∃ d', sampleCreate 1 = .ok d' := exists_of_isOk (by decide +kernel)
  have hfood : ∀ d' ∈ (sampleCreate 1).toOption,
      heldBy d'.toDb (villagesForThisUser sampleOwners 1) "food" ≠
        heldBy sampleOwners.toDb (villagesForThisUser sampleOwners 1) "food" -
          RESOURCES_NEEDED_NEW_VILLAGE := by
    decide +kernel
  exact hfood d' (by rw [h]; rfl) ((hpaid d' h).charged "food" (by decide))

end Cme.Map.Price
