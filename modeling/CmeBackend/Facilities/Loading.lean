import CmeBackend.Facilities.Maximum
import CmeBackend.Lib.Relations
import CmeBackend.Production.Charging

/-!
# What the two creations load

`ResourcesMsOrdersService.create` and `ResourcesMsFacilitiesService.create` with every relation that
they read, against the relations that the entities declare (`facility.entity.ts`,
`village.entity.ts`, `village-resource-type.entity.ts`, `facility-type.entity.ts`,
`orders.entity.ts`). `listed` are the relations that the query of the service lists. Both services
list none.

* `checkOrder_eq`, `checkCreate_eq`: what is undefined for a query is the village of the facility,
  and the facilities of the village, unless they are listed.
* `ends_properly_iff`: the requests that do not end with a `TypeError`.
-/

namespace Cme.Facilities.Loading

open GameRules Production Relations Transaction

variable {C : Catalog}

/-! ## The entities -/

/-- The entities that are read, or are loaded with them. -/
inductive Kind where
  | facility
  | facilityType
  | industry
  | order
  | resourceType
  | user
  | village
  | villageResourceType
  | villageStorageResourceType

/-- The relations between them, with their `eager` flags. -/
def relations : Kind → List (Relation Kind)
  | .facility =>
    [⟨"facilityType", .facilityType, true⟩, ⟨"village", .village, false⟩, ⟨"orders", .order, false⟩,
      ⟨"villageStorageResourceType", .villageStorageResourceType, true⟩]
  | .facilityType => [⟨"industry", .industry, true⟩, ⟨"facilities", .facility, false⟩]
  | .industry => [⟨"facilityTypes", .facilityType, false⟩]
  | .order => [⟨"facility", .facility, true⟩, ⟨"resourceType", .resourceType, true⟩]
  | .resourceType =>
    [⟨"villagesResourceTypes", .villageResourceType, false⟩, ⟨"orders", .order, false⟩]
  | .user => [⟨"villages", .village, false⟩]
  | .village =>
    [⟨"user", .user, true⟩, ⟨"facilities", .facility, false⟩,
      ⟨"villagesResourceTypes", .villageResourceType, true⟩]
  | .villageResourceType => [⟨"village", .village, false⟩, ⟨"resourceType", .resourceType, true⟩]
  | .villageStorageResourceType =>
    [⟨"facility", .facility, false⟩, ⟨"resourceType", .resourceType, true⟩]

instance : Schema Kind := ⟨relations⟩

/-- A value of which a property is read. -/
def defined {α : Type} (x : Option α) : Except ResourcesError α :=
  match x with
  | some a => .ok a
  | none => .error .typeError

/-! ## The code -/

/-- `facility.facilityType.type` -/
def facilityTypeOf (facility : Loaded Kind Facility) : Except ResourcesError String := do
  let facilityType ← defined (facility.follow "facilityType" Facility.facilityType)
  return facilityType.row

/-- `generateNextUpgradeCost`, which runs after a facility is loaded. -/
def generateNextUpgradeCost (facility : Loaded Kind Facility) :
    Except ResourcesError (List FacilityTypeResPrice) := do
  let type ← facilityTypeOf facility
  return computeBuildingCost type (facility.row.level + 1)

/-- `facilitiesRepository.findOne(id)` -/
def findFacility (listed : Paths) (d : GameDb C) (id : ℕ) :
    Except ResourcesError (Option (Loaded Kind Facility)) :=
  match d.facilities.get? id with
  | none => .ok none
  | some row => do
    let facility : Loaded Kind Facility := ⟨row, .facility, listed⟩
    let _ ← generateNextUpgradeCost facility
    return some facility

/-- `ordersRepository.findOne(id)`. The hook runs for the facility of the order. -/
def findOrder (d : GameDb C) (id : ℕ) : Except ResourcesError (Option (Loaded Kind (Order C))) :=
  match d.orders.get? id with
  | none => .ok none
  | some row => do
    let order : Loaded Kind (Order C) := ⟨row, .order, []⟩
    match order.follow "facility" fun o => d.facilities.get? o.facilityId with
    | some ⟨some facility, view⟩ =>
      let _ ← generateNextUpgradeCost ⟨facility, view⟩
      return some order
    | _ => return some order

/-- `vrt.resourceType.type` -/
def readType (vrt : Loaded Kind (VillageResourceType C)) :
    Except ResourcesError (VillageResourceType C) := do
  let _ ← defined (vrt.follow "resourceType" VillageResourceType.resourceType)
  return vrt.row

/-- `villagesResourceTypes`, with the types that are read of it. -/
def villagesResourceTypesOf (d : Db C) (village : Loaded Kind Village) :
    Except ResourcesError (List (VillageResourceType C)) := do
  let rows ← defined (village.follow "villagesResourceTypes" fun v => d.rowsOf v.id)
  rows.elems.mapM readType

/-- The part of `ResourcesMsOrdersService.create` before the transaction. -/
def checkOrder (listed : Paths) (d : GameDb C) (order : CreateOrder) :
    Except ResourcesError (CheckedOrder C) := do
  if order.orderedQuantity ≤ 0 then
    .error (.exception ⟨"Order at least 1 unit", .badRequest⟩) else
  let facility ← orError (← findFacility listed d order.facilityId)
    ⟨"Facility not found", .notFound⟩
  if (← facilityTypeOf facility) ≠ barrackDescriptor.name then
    .error (.exception ⟨"Facility must be a Barrack to order units", .badRequest⟩) else
  let resourceRequested ← orError (C.find? order.unitName)
    ⟨"Requested resource does not exist", .notFound⟩
  let unit ← orError (MilitaryResource.ofName? resourceRequested.type)
    ⟨"Requested resource does not exist", .notFound⟩
  let tier ← defined (barrackDescriptor.tiers.find? fun t => t.tier = facility.row.level)
  if unit ∉ tier.availableMilitaryResources then
    .error (.exception
      ⟨s!"Unit not available at level {facility.row.level}", .badRequest⟩) else
  let village ← defined (facility.follow "village" fun f => d.villages.get? f.villageId)
  let row ← defined village.row
  let villagesResourceTypes ← villagesResourceTypesOf d.toDb ⟨row, village.view⟩
  let resources := villagesResourceTypes.filter isOrderResource
  let production := d.production order.facilityId
  if !hasEnoughResources resources unit order.orderedQuantity then
    .error (.exception ⟨"Insufficient resources", .badRequest⟩)
  else if production.isInProduction then
    .error (.exception ⟨"Facility already in production", .badRequest⟩)
  else
    let village : LoadedVillage C := ⟨row, villagesResourceTypes⟩
    return {
      facility := ⟨facility.row, production, some village⟩
      village, resourceRequested, unit, resources, orderedQuantity := order.orderedQuantity }

/-- `ResourcesMsOrdersService.create`: the entity, if there is one, or how the request ends else. -/
def createOrder (listed : Paths) (d : GameDb C) (faults : Faults) (order : CreateOrder) :
    Except ResourcesError (Option (Loaded Kind (Order C))) := do
  let c ← checkOrder listed d order
  let outcome := transact d () faults (Charging.placeOrder c)
  match outcome.result with
  | .ok orderEntity => findOrder outcome.db orderEntity.id
  | .error thrown => .error (Charging.caught thrown)

/-- `hasMaximumFacilityTypeForVillage`, with what it reads of the village. -/
def hasMaximum (d : GameDb C) (facilityType : String) (village : Loaded Kind Village) :
    Except ResourcesError Bool :=
  match findFacilityDescriptorByType facilityType with
  | none => .ok false
  | some facilityRule => do
    let facilities ← defined (village.follow "facilities" fun v =>
      d.facilities.rows.filter (·.villageId = v.id))
    let types ← facilities.elems.mapM facilityTypeOf
    return (types.filter (· = facilityType)).length ≥ facilityRule.maximumPerVillage

/-- One turn of the loop over the costs: whether the village has enough. -/
def hasResource (d : Db C) (village : Loaded Kind Village) (cost : FacilityTypeResPrice) :
    Except ResourcesError Bool := do
  let villagesResourceTypes ← villagesResourceTypesOf d village
  let resourceRequested ←
    defined (villagesResourceTypes.find? (·.resourceType.type = cost.resourcesType))
  return cost.amount ≤ resourceRequested.count

/-- The part of `ResourcesMsFacilitiesService.create` before the transaction. -/
def checkCreate (listed : Paths) (facilityTypes : List (ℕ × String)) (d : GameDb C)
    (facility : CreateFacility) (userId : ℕ) : Except ResourcesError (CheckedCreate C) := do
  let populatedType ← orError (facilityTypes.lookup facility.facilityType)
    ⟨"Facility type not found", .badRequest⟩
  let resTypesCosts := computeBuildingCost populatedType 0
  let row ← defined (d.villages.get? facility.village)
  let village : Loaded Kind Village := ⟨row, .village, listed⟩
  let user ← defined (village.follow "user" Village.userId)
  let owner ← defined user.row
  if owner ≠ userId then .error (.exception ⟨"Unauthorized", .unauthorized⟩) else
  if ← hasMaximum d populatedType village then
    .error (.exception ⟨"Max number of this facility on your village", .forbidden⟩) else
  let enough ← resTypesCosts.mapM (hasResource d.toDb village)
  if enough.all id then
    return { populatedType, village := ⟨row, d.rowsOf row.id⟩, resTypesCosts }
  else .error (.exception ⟨"Insufficient resources", .badRequest⟩)

/-- One turn of the loop that removes the costs. -/
def payCost (village : LoadedVillage C) (cost : FacilityTypeResPrice) :
    TxM (GameDb C) Unit Unit :=
  match resourceOf village cost with
  | none => throw (.error "Cannot read property 'resourceType' of undefined")
  | some res => execute fun d =>
    { d with toDb :=
        d.toDb.subtractFromCounts village.village.id [(res.resourceType.id, cost.amount)] }

/-- The facility that is saved. -/
def facilityEntity (c : CheckedCreate C) (id : ℕ) : Facility :=
  { id, level := 1, facilityType := c.populatedType, villageId := c.village.village.id }

theorem key_facilityEntity (c : CheckedCreate C) (id : ℕ) : key (facilityEntity c id) = id := rfl

/-- The `try` block of `create`. -/
def storeFacility (c : CheckedCreate C) : TxM (GameDb C) Unit Facility := do
  forM c.resTypesCosts (payCost c.village)
  query fun d =>
    (facilityEntity c d.facilities.next,
      { d with
        facilities := d.facilities.insert (facilityEntity c) (key_facilityEntity c)
        production := Function.update d.production d.facilities.next .none })

/-- `ResourcesMsFacilitiesService.create` -/
def createFacility (listed : Paths) (facilityTypes : List (ℕ × String)) (d : GameDb C)
    (faults : Faults) (facility : CreateFacility) (userId : ℕ) :
    Except ResourcesError (Option (Loaded Kind Facility)) := do
  let c ← checkCreate listed facilityTypes d facility userId
  let outcome := transact d () faults (storeFacility c)
  match outcome.result with
  | .ok facilityEntity => findFacility [] outcome.db facilityEntity.id
  | .error _ => .error (.exception ⟨"ERROR_WHILE_SAVING_FACILITY", .badRequest⟩)

/-! ## What is loaded -/

section Loaded

variable {listed : Paths} {d : GameDb C}

@[simp] theorem facilityTypeOf_eq (row : Facility) (listed : Paths) :
    facilityTypeOf ⟨row, .facility, listed⟩ = .ok row.facilityType := by
  unfold facilityTypeOf
  rw [Loaded.follow_eager (r := ⟨"facilityType", .facilityType, true⟩) rfl rfl]
  rfl

/-- The hook never reads an undefined relation. -/
@[simp] theorem generateNextUpgradeCost_eq (row : Facility) (listed : Paths) :
    generateNextUpgradeCost ⟨row, .facility, listed⟩ =
      .ok (computeBuildingCost row.facilityType (row.level + 1)) := by
  unfold generateNextUpgradeCost
  rw [facilityTypeOf_eq]
  rfl

theorem findFacility_eq (listed : Paths) (d : GameDb C) (id : ℕ) :
    findFacility listed d id =
      .ok ((d.facilities.get? id).map fun row => ⟨row, .facility, listed⟩) := by
  unfold findFacility
  cases d.facilities.get? id with
  | none => rfl
  | some row =>
    simp only [generateNextUpgradeCost_eq]
    rfl

theorem findOrder_eq (d : GameDb C) (id : ℕ) :
    findOrder d id = .ok ((d.orders.get? id).map fun row => ⟨row, .order, []⟩) := by
  unfold findOrder
  cases d.orders.get? id with
  | none => rfl
  | some row =>
    simp only
    rw [Loaded.follow_eager (r := ⟨"facility", .facility, true⟩) rfl rfl]
    cases d.facilities.get? row.facilityId with
    | none => rfl
    | some facility =>
      simp only [generateNextUpgradeCost_eq]
      rfl

@[simp] theorem villagesResourceTypesOf_eq (d : Db C) (row : Village) (listed : Paths) :
    villagesResourceTypesOf d ⟨row, .village, listed⟩ = .ok (d.rowsOf row.id) := by
  unfold villagesResourceTypesOf
  rw [Loaded.follow_eager (r := ⟨"villagesResourceTypes", .villageResourceType, true⟩) rfl rfl]
  have hread : ∀ (listed : Paths) (r : VillageResourceType C),
      readType ⟨r, .villageResourceType, listed⟩ = .ok r := by
    intro listed r
    unfold readType
    rw [Loaded.follow_eager (r := ⟨"resourceType", .resourceType, true⟩) rfl rfl]
    rfl
  exact (Loaded.mapM_elems (hread _)).trans (congrArg _ (List.map_id' _))

/-- Only a listed village of a facility is loaded. -/
theorem follow_village {β : Type} (row : Facility) (listed : Paths) (f : Facility → β) :
    (⟨row, .facility, listed⟩ : Loaded Kind Facility).follow "village" f =
      if ["village"] ∈ listed then some ⟨f row, Kind.village, below "village" listed⟩
      else none :=
  Loaded.follow_lazy (r := ⟨"village", Kind.village, false⟩) rfl rfl

/-- The checks of an order are those of `Production.checkOrder`, with the village if it is listed. -/
theorem checkOrder_eq (listed : Paths) (d : GameDb C) (order : CreateOrder) :
    checkOrder listed d order = Production.checkOrder (["village"] ∈ listed) d order := by
  unfold checkOrder Production.checkOrder
  by_cases hpos : order.orderedQuantity ≤ 0
  · rw [if_pos hpos, if_pos hpos]
  rw [if_neg hpos, if_neg hpos, findFacility_eq]
  unfold GameDb.findFacility
  cases d.facilities.get? order.facilityId with
  | none => rfl
  | some row =>
    simp only [Option.map_some, orError, bind, Except.bind, facilityTypeOf_eq, follow_village]
    refine ite_congr rfl (fun _ => rfl) fun _ => ?_
    cases C.find? order.unitName with
    | none => rfl
    | some resourceRequested =>
      simp only
      cases MilitaryResource.ofName? resourceRequested.type with
      | none => rfl
      | some unit =>
        simp only
        cases barrackDescriptor.tiers.find? fun t => (t.tier : ℤ) = row.level with
        | none => rfl
        | some tier =>
          refine ite_congr rfl (fun _ => rfl) fun _ => ?_
          by_cases hlisted : ["village"] ∈ listed
          · simp only [hlisted, if_true, decide_true, Db.findVillage]
            cases hvillage : d.villages.get? row.villageId with
            | none => rfl
            | some village =>
              have hid : village.id = row.villageId := (Table.get?_eq_some.1 hvillage).2
              simp only [defined, villagesResourceTypesOf_eq, Option.map_some, hid]
          · simp only [hlisted, if_false, decide_false]
            rfl

/-- Only listed facilities of a village are loaded. -/
theorem follow_facilities {β : Type} (row : Village) (listed : Paths) (f : Village → β) :
    (⟨row, .village, listed⟩ : Loaded Kind Village).follow "facilities" f =
      if ["facilities"] ∈ listed then some ⟨f row, Kind.facility, below "facilities" listed⟩
      else none :=
  Loaded.follow_lazy (r := ⟨"facilities", Kind.facility, false⟩) rfl rfl

/-- The facilities of a village, if they are listed. -/
def loadedFacilities (listed : Paths) (d : GameDb C) (villageId : ℕ) : Option (List String) :=
  if listed.contains ["facilities"] then some (Maximum.facilitiesOf d villageId) else none

theorem hasMaximum_eq (listed : Paths) (d : GameDb C) (facilityType : String) (row : Village) :
    hasMaximum d facilityType ⟨row, .village, listed⟩ =
      defined (hasMaximumFacilityTypeForVillage facilityType
        (loadedFacilities listed d row.id)) := by
  unfold hasMaximum hasMaximumFacilityTypeForVillage loadedFacilities
  cases findFacilityDescriptorByType facilityType with
  | none => rfl
  | some facilityRule =>
    simp only [follow_facilities, List.contains_iff_mem]
    by_cases hlisted : ["facilities"] ∈ listed
    · simp only [hlisted, if_true, defined, bind, Except.bind]
      rw [Loaded.mapM_elems (g := Facility.facilityType) fun f => facilityTypeOf_eq f _]
      rfl
    · simp only [hlisted, if_false]
      rfl

theorem hasResource_eq (d : Db C) (row : Village) (listed : Paths) (cost : FacilityTypeResPrice) :
    hasResource d ⟨row, .village, listed⟩ cost =
      (defined (resourceOf ⟨row, d.rowsOf row.id⟩ cost)).map fun r =>
        decide (cost.amount ≤ r.count) := by
  unfold hasResource
  rw [villagesResourceTypesOf_eq]
  show (do let r ← defined (resourceOf ⟨row, d.rowsOf row.id⟩ cost); _) = _
  cases resourceOf (⟨row, d.rowsOf row.id⟩ : LoadedVillage C) cost <;> rfl

/-- The loop over the costs ends if the village has a row for each of them. -/
theorem mapM_hasResource (d : Db C) (row : Village) (listed : Paths)
    (costs : List FacilityTypeResPrice) :
    costs.mapM (hasResource d ⟨row, .village, listed⟩) =
      if costs.any fun cost => (resourceOf ⟨row, d.rowsOf row.id⟩ cost).isNone then
        .error .typeError
      else .ok (costs.map (affordable ⟨row, d.rowsOf row.id⟩)) := by
  induction costs with
  | nil => rfl
  | cons cost rest ih =>
    rw [List.mapM_cons, ih, hasResource_eq, List.any_cons, List.map_cons]
    unfold affordable
    cases resourceOf (⟨row, d.rowsOf row.id⟩ : LoadedVillage C) cost with
    | none => rfl
    | some r =>
      simp only [Option.isNone_some, Bool.false_or]
      split <;> rfl

/-- The checks of a new facility are those of `Facilities.checkCreate`, with the facilities of the
village if they are listed. -/
theorem checkCreate_eq (listed : Paths) (facilityTypes : List (ℕ × String)) (d : GameDb C)
    (facility : CreateFacility) (userId : ℕ) :
    checkCreate listed facilityTypes d facility userId =
      checkCreateWith (loadedFacilities listed d) facilityTypes d facility userId := by
  unfold checkCreate checkCreateWith Db.findVillage
  cases facilityTypes.lookup facility.facilityType with
  | none => rfl
  | some populatedType =>
    simp only [orError, bind, Except.bind]
    cases hvillage : d.villages.get? facility.village with
    | none => rfl
    | some row =>
      have hid : row.id = facility.village := (Table.get?_eq_some.1 hvillage).2
      simp only [defined, Option.map_some]
      rw [Loaded.follow_eager (r := ⟨"user", .user, true⟩) rfl rfl]
      simp only
      cases row.userId with
      | none => rfl
      | some owner =>
        refine ite_congr rfl (fun _ => rfl) fun _ => ?_
        rw [hasMaximum_eq]
        cases hasMaximumFacilityTypeForVillage populatedType (loadedFacilities listed d row.id) with
        | none => rfl
        | some maximum =>
          cases maximum with
          | true => rfl
          | false =>
            simp only [defined, mapM_hasResource, hid, Bool.false_eq_true, if_false]
            by_cases hmissing : (computeBuildingCost populatedType 0).any fun cost =>
                (resourceOf ⟨row, d.rowsOf facility.village⟩ cost).isNone
            · simp only [hmissing, if_true]
            · simp only [hmissing, Bool.false_eq_true, if_false, List.all_map, Function.id_comp]

end Loaded

/-! ## How a request ends -/

/-- The requests of the two services, with the types of the facilities by their ids. -/
inductive Request where
  | order (data : CreateOrder)
  | facility (facilityTypes : List (ℕ × String)) (data : CreateFacility) (userId : ℕ)

/-- What a request ends with. -/
inductive Ending where
  | entity
  | exception (e : HttpException)
  | undefined
  | typeError
  deriving DecidableEq

def ending {α : Type} : Except ResourcesError (Option α) → Ending
  | .ok (some _) => .entity
  | .ok none => .undefined
  | .error (.exception e) => .exception e
  | .error .typeError => .typeError

/-- An entity or an `HttpException`. -/
def Ending.Proper : Ending → Prop
  | .entity | .exception _ => True
  | .undefined | .typeError => False

instance (x : Ending) : Decidable x.Proper :=
  match x with
  | .entity | .exception _ => isTrue trivial
  | .undefined | .typeError => isFalse id

/-- A request as the code makes its queries. -/
def Request.end (d : GameDb C) (faults : Faults) : Request → Ending
  | .order data => ending (createOrder [] d faults data)
  | .facility facilityTypes data userId =>
    ending (createFacility [] facilityTypes d faults data userId)

/-- An order is refused before the village of its facility is read: by its quantity, by its facility,
by its unit, or by a tier of the barrack that does not have the unit yet. -/
def OrderRefused (d : GameDb C) (order : CreateOrder) : Prop :=
  0 < order.orderedQuantity →
    ∀ facility ∈ d.facilities.get? order.facilityId,
      facility.facilityType = barrackDescriptor.name →
        ∀ t ∈ C.find? order.unitName, ∀ unit ∈ MilitaryResource.ofName? t.type,
          ∃ tier ∈ barrackDescriptor.tiers.find? fun t => t.tier = facility.level,
            unit ∉ tier.availableMilitaryResources

/-- The facilities of the village are not read: the type has no descriptor, and the village has a row
for each of its costs, or the village is not that of the user. -/
def CreationSafe (facilityTypes : List (ℕ × String)) (d : GameDb C) (facility : CreateFacility)
    (userId : ℕ) : Prop :=
  ∀ type ∈ facilityTypes.lookup facility.facilityType,
    ∃ village ∈ d.villages.get? facility.village, ∃ owner ∈ village.userId,
      owner = userId → findFacilityDescriptorByType type = none ∧
        ∀ cost ∈ computeBuildingCost type 0,
          (resourceOf ⟨village, d.rowsOf village.id⟩ cost).isSome

/-- The request ends without a `TypeError`. -/
def Request.Safe (d : GameDb C) : Request → Prop
  | .order data => OrderRefused d data
  | .facility facilityTypes data userId => CreationSafe facilityTypes d data userId

section Endings

variable {d : GameDb C} {faults : Faults}

/-- What comes after the checks ends properly, if it does for what is committed. -/
theorem proper_bind_iff {α β : Type} {check : Except ResourcesError α}
    {rest : α → Except ResourcesError (Option β)} (h : ∀ a, (ending (rest a)).Proper) :
    (ending (check >>= rest)).Proper ↔ check ≠ .error .typeError := by
  cases check with
  | ok a => exact iff_of_true (h a) (fun heq => nomatch heq)
  | error e =>
    cases e with
    | exception e => exact iff_of_true trivial (fun heq => nomatch heq)
    | typeError => exact iff_of_false id (fun hne => hne rfl)

/-- An order that is committed is there. -/
theorem placed_order (c : CheckedOrder C) {order : Order C}
    (hok : (transact d () faults (Charging.placeOrder c)).result = .ok order) :
    (transact d () faults (Charging.placeOrder c)).db.orders.get? order.id = some order := by
  refine transact_ok (Q := fun order d => d.orders.get? order.id = some order) ?_ hok
  unfold Charging.placeOrder
  simp only [ends_bind, ends_pure]
  refine ends_trivial.mono (fun _ s _ => ?_) fun _ _ _ => trivial
  unfold Charging.saveOrder
  split
  · trivial
  · refine ends_query (fun _ => ends_query (fun _ => ?_) fun _ => trivial) fun _ => trivial
    exact @Table.get?_insert_self _ _ _ _ (Charging.key_orderEntity c)

/-- A facility that is committed is there. -/
theorem stored_facility (c : CheckedCreate C) {facility : Facility}
    (hok : (transact d () faults (storeFacility c)).result = .ok facility) :
    (transact d () faults (storeFacility c)).db.facilities.get? facility.id = some facility := by
  refine transact_ok (Q := fun facility d => d.facilities.get? facility.id = some facility) ?_ hok
  unfold storeFacility
  simp only [ends_bind]
  refine ends_trivial.mono (fun _ s _ => ?_) fun _ _ _ => trivial
  exact ends_query (fun _ => @Table.get?_insert_self _ _ _ _ (key_facilityEntity c)) fun _ => trivial

theorem proper_order_iff (listed : Paths) (order : CreateOrder) :
    (ending (createOrder listed d faults order)).Proper ↔
      checkOrder listed d order ≠ .error .typeError := by
  refine proper_bind_iff fun c => ?_
  cases hresult : (transact d () faults (Charging.placeOrder c)).result with
  | ok orderEntity =>
    simp only [hresult, findOrder_eq, placed_order c hresult]
    trivial
  | error thrown =>
    simp only [hresult]
    cases thrown <;> trivial

theorem proper_facility_iff (listed : Paths) (facilityTypes : List (ℕ × String))
    (facility : CreateFacility) (userId : ℕ) :
    (ending (createFacility listed facilityTypes d faults facility userId)).Proper ↔
      checkCreate listed facilityTypes d facility userId ≠ .error .typeError := by
  refine proper_bind_iff fun c => ?_
  cases hresult : (transact d () faults (storeFacility c)).result with
  | ok facilityEntity =>
    simp only [hresult, findFacility_eq, stored_facility c hresult]
    trivial
  | error thrown =>
    simp only [hresult]
    trivial

theorem checkOrder_ne_typeError_iff (order : CreateOrder) :
    checkOrder [] d order ≠ .error .typeError ↔ OrderRefused d order := by
  rw [checkOrder_eq]
  unfold Production.checkOrder OrderRefused GameDb.findFacility
  by_cases hpos : order.orderedQuantity ≤ 0
  · rw [if_pos hpos]
    exact iff_of_true (fun h => nomatch h) fun hlt => absurd hpos (not_le.2 hlt)
  rw [if_neg hpos]
  simp only [not_le.1 hpos, true_imp_iff]
  cases d.facilities.get? order.facilityId with
  | none => simp [orError, bind, Except.bind]
  | some facility =>
    simp only [Option.map_some, orError, bind, Except.bind, Option.mem_def, Option.some.injEq,
      forall_eq']
    by_cases hbarrack : facility.facilityType = barrackDescriptor.name
    · simp only [hbarrack, ne_eq, not_true_eq_false, if_false, true_imp_iff]
      cases C.find? order.unitName with
      | none => simp
      | some t =>
        simp only [Option.some.injEq, forall_eq']
        cases MilitaryResource.ofName? t.type with
        | none => simp
        | some unit =>
          simp only [Option.some.injEq, forall_eq']
          cases barrackDescriptor.tiers.find? fun t => (t.tier : ℤ) = facility.level with
          | none => simp
          | some tier =>
            by_cases hunit : unit ∈ tier.availableMilitaryResources <;> simp [hunit]
    · simp [hbarrack]

theorem checkCreate_ne_typeError_iff (facilityTypes : List (ℕ × String)) (facility : CreateFacility)
    (userId : ℕ) :
    checkCreate [] facilityTypes d facility userId ≠ .error .typeError ↔
      CreationSafe facilityTypes d facility userId := by
  rw [checkCreate_eq]
  unfold checkCreateWith CreationSafe Db.findVillage loadedFacilities
  cases facilityTypes.lookup facility.facilityType with
  | none => simp [orError, bind, Except.bind]
  | some type =>
    simp only [orError, bind, Except.bind, Option.mem_def, Option.some.injEq, forall_eq']
    cases hvillage : d.villages.get? facility.village with
    | none => simp
    | some village =>
      have hid : village.id = facility.village := (Table.get?_eq_some.1 hvillage).2
      simp only [Option.map_some, Option.some.injEq, exists_eq_left', hid]
      cases village.userId with
      | none => simp
      | some owner =>
        simp only [Option.some.injEq, exists_eq_left']
        by_cases howner : owner = userId
        · unfold hasMaximumFacilityTypeForVillage
          simp only [howner, ne_eq, not_true_eq_false, if_false, true_imp_iff, List.contains_nil,
            Bool.false_eq_true]
          cases findFacilityDescriptorByType type with
          | some facilityRule => simp
          | none =>
            simp only [true_and]
            by_cases hmissing : (computeBuildingCost type 0).any fun cost =>
                (resourceOf ⟨village, d.rowsOf facility.village⟩ cost).isNone
            · rw [if_pos hmissing]
              refine iff_of_false (fun hne => hne rfl) fun hrows => ?_
              obtain ⟨cost, hcost, hnone⟩ := List.any_eq_true.1 hmissing
              have hsome := hrows cost hcost
              rw [Option.isNone_iff_eq_none.1 hnone] at hsome
              cases hsome
            · rw [if_neg hmissing]
              refine iff_of_true (by split <;> simp [pure, Except.pure]) fun cost hcost => ?_
              by_contra hnone
              exact hmissing (List.any_eq_true.2 ⟨cost, hcost, by simpa using hnone⟩)
        · simp [howner]

/-- **The two creations.** A request ends with an entity or an `HttpException` exactly if an order is
refused before the village of its facility is read, or if a new facility is of a type without a
descriptor. The village of a facility is not eager, nor are the facilities of a village, and no query
lists them. -/
theorem ends_properly_iff (d : GameDb C) (faults : Faults) (req : Request) :
    (req.end d faults).Proper ↔ req.Safe d := by
  cases req with
  | order data => exact (proper_order_iff [] data).trans (checkOrder_ne_typeError_iff data)
  | facility facilityTypes data userId =>
    exact (proper_facility_iff [] facilityTypes data userId).trans
      (checkCreate_ne_typeError_iff facilityTypes data userId)

end Endings

/-- A cropland, which has no descriptor. -/
example : (Request.facility [(1, "cropland")] ⟨1, 1⟩ 1).end Production.Lifecycle.sampleBarrack
    .none = .entity := by decide +kernel

/-! ## A barrack and a vault -/

/-- Ten stone hunters, in a barrack whose village can pay them. -/
def sampleOrder : Request := .order ⟨1, 10, "stone_hunter"⟩

/-- A storage vault, in a village of the user. -/
def sampleVault : Request := .facility Maximum.sampleTypes ⟨6, 1⟩ 1

/-- Both requests read an undefined relation, the village of the barrack and the facilities of the
village. -/
theorem creations_crash :
    sampleOrder.end Production.Lifecycle.sampleBarrack .none = .typeError ∧
      sampleVault.end Maximum.sampleVaults .none = .typeError ∧
      ¬∀ (d : GameDb sampleCatalog) (faults : Faults) (req : Request), (req.end d faults).Proper := by
  have hvault : sampleVault.end Maximum.sampleVaults .none = .typeError := by decide +kernel
  refine ⟨by decide +kernel, hvault, fun h => ?_⟩
  have hproper := h Maximum.sampleVaults .none sampleVault
  rw [hvault] at hproper
  exact hproper

end Cme.Facilities.Loading
