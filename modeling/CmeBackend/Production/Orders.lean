import CmeBackend.Production.Entities

/-!
# Ordering units

`ResourcesMsOrdersService.create` (`resources-ms-orders.service.ts`): the checks on what the service
has loaded (`checkOrder`), and the transaction that pays and stores the order (`placeOrder`).

* The facility is loaded with or without its village (`withVillage`). Without it, which is what a
  `findOne` without `relations` gives, every request that reaches the village ends with a
  `TypeError`.
* `none` of `placeOrder`: a statement of the transaction fails, and it is rolled back.
-/

namespace Cme.Production

open GameRules

variable {C : Catalog}

/-- `CreateOrderDto` as the validation of the body lets it through. -/
structure CreateOrder where
  facilityId : ℕ
  orderedQuantity : ℚ
  unitName : String

/-- What the checks of a request have found. -/
structure CheckedOrder (C : Catalog) where
  facility : LoadedFacility C
  village : LoadedVillage C
  resourceRequested : C.Ref
  unit : MilitaryResource
  /-- The rows of food, iron and wood. -/
  resources : List (VillageResourceType C)
  orderedQuantity : ℚ

/-! ## The code -/

/-- `descriptor.productionCosts[type] * order.orderedQuantity` -/
def price (unit : MilitaryResource) (orderedQuantity : ℚ) (type : String) : ℚ :=
  ((productionCosts unit).lookup type).getD 0 * orderedQuantity

/-- `['food', 'iron', 'wood'].includes(res.resourceType.type)` -/
def isOrderResource (r : VillageResourceType C) : Bool :=
  r.resourceType.type ∈ ["food", "iron", "wood"]

/-- `hasEnoughResources` -/
def hasEnoughResources (resources : List (VillageResourceType C)) (unit : MilitaryResource)
    (orderedQuantity : ℚ) : Bool :=
  resources.length = 3 ∧ ∀ r ∈ resources, price unit orderedQuantity r.resourceType.type ≤ r.count

/-- The part of `create` before the transaction. -/
def checkOrder (withVillage : Bool) (d : GameDb C) (order : CreateOrder) :
    Except ResourcesError (CheckedOrder C) := do
  if order.orderedQuantity ≤ 0 then
    .error (.exception ⟨"Order at least 1 unit", .badRequest⟩) else
  let facility ← orError (d.findFacility withVillage order.facilityId)
    ⟨"Facility not found", .notFound⟩
  if facility.facility.facilityType ≠ barrackDescriptor.name then
    .error (.exception ⟨"Facility must be a Barrack to order units", .badRequest⟩) else
  let resourceRequested ← orError (C.find? order.unitName)
    ⟨"Requested resource does not exist", .notFound⟩
  let unit ← orError (MilitaryResource.ofName? resourceRequested.type)
    ⟨"Requested resource does not exist", .notFound⟩
  match barrackDescriptor.tiers.find? fun t => t.tier = facility.facility.level with
  | none => .error .typeError
  | some tier =>
    if unit ∉ tier.availableMilitaryResources then
      .error (.exception
        ⟨s!"Unit not available at level {facility.facility.level}", .badRequest⟩) else
    match facility.village with
    | none => .error .typeError
    | some village =>
      let resources := village.villagesResourceTypes.filter isOrderResource
      if !hasEnoughResources resources unit order.orderedQuantity then
        .error (.exception ⟨"Insufficient resources", .badRequest⟩)
      else if facility.production.isInProduction then
        .error (.exception ⟨"Facility already in production", .badRequest⟩)
      else
        return {
          facility, village, resourceRequested, unit, resources
          orderedQuantity := order.orderedQuantity }

/-- One entry of `resourceTypeIdAmounts`. -/
def resourceTypeIdAmount (c : CheckedOrder C) (cost : String × ℕ) : Option (ℕ × ℚ) :=
  (c.resources.find? (·.resourceType.type = cost.1)).map fun r =>
    (r.resourceType.id, cost.2 * c.orderedQuantity)

/-- `resourceTypeIdAmounts`, as the database reads it. The separator goes by the index of the cost,
so the text is no list of values if the first of them is missing. -/
def resourceTypeIdAmounts (c : CheckedOrder C) : Option (List (ℕ × ℚ)) :=
  match productionCosts c.unit with
  | [] => none
  | first :: rest =>
    (resourceTypeIdAmount c first).map (· :: rest.filterMap (resourceTypeIdAmount c))

/-- The order is paid and stored. -/
def storeOrder (d : GameDb C) (c : CheckedOrder C) (amounts : List (ℕ × ℚ)) : GameDb C :=
  { d with
    toDb := d.toDb.subtractFromCounts c.village.village.id amounts
    orders := d.orders.insert fun id =>
      { id, facilityId := c.facility.facility.id, resourceType := c.resourceRequested
        orderedQuantity := c.orderedQuantity.num, deliveredQuantity := 0 } }

/-- `{ ...facility, isInProduction: true }` -/
def CheckedOrder.busy (c : CheckedOrder C) : FacilityProduction :=
  { c.facility.production with isInProduction := true }

/-- The transaction of `create`. The quantity is stored in a column of type `int`. -/
def placeOrder (d : GameDb C) (c : CheckedOrder C) : Option (GameDb C) := do
  let amounts ← resourceTypeIdAmounts c
  if c.orderedQuantity.den ≠ 1 then none
  else return (storeOrder d c amounts).saveFacility c.facility.facility c.busy

/-- `create`, as one step. -/
def create (withVillage : Bool) (d : GameDb C) (order : CreateOrder) : GameDb C :=
  match checkOrder withVillage d order with
  | .ok c => (placeOrder d c).getD d
  | .error _ => d

/-! ## What an accepted order has passed -/

/-- The checks of an order. -/
structure Payable (withVillage : Bool) (d : GameDb C) (order : CreateOrder) (c : CheckedOrder C) :
    Prop where
  facility : d.findFacility withVillage order.facilityId = some c.facility
  village : c.facility.village = some c.village
  free : c.facility.production.isInProduction = false
  unit : c.unit.name = c.resourceRequested.type
  resources : c.resources = c.village.villagesResourceTypes.filter isOrderResource
  enough : hasEnoughResources c.resources c.unit c.orderedQuantity = true
  quantity_pos : 0 < c.orderedQuantity

variable {withVillage : Bool} {d : GameDb C} {order : CreateOrder} {c : CheckedOrder C}

theorem checkOrder_eq_ok (h : checkOrder withVillage d order = .ok c) :
    Payable withVillage d order c := by
  unfold checkOrder at h
  split at h
  · cases h
  next hpos =>
    obtain ⟨facility, hf, h⟩ := bind_eq_ok.1 h
    split at h
    · cases h
    obtain ⟨resourceRequested, -, h⟩ := bind_eq_ok.1 h
    obtain ⟨unit, hu, h⟩ := bind_eq_ok.1 h
    split at h
    · cases h
    split at h
    · cases h
    split at h
    · cases h
    next village hv =>
      simp only at h
      split at h
      · cases h
      next henough =>
        split at h
        · cases h
        next hfree =>
          cases h
          exact {
            facility := orError_eq_ok.1 hf
            village := hv
            free := by simpa using hfree
            unit := MilitaryResource.ofName?_eq_some.1 (orError_eq_ok.1 hu)
            resources := rfl
            enough := by simpa using henough
            quantity_pos := not_le.1 hpos }

namespace Payable

/-- The facility of an order has a row. -/
theorem get?_facility (h : Payable withVillage d order c) :
    d.facilities.get? order.facilityId = some c.facility.facility :=
  (GameDb.findFacility_eq_some h.facility).1

theorem facility_mem (h : Payable withVillage d order c) :
    c.facility.facility ∈ d.facilities.rows :=
  (Table.get?_eq_some.1 h.get?_facility).1

theorem facility_id (h : Payable withVillage d order c) :
    c.facility.facility.id = order.facilityId :=
  (Table.get?_eq_some.1 h.get?_facility).2

/-- The facility is not in production. -/
theorem production_free (h : Payable withVillage d order c) :
    (d.production c.facility.facility.id).isInProduction = false := by
  rw [h.facility_id, ← (GameDb.findFacility_eq_some h.facility).2]
  exact h.free

/-- The village is that of the facility. -/
theorem village_eq (h : Payable withVillage d order c) :
    d.findVillage c.facility.facility.villageId = some c.village := by
  obtain ⟨f, -, hf⟩ := Option.map_eq_some_iff.1 h.facility
  have hv := h.village
  rw [← hf] at hv ⊢
  cases withVillage with
  | false => cases hv
  | true => exact hv

theorem village_id (h : Payable withVillage d order c) :
    c.village.village.id = c.facility.facility.villageId :=
  Db.id_of_findVillage h.village_eq

theorem rows_village (h : Payable withVillage d order c) :
    c.village.villagesResourceTypes = d.rowsOf c.village.village.id :=
  Db.rows_of_findVillage h.village_eq

/-- What is paid of a resource is checked against a row of the village. -/
theorem exists_row (h : Payable withVillage d order c) {amounts : List (ℕ × ℚ)}
    (hamounts : resourceTypeIdAmounts c = some amounts) {p : ℕ × ℚ} (hp : p ∈ amounts) :
    ∃ r ∈ d.rowsOf c.village.village.id, r.resourceType.id = p.1 ∧ p.2 ≤ r.count := by
  obtain ⟨cost, hcost, hpay⟩ : ∃ cost ∈ productionCosts c.unit,
      resourceTypeIdAmount c cost = some p := by
    unfold resourceTypeIdAmounts at hamounts
    split at hamounts
    · cases hamounts
    next first rest heq =>
      obtain ⟨amount, hamount, rfl⟩ := Option.map_eq_some_iff.1 hamounts
      rcases List.mem_cons.1 hp with rfl | hp
      · exact ⟨first, heq ▸ List.mem_cons_self, hamount⟩
      · obtain ⟨cost, hcost, hamount⟩ := List.mem_filterMap.1 hp
        exact ⟨cost, heq ▸ List.mem_cons_of_mem _ hcost, hamount⟩
  obtain ⟨r, hr, rfl⟩ := Option.map_eq_some_iff.1 hpay
  have hmem : r ∈ c.resources := List.mem_of_find?_eq_some hr
  have htype : r.resourceType.type = cost.1 := by simpa using List.find?_some hr
  have hprice := (of_decide_eq_true h.enough).2 r hmem
  rw [price, htype, lookup_of_mem (nodup_productionCosts c.unit) hcost] at hprice
  refine ⟨r, ?_, rfl, hprice⟩
  rw [h.resources] at hmem
  exact h.rows_village ▸ (List.mem_filter.1 hmem).1

end Payable

/-- A transaction that goes through has paid and stored the order. -/
theorem placeOrder_eq_some {d' : GameDb C} :
    placeOrder d c = some d' ↔ ∃ amounts, resourceTypeIdAmounts c = some amounts ∧
      c.orderedQuantity.den = 1 ∧
      d' = (storeOrder d c amounts).saveFacility c.facility.facility c.busy := by
  unfold placeOrder
  cases resourceTypeIdAmounts c with
  | none => simp
  | some amounts =>
    by_cases hd : c.orderedQuantity.den = 1
    · simp [hd, eq_comm]
    · simp [hd]

end Cme.Production
