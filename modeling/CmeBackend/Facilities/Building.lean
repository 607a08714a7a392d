import CmeBackend.GameRules.Prices
import CmeBackend.Production.Entities

/-!
# Building and upgrading facilities

`ResourcesMsFacilitiesService.upgradeFacility` and `create` (`resources-ms-facilities.service.ts`),
with the part of `upgradeFacility` that is in the controller (`resources-ms.controller.ts`): the
checks on what is loaded, and the transaction that pays.

* The village of a new facility is loaded without its facilities, so the type that has a maximum is
  never built: its check ends with a `TypeError`.
* The transactions are given as they go through. One that fails changes nothing.
-/

namespace Cme.Facilities

open GameRules

variable {C : Catalog}

/-- `CreateFacilityDto`. Its level is always 1. -/
structure CreateFacility where
  facilityType : ℕ
  village : ℕ

/-- What the checks of an upgrade have found. -/
structure CheckedUpgrade (C : Catalog) where
  facility : LoadedFacility C
  village : LoadedVillage C
  resTypesCosts : List FacilityTypeResPrice

/-- What the checks of a new facility have found. -/
structure CheckedCreate (C : Catalog) where
  populatedType : String
  village : LoadedVillage C
  resTypesCosts : List FacilityTypeResPrice

/-- `villagesResourceTypes.find((vrt) => vrt.resourceType.type === cost.resourcesType)` -/
def resourceOf (village : LoadedVillage C) (cost : FacilityTypeResPrice) :
    Option (VillageResourceType C) :=
  village.villagesResourceTypes.find? (·.resourceType.type = cost.resourcesType)

/-! ## The checks -/

/-- A cost that the village can pay. -/
def affordable (village : LoadedVillage C) (cost : FacilityTypeResPrice) : Bool :=
  match resourceOf village cost with
  | some villageResource => cost.amount ≤ villageResource.count
  | none => false

/-- The check for a next level, for the types that have levels. -/
def checkLevel (facility : Facility) : Except ResourcesError Unit :=
  if findBuildingType facility.facilityType = .building then .ok () else
  match checkIfFacilityNextLevel facility.facilityType facility.level with
  | none => .error (.exception ⟨"Cannot read property 'maxTier' of undefined", .notFound⟩)
  | some false => .error (.exception ⟨"Facility already at max level", .notFound⟩)
  | some true => .ok ()

/-- The part of an upgrade before the statements. -/
def checkUpgrade (d : GameDb C) (facilityId userId : ℕ) :
    Except ResourcesError (CheckedUpgrade C) := do
  let facility ← orError (d.findFacility true facilityId) ⟨"Facility not found", .notFound⟩
  match facility.village with
  | none => .error .typeError
  | some village =>
    match village.village.userId with
    | none => .error .typeError
    | some owner =>
      if owner ≠ userId then .error (.exception ⟨"Unauthorized", .unauthorized⟩) else
      let _ ← checkLevel facility.facility
      let resTypesCosts :=
        computeBuildingCost facility.facility.facilityType (facility.facility.level + 1)
      if resTypesCosts.all (affordable village) then
        return { facility, village, resTypesCosts }
      else .error (.exception ⟨"Insufficient resources", .notFound⟩)

/-- The part of `create` before the transaction, for villages that are loaded with the `facilities`
given. `facilityTypes` are the types by their ids. -/
def checkCreateWith (facilities : ℕ → Option (List String)) (facilityTypes : List (ℕ × String))
    (d : GameDb C) (facility : CreateFacility) (userId : ℕ) :
    Except ResourcesError (CheckedCreate C) := do
  let populatedType ← orError (facilityTypes.lookup facility.facilityType)
    ⟨"Facility type not found", .badRequest⟩
  let resTypesCosts := computeBuildingCost populatedType 0
  match d.findVillage facility.village with
  | none => .error .typeError
  | some village =>
    match village.village.userId with
    | none => .error .typeError
    | some owner =>
      if owner ≠ userId then .error (.exception ⟨"Unauthorized", .unauthorized⟩) else
      match hasMaximumFacilityTypeForVillage populatedType (facilities village.village.id) with
      | none => .error .typeError
      | some true =>
        .error (.exception ⟨"Max number of this facility on your village", .forbidden⟩)
      | some false =>
        -- The loop reads the row of every cost before it comes to a result.
        if resTypesCosts.any fun cost => (resourceOf village cost).isNone then .error .typeError
        else if resTypesCosts.all (affordable village) then
          return { populatedType, village, resTypesCosts }
        else .error (.exception ⟨"Insufficient resources", .badRequest⟩)

/-- The part of `create` before the transaction. The village is loaded without its facilities. -/
def checkCreate (facilityTypes : List (ℕ × String)) (d : GameDb C) (facility : CreateFacility)
    (userId : ℕ) : Except ResourcesError (CheckedCreate C) :=
  checkCreateWith (fun _ => none) facilityTypes d facility userId

/-! ## The transactions -/

/-- The type and the amount of each statement that pays. -/
def payments (village : LoadedVillage C) (costs : List FacilityTypeResPrice) : List (ℕ × ℚ) :=
  costs.filterMap fun cost =>
    (resourceOf village cost).map fun res => (res.resourceType.id, cost.amount)

/-- The statements that pay, one for each cost. -/
def pay (d : Db C) (village : LoadedVillage C) (costs : List FacilityTypeResPrice) : Db C :=
  (payments village costs).foldl (fun d cost => d.subtractFromCounts village.village.id [cost]) d

/-- `upgradeFacility` -/
def upgradeFacility (d : GameDb C) (c : CheckedUpgrade C) : GameDb C :=
  let facility := { c.facility.facility with level := c.facility.facility.level + 1 }
  { d with toDb := pay d.toDb c.village c.resTypesCosts }.saveFacility facility
    c.facility.production

/-- `create` -/
def create (d : GameDb C) (c : CheckedCreate C) : GameDb C :=
  let paid := pay d.toDb c.village c.resTypesCosts
  let facilities := paid.facilities.insert fun id =>
    { id, level := 1, facilityType := c.populatedType, villageId := c.village.village.id }
  { d with
    toDb := { paid with facilities }
    production := Function.update d.production paid.facilities.next .none }

/-- The statements that pay write no facilities. -/
@[simp] theorem facilities_pay (d : Db C) (village : LoadedVillage C)
    (costs : List FacilityTypeResPrice) : (pay d village costs).facilities = d.facilities := by
  unfold pay
  induction payments village costs generalizing d with
  | nil => rfl
  | cons cost rest ih => exact ih (d.subtractFromCounts village.village.id [cost])

/-! ## What is paid -/

/-- The village has a row with the amount of each cost. -/
structure CanPay (d : GameDb C) (village : LoadedVillage C) (costs : List FacilityTypeResPrice) :
    Prop where
  rows : village.villagesResourceTypes = d.rowsOf village.village.id
  affordable : costs.all (affordable village) = true
  nodup : (costs.map FacilityTypeResPrice.resourcesType).Nodup

variable {d : GameDb C} {village : LoadedVillage C} {costs : List FacilityTypeResPrice}

/-- The checks of an upgrade. -/
structure Upgradable (d : GameDb C) (facilityId : ℕ) (c : CheckedUpgrade C) : Prop where
  facility : d.findFacility true facilityId = some c.facility
  level : checkLevel c.facility.facility = .ok ()
  canPay : CanPay d c.village c.resTypesCosts

theorem checkUpgrade_eq_ok {facilityId userId : ℕ} {c : CheckedUpgrade C}
    (h : checkUpgrade d facilityId userId = .ok c) : Upgradable d facilityId c := by
  obtain ⟨facility, hf, h⟩ := bind_eq_ok.1 h
  have hload := orError_eq_ok.1 hf
  obtain ⟨row, -, hrow⟩ := Option.map_eq_some_iff.1 hload
  split at h
  · cases h
  next village hvillage =>
    have hfind : d.findVillage row.villageId = some village := by
      rw [← hrow] at hvillage
      exact hvillage
    split at h
    · cases h
    split at h
    · cases h
    obtain ⟨⟨⟩, hlevel, h⟩ := bind_eq_ok.1 h
    simp only at h
    split at h
    next haffordable =>
      cases h
      exact ⟨hload, hlevel, Db.rows_of_findVillage hfind, haffordable, nodup_computeBuildingCost _ _⟩
    · cases h

theorem checkCreateWith_eq_ok {facilities : ℕ → Option (List String)}
    {facilityTypes : List (ℕ × String)} {facility : CreateFacility} {userId : ℕ}
    {c : CheckedCreate C} (h : checkCreateWith facilities facilityTypes d facility userId = .ok c) :
    CanPay d c.village c.resTypesCosts := by
  obtain ⟨populatedType, -, h⟩ := bind_eq_ok.1 h
  simp only at h
  split at h
  · cases h
  next village hfind =>
    split at h
    · cases h
    split at h
    · cases h
    split at h
    · cases h
    · cases h
    split at h
    · cases h
    split at h
    next haffordable =>
      cases h
      exact ⟨Db.rows_of_findVillage hfind, haffordable, nodup_computeBuildingCost _ _⟩
    · cases h

namespace CanPay

/-- A cost is paid from a row of the village that holds its amount. -/
theorem exists_row (h : CanPay d village costs) {p : ℕ × ℚ} (hp : p ∈ payments village costs) :
    ∃ r ∈ d.rowsOf village.village.id, r.resourceType.id = p.1 ∧ p.2 ≤ r.count := by
  obtain ⟨cost, hcost, hpay⟩ := List.mem_filterMap.1 hp
  obtain ⟨r, hr, rfl⟩ := Option.map_eq_some_iff.1 hpay
  have hcount := List.all_eq_true.1 h.affordable cost hcost
  rw [Facilities.affordable, hr] at hcount
  exact ⟨r, h.rows ▸ List.mem_of_find?_eq_some hr, rfl, by simpa using hcount⟩

/-- No two statements pay from rows of one type. -/
theorem nodup_payments (h : CanPay d village costs) :
    ((payments village costs).map Prod.fst).Nodup := by
  rw [payments, List.map_filterMap, List.Nodup, List.pairwise_filterMap]
  refine (List.pairwise_map.1 h.nodup).imp fun {cost cost'} hne id hid id' hid' heq => hne ?_
  have hname : ∀ {cost : FacilityTypeResPrice} {id : ℕ}, id ∈ Option.map Prod.fst
      ((resourceOf village cost).map fun res => (res.resourceType.id, cost.amount)) →
      ∃ r : VillageResourceType C, r.resourceType.id = id ∧
        r.resourceType.type = cost.resourcesType := by
    intro cost id hid
    rw [Option.map_map] at hid
    obtain ⟨r, hr, rfl⟩ := Option.map_eq_some_iff.1 hid
    exact ⟨r, rfl, by simpa using List.find?_some hr⟩
  obtain ⟨r, rfl, hr⟩ := hname hid
  obtain ⟨r', rfl, hr'⟩ := hname hid'
  rw [← hr, ← hr', Catalog.Ref.eq_of_id heq]

/-- The statements together take the listed amounts. -/
theorem pay_eq (h : CanPay d village costs) (e : Db C) :
    pay e village costs = e.subtractFromCounts village.village.id (payments village costs) :=
  Db.foldl_subtractFromCounts h.nodup_payments

end CanPay

end Cme.Facilities
