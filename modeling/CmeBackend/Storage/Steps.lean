import CmeBackend.Storage.Transfer

/-!
# The calls of a transfer

`transferResourcesToStorage` call by call, for runs in which other requests come between its calls:
the checks on what is loaded (`check`), the vault row that is opened, and the rows that are saved
later.

* `transfer_eq_check`: without anything in between, the calls are the transfer.
-/

namespace Cme.Storage

variable {C : Catalog}

/-- A transfer that has passed the checks, with the rows that were loaded with the village. -/
structure CheckedTransfer (C : Catalog) where
  villageId : ℕ
  rows : List (VillageResourceType C)
  facility : Facility
  resourceType : C.Ref
  resource : TransferableResource
  transferType : TransferType

/-- The part of the handler before something is saved. -/
def check (d : Db C) (villageId facilityId : ℕ) (req : Request) :
    Except ResourcesError (CheckedTransfer C) := do
  let village ← orError (d.villages.get? villageId) ERROR_VILLAGE_NOT_FOUND
  let facility ← orError (d.facilities.get? facilityId) ERROR_FACILITY_NOT_FOUND
  let resourceType ← orError (C.find? req.resource.type) ERROR_RESOURCE_NOT_FOUND
  let rows := d.rowsOf village.id
  let enough ← villageHasEnoughResources rows
    [(req.resource.type, ⟨resourceType.id, req.resource.count⟩)]
  if !enough then .error (.exception ERROR_VILLAGE_NOT_ENOUGH_RESOURCES) else
    let count ← countToMove facility (storageOf d facility.id) req.resource.count req.transferType
    return {
      villageId := village.id, rows, facility, resourceType
      resource := { req.resource with count }, transferType := req.transferType }

/-- The rows of the village with the counts after the transfer. -/
def CheckedTransfer.left (c : CheckedTransfer C) : List (Entity C) :=
  let sentResourcesFormatted := [(c.resource.type, ⟨c.resourceType.id, c.resource.count⟩)]
  c.rows.map fun r =>
    ⟨r, addOrRemoveResourcesToVillage sentResourcesFormatted (c.transferType = .deposit) r⟩

/-- The vault row with its count after the transfer. -/
def CheckedTransfer.stored (c : CheckedTransfer C) (storage : VillageStorageResourceType C) :
    VillageStorageResourceType C :=
  { storage with
    count :=
      if c.transferType = .withdraw then storage.count - c.resource.count
      else storage.count + c.resource.count }

theorem transfer_eq_check {d : Db C} {v f : ℕ} {req : Request} :
    transferResourcesToStorageOwnVillages d v f req = (check d v f req).map fun c =>
      move d c.villageId c.facility c.resourceType c.resource c.transferType := by
  simp only [transferResourcesToStorageOwnVillages, transferResourcesToStorage, check, bind,
    Except.bind]
  cases orError (d.villages.get? v) ERROR_VILLAGE_NOT_FOUND with
  | error e => rfl
  | ok village =>
    simp only
    cases orError (d.facilities.get? f) ERROR_FACILITY_NOT_FOUND with
    | error e => rfl
    | ok facility =>
      simp only
      cases orError (C.find? req.resource.type) ERROR_RESOURCE_NOT_FOUND with
      | error e => rfl
      | ok t =>
        simp only
        cases villageHasEnoughResources (d.rowsOf village.id)
            [(req.resource.type, ⟨t.id, req.resource.count⟩)] with
        | error e => rfl
        | ok enough =>
          simp only
          split
          · rfl
          · cases countToMove facility (storageOf d facility.id) req.resource.count
              req.transferType <;> rfl

end Cme.Storage
