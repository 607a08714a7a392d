import CmeBackend.GameRules.Facilities
import CmeBackend.Villages.Resources

/-!
# Transfers to and from a storage

`ResourcesStorageMsService.transferResourcesToStorage` (`resources-ms-storage.service.ts`) and the
handler of its message (`resources-ms.controller.ts`). A facility has no row of
`villages_storage_resource_types` before the first transfer. The row that this transfer saves keeps
its resource type.

* `countToWithdraw`, `countToDeposit`: the checks of the vault, with the count that is moved. Only a
  deposit to a row that exists is compared with the capacity.
* `move`: what is saved when the checks have passed.
* `Passes`: what a request has to pass. `transferResourcesToStorageOwnVillages_eq_ok` says that it
  goes through exactly then, as the `move` of the count that the checks let through.
* `step`: a request as a step of the system. A request that ends with an error has saved nothing.
-/

namespace Cme.Storage

open GameRules

variable {C : Catalog}

/-- `'WITHDRAW'`, `'DEPOSIT'`, or another string, which the validation of the body lets through. -/
inductive TransferType where
  | withdraw
  | deposit
  | other (transferType : String)
  deriving DecidableEq

/-- The type of a transfer is one of the two that the message declares. -/
def TransferType.Declared (k : TransferType) : Prop := k = .deposit ∨ k = .withdraw

structure TransferableResource where
  type : String
  count : ℤ

/-- `TransferToVaultStorageMsReq` without the ids of the village and of the facility. -/
structure Request where
  transferType : TransferType
  resource : TransferableResource

/-- The facility that a transfer returns, with its vault row, and the tables after it. -/
structure Transferred (C : Catalog) where
  db : Db C
  facility : Facility
  villageStorageResourceType : VillageStorageResourceType C

/-! ## The code -/

/-- `villagesStorageResourceTypesRepository.findOne({ where: { facility } })` -/
def storageOf (d : Db C) (facilityId : ℕ) : Option (VillageStorageResourceType C) :=
  d.villagesStorageResourceTypes.rows.find? (·.facilityId = facilityId)

/-- The checks of `'WITHDRAW'`. -/
def countToWithdraw (foundStorage : Option (VillageStorageResourceType C)) (count : ℤ) :
    Except ResourcesError ℤ := do
  let storage ← orError foundStorage ERROR_FACILITY_STORAGE_NOT_FOUND
  if storage.count ≤ 0 ∨ storage.count < count then
    .error (.exception ERROR_FACILITY_HAS_NO_MORE_RESOURCES)
  else .ok count

/-- The checks of `'DEPOSIT'`. Without a vault row the descriptor of the level is not read. -/
def countToDeposit (facility : Facility) (foundStorage : Option (VillageStorageResourceType C))
    (count : ℤ) : Except ResourcesError ℤ :=
  match findFacilityDescriptorByType facility.facilityType with
  | none => .error .typeError
  | some facilityDescriptor =>
    match foundStorage, facilityDescriptor.level? facility.level with
    | none, _ => .ok count
    | some _, none => .error .typeError
    | some storage, some level =>
      if storage.count ≥ level.maximumStorage then
        .error (.exception ERROR_FACILITY_HAS_MAXIMUM_AMOUNT_OF_RESOURCES)
      else if storage.count + count ≥ level.maximumStorage then
        .ok (level.maximumStorage - storage.count)
      else .ok count

/-- The checks of the vault, with the count that is moved. -/
def countToMove (facility : Facility) (foundStorage : Option (VillageStorageResourceType C))
    (count : ℤ) : TransferType → Except ResourcesError ℤ
  | .withdraw => countToWithdraw foundStorage count
  | .deposit => countToDeposit facility foundStorage count
  | .other _ => .ok count

/-- The vault row of a facility, which is saved with the count 0 if there is none. -/
def openStorage (d : Db C) (facilityId : ℕ) (resourceType : C.Ref) :
    Db C × VillageStorageResourceType C :=
  match storageOf d facilityId with
  | some storage => (d, storage)
  | none =>
    let villagesStorageResourceTypes := d.villagesStorageResourceTypes.insert fun id =>
      { id, facilityId, resourceType, count := 0 }
    ({ d with villagesStorageResourceTypes },
      { id := d.villagesStorageResourceTypes.next, facilityId, resourceType, count := 0 })

/-- `villagesStorageResourceTypesRepository.save` of a row that exists. -/
def saveStorage (d : Db C) (storage : VillageStorageResourceType C) : Db C :=
  { d with villagesStorageResourceTypes :=
      d.villagesStorageResourceTypes.update storage.id fun s => { s with count := storage.count } }

/-- The part of `transferResourcesToStorage` after the checks. -/
def move (d : Db C) (villageId : ℕ) (facility : Facility) (resourceType : C.Ref)
    (resource : TransferableResource) (transferType : TransferType) : Transferred C :=
  let opened := openStorage d facility.id resourceType
  let sentResourcesFormatted := [(resource.type, ⟨resourceType.id, resource.count⟩)]
  let d := opened.1.saveResources villageId sentResourcesFormatted (transferType = .deposit)
  let storage :=
    { opened.2 with
      count :=
        if transferType = .withdraw then opened.2.count - resource.count
        else opened.2.count + resource.count }
  { db := saveStorage d storage, facility, villageStorageResourceType := storage }

def transferResourcesToStorage (d : Db C) (village : Village) (facility : Facility)
    (resource : TransferableResource) (transferType : TransferType) :
    Except ResourcesError (Transferred C) := do
  let resourceType ← orError (C.find? resource.type) ERROR_RESOURCE_NOT_FOUND
  let enough ← villageHasEnoughResources (d.rowsOf village.id)
    [(resource.type, ⟨resourceType.id, resource.count⟩)]
  if !enough then .error (.exception ERROR_VILLAGE_NOT_ENOUGH_RESOURCES) else
    let count ← countToMove facility (storageOf d facility.id) resource.count transferType
    return move d village.id facility resourceType { resource with count } transferType

/-- The handler of `TRANSFER_RESOURCE_TO_VAULT_STORAGE`. -/
def transferResourcesToStorageOwnVillages (d : Db C) (villageId facilityId : ℕ) (req : Request) :
    Except ResourcesError (Transferred C) := do
  let village ← orError (d.villages.get? villageId) ERROR_VILLAGE_NOT_FOUND
  let facility ← orError (d.facilities.get? facilityId) ERROR_FACILITY_NOT_FOUND
  transferResourcesToStorage d village facility req.resource req.transferType

/-- The tables after a request for the village `villageId` and the facility `facilityId`. -/
def step (villageId facilityId : ℕ) (d : Db C) (req : Request) : Db C :=
  match transferResourcesToStorageOwnVillages d villageId facilityId req with
  | .ok transferred => transferred.db
  | .error _ => d

/-! ## What a request has to pass -/

variable {d : Db C} {v f : ℕ} {req : Request} {facility : Facility} {t : C.Ref} {n m : ℤ}
  {storage : Option (VillageStorageResourceType C)}

/-- The count that the checks of the vault let through for a requested count. -/
inductive Allowed (facility : Facility) :
    Option (VillageStorageResourceType C) → TransferType → ℤ → ℤ → Prop
  | withdraw {s : VillageStorageResourceType C} {n : ℤ} : 0 < s.count → n ≤ s.count →
      Allowed facility (some s) .withdraw n n
  | first {b : StorageFacilityBuilding} {n : ℤ} :
      findFacilityDescriptorByType facility.facilityType = some b →
      Allowed facility none .deposit n n
  | deposit {b : StorageFacilityBuilding} {l : StorageLevel} {s : VillageStorageResourceType C}
      {n : ℤ} : findFacilityDescriptorByType facility.facilityType = some b →
      b.level? facility.level = some l → s.count < l.maximumStorage →
      Allowed facility (some s) .deposit n (min n (l.maximumStorage - s.count))
  | other {s : Option (VillageStorageResourceType C)} {k : String} {n : ℤ} :
      Allowed facility s (.other k) n n

/-- Nothing is moved exactly if nothing is requested: a deposit is only trimmed to the room that is
left. -/
theorem Allowed.eq_zero_iff {k : TransferType} (h : Allowed facility storage k n m) : m = 0 ↔ n = 0 := by
  cases h with
  | withdraw => rfl
  | first => rfl
  | deposit => omega
  | other => rfl

theorem countToWithdraw_eq_ok :
    countToWithdraw storage n = .ok m ↔ Allowed facility storage .withdraw n m := by
  constructor
  · intro h
    obtain ⟨s, hs, hcount⟩ := bind_eq_ok.1 h
    obtain rfl := orError_eq_ok.1 hs
    split at hcount
    · cases hcount
    next hn =>
      cases hcount
      exact .withdraw (by omega) (by omega)
  · rintro (⟨hpos, hle⟩ | _)
    exact if_neg (by omega)

theorem countToDeposit_eq_ok :
    countToDeposit facility storage n = .ok m ↔ Allowed facility storage .deposit n m := by
  unfold countToDeposit
  constructor
  · intro h
    split at h
    · cases h
    next b hb =>
      split at h
      · cases h
        exact .first hb
      · cases h
      next s l hl =>
        split at h
        · cases h
        next hlt =>
          have hallowed := Allowed.deposit (n := n) hb hl (not_le.1 hlt)
          split at h
          next hge =>
            cases h
            rwa [min_eq_right (by omega)] at hallowed
          next hge =>
            cases h
            rwa [min_eq_left (by omega)] at hallowed
  · intro h
    cases h with
    | first hb => simp [hb]
    | deposit hb hl hlt =>
      simp only [hb, hl, if_neg (not_le.2 hlt)]
      split
      · rw [min_eq_right (by omega)]
      · rw [min_eq_left (by omega)]

theorem countToMove_eq_ok {k : TransferType} :
    countToMove facility storage n k = .ok m ↔ Allowed facility storage k n m := by
  cases k with
  | withdraw => exact countToWithdraw_eq_ok
  | deposit => exact countToDeposit_eq_ok
  | other k =>
    constructor
    · intro h
      cases h
      exact .other
    · rintro ⟨⟩
      rfl

/-- A request that moves the count `n` of the type `t`. -/
structure Passes (d : Db C) (v f : ℕ) (req : Request) (facility : Facility) (t : C.Ref) (n : ℤ) :
    Prop where
  village_exists : ∃ village, d.villages.get? v = some village
  facility_exists : d.facilities.get? f = some facility
  type_eq : t.type = req.resource.type
  enough : ∃ r, d.rowOf v t = some r ∧ req.resource.count ≤ r.count
  allowed : Allowed facility (storageOf d f) req.transferType req.resource.count n

theorem Passes.facility_id (h : Passes d v f req facility t n) : facility.id = f :=
  (Table.get?_eq_some.1 h.facility_exists).2

/-- What the checks of a request have let through passes. -/
theorem passes_of_checks {village : Village}
    (hv : orError (d.villages.get? v) ERROR_VILLAGE_NOT_FOUND = .ok village)
    (hf : orError (d.facilities.get? f) ERROR_FACILITY_NOT_FOUND = .ok facility)
    (ht : orError (C.find? req.resource.type) ERROR_RESOURCE_NOT_FOUND = .ok t)
    (he : villageHasEnoughResources (d.rowsOf village.id)
      [(req.resource.type, ⟨t.id, req.resource.count⟩)] = .ok true)
    (hn : countToMove facility (storageOf d facility.id) req.resource.count req.transferType =
      .ok n) :
    village.id = v ∧ Passes d v f req facility t n := by
  have hv := orError_eq_ok.1 hv
  have hf := orError_eq_ok.1 hf
  have hvid : village.id = v := (Table.get?_eq_some.1 hv).2
  have hfid : facility.id = f := (Table.get?_eq_some.1 hf).2
  have htype := Catalog.find?_eq_some.1 (orError_eq_ok.1 ht)
  rw [← htype] at he
  refine ⟨hvid, ⟨village, hv⟩, hf, htype, ?_, ?_⟩
  · exact hvid ▸ villageHasEnoughResources_eq_true.1 he
  · exact hfid ▸ countToMove_eq_ok.1 hn

/-- A request goes through if it passes, and moves what the checks let through. -/
theorem transferResourcesToStorageOwnVillages_eq_ok {transferred : Transferred C} :
    transferResourcesToStorageOwnVillages d v f req = .ok transferred ↔
      ∃ facility t n, Passes d v f req facility t n ∧
        transferred = move d v facility t { req.resource with count := n } req.transferType := by
  constructor
  · intro h
    obtain ⟨village, hv, h⟩ := bind_eq_ok.1 h
    obtain ⟨facility, hf, h⟩ := bind_eq_ok.1 h
    obtain ⟨t, ht, h⟩ := bind_eq_ok.1 h
    obtain ⟨enough, he, h⟩ := bind_eq_ok.1 h
    cases enough with
    | false => cases h
    | true =>
      obtain ⟨n, hn, h⟩ := bind_eq_ok.1 h
      obtain ⟨hvid, hpasses⟩ := passes_of_checks hv hf ht he hn
      refine ⟨facility, t, n, hpasses, ?_⟩
      rw [← hvid]
      exact (Except.ok.inj h).symm
  · rintro ⟨facility, t, n, ⟨⟨village, hv⟩, hf, htype, henough, hallowed⟩, rfl⟩
    have hvid : village.id = v := (Table.get?_eq_some.1 hv).2
    have hfid : facility.id = f := (Table.get?_eq_some.1 hf).2
    refine bind_eq_ok.2 ⟨village, orError_eq_ok.2 hv, ?_⟩
    refine bind_eq_ok.2 ⟨facility, orError_eq_ok.2 hf, ?_⟩
    refine bind_eq_ok.2 ⟨t, orError_eq_ok.2 (Catalog.find?_eq_some.2 htype), ?_⟩
    refine bind_eq_ok.2 ⟨true, ?_, ?_⟩
    · rw [← htype, hvid]
      exact villageHasEnoughResources_eq_true.2 henough
    · refine bind_eq_ok.2 ⟨n, hfid ▸ countToMove_eq_ok.2 hallowed, ?_⟩
      rw [hvid]
      rfl

/-! ## What a request changes -/

/-- The resource type of the vault row after a transfer of the type `t`. -/
def vaultType (d : Db C) (facilityId : ℕ) (t : C.Ref) : C.Ref :=
  ((storageOf d facilityId).map VillageStorageResourceType.resourceType).getD t

/-- What is stored in a facility. -/
def storedCount (d : Db C) (facilityId : ℕ) : ℤ :=
  ((storageOf d facilityId).map VillageStorageResourceType.count).getD 0

/-- What a transfer of `n` adds to the vault row. -/
def TransferType.intoVault (k : TransferType) (n : ℤ) : ℤ := if k = .withdraw then -n else n

/-- What a transfer of `n` adds to each row of its type in the village. -/
def TransferType.intoVillage (k : TransferType) (n : ℤ) : ℤ := if k = .deposit then -n else n

@[simp] theorem TransferType.intoVault_deposit : deposit.intoVault n = n := rfl
@[simp] theorem TransferType.intoVault_withdraw : withdraw.intoVault n = -n := rfl
@[simp] theorem TransferType.intoVault_other {s : String} : (other s).intoVault n = n := rfl
@[simp] theorem TransferType.intoVillage_deposit : deposit.intoVillage n = -n := rfl
@[simp] theorem TransferType.intoVillage_withdraw : withdraw.intoVillage n = n := rfl
@[simp] theorem TransferType.intoVillage_other {s : String} : (other s).intoVillage n = n := rfl

section Move

variable {resource : TransferableResource} {k : TransferType}

theorem storedCount_of_some {s : VillageStorageResourceType C} (h : storageOf d f = some s) :
    storedCount d f = s.count := by
  simp [storedCount, h]

theorem storedCount_of_none (h : storageOf d f = none) : storedCount d f = 0 := by
  simp [storedCount, h]

theorem storageOf_saveStorage {s s' : VillageStorageResourceType C} (h : storageOf d f = some s)
    (hid : s'.id = s.id) :
    storageOf (saveStorage d s') f = some { s with count := s'.count } := by
  have hfind := Table.find?_update (t := d.villagesStorageResourceTypes) (k := s'.id)
    (f := fun s => { s with count := s'.count }) (fun _ => rfl)
    (p := fun s => decide (s.facilityId = f)) fun _ => rfl
  rw [show d.villagesStorageResourceTypes.rows.find? _ = some s from h] at hfind
  refine hfind.trans (congrArg some ?_)
  rw [hid]
  exact Table.patch_self _ s

theorem rowsOf_openStorage : (openStorage d f t).1.rowsOf v = d.rowsOf v := by
  unfold openStorage
  split <;> rfl

/-- The row that is opened is the vault row of the facility. -/
theorem storageOf_openStorage : storageOf (openStorage d f t).1 f = some (openStorage d f t).2 := by
  unfold openStorage
  split
  next s hs => exact hs
  next hs =>
    unfold storageOf at *
    simp [Table.insert, List.find?_append, hs]

theorem openStorage_resourceType : (openStorage d f t).2.resourceType = vaultType d f t := by
  unfold openStorage vaultType
  split <;> simp [*]

theorem openStorage_count : (openStorage d f t).2.count = storedCount d f := by
  unfold openStorage storedCount
  split <;> simp [*]

/-- The vault row after a transfer. -/
theorem storageOf_move : ∃ s, storageOf (move d v facility t resource k).db facility.id = some s ∧
    s.resourceType = vaultType d facility.id t ∧
    s.count = storedCount d facility.id + k.intoVault resource.count := by
  refine ⟨_, storageOf_saveStorage storageOf_openStorage rfl, openStorage_resourceType, ?_⟩
  simp only [openStorage_count, TransferType.intoVault]
  split <;> ring

theorem vaultType_move (u : C.Ref) :
    vaultType (move d v facility t resource k).db facility.id u = vaultType d facility.id t := by
  obtain ⟨s, hs, htype, -⟩ := @storageOf_move C d v facility t resource k
  rw [vaultType, hs, ← htype]
  rfl

theorem storedCount_move : storedCount (move d v facility t resource k).db facility.id =
    storedCount d facility.id + k.intoVault resource.count := by
  obtain ⟨s, hs, -, hcount⟩ := @storageOf_move C d v facility t resource k
  rw [storedCount, hs, ← hcount]
  rfl

/-- The rows of the village are those that the move of one resource leaves. -/
theorem rowsOf_move : (move d v facility t resource k).db.rowsOf v =
    (d.saveResources v [(resource.type, ⟨t.id, resource.count⟩)] (k = .deposit)).rowsOf v := by
  show (((openStorage d facility.id t).1.saveResources v _ _).rowsOf v) = _
  unfold Db.saveResources
  rw [Db.rowsOf_setCounts, Db.rowsOf_setCounts, rowsOf_openStorage]

theorem intoVillage_eq_added {sent : SentResource} :
    k.intoVillage sent.count = sent.added (k = .deposit) := by
  simp [TransferType.intoVillage, SentResource.added]

/-- A transfer has no part in the facilities. -/
theorem facilities_move : (move d v facility t resource k).db.facilities = d.facilities := by
  show (openStorage d facility.id t).1.facilities = _
  unfold openStorage
  split <;> rfl

end Move

/-- A request that passes is a move. -/
theorem step_of_passes (h : Passes d v f req facility t n) :
    step v f d req =
      (move d v facility t { req.resource with count := n } req.transferType).db := by
  rw [step, transferResourcesToStorageOwnVillages_eq_ok.2 ⟨facility, t, n, h, rfl⟩]

/-- A request changes nothing, or it passes. -/
theorem step_cases (d : Db C) (v f : ℕ) (req : Request) :
    step v f d req = d ∨ ∃ facility t n, Passes d v f req facility t n := by
  cases h : transferResourcesToStorageOwnVillages d v f req with
  | ok transferred =>
    obtain ⟨facility, t, n, hp, -⟩ := transferResourcesToStorageOwnVillages_eq_ok.1 h
    exact .inr ⟨facility, t, n, hp⟩
  | error e => exact .inl (by rw [step, h])

/-! ## A small vault -/

/-- Village 1 has 1000 food and 20000 mkc, and a storage vault of level 1 without a vault row. -/
def sampleDb : Db sampleCatalog where
  villages :=
    { rows := [⟨1, some 1, 0, 0, 0, 0⟩]
      next := 2
      nodup := by decide
      lt_next := by decide }
  villagesResourceTypes :=
    { rows := [⟨1, some 1, food, 1000⟩, ⟨2, some 1, mkc, 20000⟩]
      next := 3
      nodup := by decide
      lt_next := by decide }
  facilities :=
    { rows := [⟨1, 1, "storage_vault", 1⟩]
      next := 2
      nodup := by decide
      lt_next := by decide }
  villagesStorageResourceTypes := Table.empty
  attacks := Table.empty

def sampleDeposit (count : ℤ) : Request := ⟨.deposit, "mkc", count⟩

def sampleWithdrawal (type : String) (count : ℤ) : Request := ⟨.withdraw, type, count⟩

/-- A request for mkc is about the row of mkc. -/
theorem Passes.eq_mkc {d : Db sampleCatalog} {t : sampleCatalog.Ref}
    (h : Passes d v f req facility t n) (hreq : req.resource.type = "mkc") : t = mkc :=
  Catalog.Ref.eq_of_type (h.type_eq.trans hreq)

end Cme.Storage
