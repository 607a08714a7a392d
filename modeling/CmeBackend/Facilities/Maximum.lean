import CmeBackend.Facilities.Building
import CmeBackend.Lib.Caps
import CmeBackend.Lib.Runs

/-!
# The maximum of a facility type in a village

`ResourcesMsFacilitiesService.create` (`resources-ms-facilities.service.ts`) by requests that run at
the same time, with villages that are loaded with their facilities (`checkCreateLoaded`). The check
for the maximum counts the facilities that are loaded, the transaction comes later. It is refused if
the location is taken (`UNIQUE (village_id, location)`).

* `withinMaximum_iff`: no village has too many facilities of a type exactly if every transaction
  still passes the check of its request.
-/

namespace Cme.Facilities.Maximum

open GameRules Runs Caps

variable {C : Catalog}

/-! ## The code -/

/-- The types of the facilities of a village. -/
def facilitiesOf (d : GameDb C) (villageId : ℕ) : List String :=
  (d.facilities.rows.filter (·.villageId = villageId)).map Facility.facilityType

/-- The checks, with the facilities of the village. -/
def checkCreateLoaded (facilityTypes : List (ℕ × String)) (d : GameDb C)
    (facility : CreateFacility) (userId : ℕ) : Except ResourcesError (CheckedCreate C) :=
  checkCreateWith (fun villageId => some (facilitiesOf d villageId)) facilityTypes d facility userId

/-! ## Requests -/

/-- A request that has passed its checks, before its transaction. -/
structure Pending (C : Catalog) where
  checked : CheckedCreate C
  location : ℤ

structure State (C : Catalog) where
  db : GameDb C
  /-- The locations that are taken, by the village. -/
  locations : List (ℕ × ℤ)
  /-- `none`: the request has ended. -/
  requests : List (Option (Pending C))

inductive Action (C : Catalog) where
  | create (facility : CreateFacility) (location : ℤ) (userId : ℕ)
  | commit (k : ℕ)
  | rollback (k : ℕ)
  /-- Other operations write counts. -/
  | counts (count : VillageResourceType C → ℤ)

/-- No request has come yet. -/
def start (db : GameDb C) (locations : List (ℕ × ℤ)) : State C := ⟨db, locations, []⟩

/-- The request whose transaction an action commits. -/
def committing (s : State C) : Action C → Option (Pending C)
  | .commit k =>
    match s.requests[k]? with
    | some (some p) =>
      if (p.checked.village.village.id, p.location) ∈ s.locations then none else some p
    | _ => none
  | _ => none

def State.close (s : State C) (k : ℕ) : State C := { s with requests := s.requests.set k none }

/-- The transaction of a request. -/
def State.insert (s : State C) (p : Pending C) : State C :=
  { s with
    db := Facilities.create s.db p.checked
    locations := (p.checked.village.village.id, p.location) :: s.locations }

def step (facilityTypes : List (ℕ × String)) (s : State C) : Action C → State C
  | .create facility location userId =>
    match checkCreateLoaded facilityTypes s.db facility userId with
    | .ok checked => { s with requests := s.requests ++ [some ⟨checked, location⟩] }
    | .error _ => s
  | .commit k =>
    match committing s (.commit k) with
    | some p => (s.insert p).close k
    | none => s.close k
  | .rollback k => s.close k
  | .counts count => { s with db := { s.db with toDb := s.db.toDb.setCounts count } }

/-! ## The maximum -/

/-- No village has more facilities of a type than its descriptor allows. -/
def WithinMaximum (d : GameDb C) : Prop :=
  ∀ villageId type b, findFacilityDescriptorByType type = some b →
    ((facilitiesOf d villageId).filter (· = type)).length ≤ b.maximumPerVillage

/-- The check for the maximum, repeated when the facility is inserted. -/
def HasRoom (s : State C) (a : Action C) : Prop :=
  ∀ p ∈ committing s a, hasMaximumFacilityTypeForVillage p.checked.populatedType
    (some (facilitiesOf s.db p.checked.village.village.id)) = some false

instance (s : State C) (a : Action C) : Decidable (HasRoom s a) :=
  inferInstanceAs (Decidable (∀ p ∈ committing s a, _))

/-- The facilities that count for a descriptor in a village. -/
def counted (i : ℕ × { b // b ∈ facilityDescriptors }) (f : Facility) : Bool :=
  f.villageId = i.1 ∧ f.facilityType = i.2.val.facilityType.name

theorem length_facilitiesOf (d : GameDb C) (villageId : ℕ) (type : String) :
    ((facilitiesOf d villageId).filter (· = type)).length =
      d.facilities.rows.countP fun f => f.villageId = villageId ∧ f.facilityType = type := by
  unfold facilitiesOf
  rw [List.filter_map, List.length_map, List.filter_filter, List.countP_eq_length_filter]
  congr 2
  funext f
  simp [Bool.and_comm]

/-- The maximum as a cap. -/
theorem withinMaximum_iff_capped (d : GameDb C) :
    WithinMaximum d ↔
      Capped (fun i => i.2.val.maximumPerVillage) counted d.facilities.rows := by
  unfold WithinMaximum Capped
  constructor
  · rintro h ⟨villageId, b, hb⟩
    have hle := h villageId b.facilityType.name b
      (findFacilityDescriptorByType_eq_some.2 ⟨hb, rfl⟩)
    rw [length_facilitiesOf] at hle
    exact hle
  · intro h villageId type b hfind
    obtain ⟨hb, rfl⟩ := findFacilityDescriptorByType_eq_some.1 hfind
    rw [length_facilitiesOf]
    exact h (villageId, ⟨b, hb⟩)

/-- A facility fits into its village exactly if it passes the check. -/
theorem withinMaximum_create_iff {d : GameDb C} (h : WithinMaximum d) (c : CheckedCreate C) :
    WithinMaximum (Facilities.create d c) ↔ hasMaximumFacilityTypeForVillage c.populatedType
      (some (facilitiesOf d c.village.village.id)) = some false := by
  have hrows : (Facilities.create d c).facilities.rows = d.facilities.rows ++
      [⟨d.facilities.next, 1, c.populatedType, c.village.village.id⟩] := by
    unfold Facilities.create
    simp only [Table.insert, facilities_pay]
  have hroom : (∀ i : ℕ × { b // b ∈ facilityDescriptors },
      counted i ⟨d.facilities.next, 1, c.populatedType, c.village.village.id⟩ →
        d.facilities.rows.countP (counted i) < i.2.val.maximumPerVillage) ↔
      ∀ b, findFacilityDescriptorByType c.populatedType = some b →
        ((facilitiesOf d c.village.village.id).filter (· = c.populatedType)).length <
          b.maximumPerVillage := by
    rw [length_facilitiesOf]
    constructor
    · intro hall b hfind
      obtain ⟨hb, hname⟩ := findFacilityDescriptorByType_eq_some.1 hfind
      have hlt := hall (c.village.village.id, ⟨b, hb⟩) (by simp [counted, hname])
      unfold counted at hlt
      simpa only [hname] using hlt
    · rintro hall ⟨villageId, b, hb⟩ hcounted
      obtain ⟨rfl, hname⟩ := of_decide_eq_true hcounted
      have hlt := hall b (findFacilityDescriptorByType_eq_some.2 ⟨hb, hname.symm⟩)
      unfold counted
      simpa only [← hname] using hlt
  rw [withinMaximum_iff_capped, hrows, capped_concat_iff ((withinMaximum_iff_capped d).1 h), hroom]
  unfold hasMaximumFacilityTypeForVillage
  cases hfind : findFacilityDescriptorByType c.populatedType with
  | none => simp
  | some b => simp

/-! ## Runs -/

variable {facilityTypes : List (ℕ × String)} {s : State C}

/-- A step changes the facilities by the transaction that it commits. -/
theorem step_facilities (facilityTypes : List (ℕ × String)) (s : State C) (a : Action C) :
    (step facilityTypes s a).db.facilities = match committing s a with
      | some p => (Facilities.create s.db p.checked).facilities
      | none => s.db.facilities := by
  cases a with
  | create facility location userId =>
    simp only [step]
    cases checkCreateLoaded facilityTypes s.db facility userId <;> rfl
  | commit k =>
    simp only [step]
    cases committing s (.commit k) <;> rfl
  | rollback k => rfl
  | counts count => rfl

/-- Only the facilities of a table count. -/
theorem withinMaximum_congr {d d' : GameDb C} (h : d'.facilities = d.facilities) :
    WithinMaximum d' ↔ WithinMaximum d := by
  unfold WithinMaximum facilitiesOf
  rw [h]

theorem withinMaximum_step_iff (h : WithinMaximum s.db) (a : Action C) :
    WithinMaximum (step facilityTypes s a).db ↔ HasRoom s a := by
  have hfacilities := step_facilities facilityTypes s a
  unfold HasRoom
  cases hcommit : committing s a with
  | none =>
    rw [hcommit] at hfacilities
    exact iff_of_true ((withinMaximum_congr hfacilities).2 h) fun p hp => by cases hp
  | some p =>
    rw [hcommit] at hfacilities
    rw [withinMaximum_congr hfacilities, withinMaximum_create_iff h]
    exact ⟨fun hroom q hq => by cases hq; exact hroom, fun hall => hall p rfl⟩

/-- No village ever has too many facilities of a type exactly if every facility of the run still
passes the check of its request when it is inserted. -/
theorem withinMaximum_iff {d : GameDb C} (h : WithinMaximum d) (locations : List (ℕ × ℤ))
    (as : List (Action C)) :
    (∀ bs, bs <+: as → WithinMaximum (bs.foldl (step facilityTypes) (start d locations)).db) ↔
      Meets (step facilityTypes) HasRoom (start d locations) as :=
  holds_iff_meets (I := fun _ => True) (P := fun s : State C => WithinMaximum s.db) trivial
    (fun _ _ _ => trivial) h (fun _ a _ hs => withinMaximum_step_iff hs a) as

/-! ## Two vaults at once -/

/-- A village with five storage vaults. -/
def sampleVaults : GameDb sampleCatalog where
  villages :=
    { rows := [⟨1, some 1, 6, 2, 0, 0⟩]
      next := 2
      nodup := by decide
      lt_next := by decide }
  villagesResourceTypes := Table.empty
  facilities :=
    { rows := [⟨1, 1, "storage_vault", 1⟩, ⟨2, 1, "storage_vault", 1⟩, ⟨3, 1, "storage_vault", 1⟩,
        ⟨4, 1, "storage_vault", 1⟩, ⟨5, 1, "storage_vault", 1⟩]
      next := 6
      nodup := by decide
      lt_next := by decide }
  villagesStorageResourceTypes := Table.empty
  attacks := Table.empty
  orders := Table.empty
  production := fun _ => .none

/-- The facility types of the village, of which the vault has the id 6. -/
def sampleTypes : List (ℕ × String) := [(6, "storage_vault")]

/-- The state after a list of actions. -/
def after (as : List (Action sampleCatalog)) : State sampleCatalog :=
  as.foldl (step sampleTypes) (start sampleVaults [(1, 1), (1, 2), (1, 3), (1, 4), (1, 5)])

/-- A request for a vault. -/
def sampleVault (location : ℤ) : Action sampleCatalog := .create ⟨6, 1⟩ location 1

/-- Two requests, one after the other. -/
def sampleInTurn : List (Action sampleCatalog) :=
  [sampleVault 10, .commit 0, sampleVault 11, .commit 1]

/-- Two requests that count the vaults before one of them is inserted. -/
def sampleAtOnce : List (Action sampleCatalog) :=
  [sampleVault 10, sampleVault 11, .commit 0, .commit 1]

/-- How many vaults the village has. -/
def vaults (s : State sampleCatalog) : ℕ :=
  ((facilitiesOf s.db 1).filter (· = "storage_vault")).length

theorem sampleVaults_within : WithinMaximum sampleVaults := by
  rw [withinMaximum_iff_capped]
  rintro ⟨villageId, b, hb⟩
  obtain rfl := List.mem_singleton.1 hb
  have hlength : sampleVaults.facilities.rows.length ≤ storageVault.maximumPerVillage := by decide
  exact Nat.le_trans List.countP_le_length hlength

/-- One after the other, the second request is refused. -/
theorem withinMaximum_iff_sample :
    vaults (after sampleInTurn) = 6 ∧
      ∀ bs, bs <+: sampleInTurn → WithinMaximum (after bs).db :=
  ⟨by decide +kernel, (withinMaximum_iff sampleVaults_within _ _).2 (by decide +kernel)⟩

/-- At once, the village has seven vaults, one more than allowed. -/
theorem maximum_exceeded :
    vaults (after sampleAtOnce) = 7 ∧ ¬WithinMaximum (after sampleAtOnce).db := by
  refine ⟨by decide +kernel, fun h => ?_⟩
  have hle : vaults (after sampleAtOnce) ≤ 6 := h 1 "storage_vault" storageVault rfl
  exact absurd hle (by decide +kernel)

end Cme.Facilities.Maximum
