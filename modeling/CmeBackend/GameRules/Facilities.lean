import Mathlib.Data.Int.Notation
import Mathlib.Data.Nat.Notation

/-!
# Facilities

The facilities of the game that have a descriptor (`facilityTypes.ts`, `facilityDescriptors.ts`,
`facilityRules.ts`). The only one is the storage vault, and of its levels the game services read the
capacity.
-/

namespace Cme.GameRules

/-- `ALL_FACILITIES` -/
inductive FacilityType where
  | cropland
  | sawmill
  | ironMine
  | monkeyCoinMine
  | barrack
  | storageVault
  deriving DecidableEq, Repr

/-- The value of the enumeration, which is the `type` of the row of `facility_types`. -/
def FacilityType.name : FacilityType → String
  | cropland => "cropland"
  | sawmill => "sawmill"
  | ironMine => "iron_mine"
  | monkeyCoinMine => "mkc_mine"
  | barrack => "barrack"
  | storageVault => "storage_vault"

/-- `StorageLevel` -/
structure StorageLevel where
  maximumStorage : ℤ
  deriving DecidableEq, Repr

/-- `StorageFacilityBuilding` -/
structure StorageFacilityBuilding where
  levels : List (ℤ × StorageLevel)
  facilityType : FacilityType
  resourceType : String
  maximumPerVillage : ℕ

def storageVault : StorageFacilityBuilding where
  levels :=
    [(1, ⟨10000⟩), (2, ⟨11000⟩), (3, ⟨13000⟩), (4, ⟨16000⟩), (5, ⟨20000⟩), (6, ⟨25000⟩),
      (7, ⟨31000⟩), (8, ⟨38000⟩), (9, ⟨46000⟩), (10, ⟨55000⟩), (11, ⟨65000⟩), (12, ⟨76000⟩),
      (13, ⟨88000⟩), (14, ⟨101000⟩), (15, ⟨115000⟩), (16, ⟨130000⟩), (17, ⟨146000⟩),
      (18, ⟨163000⟩), (19, ⟨181000⟩), (20, ⟨200000⟩)]
  facilityType := .storageVault
  resourceType := "mkc"
  maximumPerVillage := 6

def facilityDescriptors : List StorageFacilityBuilding := [storageVault]

def findFacilityDescriptorByType (type : String) : Option StorageFacilityBuilding :=
  facilityDescriptors.find? (·.facilityType.name = type)

/-- `levels[level]`, which is undefined for a level that the descriptor does not have. -/
def StorageFacilityBuilding.level? (b : StorageFacilityBuilding) (level : ℤ) :
    Option StorageLevel :=
  b.levels.lookup level

/-! ## Descriptors -/

theorem findFacilityDescriptorByType_eq_some {type : String} {b : StorageFacilityBuilding} :
    findFacilityDescriptorByType type = some b ↔
      b ∈ facilityDescriptors ∧ b.facilityType.name = type := by
  unfold findFacilityDescriptorByType facilityDescriptors
  by_cases h : storageVault.facilityType.name = type
  · simp only [List.find?_cons, decide_eq_true h, Option.some.injEq, List.mem_singleton]
    exact ⟨fun hb => ⟨hb.symm, hb ▸ h⟩, fun hb => hb.1.symm⟩
  · simp only [List.find?_cons, decide_eq_false h, List.find?_nil, List.mem_singleton]
    refine iff_of_false (fun hb => by cases hb) ?_
    rintro ⟨rfl, htype⟩
    exact h htype

/-- The types with a descriptor. -/
theorem eq_of_descriptor {type : String} {b : StorageFacilityBuilding}
    (h : findFacilityDescriptorByType type = some b) : type = "storage_vault" ∧ b = storageVault := by
  obtain ⟨hb, rfl⟩ := findFacilityDescriptorByType_eq_some.1 h
  obtain rfl := List.mem_singleton.1 hb
  exact ⟨rfl, rfl⟩

/-! ## Capacities -/

/-- Every level of every descriptor has room. -/
theorem maximumStorage_pos {b : StorageFacilityBuilding} (hb : b ∈ facilityDescriptors) :
    ∀ l ∈ b.levels, 0 < l.2.maximumStorage := by
  obtain rfl := List.mem_singleton.1 hb
  decide

end Cme.GameRules
