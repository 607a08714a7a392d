import CmeBackend.GameRules.Facilities
import CmeBackend.GameRules.Production
import CmeBackend.Lib.Table
import Mathlib.Algebra.Field.Rat

/-!
# The prices of facilities

What a facility costs at which level (`facilityPrices.ts`, `facilityPricesUtils.ts`,
`facilityDescriptors.ts`), and which facilities have a next level (`resourcesHelpers.ts`,
`facilityRules.ts`).

The storage vault has prices of its own for each of its levels, and none for level 0.
-/

namespace Cme.GameRules

/-- `facilityTypePrices`, by the names of the resources. -/
abbrev FacilityTypePrices := List (String × ℕ)

/-- `FacilityTypeResPrice` -/
structure FacilityTypeResPrice where
  resourcesType : String
  amount : ℚ

/-! ## The tables -/

def croplandPrices : FacilityTypePrices := [("iron", 50), ("wood", 50)]

def ironMinePrices : FacilityTypePrices := [("food", 50)]

def sawmillPrices : FacilityTypePrices := [("food", 50), ("iron", 50), ("wood", 50)]

def barrackPrices : FacilityTypePrices := [("food", 50), ("iron", 160), ("wood", 100)]

def mkcMinePrices : FacilityTypePrices := [("food", 250), ("iron", 40), ("wood", 170)]

/-- `facilityTypePricesDescriptors`. The entry of the storage vault has no prices, and is not read. -/
def facilityTypePricesDescriptors : List (String × FacilityTypePrices) :=
  [(FacilityType.cropland.name, croplandPrices), (FacilityType.ironMine.name, ironMinePrices),
    (FacilityType.sawmill.name, sawmillPrices), (FacilityType.barrack.name, barrackPrices),
    (FacilityType.monkeyCoinMine.name, mkcMinePrices)]

/-- The prices of a level of the storage vault from the second on. -/
def vaultPrices (wood iron mkc : ℕ) : FacilityTypePrices :=
  [("wood", wood), ("iron", iron), ("mkc", mkc)]

/-- `storageVault.levels[level].facilityTypePrices` -/
def storageVaultPrices : List (ℤ × FacilityTypePrices) :=
  [(1, [("wood", 50), ("iron", 25)]), (2, vaultPrices 80 40 10), (3, vaultPrices 100 60 20),
    (4, vaultPrices 150 90 30), (5, vaultPrices 230 140 50), (6, vaultPrices 350 210 80),
    (7, vaultPrices 530 320 120), (8, vaultPrices 800 500 200), (9, vaultPrices 1200 750 300),
    (10, vaultPrices 1800 1130 450), (11, vaultPrices 2700 1700 700),
    (12, vaultPrices 4100 2600 1100), (13, vaultPrices 6200 3900 1700),
    (14, vaultPrices 9300 5900 2600), (15, vaultPrices 14000 8900 3900),
    (16, vaultPrices 21000 13000 6000), (17, vaultPrices 31500 20000 9000),
    (18, vaultPrices 47000 30000 14000), (19, vaultPrices 71000 45000 21000),
    (20, vaultPrices 107000 70000 30000)]

/-! ## The rules -/

def computeResCost (baseCost levelRequested : ℚ) : ℚ :=
  baseCost + baseCost * (250 * levelRequested) / 100

/-- `baseCosts` -/
def baseCosts (facilityType : String) (levelRequested : ℤ) : Option FacilityTypePrices :=
  match findFacilityDescriptorByType facilityType with
  | some _ => storageVaultPrices.lookup levelRequested
  | none => facilityTypePricesDescriptors.lookup facilityType

def computeBuildingCost (facilityType : String) (levelRequested : ℤ) : List FacilityTypeResPrice :=
  ((baseCosts facilityType levelRequested).getD []).map fun ftp =>
    ⟨ftp.1, computeResCost ftp.2 levelRequested⟩

/-- `BUILDINGS` -/
def buildings : List String :=
  [FacilityType.cropland.name, FacilityType.sawmill.name, FacilityType.ironMine.name,
    FacilityType.monkeyCoinMine.name]

/-- `typesOfBuildings` -/
inductive TypeOfBuilding where
  | building
  | militaryBuilding
  | levelableBuilding
  deriving DecidableEq

def findBuildingType (type : String) : TypeOfBuilding :=
  if (findFacilityDescriptorByType type).isSome then .levelableBuilding
  else if type ∈ buildings then .building
  else .militaryBuilding

/-- `relatedMilitaryBuildingDescriptors[type]` -/
def relatedMilitaryBuildingDescriptors (type : String) : Option MilitaryBuildingUnit :=
  if type = barrackDescriptor.name then some barrackDescriptor else none

/-- `checkIfFacilityNextLevel`. The descriptor of the type is undefined: `none`. -/
def checkIfFacilityNextLevel (type : String) (actualTier : ℤ) : Option Bool :=
  match findFacilityDescriptorByType type with
  | some descriptor =>
    some (((descriptor.levels.getLast?.map Prod.fst).getD 0) > actualTier)
  | none => (relatedMilitaryBuildingDescriptors type).map fun unit => unit.maxTier > actualTier

/-- `hasMaximumFacilityTypeForVillage`, for the types of the facilities of a village. The relation
is not loaded and is read: `none`. -/
def hasMaximumFacilityTypeForVillage (facilityType : String) (facilities : Option (List String)) :
    Option Bool :=
  match findFacilityDescriptorByType facilityType with
  | some facilityRule => facilities.map fun types =>
      (types.filter (· = facilityType)).length ≥ facilityRule.maximumPerVillage
  | none => some false

/-! ## What a facility costs -/

/-- No price list names a resource twice. -/
theorem nodup_baseCosts {facilityType : String} {level : ℤ} {prices : FacilityTypePrices}
    (h : baseCosts facilityType level = some prices) : (prices.map Prod.fst).Nodup := by
  have hvault : ∀ l ∈ storageVaultPrices, (l.2.map Prod.fst).Nodup := by decide
  have hothers : ∀ p ∈ facilityTypePricesDescriptors, (p.2.map Prod.fst).Nodup := by decide
  unfold baseCosts at h
  split at h
  · exact hvault _ (mem_of_lookup h)
  · exact hothers _ (mem_of_lookup h)

/-- A building has one cost for each resource. -/
theorem nodup_computeBuildingCost (facilityType : String) (level : ℤ) :
    ((computeBuildingCost facilityType level).map FacilityTypeResPrice.resourcesType).Nodup := by
  unfold computeBuildingCost
  rw [List.map_map]
  cases h : baseCosts facilityType level with
  | none => exact List.nodup_nil
  | some prices => exact nodup_baseCosts h

end Cme.GameRules
