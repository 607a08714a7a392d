import CmeBackend.GameRules.MilitaryResources

/-!
# The production of units

What the barrack produces at which level, at what price and in what time
(`militaryResourcesRules.ts`).
-/

namespace Cme.GameRules

/-- `MilitaryResourceUnitProductionCosts`, by the names of the resources, in the order of the
properties. -/
abbrev ProductionCosts := List (String × ℕ)

/-- The costs of a descriptor. -/
def costs (food wood iron mkc : ℕ) : ProductionCosts :=
  [("food", food), ("wood", wood), ("iron", iron), ("mkc", mkc)]

/-- `relatedUnitDescriptors[unit].productionCosts` -/
def productionCosts : MilitaryResource → ProductionCosts
  | .stoneHunter => costs 20 0 0 0
  | .stoneSlinger => costs 20 0 0 0
  | .stoneSmasher => costs 30 0 0 0
  | .berserker => costs 35 0 0 0
  | .tribalWarrior => costs 25 25 0 0
  | .tribalArcher => costs 30 30 0 0
  | .tribalBrute => costs 35 35 0 0
  | .tribalCharger => costs 40 40 0 0
  | .swordsman => costs 35 17 17 0
  | .archer => costs 40 20 20 0
  | .axLord => costs 45 22 22 0
  | .executioner => costs 50 25 25 0
  | .conscript => costs 55 0 55 2
  | .rifleman => costs 60 0 60 4
  | .heavyGunner => costs 65 0 65 6
  | .armoredCharger => costs 70 0 70 8
  | .modernInfantry => costs 85 0 85 4
  | .sharpshooter => costs 90 0 90 8
  | .blackOps => costs 95 0 95 12
  | .demolitionUnit => costs 95 0 95 12

/-- `relatedUnitDescriptors[unit].productionTime`, in seconds -/
def productionTime : MilitaryResource → ℕ
  | .stoneHunter => 10
  | .stoneSlinger => 12
  | .stoneSmasher => 15
  | .berserker => 20
  | .tribalWarrior => 20
  | .tribalArcher => 24
  | .tribalBrute => 28
  | .tribalCharger => 32
  | .swordsman => 30
  | .archer => 35
  | .axLord => 40
  | .executioner => 45
  | .conscript => 50
  | .rifleman => 70
  | .heavyGunner => 90
  | .armoredCharger => 110
  | .modernInfantry => 80
  | .sharpshooter => 110
  | .blackOps => 140
  | .demolitionUnit => 140

/-- `BARRACK_LEVELS` -/
def barrackLevels : List (ℕ × MilitaryResource) :=
  [(1, .stoneHunter), (2, .stoneSlinger), (3, .stoneSmasher), (4, .berserker), (5, .tribalWarrior),
    (6, .tribalArcher), (7, .tribalBrute), (8, .tribalCharger), (9, .swordsman), (10, .archer),
    (11, .axLord), (12, .executioner), (13, .conscript), (14, .rifleman), (15, .heavyGunner),
    (16, .armoredCharger), (17, .modernInfantry), (18, .sharpshooter), (19, .blackOps),
    (20, .demolitionUnit)]

def getUnitUntilLevel (level : ℕ) : List MilitaryResource :=
  (barrackLevels.filter (·.1 ≤ level)).map Prod.snd

/-- `MilitaryBuildingTier` -/
structure MilitaryBuildingTier where
  tier : ℕ
  availableMilitaryResources : List MilitaryResource

def formatAllLevelsForBarrackDescriptor (maxTier : ℕ) : List MilitaryBuildingTier :=
  (List.range maxTier).map fun i => ⟨i + 1, getUnitUntilLevel (i + 1)⟩

/-- `MilitaryBuildingUnit` -/
structure MilitaryBuildingUnit where
  name : String
  maxTier : ℕ
  tiers : List MilitaryBuildingTier

def barrackDescriptor : MilitaryBuildingUnit where
  name := "barrack"
  maxTier := 20
  tiers := formatAllLevelsForBarrackDescriptor 20

/-- Units are paid with the resources that can be looted. -/
theorem productionCosts_looted (unit : MilitaryResource) :
    ∀ cost ∈ productionCosts unit, cost.1 ∈ lootedResources := by
  cases unit <;> decide

/-- A unit has one cost for each resource. -/
theorem nodup_productionCosts (unit : MilitaryResource) :
    ((productionCosts unit).map Prod.fst).Nodup := by
  cases unit <;> decide

end Cme.GameRules
