import Mathlib.Data.List.Basic

/-!
# Military resources

The units of the game with their names and characteristics (`militaryResourceTypes.ts`,
`militaryResourcesRules.ts`, `militaryResourcesHelpers.ts`), and the names of the other resources
(`resourceTypes.ts`).
-/

namespace Cme.GameRules

/-- `MILITARY_RESOURCES` -/
inductive MilitaryResource where
  | stoneHunter
  | stoneSlinger
  | stoneSmasher
  | berserker
  | tribalWarrior
  | tribalArcher
  | tribalBrute
  | tribalCharger
  | swordsman
  | archer
  | axLord
  | executioner
  | conscript
  | rifleman
  | heavyGunner
  | armoredCharger
  | modernInfantry
  | sharpshooter
  | blackOps
  | demolitionUnit
  deriving DecidableEq, Repr

/-- The value of the enumeration, which is the `type` of the unit's resource type. -/
def MilitaryResource.name : MilitaryResource → String
  | stoneHunter => "stone_hunter"
  | stoneSlinger => "stone_slinger"
  | stoneSmasher => "stone_smasher"
  | berserker => "berserker"
  | tribalWarrior => "tribal_warrior"
  | tribalArcher => "tribal_archer"
  | tribalBrute => "tribal_brute"
  | tribalCharger => "tribal_charger"
  | swordsman => "swordsman"
  | archer => "archer"
  | axLord => "ax_lord"
  | executioner => "executioner"
  | conscript => "conscript"
  | rifleman => "rifleman"
  | heavyGunner => "heavy_gunner"
  | armoredCharger => "armored_charger"
  | modernInfantry => "modern_infantry"
  | sharpshooter => "sharpshooter"
  | blackOps => "black_ops"
  | demolitionUnit => "demolition_unit"

def militaryResourceList : List MilitaryResource :=
  [.stoneHunter, .stoneSlinger, .stoneSmasher, .berserker, .tribalWarrior, .tribalArcher,
    .tribalBrute, .tribalCharger, .swordsman, .archer, .axLord, .executioner, .conscript, .rifleman,
    .heavyGunner, .armoredCharger, .modernInfantry, .sharpshooter, .blackOps, .demolitionUnit]

/-- `MilitaryResourceUnitCharacteristics` -/
structure Characteristics where
  health : ℕ
  damage : ℕ
  speed : ℕ
  defense : ℕ
  range : ℕ
  pierceDefense : ℕ
  foodUpkeep : ℕ
  deriving DecidableEq, Repr

/-- The characteristics of a descriptor. The deprecated ones are the same for all units. -/
def descriptor (health damage speed defense : ℕ) : Characteristics where
  health := health
  damage := damage
  speed := speed
  defense := defense
  range := 1
  pierceDefense := 2
  foodUpkeep := 1

/-- `relatedUnitDescriptors[unit].characteristics` -/
def relatedUnitDescriptors : MilitaryResource → Characteristics
  | .stoneHunter => descriptor 86 12 6 4
  | .stoneSlinger => descriptor 80 10 12 5
  | .stoneSmasher => descriptor 90 18 4 6
  | .berserker => descriptor 100 20 2 5
  | .tribalWarrior => descriptor 103 14 8 5
  | .tribalArcher => descriptor 96 12 14 4
  | .tribalBrute => descriptor 108 22 6 5
  | .tribalCharger => descriptor 120 24 4 6
  | .swordsman => descriptor 124 17 10 4
  | .archer => descriptor 115 14 16 4
  | .axLord => descriptor 130 26 8 5
  | .executioner => descriptor 144 29 6 6
  | .conscript => descriptor 149 21 12 5
  | .rifleman => descriptor 138 17 18 4
  | .heavyGunner => descriptor 156 31 10 5
  | .armoredCharger => descriptor 173 35 8 5
  | .modernInfantry => descriptor 178 25 14 5
  | .sharpshooter => descriptor 166 21 20 5
  | .blackOps => descriptor 187 37 12 5
  | .demolitionUnit => descriptor 187 37 12 5

/-- The unit with a name. -/
def MilitaryResource.ofName? (name : String) : Option MilitaryResource :=
  militaryResourceList.find? (·.name == name)

/-- `getRelatedCharacteristic`, which is undefined for a name that is not a unit's. -/
def getRelatedCharacteristic (unitTypeName : String) : Option Characteristics :=
  (MilitaryResource.ofName? unitTypeName).map relatedUnitDescriptors

/-- `['food', 'iron', 'wood', 'mkc']` -/
def lootedResources : List String := ["food", "iron", "wood", "mkc"]

/-! ## Names -/

@[simp] theorem MilitaryResource.ofName?_name (u : MilitaryResource) : ofName? u.name = some u := by
  cases u <;> decide

@[simp] theorem MilitaryResource.ofName?_eq_some {name : String} {u : MilitaryResource} :
    ofName? name = some u ↔ u.name = name := by
  constructor
  · intro h
    simpa using List.find?_some h
  · rintro rfl
    exact u.ofName?_name

/-- Units are not looted. -/
theorem MilitaryResource.name_not_mem_lootedResources (u : MilitaryResource) :
    u.name ∉ lootedResources := by
  cases u <;> decide

/-- The names of units have no apostrophe. -/
theorem MilitaryResource.apostrophe_not_mem_name (u : MilitaryResource) :
    '\'' ∉ u.name.toList := by
  cases u <;> decide

theorem relatedUnitDescriptors_speed_pos (u : MilitaryResource) :
    0 < (relatedUnitDescriptors u).speed := by
  cases u <;> decide

end Cme.GameRules
