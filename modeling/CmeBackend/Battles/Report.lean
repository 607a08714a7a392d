import CmeBackend.Villages.Entities

/-!
# The report of a battle

`attackReport.ts`: the points of both teams, the ratio of the casualties, and the report. The units
of a team are a map from type names to JSON values. Those of the attacker came with the request, so
their counts are converted as the operators do; `none` is a conversion that throws.

The report copies every property of every unit twice, once into the units and once into the
casualties.
-/

namespace Cme.Battles

open Js GameRules

variable {C : Catalog}

inductive StakeholderStatus where
  | attacker
  | defender
  deriving DecidableEq

/-- An element of `unitsInfo`: a unit of the catalog with its characteristics. -/
structure UnitInfo where
  unitTypeId : ℕ
  unitTypeName : String
  characteristics : Characteristics

/-- What `onModuleInit` reads. -/
def unitsInfo (C : Catalog) : List UnitInfo :=
  C.types.rows.filterMap fun t =>
    (getRelatedCharacteristic t.type).map fun characteristics => ⟨t.id, t.type, characteristics⟩

/-- The points of one unit: damage in attack, both defenses in defense. -/
def UnitInfo.points (info : UnitInfo) : StakeholderStatus → ℕ
  | .attacker => info.characteristics.damage
  | .defender => info.characteristics.defense + info.characteristics.pierceDefense

/-- `unit.count`, as a number -/
def unitCount? (unit : Json) : Option Number := do
  Json.toNumber? (← unit.property? "count")

def computePointsForTeam (stakeholderUnitsInfoByType : Fields) (status : StakeholderStatus) :
    List UnitInfo → Option Number
  | [] => some (.fin 0)
  | info :: rest => do
    let points ← match stakeholderUnitsInfoByType.lookup info.unitTypeName with
      | none => some (.fin 0)
      | some unit => (unitCount? unit).map fun count => count.mul (.fin (info.points status))
    return points.add (← computePointsForTeam stakeholderUnitsInfoByType status rest)

/-- The casualties of one unit. -/
def casualtiesOf (casualtiesRatio : Number) (unitsInfo : Json) : Option Json := do
  let unitCount ← unitCount? unitsInfo
  let count := (unitCount.mul casualtiesRatio).round
  return if count.le unitCount then unitsInfo.set "count" (.num count) else unitsInfo

def computeCasualtiesForTeam (stakeholderUnitsInfoByType : Fields) (casualtiesRatio : Number) :
    Option Fields :=
  stakeholderUnitsInfoByType.mapValues? (casualtiesOf casualtiesRatio)

structure AttackReport where
  attackId : ℕ
  travelTime : Number
  attackerVillageId : ℕ
  defenderVillageId : ℕ
  attackerWon : Bool
  /-- `unitsInfoByType[attackerVillageId]` -/
  attackerUnits : Fields
  /-- `unitsInfoByType[defenderVillageId]` -/
  defenderUnits : Fields
  /-- `casualties[attackerVillageId].casualtiesInfoByUnitTypeId` -/
  attackerCasualties : Fields
  /-- `casualties[defenderVillageId].casualtiesInfoByUnitTypeId` -/
  defenderCasualties : Fields

namespace AttackReport

variable (report : AttackReport)

def winnerVillageId : ℕ :=
  if report.attackerWon then report.attackerVillageId else report.defenderVillageId

def loserVillageId : ℕ :=
  if report.attackerWon then report.defenderVillageId else report.attackerVillageId

/-- `{ [attackerVillageId]: attacker, [defenderVillageId]: defender }`: keys that are integers are
enumerated in ascending order. -/
def byVillage (attacker defender : Json) : Json :=
  let a := (toString report.attackerVillageId, attacker)
  let d := (toString report.defenderVillageId, defender)
  if report.attackerVillageId < report.defenderVillageId then .obj [a, d]
  else if report.defenderVillageId < report.attackerVillageId then .obj [d, a]
  else .obj [d]

/-- `{ unitsInfoByType, casualties }` -/
def json : Json :=
  .obj [("unitsInfoByType", report.byVillage (.obj report.attackerUnits) (.obj report.defenderUnits)),
    ("casualties", report.byVillage
      (.obj [("casualtiesInfoByUnitTypeId", .obj report.attackerCasualties)])
      (.obj [("casualtiesInfoByUnitTypeId", .obj report.defenderCasualties)]))]

end AttackReport

/-- The ratios of the casualties of the attacker and of the defender. -/
def casualtiesRatios (M : Math) (attackerPoints defenderPoints : Number) : Number × Number :=
  let attackerWon := defenderPoints.lt attackerPoints
  if attackerPoints.strictEq defenderPoints then (.fin 1, .fin 1)
  else if attackerWon then (M.pow32 (defenderPoints.div attackerPoints), .fin 1)
  else (.fin 1, M.pow32 (attackerPoints.div defenderPoints))

def generateAttackReport (M : Math) (attackId : ℕ) (travelTime : Number) (attackerVillageId : ℕ)
    (attackerUnitsInfoByType : Fields) (defenderVillageId : ℕ) (defenderUnitsInfoByType : Fields)
    (unitsInfo : List UnitInfo) : Option AttackReport := do
  let attackerPoints ← computePointsForTeam attackerUnitsInfoByType .attacker unitsInfo
  let defenderPoints ← computePointsForTeam defenderUnitsInfoByType .defender unitsInfo
  let ratios := casualtiesRatios M attackerPoints defenderPoints
  let attackerCasualties ← computeCasualtiesForTeam attackerUnitsInfoByType ratios.1
  let defenderCasualties ← computeCasualtiesForTeam defenderUnitsInfoByType ratios.2
  return {
    attackId
    travelTime
    attackerVillageId
    defenderVillageId
    attackerWon := defenderPoints.lt attackerPoints
    attackerUnits := attackerUnitsInfoByType
    defenderUnits := defenderUnitsInfoByType
    attackerCasualties
    defenderCasualties }

/-- The casualties of a unit are the unit with another count, or the unit itself. -/
theorem casualtiesOf_eq_some {ratio : Number} {unit c : Json} (h : casualtiesOf ratio unit = some c) :
    ∃ n, unitCount? unit = some n ∧
      c = if (n.mul ratio).round.le n then unit.set "count" (.num (n.mul ratio).round) else unit := by
  obtain ⟨n, hn, h⟩ := Option.bind_eq_some_iff.1 h
  exact ⟨n, hn, (Option.some.inj h).symm⟩

/-! ## Reports are made -/

theorem isSome_computePointsForTeam {units : Fields} {status : StakeholderStatus}
    (hunits : ∀ u ∈ units, (unitCount? u.2).isSome) (infos : List UnitInfo) :
    (computePointsForTeam units status infos).isSome := by
  induction infos with
  | nil => rfl
  | cons info rest ih =>
    obtain ⟨points, hpoints⟩ := Option.isSome_iff_exists.1 ih
    unfold computePointsForTeam
    rw [hpoints]
    cases hl : units.lookup info.unitTypeName with
    | none => rfl
    | some unit =>
      obtain ⟨count, hcount⟩ := Option.isSome_iff_exists.1 (hunits _ (mem_of_lookup hl))
      simp only [hcount]
      rfl

theorem isSome_computeCasualtiesForTeam {units : Fields} {ratio : Number}
    (hunits : ∀ u ∈ units, (unitCount? u.2).isSome) :
    (computeCasualtiesForTeam units ratio).isSome := by
  refine Fields.isSome_mapValues? fun u hu => ?_
  obtain ⟨count, hcount⟩ := Option.isSome_iff_exists.1 (hunits u hu)
  simp only [casualtiesOf, hcount]
  rfl

/-- Two teams whose counts convert have a report. -/
theorem exists_generateAttackReport {M : Math} {attackerUnits defenderUnits : Fields}
    (attackId : ℕ) (travelTime : Number) (attackerVillageId defenderVillageId : ℕ)
    (infos : List UnitInfo) (hattacker : ∀ u ∈ attackerUnits, (unitCount? u.2).isSome)
    (hdefender : ∀ u ∈ defenderUnits, (unitCount? u.2).isSome) :
    ∃ report, generateAttackReport M attackId travelTime attackerVillageId attackerUnits
      defenderVillageId defenderUnits infos = some report := by
  obtain ⟨a, ha⟩ := Option.isSome_iff_exists.1 (isSome_computePointsForTeam hattacker infos)
  obtain ⟨b, hb⟩ := Option.isSome_iff_exists.1 (isSome_computePointsForTeam hdefender infos)
  obtain ⟨as, has⟩ := Option.isSome_iff_exists.1 (isSome_computeCasualtiesForTeam hattacker)
  obtain ⟨bs, hbs⟩ := Option.isSome_iff_exists.1 (isSome_computeCasualtiesForTeam hdefender)
  exact ⟨_, Option.bind_eq_some_iff.2 ⟨a, ha, Option.bind_eq_some_iff.2 ⟨b, hb,
    Option.bind_eq_some_iff.2 ⟨as, has, Option.bind_eq_some_iff.2 ⟨bs, hbs, rfl⟩⟩⟩⟩⟩

/-- A report is about its two teams, and its casualties are computed from their points. -/
theorem generateAttackReport_eq_some {M : Math} {attackId attackerVillageId defenderVillageId : ℕ}
    {travelTime : Number} {attackerUnits defenderUnits : Fields} {infos : List UnitInfo}
    {report : AttackReport}
    (h : generateAttackReport M attackId travelTime attackerVillageId attackerUnits
      defenderVillageId defenderUnits infos = some report) :
    report.attackId = attackId ∧ report.travelTime = travelTime ∧
      report.attackerVillageId = attackerVillageId ∧ report.defenderVillageId = defenderVillageId ∧
      report.attackerUnits = attackerUnits ∧ report.defenderUnits = defenderUnits ∧
      ∃ a b, computePointsForTeam attackerUnits .attacker infos = some a ∧
        computePointsForTeam defenderUnits .defender infos = some b ∧
        computeCasualtiesForTeam attackerUnits (casualtiesRatios M a b).1 =
          some report.attackerCasualties ∧
        computeCasualtiesForTeam defenderUnits (casualtiesRatios M a b).2 =
          some report.defenderCasualties ∧ report.attackerWon = b.lt a := by
  obtain ⟨a, ha, h⟩ := Option.bind_eq_some_iff.1 h
  obtain ⟨b, hb, h⟩ := Option.bind_eq_some_iff.1 h
  obtain ⟨as, has, h⟩ := Option.bind_eq_some_iff.1 h
  obtain ⟨bs, hbs, h⟩ := Option.bind_eq_some_iff.1 h
  cases h
  exact ⟨rfl, rfl, rfl, rfl, rfl, rfl, a, b, ha, hb, has, hbs, rfl⟩

end Cme.Battles
