import CmeBackend.Battles.Report
import CmeBackend.Attacks.Create

/-!
# Battles and returns

`BattlesManagerService` (`battles-manager.service.ts`): the battle of an attack whose token is due
(`battle`), and the return of the units that are left (`comeBack`). A token is a text that is parsed
again, so what a step reads is the round trip of what the step before wrote.

* `reportQuery` is the text of the query that stores the report, with the report as a string literal.
  `execReportQuery` is its effect if the database reads it as it is meant; `none` is every other
  outcome: the query fails, or its text means something else.
* `none` of `battle` and `comeBack`: a query fails, or the code throws.
-/

namespace Cme.Battles

open Js GameRules Attacks

variable {C : Catalog}

/-- `GENERIC_LOAD_CAPACITY` -/
def genericLoadCapacity : ℚ := 60

structure StolenResource where
  id : ℕ
  count : Number
  deriving DecidableEq

/-- The member of `delayed:return` that stands for units on their way home. -/
structure ReturnToken where
  attackId : ℕ
  attackerVillageId : ℕ
  attackerUnitsInfoByType : Fields
  attackerCasualties : Fields
  defenderVillageId : ℕ
  /-- Missing in tokens from before the loot was taken in the battle. -/
  stolenResources : Option (List StolenResource)

/-- The token that a step parses. -/
def parsedAttack (token : AttackToken) : AttackToken :=
  { token with
    attackerUnitsInfoByType := Json.roundTripMembers token.attackerUnitsInfoByType }

/-- The token that the return parses. -/
def parsedReturn (token : ReturnToken) : ReturnToken :=
  { token with
    attackerUnitsInfoByType := Json.roundTripMembers token.attackerUnitsInfoByType
    attackerCasualties := Json.roundTripMembers token.attackerCasualties }

/-! ## Values in a query -/

/-- `${v}`, where `v` may be undefined -/
def spliced? (v : Option Json) : Option (List Char) :=
  match v with
  | none => some "undefined".toList
  | some v => v.toText?

/-- `getUpdateValuesAsSql`, with the separator before the first value. -/
def updateValuesFrom (sep : List Char) : Fields → Option (List Char)
  | [] => some []
  | (_, entry) :: rest => do
    let unitTypeId ← spliced? (← entry.property? "unitTypeId")
    let count ← spliced? (← entry.property? "count")
    let values ← updateValuesFrom [','] rest
    return sep ++ '(' :: (unitTypeId ++ ',' :: (count ++ ')' :: values))

def getUpdateValuesAsSql (stakeholderCasualties : Fields) : Option (List Char) :=
  updateValuesFrom [] stakeholderCasualties

/-- The row that the database reads from `(${unitTypeId},${count})`: an id and a finite number. -/
def sqlValue? (entry : Json) : Option (ℕ × ℚ) :=
  match entry.get "unitTypeId", entry.get "count" with
  | some (.num (.fin id)), some (.num (.fin count)) =>
    if id.den = 1 ∧ 0 ≤ id.num then some (id.num.toNat, count) else none
  | _, _ => none

/-- The rows of a `VALUES` list. -/
def sqlValues? : Fields → Option (List (ℕ × ℚ))
  | [] => some []
  | (_, entry) :: rest =>
    match sqlValue? entry, sqlValues? rest with
    | some value, some values => some (value :: values)
    | _, _ => none

/-- The rows that `formatStolenResources` writes. -/
def stolenValues? : List StolenResource → Option (List (ℕ × ℚ))
  | [] => some []
  | ⟨id, .fin count⟩ :: rest => (stolenValues? rest).map ((id, count) :: ·)
  | _ => none

/-- The values of a statement that subtracts. -/
def negated (values : List (ℕ × ℚ)) : List (ℕ × ℚ) := values.map fun v => (v.1, -v.2)

/-! ## The report in the database -/

/-- `attackerVillageId === winnerVillageId` -/
def AttackReport.WonByAttacker (report : AttackReport) : Prop :=
  report.attackerVillageId = report.winnerVillageId

instance (report : AttackReport) : Decidable report.WonByAttacker :=
  inferInstanceAs (Decidable (_ = _))

/-- The query up to the literal: the casualties of the defender, if there are units. -/
def reportQueryPrefix (report : AttackReport) : Option (List Char) := do
  let defenderCasualtiesCount ← getUpdateValuesAsSql report.defenderCasualties
  let defenderVillageId := (toString report.defenderVillageId).toList
  let casualties := if defenderCasualtiesCount = [] then [] else
    "\n      UPDATE villages_resource_types AS vrt\n      SET\n".toList ++
    "        count = count - v.casualties,\n        updated_at = NOW()\n      FROM (values ".toList ++
    defenderCasualtiesCount ++
    ") AS v(unit_type_id, casualties)\n      WHERE \n        vrt.village_id = ".toList ++
    defenderVillageId ++ " AND\n        vrt.resource_type_id = v.unit_type_id;".toList
  return casualties ++ "\n    UPDATE attacks\n      SET\n        report = ".toList

/-- The query after the literal. -/
def reportQuerySuffix (report : AttackReport) : List Char :=
 ",\n        is_under_attack = false,\n        is_troop_home = ".toList ++
  (if report.WonByAttacker then "FALSE" else "TRUE").toList ++ "\n      WHERE\n        id = ".toList ++
  (toString report.attackId).toList ++ ";\n    ".toList

/-- The text of the report. -/
def reportText (report : AttackReport) : List Char := report.json.render

/-- `sqlQuery` of `updateDb` -/
def reportQuery (report : AttackReport) : Option (List Char) := do
  let start ← reportQueryPrefix report
  return start ++ '\'' :: (reportText report ++ '\'' :: reportQuerySuffix report)

/-- The query as it is meant: the report is one literal, and there is no other. -/
def reportTokens (report : AttackReport) : Option (List Sql.Token) := do
  let start ← reportQueryPrefix report
  return start.map .other ++ .literal (reportText report) ::
    (reportQuerySuffix report).map .other

/-- The database reads the query as it is meant. -/
def ReadAsMeant (report : AttackReport) : Prop :=
  (reportQuery report).bind Sql.lex = reportTokens report ∧ (reportTokens report).isSome

instance (report : AttackReport) : Decidable (ReadAsMeant report) :=
  inferInstanceAs (Decidable (_ ∧ _))

/-- The columns of the attack that the query sets. -/
def AttackReport.store (report : AttackReport) (a : Attack) : Attack :=
  { a with
    report := some report.json
    isUnderAttack := false
    isTroopHome := ¬report.WonByAttacker }

/-- The effect of the query. -/
def execReportQuery (d : Db C) (report : AttackReport) : Option (Db C) :=
  if ReadAsMeant report then do
    let casualties ← sqlValues? report.defenderCasualties
    return (d.addToCounts report.defenderVillageId (negated casualties)).updateAttack report.attackId
      report.store
  else none

/-! ## Loot -/

def totalLoadCapacity : Fields → Option Number
  | [] => some (.fin 0)
  | (_, unit) :: rest => do
    let count ← unitCount? unit
    return (count.mul (.fin genericLoadCapacity)).add (← totalLoadCapacity rest)

/-- The rows of the village that may be looted. -/
def lootedRows (d : Db C) (villageId : ℕ) : List (VillageResourceType C) :=
  (d.rowsOf villageId).filter (·.resourceType.type ∈ lootedResources)

def stolenFrom (averageLoot averageMKCLoot : Number) (r : VillageResourceType C) : StolenResource where
  id := r.resourceType.id
  count := (if r.resourceType.type = "mkc" then averageMKCLoot else averageLoot).min (.fin r.count)

def StolenResource.json (stolen : StolenResource) : Json :=
  .obj [("id", .num (.fin stolen.id)), ("count", .num stolen.count)]

def updateDefenderStolenResources (d : Db C) (attackId defenderVillageId : ℕ)
    (unitsInfoLeftByType : Fields) : Option (Db C × List StolenResource) := do
  let averageLoot := ((← totalLoadCapacity unitsInfoLeftByType).div (.fin 4)).floor
  let averageMKCLoot := (averageLoot.div (.fin 100)).floor
  let stolenResources := (lootedRows d defenderVillageId).map (stolenFrom averageLoot averageMKCLoot)
  let values ← stolenValues? stolenResources
  let d := (d.addToCounts defenderVillageId (negated values)).updateAttack attackId fun a =>
    { a with stolenResources := some (.obj [("resources", .arr (stolenResources.map (·.json)))]) }
  return (d, stolenResources)

/-- Nobody waits for the query, and an empty list of values is an error that changes nothing. -/
def giveResourcesToAttacker (d : Db C) (stolenResources : List StolenResource)
    (attackerVillageId : ℕ) : Db C :=
  match stolenValues? stolenResources with
  | some values => d.addToCounts attackerVillageId values
  | none => d

/-! ## The battle -/

/-- The entry of a row of the defender. -/
def unitEntry (r : VillageResourceType C) : Json :=
  .obj [("unitTypeId", .num (.fin r.resourceType.id)), ("unitTypeName", .str r.resourceType.type),
    ("count", .num (.fin r.count))]

/-- `_.keyBy(defenderUnitsInfo, 'unitTypeName')` -/
def keyByType (rows : List (VillageResourceType C)) : Fields :=
  rows.foldl (fun units r => units.set r.resourceType.type (unitEntry r)) []

/-- The units of the defender. -/
def defenderUnits (d : Db C) (villageId : ℕ) : Fields :=
  keyByType ((d.rowsOf villageId).filter fun r =>
    (MilitaryResource.ofName? r.resourceType.type).isSome)

/-- The report of the battle of a token. -/
def battleReport (M : Math) (d : Db C) (token : AttackToken) : Option AttackReport :=
  generateAttackReport M token.attackId token.travelTime token.attackerVillageId
    token.attackerUnitsInfoByType token.defenderVillageId (defenderUnits d token.defenderVillageId)
    (unitsInfo C)

/-- What a battle leaves: the tables, the report, and the token of the units on their way home. -/
structure Outcome (C : Catalog) where
  db : Db C
  report : AttackReport
  returning : Option ReturnToken

def updateDb (d : Db C) (report : AttackReport) : Option (Outcome C) := do
  let d ← execReportQuery d report
  if report.WonByAttacker then
    let attackerUnits := report.attackerUnits
    let (d, stolenResources) ←
      updateDefenderStolenResources d report.attackId report.defenderVillageId attackerUnits
    return {
      db := d
      report
      returning := some {
        attackId := report.attackId
        attackerVillageId := report.attackerVillageId
        attackerUnitsInfoByType := attackerUnits
        attackerCasualties := report.attackerCasualties
        defenderVillageId := report.defenderVillageId
        stolenResources := some stolenResources } }
  else return { db := d, report, returning := none }

/-- The first part of `handle`, for the attack of a token. -/
def battle (M : Math) (d : Db C) (token : AttackToken) : Option (Outcome C) := do
  updateDb d (← battleReport M d (parsedAttack token))

/-! ## The return -/

/-- A value as the name of a property. -/
def propertyName? (v : Option Json) : Option String :=
  match v with
  | none => some "undefined"
  | some v => v.toText?.map String.ofList

/-- One casualty is taken from the entry that its type name is the key of. -/
def subtractCasualty (unitsInfoLeftByType : Fields) (casualty : Json) : Option Fields := do
  let unitTypeName ← propertyName? (← casualty.property? "unitTypeName")
  let casualtiesCount ← unitCount? casualty
  let unit ← unitsInfoLeftByType.lookup unitTypeName
  let count ← unitCount? unit
  return unitsInfoLeftByType.set unitTypeName (unit.set "count" (.num (count.sub casualtiesCount)))

/-- The loop over the casualties. -/
def subtractCasualties (unitsInfoLeftByType : Fields) : Fields → Option Fields
  | [] => some unitsInfoLeftByType
  | (_, casualty) :: rest => do
    subtractCasualties (← subtractCasualty unitsInfoLeftByType casualty) rest

/-- Both statements are one query, so none of them counts if a value is not a number. -/
def updateAttackerValuesAfterReturnAsSql (d : Db C) (unitsInfoLeftByType : Fields)
    (attackerVillageId attackId : ℕ) : Option (Db C) := do
  let values ← sqlValues? unitsInfoLeftByType
  return (d.addToCounts attackerVillageId values).updateAttack attackId fun a =>
    { a with isTroopHome := true, attackerWon := true }

/-- The second part of `handle`, for the units of a token. -/
def comeBack (d : Db C) (token : ReturnToken) : Option (Db C) := do
  let token := parsedReturn token
  let unitsInfoLeftByType ←
    subtractCasualties token.attackerUnitsInfoByType token.attackerCasualties
  let d := match token.stolenResources with
    | some stolenResources => giveResourcesToAttacker d stolenResources token.attackerVillageId
    -- Nobody waits for the loot of an old token.
    | none =>
      match updateDefenderStolenResources d token.attackId token.defenderVillageId
          unitsInfoLeftByType with
      | some (d, resources) => giveResourcesToAttacker d resources token.attackerVillageId
      | none => d
  updateAttackerValuesAfterReturnAsSql d unitsInfoLeftByType token.attackerVillageId token.attackId

/-- The state after the units are home, or after the battle where none is on its way home. -/
def Outcome.afterReturn (o : Outcome C) : Option (Db C) :=
  match o.returning with
  | none => some o.db
  | some token => comeBack o.db token

end Cme.Battles
