import CmeBackend.Exchanges.Base
import CmeBackend.Lib.Js

/-!
# Exchanges of military resources

`exchangeMilitaryResourcesBetweenVillages` (`resources-ms-exchanges.service.ts`) and
`villageHasEnoughMilitaryResources` (`resources-ms-resources.service.ts`): the units leave the rows
of the sender, and travel to the receiver as an item of a sorted set.

* `villageHasEnoughMilitaryResources` returns from a callback only, so it finds every village to
  have enough. A village without a row of a type is a `TypeError`.
* `removeMiliteryResourcesToVillage` finds the first entry of the type of a row.
* `speedOf`: the speed of the column `characteristics` of a resource type, `none` where the column
  is empty.
-/

namespace Cme.Exchanges

open Js GameRules

variable {C : Catalog}

/-- `SentMilitaryResources` -/
structure SentMilitary where
  id : ℕ
  count : ℤ
  deriving DecidableEq

/-- `MilitaryResourceQueueType`. Of the villages, the services read the ids. -/
structure QueueItem where
  resources : List SentMilitary
  receiverVillageId : ℕ
  senderVillageId : ℕ
  /-- `Math.random()` -/
  unique : ℚ
  deriving DecidableEq

/-! ## The code -/

/-- The loop over the entries: the list so far, and whether an entry is forbidden. -/
def formatMilitary (C : Catalog) (formatted : List SentMilitary) (forbidden : Bool) :
    List Sent → Except ExchangeEnd (List SentMilitary × Bool)
  | [] => .ok (formatted, forbidden)
  | res :: rest =>
    if res.type = "" then .error .undefined else
      match C.find? res.type with
      | none => .error .undefined
      | some resType =>
        formatMilitary C (formatted ++ [⟨resType.id, res.count⟩])
          (forbidden || (MilitaryResource.ofName? res.type).isNone) rest

def villageHasEnoughMilitaryResources (rows : List (VillageResourceType C)) :
    List SentMilitary → Except ExchangeEnd Bool
  | [] => .ok true
  | resource :: rest =>
    match rows.find? (·.resourceType.id = resource.id) with
    | none => .error .typeError
    -- The result of the comparison is that of the callback, which nobody reads.
    | some _ => villageHasEnoughMilitaryResources rows rest

/-- The count of a row of the sender after the entry of its type. -/
def removeMiliteryResourcesToVillage (sentResourcesFormatted : List SentMilitary)
    (villageResourceType : VillageResourceType C) : ℤ :=
  match sentResourcesFormatted.find? (·.id = villageResourceType.resourceType.id) with
  | none => villageResourceType.count
  | some resourceRequested => villageResourceType.count - resourceRequested.count

/-- `EXCHANGEABLE_MILITARY_RESOURCES.toString()` -/
def exchangeableMilitaryResources : String :=
  ",".intercalate (militaryResourceList.map (·.name))

/-- The loop over the resource types that are sent. -/
def slowestSpeed (speedOf : C.Ref → Option ℚ) (slowest : ℚ) :
    List C.Ref → Except ExchangeEnd ℚ
  | [] => .ok slowest
  | res :: rest =>
    if (MilitaryResource.ofName? res.type).isSome then
      match speedOf res with
      | none => .error .typeError
      | some speed =>
        slowestSpeed speedOf (if slowest = 0 ∨ speed < slowest then speed else slowest) rest
    else slowestSpeed speedOf slowest rest

/-- `resourceTypesRepository.findByIds(ids)` -/
def findByIds (C : Catalog) (ids : List ℕ) : List C.Ref :=
  C.types.rows.attach.filter (·.val.id ∈ ids)

def computeTravelTime (distance : Number) (slowestSpeed : ℚ) : Number :=
  (((distance.div (.fin slowestSpeed)).mul (.fin 1000)).mul (.fin 60)).round

/-- The distance between two villages. -/
def distance (M : Math) (senderVillage receiverVillage : Village) : Number :=
  M.sqrt (.fin ((senderVillage.x - receiverVillage.x : ℤ) ^ 2 +
    (senderVillage.y - receiverVillage.y : ℤ) ^ 2))

/-- A military exchange that has passed its checks. -/
structure CheckedMilitary (C : Catalog) where
  sender : LoadedVillage C
  receiver : LoadedVillage C
  formatted : List SentMilitary
  travelTime : Number

/-- The part of `exchangeMilitaryResourcesBetweenVillages` before the counts are saved. -/
def formatMilitaryExchange (M : Math) (speedOf : C.Ref → Option ℚ)
    (senderVillage receiverVillage : LoadedVillage C) (sentResources : List Sent) :
    Except ExchangeEnd (CheckedMilitary C) := do
  let (formatted, forbidden) ← formatMilitary C [] false sentResources
  if forbidden then
    .error (.exception
      ⟨s!"Can only exchange military resources: {exchangeableMilitaryResources}", .badRequest⟩)
  else if formatted.isEmpty then
    .error (.exception ⟨"No resources to send", .badRequest⟩)
  else
    let enough ← villageHasEnoughMilitaryResources senderVillage.villagesResourceTypes formatted
    if !enough then
      .error (.exception
        ⟨"Sender village has less resources than requested.", .badRequest⟩)
    else
      let slowest ← slowestSpeed speedOf 0 (findByIds C (formatted.map (·.id)))
      let travelTime := computeTravelTime
        (distance M senderVillage.village receiverVillage.village) slowest
      return { sender := senderVillage, receiver := receiverVillage, formatted, travelTime }

/-- The checks of a military exchange whose villages are loaded. -/
def checkMilitary (M : Math) (speedOf : C.Ref → Option ℚ) (req : Request)
    (senderVillage receiverVillage : Option (LoadedVillage C)) :
    Except ExchangeEnd (CheckedMilitary C) := do
  let (sender, receiver) ← checkOwners req.userId senderVillage receiverVillage
  formatMilitaryExchange M speedOf sender receiver req.sentResources

/-- `senderVillageResourcesLeftAfterExchange` -/
def CheckedMilitary.senderLeft (c : CheckedMilitary C) : List (Entity C) :=
  c.sender.villagesResourceTypes.map fun r => ⟨r, removeMiliteryResourcesToVillage c.formatted r⟩

/-- `resourcesTransferQueue` -/
def CheckedMilitary.item (c : CheckedMilitary C) (unique : ℚ) : QueueItem where
  resources := c.formatted
  receiverVillageId := c.receiver.village.id
  senderVillageId := c.sender.village.id
  unique := unique

end Cme.Exchanges
