import CmeBackend.Villages.Entities

/-!
# Sending an attack

`AttacksService.create` (`attacks.service.ts`). The controller hands the body of the request over
as it is: no pipe validates it, so `unitSent` is an arbitrary map of JSON values.

* `keptUnits`: what the filter leaves of `unitSent`.
* `checkUnit`: availability is looked up by the client's `unitTypeId`, the speed by the key.
* `leftDuringAttack`: the subtraction goes by the type name of each row of the village.
* `create`: the request as a whole. `create_eq_ok` says what an accepted request has passed and what
  it writes.
-/

namespace Cme.Attacks

open Js GameRules

variable {C : Catalog}

inductive DevTravelTimeMode where
  | default
  | hoursAsMinutes
  | instant
  deriving DecidableEq

/-- A map that came with the body: no two entries have one key. -/
structure UnitSent where
  entries : Fields
  nodup : (entries.map Prod.fst).Nodup

structure CreateAttackDto where
  attackerVillageId : ℕ
  defenderVillageId : ℕ
  unitSent : UnitSent
  /-- `devConfig?.attackTimeMode` -/
  attackTimeMode : Option DevTravelTimeMode

inductive AttackError where
  /-- `EntityNotFoundError` -/
  | notFound
  /-- `HttpException` with the status `BAD_REQUEST` -/
  | badRequest (message : String)
  | typeError
  deriving DecidableEq

/-- The member of `delayed:normal` that stands for an attack on its way. -/
structure AttackToken where
  attackId : ℕ
  travelTime : Number
  attackerVillageId : ℕ
  defenderVillageId : ℕ
  attackerUnitsInfoByType : Fields

/-- `Date.now()` when the villages are loaded, when the attack is saved and queued, and when the
truces are updated. -/
structure Clock where
  loaded : ℤ
  departed : ℤ
  updated : ℤ

/-- 3 days -/
def truceEligibilityPeriod : ℤ := 3 * 24 * (60 * 60 * 1000)

/-- 30 minutes -/
def truceDuration : ℤ := 30 * 60 * 1000

/-! ## The code -/

def computeAttackTime (distance : Number) (slowestSpeed : ℕ) (dev : Bool)
    (mode : Option DevTravelTimeMode) : Number :=
  let travelTimeAsHours := distance.div (.fin slowestSpeed)
  if dev ∧ mode.getD .default = .instant then .fin 0
  else ((travelTimeAsHours.mul (.fin 1000)).mul (.fin 60)).round

def findOneOrFail (d : Db C) (id : ℕ) : Except AttackError Village :=
  match d.villages.get? id with
  | some v => .ok v
  | none => .error .notFound

/-- The checks of the two villages. -/
def checkVillages (attackerVillage defenderVillage : Village) (now : ℤ) : Except AttackError Unit :=
  match defenderVillage.userId, attackerVillage.userId with
  | none, _ => .error (.badRequest "A user cannot attack a ghost village")
  | some _, none => .error .typeError
  | some defender, some attacker =>
    if attacker = defender then .error (.badRequest "A user cannot attack themselve")
    else if defenderVillage.inTrucePeriod now then
      .error (.badRequest "Can't attack a village under truce protection")
    else .ok ()

/-- `unit?.count`, as a number -/
def countOfUnit (unit : Json) : Except AttackError Number :=
  match Json.toNumber? (unit.get "count") with
  | some n => .ok n
  | none => .error .typeError

/-- The loop that deletes the units requested at 0. -/
def filterUnits : Fields → Except AttackError Fields
  | [] => .ok []
  | (name, unit) :: rest => do
    let count ← countOfUnit unit
    let kept ← filterUnits rest
    return if count.le (.fin 0) then kept else (name, unit) :: kept

/-- One round of the loop over the units: the speed of the unit, if the village has enough. -/
def checkUnit (rows : List (VillageResourceType C)) (resourceName : String)
    (resourceRequested : Json) : Except AttackError ℕ :=
  let insufficient : AttackError := .badRequest s!"Quantity of unit {resourceName} insuficient"
  if resourceRequested.isNull ∧ rows ≠ [] then .error .typeError else
    match rows.find? fun r =>
        Json.isNumber (resourceRequested.get "unitTypeId") (.fin r.resourceType.id) with
    | none => .error insufficient
    | some resourceAvailable => do
      let count ← countOfUnit resourceRequested
      if Number.lt (.fin resourceAvailable.count) count then .error insufficient else
        match getRelatedCharacteristic resourceName with
        | none => .error .typeError
        | some characteristics => .ok characteristics.speed

/-- The loop over the units: it ends with the speed that the travel time is computed from. -/
def checkUnits (rows : List (VillageResourceType C)) (slowestSpeed : ℕ) :
    Fields → Except AttackError ℕ
  | [] => .ok slowestSpeed
  | (resourceName, resourceRequested) :: rest => do
    let speed ← checkUnit rows resourceName resourceRequested
    checkUnits rows (if slowestSpeed = 0 ∨ slowestSpeed < speed then speed else slowestSpeed) rest

/-- The distance between two villages. -/
def distance (M : Math) (attackerVillage defenderVillage : Village) : Number :=
  M.sqrt (.fin ((defenderVillage.x - attackerVillage.x : ℤ) ^ 2 +
    (defenderVillage.y - attackerVillage.y : ℤ) ^ 2))

/-- The count of a row of the attacker's village without the units sent in battle. The conversion of
a requested count went through in the filter. -/
def leftDuringAttack (unitSent : Fields) (r : VillageResourceType C) : Number :=
  match unitSent.lookup r.resourceType.type with
  | none => .fin r.count
  | some resourceRequested =>
    if resourceRequested.truthy then
      Number.sub (.fin r.count) ((Json.toNumber? (resourceRequested.get "count")).getD .nan)
    else .fin r.count

/-- `villagesResourceTypesRepository.save`: all the rows, or none of them if the database does not
take a count for an integer, an error that the caller catches. -/
def saveCounts (d : Db C) (villageId : ℕ) (count : VillageResourceType C → Number) : Db C :=
  if (d.rowsOf villageId).all fun r => (count r).toInt?.isSome then
    d.setCounts fun r =>
      if r.villageId = some villageId then ((count r).toInt?).getD r.count else r.count
  else d

/-- The truces of both villages after the attack has left. -/
def updateTruces (d : Db C) (c : Clock) (attackerVillage defenderVillage : Village) : Db C :=
  let villages :=
    if attackerVillage.inTrucePeriod c.loaded then
      d.villages.update attackerVillage.id fun v => { v with truceEndsAt := c.updated }
    else d.villages
  let villages :=
    if c.updated < defenderVillage.createdAt + truceEligibilityPeriod then
      villages.update defenderVillage.id fun v => { v with truceEndsAt := c.updated + truceDuration }
    else villages
  { d with villages }

/-- `attacksRepository.save`; the columns without a value have their defaults. -/
def insertAttack (d : Db C) (attackerVillage defenderVillage : Village) (unitSent : Fields)
    (attackTime : Number) : Db C :=
  { d with attacks := d.attacks.insert fun id =>
      { id, attackTime, report := none, isUnderAttack := true, isTroopHome := false,
        attackerWon := false, stolenResources := none, attackerVillageId := attackerVillage.id,
        attackerId := attackerVillage.userId, unitSent, defenderVillageId := defenderVillage.id,
        defenderId := defenderVillage.userId } }

/-- What an accepted request does: the tables after it, and the token with its score. -/
structure Departure (C : Catalog) where
  db : Db C
  score : Number
  token : AttackToken

/-- The part of `create` after the checks. -/
def depart (c : Clock) (d : Db C) (attackerVillage defenderVillage : Village) (unitSent : Fields)
    (travelTime : Number) : Departure C where
  db :=
    let d := insertAttack d attackerVillage defenderVillage unitSent
      (Number.add (.fin c.departed) travelTime)
    let d := saveCounts d attackerVillage.id (leftDuringAttack unitSent)
    updateTruces d c attackerVillage defenderVillage
  score := Number.add (.fin c.departed) travelTime
  token :=
    { attackId := d.attacks.next
      travelTime
      attackerVillageId := attackerVillage.id
      defenderVillageId := defenderVillage.id
      attackerUnitsInfoByType := unitSent }

/-- `AttacksService.create` -/
def create (M : Math) (dev : Bool) (c : Clock) (d : Db C) (dto : CreateAttackDto) :
    Except AttackError (Departure C) := do
  let attackerVillage ← findOneOrFail d dto.attackerVillageId
  let defenderVillage ← findOneOrFail d dto.defenderVillageId
  checkVillages attackerVillage defenderVillage c.loaded
  let unitSent ← filterUnits dto.unitSent.entries
  if unitSent.isEmpty then .error (.badRequest "No unit sent to battle") else
    let slowestSpeed ← checkUnits (d.rowsOf attackerVillage.id) 0 unitSent
    let travelTime := computeAttackTime (distance M attackerVillage defenderVillage) slowestSpeed dev
      dto.attackTimeMode
    return depart c d attackerVillage defenderVillage unitSent travelTime

/-! ## What the filter leaves -/

/-- An entry that the filter does not delete. -/
def isKept (entry : String × Json) : Bool :=
  match Json.toNumber? (entry.2.get "count") with
  | some count => !count.le (.fin 0)
  | none => false

/-- The entries that the filter leaves. -/
def CreateAttackDto.keptUnits (dto : CreateAttackDto) : Fields := dto.unitSent.entries.filter isKept

theorem countOfUnit_eq_ok {unit : Json} {n : Number} :
    countOfUnit unit = .ok n ↔ Json.toNumber? (unit.get "count") = some n := by
  unfold countOfUnit
  cases Json.toNumber? (unit.get "count") <;> simp

theorem filterUnits_eq_ok {units kept : Fields} (h : filterUnits units = .ok kept) :
    kept = units.filter isKept := by
  induction units generalizing kept with
  | nil => cases h; rfl
  | cons entry rest ih =>
    obtain ⟨name, unit⟩ := entry
    obtain ⟨count, hcount, h⟩ := bind_eq_ok.1 h
    obtain ⟨kept', hrest, h⟩ := bind_eq_ok.1 h
    obtain rfl := Except.ok.inj h
    have hk : isKept (name, unit) = !count.le (.fin 0) := by
      simp only [isKept, countOfUnit_eq_ok.1 hcount]
    rw [List.filter_cons, hk, ← ih hrest]
    cases count.le (.fin 0) <;> rfl

theorem CreateAttackDto.keptUnits_nodup (dto : CreateAttackDto) :
    (dto.keptUnits.map Prod.fst).Nodup :=
  dto.unitSent.nodup.sublist (List.filter_sublist.map _)

/-! ## What an accepted request has passed -/

/-- The check that an entry has passed: its id is that of `t`, its key names the unit `m`, and its
count, as a number, is `n`. -/
structure Available (d : Db C) (villageId : ℕ) (name : String) (unit : Json) (t : C.Ref)
    (n : Number) (m : MilitaryResource) : Prop where
  name : m.name = name
  unitTypeId : unit.get "unitTypeId" = some (.num (.fin t.id))
  count : Json.toNumber? (unit.get "count") = some n
  enough : ∃ r, d.rowOf villageId t = some r ∧ Number.lt (.fin r.count) n = false

theorem checkUnit_eq_ok {d : Db C} {villageId : ℕ} {name : String} {unit : Json} {speed : ℕ}
    (h : checkUnit (d.rowsOf villageId) name unit = .ok speed) :
    ∃ t n m, Available d villageId name unit t n m := by
  unfold checkUnit at h
  split at h
  · cases h
  split at h
  · cases h
  next r hr =>
    have hid : unit.get "unitTypeId" = some (.num (.fin r.resourceType.id)) := by
      simpa using List.find?_some hr
    obtain ⟨n, hn, h⟩ := bind_eq_ok.1 h
    split at h
    · cases h
    next hlt =>
      split at h
      · cases h
      next characteristics hc =>
        obtain ⟨m, hm, -⟩ := Option.map_eq_some_iff.1 hc
        refine ⟨r.resourceType, n, m, MilitaryResource.ofName?_eq_some.1 hm, hid,
          countOfUnit_eq_ok.1 hn, r, ?_, by simpa using hlt⟩
        -- The row with the id of the request is the first row of its type.
        rw [Db.rowOf, ← hr]
        congr 1
        funext r'
        rw [hid]
        simp [Json.isNumber, Number.strictEq, eq_comm]

theorem checkUnits_eq_ok {rows : List (VillageResourceType C)} {units : Fields} {slowest speed : ℕ}
    (h : checkUnits rows slowest units = .ok speed) :
    ∀ u ∈ units, ∃ speed, checkUnit rows u.1 u.2 = .ok speed := by
  induction units generalizing slowest with
  | nil => simp
  | cons entry rest ih =>
    obtain ⟨speed', hu, hrest⟩ := bind_eq_ok.1 h
    exact List.forall_mem_cons.2 ⟨⟨speed', hu⟩, ih hrest⟩

theorem findOneOrFail_eq_ok {d : Db C} {id : ℕ} {v : Village} (h : findOneOrFail d id = .ok v) :
    d.villages.get? id = some v := by
  unfold findOneOrFail at h
  split at h
  · cases h; assumption
  · cases h

/-- The two villages of an attack belong to different users. -/
theorem checkVillages_eq_ok {attackerVillage defenderVillage : Village} {now : ℤ}
    (h : checkVillages attackerVillage defenderVillage now = .ok ()) :
    attackerVillage.userId ≠ defenderVillage.userId := by
  unfold checkVillages at h
  split at h
  · cases h
  · cases h
  next defender attacker hd ha =>
    split at h
    · cases h
    next hne =>
      rw [ha, hd]
      exact fun heq => hne (Option.some.inj heq)

/-- The checks of a request, with the villages and the speed that they find. -/
structure Checked (d : Db C) (dto : CreateAttackDto) (now : ℤ)
    (attackerVillage defenderVillage : Village) (slowestSpeed : ℕ) : Prop where
  attacker : d.villages.get? dto.attackerVillageId = some attackerVillage
  defender : d.villages.get? dto.defenderVillageId = some defenderVillage
  villages : checkVillages attackerVillage defenderVillage now = .ok ()
  filtered : filterUnits dto.unitSent.entries = .ok dto.keptUnits
  sent : dto.keptUnits ≠ []
  units : checkUnits (d.rowsOf attackerVillage.id) 0 dto.keptUnits = .ok slowestSpeed

theorem checked_of_create {M : Math} {dev : Bool} {c : Clock} {d : Db C} {dto : CreateAttackDto}
    {dep : Departure C} (h : create M dev c d dto = .ok dep) :
    ∃ attackerVillage defenderVillage slowestSpeed,
      Checked d dto c.loaded attackerVillage defenderVillage slowestSpeed ∧
      dep = depart c d attackerVillage defenderVillage dto.keptUnits
        (computeAttackTime (distance M attackerVillage defenderVillage) slowestSpeed dev
          dto.attackTimeMode) := by
  obtain ⟨attackerVillage, ha, h⟩ := bind_eq_ok.1 h
  obtain ⟨defenderVillage, hd, h⟩ := bind_eq_ok.1 h
  obtain ⟨⟨⟩, hv, h⟩ := bind_eq_ok.1 h
  obtain ⟨unitSent, hu, h⟩ := bind_eq_ok.1 h
  obtain rfl : unitSent = dto.keptUnits := filterUnits_eq_ok hu
  split at h
  · cases h
  next hsent =>
    obtain ⟨slowestSpeed, hs, h⟩ := bind_eq_ok.1 h
    refine ⟨attackerVillage, defenderVillage, slowestSpeed, ?_, (Except.ok.inj h).symm⟩
    exact ⟨findOneOrFail_eq_ok ha, findOneOrFail_eq_ok hd, hv, hu, by simpa using hsent, hs⟩

/-- What an accepted request has passed, and what it writes. -/
theorem create_eq_ok {M : Math} {dev : Bool} {c : Clock} {d : Db C} {dto : CreateAttackDto}
    {dep : Departure C} (h : create M dev c d dto = .ok dep) :
    ∃ attackerVillage defenderVillage travelTime,
      attackerVillage.id = dto.attackerVillageId ∧ defenderVillage.id = dto.defenderVillageId ∧
      dto.attackerVillageId ≠ dto.defenderVillageId ∧
      (∀ u ∈ dto.keptUnits, ∃ t n m, Available d dto.attackerVillageId u.1 u.2 t n m) ∧
      dep = depart c d attackerVillage defenderVillage dto.keptUnits travelTime := by
  obtain ⟨attackerVillage, defenderVillage, slowestSpeed, hchecked, hdep⟩ := checked_of_create h
  have haid : attackerVillage.id = dto.attackerVillageId :=
    (Table.get?_eq_some.1 hchecked.attacker).2
  have hdid : defenderVillage.id = dto.defenderVillageId :=
    (Table.get?_eq_some.1 hchecked.defender).2
  refine ⟨attackerVillage, defenderVillage, _, haid, hdid, ?_, ?_, hdep⟩
  · intro heq
    have hsame := hchecked.attacker.symm.trans (heq ▸ hchecked.defender)
    exact checkVillages_eq_ok hchecked.villages (congrArg Village.userId (Option.some.inj hsame))
  · intro u hmem
    obtain ⟨speed, hc⟩ := checkUnits_eq_ok hchecked.units u hmem
    exact checkUnit_eq_ok (haid ▸ hc)

/-! ## A small game -/

/-- The root of a square. -/
def exactRoot (n : ℕ) : ℕ := ((List.range (n + 1)).find? fun k => k * k == n).getD 0

/-- The square root of the quotient of two squares. -/
def exactSqrt : Number → Number
  | .fin x => if x < 0 then .nan else .fin (exactRoot x.num.natAbs / exactRoot x.den)
  | .inf false => .inf false
  | _ => .nan

/-- The functions of `Math` on quotients of squares. -/
def sampleMath : Math where
  sqrt := exactSqrt
  pow32
    | .inf _ => .inf false
    | x => (exactSqrt x).mul ((exactSqrt x).mul (exactSqrt x))
  pow32_ne := by
    intro x h
    cases x with
    | nan => cases h
    | inf s => cases h
    | fin x =>
      simp only [exactSqrt] at h
      split at h <;> cases h

/-- Village 1 has 30 stone hunters, village 2 of another user has 12 stone slingers. -/
def sampleDb : Db sampleCatalog where
  villages :=
    { rows := [⟨1, some 1, 0, 0, 0, 0⟩, ⟨2, some 2, 3, 4, 0, 0⟩]
      next := 3
      nodup := by decide
      lt_next := by decide }
  villagesResourceTypes :=
    { rows := [⟨1, some 1, food, 1000⟩, ⟨2, some 1, stoneHunter, 30⟩, ⟨3, some 2, food, 500⟩,
        ⟨4, some 2, stoneSlinger, 12⟩]
      next := 5
      nodup := by decide
      lt_next := by decide }
  facilities := Table.empty
  villagesStorageResourceTypes := Table.empty
  attacks := Table.empty

def sampleClock : Clock := ⟨1000, 1001, 1002⟩

/-- A request of village 1 with one entry, under the key `stone_hunter`. -/
def sampleRequest (fields : Fields) : CreateAttackDto where
  attackerVillageId := 1
  defenderVillageId := 2
  unitSent := ⟨[("stone_hunter", .obj fields)], List.nodup_singleton _⟩
  attackTimeMode := none

/-- 28 stone hunters, in the documented format. -/
def sampleHunters : Fields :=
  [("unitTypeId", .num (.fin 5)), ("unitTypeName", .str "stone_hunter"), ("count", .num (.fin 28))]

/-- 500 of them, with the id of food. -/
def sampleFoodAsHunters : Fields :=
  [("unitTypeId", .num (.fin 1)), ("unitTypeName", .str "stone_hunter"), ("count", .num (.fin 500))]

/-- 28 of them, under another name. -/
def sampleQuoted : Fields :=
  [("unitTypeId", .num (.fin 5)), ("unitTypeName", .str "stone_hunter's"), ("count", .num (.fin 28))]

theorem accepted_sampleHunters :
    ∃ dep, create sampleMath false sampleClock sampleDb (sampleRequest sampleHunters) = .ok dep :=
  exists_of_isOk (by decide +kernel)

theorem accepted_sampleFoodAsHunters :
    ∃ dep, create sampleMath false sampleClock sampleDb (sampleRequest sampleFoodAsHunters) =
      .ok dep :=
  exists_of_isOk (by decide +kernel)

theorem accepted_sampleQuoted :
    ∃ dep, create sampleMath false sampleClock sampleDb (sampleRequest sampleQuoted) = .ok dep :=
  exists_of_isOk (by decide +kernel)

end Cme.Attacks
