import CmeBackend.Lib.Js
import CmeBackend.Map.Entities
import Mathlib.Data.Prod.Lex

/-!
# Villages of players, and automated ones

`VillagesService.create`, `removeEmptyAutomatedVillages` and `generateAutomatedVillages`
(`villages.service.ts`): the checks on what has been read, and the transactions. `none` is a
transaction that a constraint refuses.

* `findRandomUnusedTileLocation`: two loops from a random position of the block, one forward to its
  last tile, one backward. The second loop compares `y` with `x1`, so it may leave the block. A loop
  is given as many rounds as there are tiles and one more, of which it needs no further one
  (`search_isSome`).
-/

namespace Cme.Map

open Js

variable {C : Catalog}

/-- How a request ends that creates nothing. -/
inductive Failure where
  | exception (e : HttpException)
  /-- `findOneOrFail` -/
  | entityNotFound
  /-- A call or a statement that fails. -/
  | failed
  deriving DecidableEq

/-! ## `create` -/

structure CreateVillageDto where
  name : String
  x : ℤ
  y : ℤ

def MAX_VILLAGES_PER_USER : ℕ := 5

def MAX_DISTANCE_VILLAGE_CREATION : ℤ := 10

def RESOURCES_NEEDED_NEW_VILLAGE : ℤ := 35000

def MAX_NAME_LENGTH : ℕ := 15

/-- `name.length`, which counts UTF-16 code units. -/
def utf16Length (cs : List Char) : ℕ := (cs.map fun c => if c.toNat < 0x10000 then 1 else 2).sum

def processName (name : String) : Except Failure String :=
  let trimmed := Number.trim name.toList
  if MAX_NAME_LENGTH < utf16Length trimmed then
    .error (.exception ⟨"Name can't be longer than 15 symbols", .badRequest⟩)
  else .ok (String.ofList trimmed)

/-- The resource types that a village needs for a new one. -/
def totalOfVillages (villages : List (LoadedVillage C)) (type : String) : ℤ :=
  (((villages.flatMap (·.villagesResourceTypes)).filter (·.resourceType.type = type)).map
    VillageResourceType.count).sum

def checkIfHasEnoughResourcesForNewVillage (villages : List (LoadedVillage C)) : Bool :=
  RESOURCES_NEEDED_NEW_VILLAGE ≤ totalOfVillages villages "wood" ∧
    RESOURCES_NEEDED_NEW_VILLAGE ≤ totalOfVillages villages "iron" ∧
    RESOURCES_NEEDED_NEW_VILLAGE ≤ totalOfVillages villages "food"

/-- `villagesRepository.find({ where: { user: { id: userId } } })` -/
def villagesForThisUser (d : MapDb C) (userId : ℕ) : List (LoadedVillage C) :=
  (d.villages.rows.filter (·.userId = some userId)).map fun v => ⟨v, d.rowsOf v.id⟩

/-- The part of `create` that reads the tiles. The name is processed then. -/
def checkOccupiedMapTile (d : MapDb C) (dto : CreateVillageDto) :
    Except Failure CreateVillageDto :=
  if d.Occupied (dto.x, dto.y) then
    .error (.exception
      ⟨"Your village is overlaying an occupied tile, creation is blocked", .badRequest⟩)
  else do
    let name ← processName dto.name
    return { dto with name }

/-- The villages around a position. -/
def closestVillages (d : MapDb C) (x y : ℤ) : List Village :=
  d.villages.rows.filter fun v =>
    (x - MAX_DISTANCE_VILLAGE_CREATION ≤ v.x ∧ v.x ≤ x + MAX_DISTANCE_VILLAGE_CREATION) ∧
    y - MAX_DISTANCE_VILLAGE_CREATION ≤ v.y ∧ v.y ≤ y + MAX_DISTANCE_VILLAGE_CREATION

/-- The text of the error for a user who has too many villages. -/
def tooManyVillages (nbVillages : ℕ) : String :=
  let plural := if nbVillages > 1 then "s" else ""
  s!"You already have {nbVillages} village{plural}, villages creation per user is blocked to 5"

/-- The text of the error for a user whose villages have too little. -/
def needsResources : String :=
  "You need a total of 35000 of food, 35000 of iron and 35000 of food " ++
    "shared between all of your villages to create a new one."

/-- The part of `create` that reads the closest villages, and compares the villages of the user. -/
def checkVillages (d : MapDb C) (dto : CreateVillageDto) (villages : List (LoadedVillage C)) :
    Except Failure Unit :=
  if (closestVillages d dto.x dto.y).isEmpty then
    .error (.exception
      ⟨"Your village is too far from other villages, creation is blocked", .badRequest⟩)
  else if MAX_VILLAGES_PER_USER ≤ villages.length then
    .error (.exception ⟨tooManyVillages villages.length, .badRequest⟩)
  else if 0 < villages.length ∧ !checkIfHasEnoughResourcesForNewVillage villages then
    .error (.exception ⟨needsResources, .badRequest⟩)
  else .ok ()

/-- The transaction of `create`, at the time `now`. The tile is linked to the village when the
village is saved. -/
def createVillage (d : MapDb C) (dto : CreateVillageDto) (user : User) (now : ℤ) :
    Option (MapDb C) :=
  if d.Taken (dto.x, dto.y) dto.name then none else
    some { d with
      toDb := d.toDb.createVillage ⟨some user.id, dto.x, dto.y, now, 0⟩ user.new
      users := if user.new then d.users.update user.id fun u => { u with new := false } else d.users
      columns := Function.update d.columns d.villages.next ⟨dto.name, false⟩
      mapTiles := d.mapTiles.insert fun id =>
        { id, x := dto.x, y := dto.y, type := .village, terrainResourceType := none
          villageName := some dto.name, isPassable := none, villageId := some d.villages.next } }

/-! ## `removeEmptyAutomatedVillages` -/

def checkIfAutomatedVillageHasResources (rows : List (VillageResourceType C)) : Bool :=
  rows.any (0 < ·.count)

/-- The automated villages that are not removed, each with the id of its tile, of which none of the
resources is left. -/
def emptyAutomatedVillages (d : MapDb C) : List (ℕ × ℕ) :=
  d.villages.rows.filterMap fun v => do
    guard (d.columns v.id).automated
    let _ ← d.automatedVillageHistory.rows.find? fun h => h.villageId = v.id ∧ h.isRemoved = false
    let mapTile ← d.mapTiles.rows.find? (·.villageId = some v.id)
    guard (d.rowsOf v.id ≠ [] ∧ !checkIfAutomatedVillageHasResources (d.rowsOf v.id))
    return (mapTile.id, v.id)

/-- The transaction of a removal. The row of `villages` stays. -/
def removeVillage (d : MapDb C) (tileId villageId : ℕ) : MapDb C :=
  { d with
    mapTiles := d.mapTiles.delete tileId
    villagesResourceTypes := d.villagesResourceTypes.deleteWhere (·.villageId = some villageId)
    automatedVillageHistory := d.automatedVillageHistory.map fun h =>
      { h with isRemoved := if h.villageId = villageId then true else h.isRemoved } }

/-! ## `generateAutomatedVillages` -/

def MAX_AUTOMATED_VILLAGES_IN_MAP_BLOCK : ℕ := 5

/-- `Math.floor(Math.random() * (max - min + 1) + min)` -/
def randomIntegerBetween (random : ℚ) (min max : ℤ) : ℤ := ⌊random * (max - min + 1) + min⌋

/-- The tile after `(x, y)`, row by row. -/
def MapBlock.right (b : MapBlock) (p : ℤ × ℤ) : ℤ × ℤ :=
  if p.1 < b.x2 then (p.1 + 1, p.2) else (b.x1, p.2 + 1)

/-- The tile before `(x, y)`. -/
def MapBlock.left (b : MapBlock) (p : ℤ × ℤ) : ℤ × ℤ :=
  if b.x1 < p.1 then (p.1 - 1, p.2) else (b.x2, p.2 - 1)

/-- How a loop over positions ends: at its last position, or at one that is not used. -/
inductive Found where
  | last
  | unused (p : ℤ × ℤ)
  deriving DecidableEq

/-- A loop over positions, for `fuel` rounds at most. -/
def search (next : ℤ × ℤ → ℤ × ℤ) (last : ℤ × ℤ) (mapTiles : List (ℤ × ℤ)) :
    ℕ → ℤ × ℤ → Option Found
  | 0, _ => none
  | fuel + 1, p =>
    if p = last then some .last
    else if p ∈ mapTiles then search next last mapTiles fuel (next p)
    else some (.unused p)

/-- `mapTiles` are the positions of the tiles of the block, and `random` are the two results of
`Math.random()`. -/
def findRandomUnusedTileLocation (mapBlock : MapBlock) (mapTiles : List (ℤ × ℤ)) (random : ℚ × ℚ) :
    Option (ℤ × ℤ) :=
  let initialPosition := (randomIntegerBetween random.1 mapBlock.x1 mapBlock.x2,
    randomIntegerBetween random.2 mapBlock.y1 mapBlock.y2)
  match search mapBlock.right (mapBlock.x2, mapBlock.y2) mapTiles (mapTiles.length + 1)
      initialPosition with
  | some (.unused p) => some p
  | _ =>
    -- The last position is compared with `x1` twice.
    match search mapBlock.left (mapBlock.x1, mapBlock.x1) mapTiles (mapTiles.length + 1)
        initialPosition with
    | some (.unused p) => some p
    | _ => none

/-- The tiles of a block. -/
def blockTiles (d : MapDb C) (mapBlock : MapBlock) : List MapTile :=
  d.mapTiles.rows.filter fun t => mapBlock.Contains t.at

/-- How many tiles of a block have an automated village. -/
def automatedIn (d : MapDb C) (mapBlock : MapBlock) : ℕ :=
  ((blockTiles d mapBlock).filter d.automated).length

/-- The location of a new village in a block, if it is to get one. -/
def unusedTileLocation (d : MapDb C) (mapBlock : MapBlock) (random : ℚ × ℚ) : Option (ℤ × ℤ) :=
  if MAX_AUTOMATED_VILLAGES_IN_MAP_BLOCK ≤ automatedIn d mapBlock then none
  else findRandomUnusedTileLocation mapBlock ((blockTiles d mapBlock).map MapTile.at) random

def automatedName (p : ℤ × ℤ) : String := s!"Automated Village {p.1}{p.2}"

/-- The transaction of a block, at the time `now`. -/
def generateVillage (d : MapDb C) (p : ℤ × ℤ) (now : ℤ) : Option (MapDb C) :=
  if d.Taken p (automatedName p) then none else
    some { d with
      toDb := d.toDb.generateVillage ⟨none, p.1, p.2, now, 0⟩
      columns := Function.update d.columns d.villages.next ⟨automatedName p, true⟩
      mapTiles := d.mapTiles.insert fun id =>
        { id, x := p.1, y := p.2, type := .village, terrainResourceType := none
          villageName := none, isPassable := none, villageId := some d.villages.next }
      automatedVillageHistory := d.automatedVillageHistory.insert fun id =>
        { id, x := p.1, y := p.2, isRemoved := false, villageId := d.villages.next } }

/-! ## The loops end -/

section Search

variable {next : ℤ × ℤ → ℤ × ℤ} {last p : ℤ × ℤ} {mapTiles : List (ℤ × ℤ)}

/-- A loop that goes upwards meets every tile once at most. -/
theorem search_isSome {κ : Type} [LinearOrder κ] {order : ℤ × ℤ → κ}
    (hnext : ∀ p, order p < order (next p)) {fuel : ℕ}
    (h : mapTiles.countP (order p ≤ order ·) < fuel) :
    (search next last mapTiles fuel p).isSome := by
  induction fuel generalizing p with
  | zero => exact absurd h (Nat.not_lt_zero _)
  | succ fuel ih =>
    unfold search
    split
    · rfl
    split
    next hmem =>
      refine ih (Nat.lt_of_lt_of_le ?_ (Nat.lt_succ_iff.1 h))
      -- The tiles that are still ahead do not include this one.
      rw [List.countP_eq_length_filter, List.countP_eq_length_filter]
      have hahead : mapTiles.filter (fun q => decide (order (next p) ≤ order q)) =
          (mapTiles.filter fun q => decide (order p ≤ order q)).filter
            fun q => decide (order (next p) ≤ order q) := by
        rw [List.filter_filter]
        refine List.filter_congr fun q _ => ?_
        have himp : order (next p) ≤ order q → order p ≤ order q := (hnext p).le.trans
        by_cases hq : order (next p) ≤ order q
        · simp [hq, himp hq]
        · simp [hq]
      rw [hahead]
      refine List.length_filter_lt_length_iff_exists.2 ⟨p, ?_, ?_⟩
      · exact List.mem_filter.2 ⟨hmem, decide_eq_true le_rfl⟩
      · simpa using hnext p
    · rfl

/-- What the steps of a loop keep, holds where it ends. -/
theorem of_search_unused {I : ℤ × ℤ → Prop} (hstep : ∀ p, p ≠ last → I p → I (next p)) {fuel : ℕ}
    {q : ℤ × ℤ} (hp : I p) (h : search next last mapTiles fuel p = some (.unused q)) : I q := by
  induction fuel generalizing p with
  | zero => cases h
  | succ fuel ih =>
    unfold search at h
    split at h
    · cases h
    next hne =>
      split at h
      · exact ih (hstep p hne hp) h
      · cases h
        exact hp

theorem right_lt (b : MapBlock) (p : ℤ × ℤ) :
    toLex (p.2, p.1) < toLex ((b.right p).2, (b.right p).1) := by
  unfold MapBlock.right
  rw [Prod.Lex.toLex_lt_toLex]
  split
  · exact .inr ⟨rfl, by omega⟩
  · exact .inl (by simp)

theorem left_lt (b : MapBlock) (p : ℤ × ℤ) :
    toLex (-p.2, -p.1) < toLex (-(b.left p).2, -(b.left p).1) := by
  unfold MapBlock.left
  rw [Prod.Lex.toLex_lt_toLex]
  split
  · exact .inr ⟨rfl, by simp⟩
  · exact .inl (by simp)

/-- The two loops of `findRandomUnusedTileLocation` do not run out of rounds. -/
theorem loops_end (b : MapBlock) :
    (search b.right last mapTiles (mapTiles.length + 1) p).isSome ∧
      (search b.left last mapTiles (mapTiles.length + 1) p).isSome :=
  ⟨search_isSome (right_lt b) (Nat.lt_succ_of_le List.countP_le_length),
    search_isSome (left_lt b) (Nat.lt_succ_of_le List.countP_le_length)⟩

end Search

end Cme.Map
