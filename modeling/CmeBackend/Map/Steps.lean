import CmeBackend.Lib.Runs
import CmeBackend.Lib.Weights
import CmeBackend.Map.Villages

/-!
# Requests and cron runs on the map

`MapTilesService.create` (`map-tiles.service.ts`), `VillagesService.create` and
`removeAndGenerateAutomatedVillages` (`villages.service.ts`) as they run in the processes of the
cluster, call by call. What a request has read is kept in its `Worker`. A transaction is one step:
the others see its rows when it commits, and a unique constraint that it runs into waits for the
transactions before it.

* The transactions of a cron run are not awaited, so each is a worker of its own.
* `Action.counts`: what other operations make of the counts of the villages.
* `State.granted`: the villages that were created with the starter grant, with their users.
* `step_db`: the tables change by a transaction that commits, and by `counts`.
* `Added`: what both kinds of new villages leave, a village and its tile.
-/

namespace Cme.Map

open Weights

variable {C : Catalog}

/-! ## `MapTilesService.create` -/

structure CreateMapTileDto where
  x : ℤ
  y : ℤ
  type : MapTileType
  terrainResourceType : Option String
  isPassable : Option Bool

def passableTerrainResourcesList : List String :=
  ["croplands", "forest", "swamp", "mines", "hills", "plains"]

/-- The part that reads the tiles. -/
def checkOverlayingMapTile (d : MapDb C) (dto : CreateMapTileDto) : Except Failure Unit :=
  if d.Occupied (dto.x, dto.y) then
    .error (.exception ⟨"Your map tile overlays with another map tile", .badRequest⟩)
  else .ok ()

/-- The part that reads the villages. -/
def checkOverlayingVillage (d : MapDb C) (dto : CreateMapTileDto) :
    Except Failure (Option Village) :=
  let overlayingVillage := d.villages.rows.find? fun v => (v.x, v.y) = (dto.x, dto.y)
  if overlayingVillage.isSome ∧ dto.type ≠ .village then
    .error (.exception ⟨"Your map tile overlays with a village", .badRequest⟩)
  else .ok overlayingVillage

/-- The row of the resource type of a terrain. A request without one gets any row. -/
def terrainOf (C : Catalog) (terrainResourceType : Option String) : Option ResourceType :=
  match terrainResourceType with
  | some type => C.types.rows.find? (·.type = type)
  | none => C.types.rows.head?

/-- The tile that is saved. -/
def newTile (dto : CreateMapTileDto) (terrain : Option ResourceType)
    (overlayingVillage : Option (Village × String)) (id : ℕ) : MapTile :=
  { id
    x := dto.x
    y := dto.y
    type := dto.type
    terrainResourceType := terrain.map ResourceType.type
    villageName := overlayingVillage.map Prod.snd
    isPassable :=
      if dto.type = .resourceTerrain then
        some (dto.terrainResourceType.any (· ∈ passableTerrainResourcesList))
      else dto.isPassable
    villageId := overlayingVillage.map fun v => v.1.id }

/-- The transaction. A tile of the type `village` is linked to the village that has been read. -/
def createTile (d : MapDb C) (dto : CreateMapTileDto) (overlayingVillage : Option Village) :
    Option (MapDb C) :=
  if dto.type = .resourceTerrain ∧ terrainOf C dto.terrainResourceType = none then none else
    let terrain := if dto.type = .resourceTerrain then terrainOf C dto.terrainResourceType else none
    let linked := if dto.type = .village then overlayingVillage else none
    some { d with
      mapTiles := d.mapTiles.insert
        (newTile dto terrain (linked.map fun v => (v, (d.columns v.id).name))) }

/-! ## Workers -/

/-- A transaction that is under way. -/
inductive Transaction where
  | village (dto : CreateVillageDto) (user : User)
  | tile (dto : CreateMapTileDto) (overlayingVillage : Option Village)
  | removal (tileId villageId : ℕ)
  | generation (p : ℤ × ℤ)

/-- The tables after a transaction at the time `now`, if no constraint refuses it. -/
def Transaction.run (d : MapDb C) (now : ℤ) : Transaction → Option (MapDb C)
  | .village dto user => createVillage d dto user now
  | .tile dto overlayingVillage => createTile d dto overlayingVillage
  | .removal tileId villageId => some (removeVillage d tileId villageId)
  | .generation p => generateVillage d p now

/-- A request or a cron run, before its next call. -/
inductive Worker (C : Catalog) where
  | findUser (dto : CreateVillageDto) (userId : ℕ)
  | findVillages (dto : CreateVillageDto) (user : User)
  | checkTile (dto : CreateVillageDto) (user : User) (villages : List (LoadedVillage C))
  | checkVillages (dto : CreateVillageDto) (user : User) (villages : List (LoadedVillage C))
  | findTile (dto : CreateMapTileDto)
  | findVillage (dto : CreateMapTileDto)
  | remove
  | generate (mapBlocks : List MapBlock)
  | transaction (t : Transaction)
  | ended (failure : Option Failure)

/-- What comes of the checks of a request. -/
def Worker.check {α : Type} (x : Except Failure α) (next : α → Worker C) : Worker C :=
  match x with
  | .ok a => next a
  | .error e => .ended (some e)

/-- The next query of a worker: how it goes on, and the transactions that it starts. -/
def Worker.read (d : MapDb C) (random : ℚ × ℚ) : Worker C → Worker C × List (Worker C)
  | .findUser dto userId =>
    match d.users.get? userId with
    | some user => (.findVillages dto user, [])
    | none => (.ended (some .entityNotFound), [])
  | .findVillages dto user => (.checkTile dto user (villagesForThisUser d user.id), [])
  | .checkTile dto user villages =>
    (.check (checkOccupiedMapTile d dto) fun dto => .checkVillages dto user villages, [])
  | .checkVillages dto user villages =>
    (.check (Map.checkVillages d dto villages) fun _ => .transaction (.village dto user), [])
  | .findTile dto => (.check (checkOverlayingMapTile d dto) fun _ => .findVillage dto, [])
  | .findVillage dto =>
    (.check (checkOverlayingVillage d dto) fun village => .transaction (.tile dto village), [])
  | .remove =>
    (.generate d.mapBlocks, (emptyAutomatedVillages d).map fun v => .transaction (.removal v.1 v.2))
  | .generate [] => (.ended none, [])
  | .generate (mapBlock :: rest) =>
    (.generate rest,
      (unusedTileLocation d mapBlock random).toList.map fun p => .transaction (.generation p))
  | w => (w, [])

inductive Action (C : Catalog) where
  | createVillage (dto : CreateVillageDto) (userId : ℕ)
  | createTile (dto : CreateMapTileDto)
  /-- One more `removeAndGenerateAutomatedVillages`, in any process. -/
  | cron
  | read (k : ℕ) (random : ℚ × ℚ)
  | commit (k : ℕ) (now : ℤ)
  /-- A call of a worker fails. -/
  | fail (k : ℕ)
  | counts (count : VillageResourceType C → ℤ)

structure State (C : Catalog) where
  db : MapDb C
  workers : List (Worker C)
  /-- The user and the id of each village that was created with the starter grant. -/
  granted : List (ℕ × ℕ)

/-- No request has come yet. -/
def start (db : MapDb C) : State C := ⟨db, [], []⟩

namespace State

def goto (s : State C) (k : ℕ) (w : Worker C) : State C := { s with workers := s.workers.set k w }

def spawn (s : State C) (ws : List (Worker C)) : State C := { s with workers := s.workers ++ ws }

/-- The starter grant of a transaction. -/
def grants (s : State C) : Transaction → List (ℕ × ℕ)
  | .village _ user => if user.new then [(user.id, s.db.villages.next)] else []
  | _ => []

/-- A transaction goes through, or is rolled back. -/
def commit (s : State C) (k : ℕ) (t : Transaction) (now : ℤ) : State C :=
  match t.run s.db now with
  | some db =>
    { db, workers := s.workers.set k (.ended none), granted := s.granted ++ s.grants t }
  | none => s.goto k (.ended (some .failed))

end State

/-- An action that does not fit its worker does nothing. -/
def step (s : State C) : Action C → State C
  | .createVillage dto userId => s.spawn [.findUser dto userId]
  | .createTile dto => s.spawn [.findTile dto]
  | .cron => s.spawn [.remove]
  | .read k random =>
    match s.workers[k]? with
    | some w => (s.goto k (w.read s.db random).1).spawn (w.read s.db random).2
    | none => s
  | .commit k now =>
    match s.workers[k]? with
    | some (.transaction t) => s.commit k t now
    | _ => s
  | .fail k => s.goto k (.ended (some .failed))
  | .counts count => { s with db := { s.db with toDb := s.db.toDb.setCounts count } }

/-! ## What a step changes -/

/-- The transaction that an action commits, and the tables after it. -/
def committing (s : State C) : Action C → Option (Transaction × MapDb C)
  | .commit k now =>
    match s.workers[k]? with
    | some (.transaction t) => (t.run s.db now).map fun d => (t, d)
    | _ => none
  | _ => none

/-- What has to be so of the transaction that an action commits, and of the tables it finds. -/
def Commits (P : MapDb C → Transaction → Prop) (s : State C) (a : Action C) : Prop :=
  ∀ p ∈ committing s a, P s.db p.1

instance {P : MapDb C → Transaction → Prop} [∀ d t, Decidable (P d t)] (s : State C)
    (a : Action C) : Decidable (Commits P s a) :=
  inferInstanceAs (Decidable (∀ p ∈ committing s a, _))

theorem commits_iff {P : MapDb C → Transaction → Prop} {s : State C} {a : Action C}
    {t : Transaction} {d : MapDb C} (h : committing s a = some (t, d)) :
    Commits P s a ↔ P s.db t := by
  constructor
  · exact fun hall => hall (t, d) h
  · intro ht p hp
    rw [h] at hp
    cases hp
    exact ht

theorem commits_of_none {P : MapDb C → Transaction → Prop} {s : State C} {a : Action C}
    (h : committing s a = none) : Commits P s a := by
  intro p hp
  rw [h] at hp
  cases hp

/-- The tables that this model is about are the same. -/
structure Frame (d d' : MapDb C) : Prop where
  villages : d'.villages = d.villages
  users : d'.users = d.users
  columns : d'.columns = d.columns
  mapTiles : d'.mapTiles = d.mapTiles
  mapBlocks : d'.mapBlocks = d.mapBlocks

theorem Frame.refl (d : MapDb C) : Frame d d := ⟨rfl, rfl, rfl, rfl, rfl⟩

/-- A step commits a transaction, or changes nothing but counts. -/
theorem step_db (s : State C) (a : Action C) :
    (∃ t d, committing s a = some (t, d) ∧ (step s a).db = d ∧
      (step s a).granted = s.granted ++ s.grants t) ∨
    (committing s a = none ∧ Frame s.db (step s a).db ∧ (step s a).granted = s.granted) := by
  cases a with
  | commit k now =>
    simp only [step, committing]
    split
    next t hk =>
      cases ht : t.run s.db now with
      | some d =>
        refine .inl ⟨t, d, rfl, ?_, ?_⟩ <;> simp only [State.commit, ht]
      | none =>
        refine .inr ⟨rfl, ?_, ?_⟩ <;> simp only [State.commit, ht]
        · exact .refl s.db
        · rfl
    · exact .inr ⟨rfl, .refl s.db, rfl⟩
  | read k random =>
    refine .inr ⟨rfl, ?_, ?_⟩ <;> simp only [step] <;> split
    · exact .refl s.db
    · exact .refl s.db
    · rfl
    · rfl
  | _ => exact .inr ⟨rfl, ⟨rfl, rfl, rfl, rfl, rfl⟩, rfl⟩

/-- A transaction that commits is that of a worker. -/
theorem committing_eq_some {s : State C} {a : Action C} {t : Transaction} {d : MapDb C}
    (h : committing s a = some (t, d)) :
    .transaction t ∈ s.workers ∧ ∃ now, t.run s.db now = some d := by
  cases a with
  | commit k now =>
    simp only [committing] at h
    split at h
    next hk =>
      obtain ⟨d', hd, heq⟩ := Option.map_eq_some_iff.1 h
      cases heq
      exact ⟨List.mem_of_getElem? hk, now, hd⟩
    · cases h
  | _ => cases h

/-- Where a worker comes from. -/
inductive Origin (s : State C) : Worker C → Prop
  | kept {w : Worker C} : w ∈ s.workers → Origin s w
  | createVillage (dto : CreateVillageDto) (userId : ℕ) : Origin s (.findUser dto userId)
  | createTile (dto : CreateMapTileDto) : Origin s (.findTile dto)
  | cron : Origin s .remove
  | ended (failure : Option Failure) : Origin s (.ended failure)
  | read {w : Worker C} (random : ℚ × ℚ) : w ∈ s.workers → Origin s (w.read s.db random).1
  | started {w w' : Worker C} (random : ℚ × ℚ) : w ∈ s.workers → w' ∈ (w.read s.db random).2 →
      Origin s w'

theorem origin {s : State C} {a : Action C} {w : Worker C} (hw : w ∈ (step s a).workers) :
    Origin s w := by
  have hspawn : ∀ {w' : Worker C}, w ∈ s.workers ++ [w'] → Origin s w' → Origin s w := by
    intro w' hmem hnew
    rcases List.mem_append.1 hmem with hmem | hmem
    · exact .kept hmem
    · exact List.mem_singleton.1 hmem ▸ hnew
  have hend : ∀ {k : ℕ} {failure : Option Failure}, w ∈ s.workers.set k (.ended failure) →
      Origin s w := by
    intro k failure hmem
    rcases List.mem_or_eq_of_mem_set hmem with hmem | rfl
    · exact .kept hmem
    · exact .ended failure
  cases a with
  | createVillage dto userId => exact hspawn hw (.createVillage dto userId)
  | createTile dto => exact hspawn hw (.createTile dto)
  | cron => exact hspawn hw .cron
  | fail k => exact hend hw
  | counts count => exact .kept hw
  | commit k now =>
    simp only [step] at hw
    split at hw
    next t hk =>
      unfold State.commit at hw
      split at hw <;> exact hend hw
    · exact .kept hw
  | read k random =>
    simp only [step] at hw
    split at hw
    next w₀ hk =>
      have hw₀ := List.mem_of_getElem? hk
      rcases List.mem_append.1 hw with hw | hw
      · rcases List.mem_or_eq_of_mem_set hw with hw | rfl
        · exact .kept hw
        · exact .read random hw₀
      · exact .started random hw₀ hw
    · exact .kept hw

section Transactions

variable {d d' : MapDb C} {now : ℤ}

theorem createVillage_eq_some {dto : CreateVillageDto} {user : User}
    (h : createVillage d dto user now = some d') :
    ¬d.Taken (dto.x, dto.y) dto.name ∧
      d'.villages.rows = d.villages.rows ++ [⟨d.villages.next, some user.id, dto.x, dto.y, now, 0⟩] ∧
      d'.villages.next = d.villages.next + 1 ∧
      d'.users =
        (if user.new then d.users.update user.id fun u => { u with new := false } else d.users) ∧
      d'.columns = Function.update d.columns d.villages.next ⟨dto.name, false⟩ ∧
      d'.mapTiles.rows = d.mapTiles.rows ++ [⟨d.mapTiles.next, dto.x, dto.y, .village, none,
        some dto.name, none, some d.villages.next⟩] ∧
      d'.mapBlocks = d.mapBlocks := by
  unfold createVillage at h
  split at h
  · cases h
  next htaken =>
    cases h
    have hvillages := Db.villages_createVillage (d := d.toDb)
      ⟨some user.id, dto.x, dto.y, now, 0⟩ user.new
    exact ⟨htaken, congrArg Table.rows hvillages, congrArg Table.next hvillages, rfl, rfl, rfl, rfl⟩

theorem generateVillage_eq_some {p : ℤ × ℤ} (h : generateVillage d p now = some d') :
    ¬d.Taken p (automatedName p) ∧
      d'.villages.rows = d.villages.rows ++ [⟨d.villages.next, none, p.1, p.2, now, 0⟩] ∧
      d'.villages.next = d.villages.next + 1 ∧
      d'.users = d.users ∧
      d'.columns = Function.update d.columns d.villages.next ⟨automatedName p, true⟩ ∧
      d'.mapTiles.rows = d.mapTiles.rows ++ [⟨d.mapTiles.next, p.1, p.2, .village, none, none, none,
        some d.villages.next⟩] ∧
      d'.mapBlocks = d.mapBlocks := by
  unfold generateVillage at h
  split at h
  · cases h
  next htaken =>
    cases h
    have hvillages := Db.villages_generateVillage (d := d.toDb) ⟨none, p.1, p.2, now, 0⟩
    exact ⟨htaken, congrArg Table.rows hvillages, congrArg Table.next hvillages, rfl, rfl, rfl, rfl⟩

/-- A new tile has the coordinates and the type of the request. -/
theorem createTile_eq_some {dto : CreateMapTileDto} {overlayingVillage : Option Village}
    (h : createTile d dto overlayingVillage = some d') :
    ∃ t, d' = { d with mapTiles := d'.mapTiles } ∧ d'.mapTiles.rows = d.mapTiles.rows ++ [t] ∧
      t.at = (dto.x, dto.y) ∧ t.type = dto.type ∧
      t.villageId = (if dto.type = .village then overlayingVillage else none).map Village.id := by
  unfold createTile at h
  split at h
  · cases h
  · cases h
    refine ⟨_, rfl, rfl, rfl, rfl, ?_⟩
    exact Option.map_map _ _ _

end Transactions

/-! ## A village with its tile -/

variable {d d' : MapDb C}

/-- A village, and a tile at its coordinates. -/
structure Added (d : MapDb C) (p : ℤ × ℤ) (name : String) (d' : MapDb C) : Prop where
  next : d'.villages.next = d.villages.next + 1
  villages : ∃ v : Village, d'.villages.rows = d.villages.rows ++ [v] ∧ v.id = d.villages.next ∧
    (v.x, v.y) = p
  columns : ∃ automated, d'.columns = Function.update d.columns d.villages.next ⟨name, automated⟩
  mapTiles : ∃ t : MapTile, d'.mapTiles.rows = d.mapTiles.rows ++ [t] ∧ t.at = p ∧
    t.type = .village ∧ t.villageId = some d.villages.next
  mapBlocks : d'.mapBlocks = d.mapBlocks

namespace Added

variable {p : ℤ × ℤ} {name : String}

theorem of_createVillage {dto : CreateVillageDto} {user : User} {now : ℤ}
    (h : createVillage d dto user now = some d') : Added d (dto.x, dto.y) dto.name d' := by
  obtain ⟨-, hvillages, hnext, -, hcolumns, htiles, hblocks⟩ := createVillage_eq_some h
  exact ⟨hnext, ⟨_, hvillages, rfl, rfl⟩, ⟨_, hcolumns⟩, ⟨_, htiles, rfl, rfl, rfl⟩, hblocks⟩

theorem of_generateVillage {now : ℤ} (h : generateVillage d p now = some d') :
    Added d p (automatedName p) d' := by
  obtain ⟨-, hvillages, hnext, -, hcolumns, htiles, hblocks⟩ := generateVillage_eq_some h
  exact ⟨hnext, ⟨_, hvillages, rfl, rfl⟩, ⟨_, hcolumns⟩, ⟨_, htiles, rfl, rfl, rfl⟩, hblocks⟩

variable (h : Added d p name d')

include h

theorem occupied_iff (q : ℤ × ℤ) : d'.Occupied q ↔ d.Occupied q ∨ q = p := by
  obtain ⟨t, hrows, hat, -⟩ := h.mapTiles
  unfold MapDb.Occupied
  simp [hrows, or_and_right, exists_or, hat, eq_comm]

theorem villageAt_iff (q : ℤ × ℤ) : d'.VillageAt q ↔ d.VillageAt q ∨ q = p := by
  obtain ⟨v, hrows, -, hat⟩ := h.villages
  unfold MapDb.VillageAt
  simp [hrows, or_and_right, exists_or, hat, eq_comm]

/-- The other villages keep their names. -/
theorem columns_of_mem {v : Village} (hv : v ∈ d.villages.rows) :
    d'.columns v.id = d.columns v.id := by
  obtain ⟨automated, hcolumns⟩ := h.columns
  have hne : v.id ≠ d.villages.next := Nat.ne_of_lt (d.villages.lt_next v hv)
  rw [hcolumns, Function.update_of_ne hne]

theorem named_iff (n : String) : d'.Named n ↔ d.Named n ∨ n = name := by
  obtain ⟨v, hrows, hid, -⟩ := h.villages
  obtain ⟨automated, hcolumns⟩ := h.columns
  have hname : (d'.columns v.id).name = name := by rw [hcolumns, hid, Function.update_self]
  constructor
  · rintro ⟨w, hw, rfl⟩
    rw [hrows] at hw
    rcases List.mem_append.1 hw with hw | hw
    · exact .inl ⟨w, hw, by rw [h.columns_of_mem hw]⟩
    · exact .inr (List.mem_singleton.1 hw ▸ hname)
  · rintro (⟨w, hw, rfl⟩ | rfl)
    · exact ⟨w, hrows ▸ List.mem_append_left _ hw, by rw [h.columns_of_mem hw]⟩
    · exact ⟨v, hrows ▸ List.mem_append_right _ List.mem_cons_self, hname⟩

end Added

end Cme.Map
