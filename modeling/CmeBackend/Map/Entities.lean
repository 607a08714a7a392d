import CmeBackend.Production.Entities
import CmeBackend.Villages.Creation

/-!
# The tables of the map

The rows that the services of the map add to those of the game (`map-tile.entity.ts`,
`map-block.entity.ts`, `automated-village-history.entity.ts`, `user.entity.ts` and the migrations).
No constraint keeps two rows of `map_tiles` from having the same coordinates. `villages` has
`UNIQUE (name)` and `UNIQUE (x, y)`, so an insert that finds the name or the coordinates taken
(`MapDb.Taken`) fails.

* `MapDb.Linked`: the foreign key `map_tiles.village_id`.
-/

namespace Cme.Map

/-- A row of `users`. -/
structure User where
  id : ℕ
  new : Bool
  deriving DecidableEq, Repr

inductive MapTileType where
  | village
  | resourceTerrain
  | empty
  deriving DecidableEq, Repr

/-- A row of `map_tiles`, with the `type` of its row of `resource_types`. -/
structure MapTile where
  id : ℕ
  x : ℤ
  y : ℤ
  type : MapTileType
  terrainResourceType : Option String
  villageName : Option String
  isPassable : Option Bool
  villageId : Option ℕ
  deriving DecidableEq, Repr

/-- A row of `map_blocks`. -/
structure MapBlock where
  x1 : ℤ
  y1 : ℤ
  x2 : ℤ
  y2 : ℤ
  deriving DecidableEq, Repr

/-- A row of `automated_village_history`. -/
structure AutomatedVillageHistory where
  id : ℕ
  x : ℤ
  y : ℤ
  isRemoved : Bool
  villageId : ℕ
  deriving DecidableEq, Repr

instance : Keyed User := ⟨User.id⟩
instance : Keyed MapTile := ⟨MapTile.id⟩
instance : Keyed AutomatedVillageHistory := ⟨AutomatedVillageHistory.id⟩

/-- The columns of a row of `villages` that only the services of the map read. -/
structure VillageColumns where
  name : String
  automated : Bool
  deriving DecidableEq, Repr

structure MapDb (C : Catalog) extends Db C where
  users : Table User
  /-- By the id of the village. -/
  columns : ℕ → VillageColumns
  mapTiles : Table MapTile
  /-- No service writes these rows. -/
  mapBlocks : List MapBlock
  automatedVillageHistory : Table AutomatedVillageHistory

variable {C : Catalog}

/-- The coordinates of a tile. -/
def MapTile.at (t : MapTile) : ℤ × ℤ := (t.x, t.y)

/-- `Between(x1, x2)`, `Between(y1, y2)` -/
def MapBlock.Contains (b : MapBlock) (p : ℤ × ℤ) : Prop :=
  (b.x1 ≤ p.1 ∧ p.1 ≤ b.x2) ∧ b.y1 ≤ p.2 ∧ p.2 ≤ b.y2

instance (b : MapBlock) (p : ℤ × ℤ) : Decidable (b.Contains p) :=
  inferInstanceAs (Decidable ((_ ∧ _) ∧ _ ∧ _))

namespace MapDb

/-- There is a tile at the coordinates. -/
def Occupied (d : MapDb C) (p : ℤ × ℤ) : Prop := ∃ t ∈ d.mapTiles.rows, t.at = p

/-- There is a village at the coordinates. -/
def VillageAt (d : MapDb C) (p : ℤ × ℤ) : Prop := ∃ v ∈ d.villages.rows, (v.x, v.y) = p

/-- There is a village with the name. -/
def Named (d : MapDb C) (name : String) : Prop := ∃ v ∈ d.villages.rows, (d.columns v.id).name = name

/-- A unique constraint of `villages` refuses a row. -/
def Taken (d : MapDb C) (p : ℤ × ℤ) (name : String) : Prop := d.VillageAt p ∨ d.Named name

instance (d : MapDb C) (p : ℤ × ℤ) : Decidable (d.Occupied p) :=
  inferInstanceAs (Decidable (∃ t ∈ d.mapTiles.rows, _))
instance (d : MapDb C) (p : ℤ × ℤ) : Decidable (d.VillageAt p) :=
  inferInstanceAs (Decidable (∃ v ∈ d.villages.rows, _))
instance (d : MapDb C) (name : String) : Decidable (d.Named name) :=
  inferInstanceAs (Decidable (∃ v ∈ d.villages.rows, _))
instance (d : MapDb C) (p : ℤ × ℤ) (name : String) : Decidable (d.Taken p name) :=
  inferInstanceAs (Decidable (_ ∨ _))

/-- `village_id int REFERENCES villages` -/
def Linked (d : MapDb C) : Prop :=
  ∀ t ∈ d.mapTiles.rows, ∀ v ∈ t.villageId, v < d.villages.next

instance (d : MapDb C) : Decidable d.Linked :=
  inferInstanceAs (Decidable (∀ t ∈ d.mapTiles.rows, ∀ v ∈ t.villageId, _))

/-- `tile.village?.automated` -/
def automated (d : MapDb C) (t : MapTile) : Bool :=
  match t.villageId with
  | some v => (d.columns v).automated
  | none => false

end MapDb

end Cme.Map
