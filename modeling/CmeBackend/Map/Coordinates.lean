import CmeBackend.Lib.Caps
import CmeBackend.Map.Steps

/-!
# Tiles and villages at a position

`map_tiles` has no unique constraint. `MapTilesService.create`, `VillagesService.create` and
`generateAutomatedVillages` look for a tile at the position before their transactions, and for a
village where it matters.

* `OneTile`: a position has one tile at most, and a village lies on a tile of its type only.
* `oneTile_iff`: this is so at every point of a run exactly if every transaction finds its position
  free.
-/

namespace Cme.Map

open Runs Caps

variable {C : Catalog} {s : State C} {d d' : MapDb C}

/-- A position has one tile at most, and no village if the tile is of another type. -/
structure OneTile (d : MapDb C) : Prop where
  tiles : ∀ p, d.mapTiles.rows.countP (·.at = p) ≤ 1
  villages : ∀ t ∈ d.mapTiles.rows, t.type ≠ .village → ¬d.VillageAt t.at

/-- A transaction finds no tile at its position, and no village if its tile is of another type. -/
def KeepsTiles (d : MapDb C) : Transaction → Prop
  | .village dto _ => ¬d.Occupied (dto.x, dto.y)
  | .generation p => ¬d.Occupied p
  | .tile dto _ =>
    ¬d.Occupied (dto.x, dto.y) ∧ (dto.type ≠ .village → ¬d.VillageAt (dto.x, dto.y))
  | .removal _ _ => True

instance (d : MapDb C) : (t : Transaction) → Decidable (KeepsTiles d t)
  | .village _ _ | .generation _ => inferInstanceAs (Decidable (¬_))
  | .tile _ _ => inferInstanceAs (Decidable (_ ∧ (_ → _)))
  | .removal _ _ => isTrue trivial

/-! ## One more tile -/

theorem OneTile.capped (h : OneTile d) :
    Capped (fun _ : ℤ × ℤ => 1) (fun p (t : MapTile) => decide (t.at = p)) d.mapTiles.rows :=
  h.tiles

/-- A tile is the only one at its position exactly if this was free. -/
theorem oneTile_concat_iff {t : MapTile} (h : OneTile d)
    (hrows : d'.mapTiles.rows = d.mapTiles.rows ++ [t]) :
    (∀ p, d'.mapTiles.rows.countP (·.at = p) ≤ 1) ↔ ¬d.Occupied t.at := by
  rw [hrows]
  refine (capped_concat_iff h.capped).trans ?_
  simp only [decide_eq_true_eq, forall_eq', Nat.lt_one_iff, List.countP_eq_zero]
  exact ⟨fun hfree ⟨t', ht', hat⟩ => hfree t' ht' hat, fun hfree t' ht' hat => hfree ⟨t', ht', hat⟩⟩

/-- A village comes with a tile of its type. -/
theorem oneTile_village_iff {p : ℤ × ℤ} {name : String} (h : OneTile d)
    (hadded : Added d p name d') : OneTile d' ↔ ¬d.Occupied p := by
  obtain ⟨t, hrows, rfl, htype, -⟩ := hadded.mapTiles
  rw [← oneTile_concat_iff h hrows]
  refine ⟨OneTile.tiles, fun htiles => ⟨htiles, fun t' ht' hother hvillage => ?_⟩⟩
  have hfree := (oneTile_concat_iff h hrows).1 htiles
  rw [hrows] at ht'
  rcases List.mem_append.1 ht' with ht' | ht'
  · rcases (hadded.villageAt_iff t'.at).1 hvillage with hvillage | hat
    · exact h.villages t' ht' hother hvillage
    · exact hfree ⟨t', ht', hat⟩
  · exact hother (List.mem_singleton.1 ht' ▸ htype)

/-- A tile on its own. -/
theorem oneTile_tile_iff {t : MapTile} (h : OneTile d)
    (hrows : d'.mapTiles.rows = d.mapTiles.rows ++ [t]) (hvillages : d'.villages = d.villages) :
    OneTile d' ↔ ¬d.Occupied t.at ∧ (t.type ≠ .village → ¬d.VillageAt t.at) := by
  have hsame : ∀ p, d'.VillageAt p ↔ d.VillageAt p := fun p => by
    unfold MapDb.VillageAt
    rw [hvillages]
  rw [← oneTile_concat_iff h hrows]
  constructor
  · intro hone
    refine ⟨hone.tiles, fun hother => ?_⟩
    rw [← hsame]
    exact hone.villages t (hrows ▸ List.mem_append_right _ List.mem_cons_self) hother
  · rintro ⟨htiles, hnew⟩
    refine ⟨htiles, fun t' ht' hother => ?_⟩
    rw [hsame]
    rw [hrows] at ht'
    rcases List.mem_append.1 ht' with ht' | ht'
    · exact h.villages t' ht' hother
    · rw [List.mem_singleton.1 ht'] at hother ⊢
      exact hnew hother

/-! ## One step -/

theorem oneTile_step_iff (h : OneTile s.db) (a : Action C) :
    OneTile (step s a).db ↔ Commits KeepsTiles s a := by
  rcases step_db s a with ⟨t, d, hcommit, hdb, -⟩ | ⟨hnone, hframe, -⟩
  · obtain ⟨-, now, hrun⟩ := committing_eq_some hcommit
    rw [commits_iff hcommit, hdb]
    cases t with
    | village dto user =>
      exact oneTile_village_iff h (.of_createVillage hrun)
    | tile dto overlayingVillage =>
      obtain ⟨tile, heq, hrows, hat, htype, -⟩ := createTile_eq_some hrun
      rw [oneTile_tile_iff h hrows (congrArg (·.villages) heq), hat, htype]
      rfl
    | removal tileId villageId =>
      cases hrun
      refine iff_of_true ⟨fun p => ?_, fun tile htile => ?_⟩ trivial
      · exact h.capped.sublist List.filter_sublist p
      · exact h.villages tile (List.mem_of_mem_filter htile)
    | generation p =>
      exact oneTile_village_iff h (.of_generateVillage hrun)
  · refine iff_of_true ⟨fun p => ?_, fun tile htile hother hvillage => ?_⟩ (commits_of_none hnone)
    · rw [hframe.mapTiles]
      exact h.tiles p
    · rw [hframe.mapTiles] at htile
      unfold MapDb.VillageAt at hvillage
      rw [hframe.villages] at hvillage
      exact h.villages tile htile hother hvillage

/-! ## Runs -/

/-- Every position has one tile at most, of the type of its village, at every point of a run exactly
if every tile of the run is inserted at a position that is still free. -/
theorem oneTile_iff (h : OneTile d) (as : List (Action C)) :
    (∀ bs, bs <+: as → OneTile (bs.foldl step (start d)).db) ↔
      Meets step (Commits KeepsTiles) (start d) as :=
  holds_iff_meets (I := fun _ => True) (P := fun s : State C => OneTile s.db) trivial
    (fun _ _ _ => trivial) h (fun _ a _ hs => oneTile_step_iff hs a) as

/-! ## Two requests for a position -/

/-- A village without a user, a user who is new, and no tiles. -/
def samplePlain : MapDb sampleCatalog where
  villages :=
    { rows := [⟨1, none, 7, 7, 0, 0⟩]
      next := 2
      nodup := by decide
      lt_next := by decide }
  villagesResourceTypes := Table.empty
  facilities := Table.empty
  villagesStorageResourceTypes := Table.empty
  attacks := Table.empty
  users :=
    { rows := [⟨1, true⟩]
      next := 2
      nodup := by decide
      lt_next := by decide }
  columns := fun _ => ⟨"plain", false⟩
  mapTiles := Table.empty
  mapBlocks := []
  automatedVillageHistory := Table.empty

/-- The state after a list of actions. -/
def afterPlain (as : List (Action sampleCatalog)) : State sampleCatalog :=
  as.foldl step (start samplePlain)

/-- The queries of a request for a tile. -/
def tileQueries (k : ℕ) : List (Action sampleCatalog) := [.read k (0, 0), .read k (0, 0)]

def sampleTile (type : MapTileType) : CreateMapTileDto := ⟨3, 4, type, none, some true⟩

/-- A tile, and a request for another one at its position that comes later. -/
def sampleTiles : List (Action sampleCatalog) :=
  .createTile (sampleTile .empty) :: tileQueries 0 ++ [.commit 0 0] ++
    .createTile (sampleTile .empty) :: tileQueries 1 ++ [.commit 1 0]

/-- Two requests for a tile that look for one before the other one is inserted. -/
def sampleTwoTiles : List (Action sampleCatalog) :=
  [.createTile (sampleTile .empty), .createTile (sampleTile .empty)] ++ tileQueries 0 ++
    tileQueries 1 ++ [.commit 0 0, .commit 1 0]

/-- A request for an empty tile, and one for a village at its position. -/
def sampleTileAndVillage : List (Action sampleCatalog) :=
  [.createTile (sampleTile .empty), .createVillage ⟨"hill", 3, 4⟩ 1] ++ tileQueries 0 ++
    List.replicate 4 (.read 1 (0, 0)) ++ [.commit 0 0, .commit 1 0]

theorem oneTile_samplePlain : OneTile samplePlain :=
  ⟨fun _ => Nat.zero_le 1, fun _ ht => absurd ht List.not_mem_nil⟩

theorem oneTile_iff_sample :
    (afterPlain sampleTiles).db.mapTiles.rows.length = 1 ∧
      ∀ bs, bs <+: sampleTiles → OneTile (afterPlain bs).db :=
  ⟨by decide +kernel, (oneTile_iff oneTile_samplePlain _).2 (by decide +kernel)⟩

/-- Two tiles at one position, and a village on an empty tile. -/
theorem tiles_overlap :
    ((afterPlain sampleTwoTiles).db.mapTiles.rows.map MapTile.at = [(3, 4), (3, 4)] ∧
      ¬OneTile (afterPlain sampleTwoTiles).db) ∧
    ((afterPlain sampleTileAndVillage).db.mapTiles.rows.map (·.type) = [.empty, .village] ∧
      ¬OneTile (afterPlain sampleTileAndVillage).db) :=
  ⟨⟨by decide +kernel, fun h => absurd (h.tiles (3, 4)) (by decide +kernel)⟩, by decide +kernel,
    fun h => absurd (h.tiles (3, 4)) (by decide +kernel)⟩

end Cme.Map
