import CmeBackend.Lib.Caps
import CmeBackend.Map.Steps

/-!
# Automated villages in a block

A block of the map may have five tiles with an automated village. A cron run counts them, and the
transaction that adds one comes at any time later. Blocks may overlap.

* `Refers`: the tiles, and the requests for tiles, are linked to villages that there are. So a new
  village does not change what is counted for the tiles before.
* `withinBlocks_iff`: no block ever has too many exactly if each tile that gets an automated village
  finds room in every block around it.
-/

namespace Cme.Map

open Runs Caps Weights

variable {C : Catalog} {s : State C} {d d' : MapDb C}

/-- No block has more than five tiles with an automated village. -/
def WithinBlocks (d : MapDb C) : Prop :=
  ∀ b ∈ d.mapBlocks, automatedIn d b ≤ MAX_AUTOMATED_VILLAGES_IN_MAP_BLOCK

/-- There is room for one more in every block around a position. -/
def RoomAround (d : MapDb C) (p : ℤ × ℤ) : Prop :=
  ∀ b ∈ d.mapBlocks, b.Contains p → automatedIn d b < MAX_AUTOMATED_VILLAGES_IN_MAP_BLOCK

instance (d : MapDb C) (p : ℤ × ℤ) : Decidable (RoomAround d p) :=
  inferInstanceAs (Decidable (∀ b ∈ d.mapBlocks, _))

/-- The automated village of a transaction finds room. A request for a tile links it to a village
that may be automated. -/
def KeepsBlocks (d : MapDb C) : Transaction → Prop
  | .generation p => RoomAround d p
  | .tile dto overlayingVillage =>
    dto.type = .village → (∃ v ∈ overlayingVillage, (d.columns v.id).automated) →
      RoomAround d (dto.x, dto.y)
  | _ => True

instance (d : MapDb C) : (t : Transaction) → Decidable (KeepsBlocks d t)
  | .generation p => inferInstanceAs (Decidable (RoomAround d p))
  | .tile _ _ => inferInstanceAs (Decidable (_ → _ → _))
  | .village _ _ | .removal _ _ => isTrue trivial

/-! ## One more tile -/

theorem automatedIn_eq (b : MapBlock) :
    automatedIn d b = d.mapTiles.rows.countP fun t => b.Contains t.at ∧ d.automated t := by
  unfold automatedIn blockTiles
  rw [List.filter_filter, List.countP_eq_length_filter]
  congr 2
  funext t
  simp [Bool.and_comm]

/-- A tile is counted where it lies, if its village is automated. -/
theorem automatedIn_concat {t : MapTile} (hrows : d'.mapTiles.rows = d.mapTiles.rows ++ [t])
    (hold : ∀ t ∈ d.mapTiles.rows, d'.automated t = d.automated t) (b : MapBlock) :
    automatedIn d' b = automatedIn d b + if b.Contains t.at ∧ d'.automated t then 1 else 0 := by
  rw [automatedIn_eq, automatedIn_eq, hrows, countP_concat]
  congr 1
  · exact List.countP_congr fun t ht => by rw [hold t ht]
  · simp only [decide_eq_true_eq]

theorem withinBlocks_concat_iff {t : MapTile} (h : WithinBlocks d)
    (hrows : d'.mapTiles.rows = d.mapTiles.rows ++ [t]) (hblocks : d'.mapBlocks = d.mapBlocks)
    (hold : ∀ t ∈ d.mapTiles.rows, d'.automated t = d.automated t) :
    WithinBlocks d' ↔ (d'.automated t → RoomAround d t.at) := by
  unfold WithinBlocks RoomAround
  rw [hblocks]
  have hcount : ∀ b ∈ d.mapBlocks, automatedIn d' b ≤ MAX_AUTOMATED_VILLAGES_IN_MAP_BLOCK ↔
      (d'.automated t → b.Contains t.at →
        automatedIn d b < MAX_AUTOMATED_VILLAGES_IN_MAP_BLOCK) := by
    intro b hb
    have hle := h b hb
    rw [automatedIn_concat hrows hold]
    by_cases ht : b.Contains t.at ∧ d'.automated t
    · rw [if_pos ht]
      simp only [ht.1, ht.2, true_imp_iff]
      exact Nat.succ_le_iff
    · rw [if_neg ht]
      exact iff_of_true hle fun hauto hcontains => absurd ⟨hcontains, hauto⟩ ht
  constructor
  · exact fun hall hauto b hb => (hcount b hb).1 (hall b hb) hauto
  · exact fun hall b hb => (hcount b hb).2 fun hauto => hall hauto b hb

/-! ## Links -/

/-- The links are to villages of the table. -/
structure Refers (s : State C) : Prop where
  tiles : s.db.Linked
  requests : ∀ dto v, .transaction (.tile dto (some v)) ∈ s.workers → v.id < s.db.villages.next

/-- A new village is not that of a tile before. -/
theorem automated_of_linked {c : VillageColumns} (h : d.Linked)
    (hcolumns : d'.columns = Function.update d.columns d.villages.next c) :
    ∀ t ∈ d.mapTiles.rows, d'.automated t = d.automated t := by
  intro t ht
  unfold MapDb.automated
  cases hv : t.villageId with
  | none => rfl
  | some v =>
    simp only
    rw [hcolumns, Function.update_of_ne (h t ht v hv).ne]

theorem Linked.concat {t : MapTile} (h : d.Linked)
    (hrows : d'.mapTiles.rows = d.mapTiles.rows ++ [t])
    (hnext : d.villages.next ≤ d'.villages.next)
    (ht : ∀ v ∈ t.villageId, v < d'.villages.next) : d'.Linked := by
  intro t' ht' v hv
  rw [hrows] at ht'
  rcases List.mem_append.1 ht' with ht' | ht'
  · exact (h t' ht' v hv).trans_le hnext
  · rw [List.mem_singleton.1 ht'] at hv
    exact ht v hv

/-- A request for a tile has found its village in the table. -/
theorem tile_read {w : Worker C} {random : ℚ × ℚ} {dto : CreateMapTileDto} {v : Village}
    (h : (w.read d random).1 = .transaction (.tile dto (some v))) :
    w = .transaction (.tile dto (some v)) ∨ v ∈ d.villages.rows := by
  cases w with
  | findVillage dto' =>
    simp only [Worker.read, Worker.check] at h
    split at h
    next found hcheck =>
      cases h
      unfold checkOverlayingVillage at hcheck
      dsimp only at hcheck
      split at hcheck
      · cases hcheck
      · exact .inr (List.mem_of_find?_eq_some (Except.ok.inj hcheck))
    · cases h
  | findUser dto' userId =>
    simp only [Worker.read] at h
    split at h <;> cases h
  | checkTile dto' user villages =>
    simp only [Worker.read, Worker.check] at h
    split at h <;> cases h
  | checkVillages dto' user villages =>
    simp only [Worker.read, Worker.check] at h
    split at h <;> cases h
  | findTile dto' =>
    simp only [Worker.read, Worker.check] at h
    split at h <;> cases h
  | generate mapBlocks => cases mapBlocks <;> cases h
  | transaction t => exact .inl h
  | _ => cases h

/-- A cron run starts no requests for tiles. -/
theorem tile_started {w : Worker C} {random : ℚ × ℚ} {dto : CreateMapTileDto} {v : Option Village} :
    .transaction (.tile dto v) ∉ (w.read d random).2 := by
  intro hw'
  cases w with
  | remove =>
    obtain ⟨v, -, h⟩ := List.mem_map.1 hw'
    cases h
  | generate mapBlocks =>
    cases mapBlocks with
    | nil => cases hw'
    | cons mapBlock rest =>
      obtain ⟨p, -, h⟩ := List.mem_map.1 hw'
      cases h
  | findUser dto userId =>
    simp only [Worker.read] at hw'
    split at hw' <;> cases hw'
  | _ => cases hw'

/-- Villages are only added. -/
theorem next_step (s : State C) (a : Action C) :
    s.db.villages.next ≤ (step s a).db.villages.next := by
  rcases step_db s a with ⟨t, d, hcommit, hdb, -⟩ | ⟨-, hframe, -⟩
  · obtain ⟨-, now, hrun⟩ := committing_eq_some hcommit
    rw [hdb]
    cases t with
    | village dto user =>
      obtain ⟨-, -, hnext, -⟩ := createVillage_eq_some hrun
      exact hnext ▸ Nat.le_succ _
    | tile dto overlayingVillage =>
      obtain ⟨_, heq, -⟩ := createTile_eq_some hrun
      exact (congrArg (·.villages.next) heq).ge
    | removal tileId villageId =>
      cases hrun
      exact le_rfl
    | generation p =>
      obtain ⟨-, -, hnext, -⟩ := generateVillage_eq_some hrun
      exact hnext ▸ Nat.le_succ _
  · rw [hframe.villages]

/-- The links after a transaction. -/
theorem linked_run {t : Transaction} {now : ℤ} (h : Refers s) (ht : .transaction t ∈ s.workers)
    (hrun : t.run s.db now = some d) : d.Linked := by
  cases t with
  | village dto user =>
    obtain ⟨-, -, hnext, -, -, hrows, -⟩ := createVillage_eq_some hrun
    refine Linked.concat h.tiles hrows (hnext ▸ Nat.le_succ _) fun v hv => ?_
    cases hv
    exact hnext ▸ Nat.lt_succ_self _
  | tile dto overlayingVillage =>
    obtain ⟨tile, heq, hrows, -, -, hlink⟩ := createTile_eq_some hrun
    have hnext : d.villages.next = s.db.villages.next := congrArg (·.villages.next) heq
    refine Linked.concat h.tiles hrows hnext.ge fun v hv => ?_
    rw [hlink] at hv
    split at hv
    · obtain ⟨village, rfl, rfl⟩ := Option.map_eq_some_iff.1 hv
      exact hnext ▸ h.requests dto village ht
    · cases hv
  | removal tileId villageId =>
    cases hrun
    exact fun tile htile => h.tiles tile (List.mem_of_mem_filter htile)
  | generation p =>
    obtain ⟨-, -, hnext, -, -, hrows, -⟩ := generateVillage_eq_some hrun
    refine Linked.concat h.tiles hrows (hnext ▸ Nat.le_succ _) fun v hv => ?_
    cases hv
    exact hnext ▸ Nat.lt_succ_self _

theorem Refers.step (h : Refers s) (a : Action C) : Refers (step s a) := by
  constructor
  · rcases step_db s a with ⟨t, d, hcommit, hdb, -⟩ | ⟨-, hframe, -⟩
    · obtain ⟨hworker, now, hrun⟩ := committing_eq_some hcommit
      rw [hdb]
      exact linked_run h hworker hrun
    · unfold MapDb.Linked
      rw [hframe.mapTiles, hframe.villages]
      exact h.tiles
  · intro dto v hw
    refine Nat.lt_of_lt_of_le ?_ (next_step s a)
    generalize hw' : Worker.transaction (.tile dto (some v)) = w at hw
    cases origin hw with
    | kept hmem => exact h.requests dto v (hw' ▸ hmem)
    | read random hmem =>
      rcases tile_read hw'.symm with rfl | hrow
      · exact h.requests dto v hmem
      · exact s.db.villages.lt_next v hrow
    | started random hmem hstarted => exact absurd (hw' ▸ hstarted) tile_started
    | _ => cases hw'

/-! ## One step -/

theorem withinBlocks_step_iff (hr : Refers s) (h : WithinBlocks s.db) (a : Action C) :
    WithinBlocks (step s a).db ↔ Commits KeepsBlocks s a := by
  rcases step_db s a with ⟨t, d, hcommit, hdb, -⟩ | ⟨hnone, hframe, -⟩
  · obtain ⟨-, now, hrun⟩ := committing_eq_some hcommit
    rw [commits_iff hcommit, hdb]
    cases t with
    | village dto user =>
      obtain ⟨-, -, -, -, hcolumns, hrows, hblocks⟩ := createVillage_eq_some hrun
      rw [withinBlocks_concat_iff h hrows hblocks (automated_of_linked hr.tiles hcolumns)]
      refine iff_of_true (fun hauto => ?_) trivial
      simp [MapDb.automated, hcolumns] at hauto
    | tile dto overlayingVillage =>
      obtain ⟨tile, heq, hrows, hat, -, hlink⟩ := createTile_eq_some hrun
      have hcolumns : d.columns = s.db.columns := congrArg (·.columns) heq
      have hold : ∀ t, d.automated t = s.db.automated t := fun t => by
        rw [MapDb.automated, hcolumns, MapDb.automated]
      rw [withinBlocks_concat_iff h hrows (congrArg (·.mapBlocks) heq) fun t _ => hold t, hold, hat]
      have hauto : s.db.automated tile ↔ dto.type = .village ∧
          ∃ v ∈ overlayingVillage, (s.db.columns v.id).automated := by
        rw [MapDb.automated, hlink]
        by_cases htype : dto.type = .village
        · cases overlayingVillage <;> simp [htype]
        · simp [htype]
      rw [hauto]
      exact and_imp
    | removal tileId villageId =>
      cases hrun
      refine iff_of_true (fun b hb => ?_) trivial
      refine Nat.le_trans ?_ (h b hb)
      rw [automatedIn_eq, automatedIn_eq]
      exact List.Sublist.countP_le List.filter_sublist
    | generation p =>
      obtain ⟨-, -, -, -, hcolumns, hrows, hblocks⟩ := generateVillage_eq_some hrun
      rw [withinBlocks_concat_iff h hrows hblocks (automated_of_linked hr.tiles hcolumns)]
      refine imp_iff_right ?_
      simp [MapDb.automated, hcolumns]
  · refine iff_of_true (fun b hb => ?_) (commits_of_none hnone)
    rw [hframe.mapBlocks] at hb
    have hcount := h b hb
    unfold automatedIn blockTiles MapDb.automated at hcount ⊢
    rwa [hframe.mapTiles, hframe.columns]

/-! ## Runs -/

/-- No block ever has more than five tiles with an automated village exactly if every tile that gets
one finds room in the blocks around it. -/
theorem withinBlocks_iff (hlinked : d.Linked) (h : WithinBlocks d) (as : List (Action C)) :
    (∀ bs, bs <+: as → WithinBlocks (bs.foldl step (start d)).db) ↔
      Meets step (Commits KeepsBlocks) (start d) as :=
  holds_iff_meets (I := Refers) (P := fun s : State C => WithinBlocks s.db)
    ⟨hlinked, fun _ _ hw => absurd hw List.not_mem_nil⟩ (fun _ a hr => hr.step a) h
    (fun _ a hr hs => withinBlocks_step_iff hr hs a) as

/-! ## Two cron runs at once -/

/-- A map without tiles. -/
def sampleMap (mapBlocks : List MapBlock) : MapDb sampleCatalog where
  villages := Table.empty
  villagesResourceTypes := Table.empty
  facilities := Table.empty
  villagesStorageResourceTypes := Table.empty
  attacks := Table.empty
  users := Table.empty
  columns := fun _ => ⟨"", false⟩
  mapTiles := Table.empty
  mapBlocks
  automatedVillageHistory := Table.empty

def sampleBlock : MapBlock := ⟨0, 0, 9, 9⟩

/-- The state after a list of actions on a map with one block. -/
def afterCron (as : List (Action sampleCatalog)) : State sampleCatalog :=
  as.foldl step (start (sampleMap [sampleBlock]))

/-- A cron run, as the worker `k`, and its transaction. -/
def cronRun (k : ℕ) : List (Action sampleCatalog) :=
  [.cron, .read k (0, 0), .read k (k / 20, k / 20), .commit (k + 1) 0]

/-- Four cron runs, one after the other. -/
def sampleRuns : List (Action sampleCatalog) := cronRun 0 ++ cronRun 2 ++ cronRun 4 ++ cronRun 6

/-- Two more, of which both count four automated villages. -/
def sampleTwoRuns : List (Action sampleCatalog) :=
  sampleRuns ++ [.cron, .cron, .read 8 (0, 0), .read 9 (0, 0), .read 8 (1 / 2, 1 / 2),
    .read 9 (7 / 10, 7 / 10), .commit 10 0, .commit 11 0]

theorem withinBlocks_iff_sample :
    automatedIn (afterCron sampleRuns).db sampleBlock = 4 ∧
      ∀ bs, bs <+: sampleRuns → WithinBlocks (afterCron bs).db :=
  ⟨by decide +kernel, (withinBlocks_iff (by decide) (fun _ _ => Nat.zero_le _) _).2
    (by decide +kernel)⟩

/-- The block has six tiles with an automated village. -/
theorem six_in_block :
    automatedIn (afterCron sampleTwoRuns).db sampleBlock = 6 ∧
      ¬WithinBlocks (afterCron sampleTwoRuns).db := by
  have hsix : automatedIn (afterCron sampleTwoRuns).db sampleBlock = 6 := by decide +kernel
  refine ⟨hsix, fun h => ?_⟩
  have hle := h sampleBlock (by decide +kernel)
  rw [hsix] at hle
  exact absurd hle (by decide)

end Cme.Map
