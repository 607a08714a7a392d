import CmeBackend.Lib.Runs
import CmeBackend.Map.Steps

/-!
# Generated villages and the constraints of `villages`

The operations on the map one after the other: villages of players, removals of empty automated
villages, and generations in a block. A generation looks for a free tile, and inserts a village with
the coordinates of the tile, and with these two numbers in its name.

* `Fresh`: what the claim of the tables is: no village has the coordinates or the name of a village
  that may be generated.
* A removal leaves the row of `villages`, and two positions may read alike: `(1, 11)` and `(11, 1)`.
* `Consistent`: a tile lies where its village is.
* `stays_fresh_iff`: the condition for all runs, and what follows for the transaction.
-/

namespace Cme.Map.Sequence

open Runs

variable {C : Catalog} {d d' : MapDb C}

/-! ## The operations -/

/-- `VillagesService.create` -/
def create (d : MapDb C) (dto : CreateVillageDto) (userId : ℕ) (now : ℤ) :
    Except Failure (MapDb C) :=
  match d.users.get? userId with
  | none => .error .entityNotFound
  | some user => do
    let dto ← checkOccupiedMapTile d dto
    checkVillages d dto (villagesForThisUser d user.id)
    match createVillage d dto user now with
    | some d => .ok d
    | none => .error .failed

/-- The location and the tables of a generation in a block, if there is one and no constraint
refuses it. -/
def generation (d : MapDb C) (mapBlock : MapBlock) (random : ℚ × ℚ) (now : ℤ) :
    Option ((ℤ × ℤ) × MapDb C) := do
  guard (mapBlock ∈ d.mapBlocks)
  let p ← unusedTileLocation d mapBlock random
  let d ← generateVillage d p now
  return (p, d)

/-- The tiles of the villages that a removal removes. -/
def removedTiles (d : MapDb C) : List ℕ := (emptyAutomatedVillages d).map Prod.fst

/-- `removeEmptyAutomatedVillages` -/
def removeEmpty (d : MapDb C) : MapDb C :=
  (emptyAutomatedVillages d).foldl (fun d v => removeVillage d v.1 v.2) d

inductive Operation (C : Catalog) where
  | create (dto : CreateVillageDto) (userId : ℕ) (now : ℤ)
  | generate (mapBlock : MapBlock) (random : ℚ × ℚ) (now : ℤ)
  | remove
  /-- Other operations write counts. -/
  | counts (count : VillageResourceType C → ℤ)

def step (d : MapDb C) : Operation C → MapDb C
  | .create dto userId now =>
    match create d dto userId now with
    | .ok d => d
    | .error _ => d
  | .generate mapBlock random now => ((generation d mapBlock random now).map Prod.snd).getD d
  | .remove => removeEmpty d
  | .counts count => { d with toDb := d.toDb.setCounts count }

/-! ## Fresh villages -/

/-- Two results of `Math.random()`. -/
def Uniform (random : ℚ × ℚ) : Prop :=
  (0 ≤ random.1 ∧ random.1 < 1) ∧ 0 ≤ random.2 ∧ random.2 < 1

/-- `findRandomUnusedTileLocation` may choose the position for one of the blocks, with some tiles of
the block. -/
def Choosable (mapBlocks : List MapBlock) (p : ℤ × ℤ) : Prop :=
  ∃ b ∈ mapBlocks, ∃ mapTiles random, (∀ q ∈ mapTiles, b.Contains q) ∧ Uniform random ∧
    findRandomUnusedTileLocation b mapTiles random = some p

/-- No village has the coordinates or the name of one that may be generated on a free tile. -/
def Fresh (d : MapDb C) : Prop :=
  ∀ p, Choosable d.mapBlocks p → ¬d.Occupied p → ¬d.VillageAt p ∧ ¬d.Named (automatedName p)

/-- A generation has a name that no other free position has that may be chosen, and a removal leaves
a tile at each position that may be chosen. -/
def KeepsFresh (d : MapDb C) : Operation C → Prop
  | .generate mapBlock random _ => mapBlock ∈ d.mapBlocks →
    ∀ p ∈ unusedTileLocation d mapBlock random, ¬d.Taken p (automatedName p) →
    ∀ q, Choosable d.mapBlocks q → ¬d.Occupied q → automatedName q = automatedName p → q = p
  | .remove => ∀ t ∈ d.mapTiles.rows, t.id ∈ removedTiles d →
    Choosable d.mapBlocks t.at →
      ∃ t' ∈ d.mapTiles.rows, t'.at = t.at ∧ t'.id ∉ removedTiles d
  | _ => True

/-- The links of the tiles are to villages of the table, at the same coordinates. -/
structure Consistent (d : MapDb C) : Prop where
  linked : d.Linked
  placed : ∀ t ∈ d.mapTiles.rows, ∀ v ∈ d.villages.rows, t.villageId = some v.id → (v.x, v.y) = t.at

/-! ## Names -/

theorem length_le_utf16Length (cs : List Char) : cs.length ≤ utf16Length cs := by
  unfold utf16Length
  induction cs with
  | nil => exact Nat.zero_le _
  | cons c cs ih =>
    rw [List.length_cons, List.map_cons, List.sum_cons]
    split <;> omega

/-- The name of a player's village is short. -/
theorem length_of_processName {name n : String} (h : processName name = .ok n) :
    n.toList.length ≤ MAX_NAME_LENGTH := by
  unfold processName at h
  dsimp only at h
  split at h
  · cases h
  next hle =>
    cases h
    rw [String.toList_ofList]
    exact (length_le_utf16Length _).trans (not_lt.1 hle)

/-- The name of an automated village is long. -/
theorem length_automatedName (p : ℤ × ℤ) : MAX_NAME_LENGTH < (automatedName p).toList.length := by
  have hname : automatedName p = "Automated Village " ++ toString p.1 ++ toString p.2 := rfl
  have hprefix : MAX_NAME_LENGTH < "Automated Village ".toList.length := by decide +kernel
  rw [hname, String.toList_append, String.toList_append, List.length_append, List.length_append]
  omega

/-- A player does not choose the name of an automated village. -/
theorem automatedName_ne {name n : String} (h : processName name = .ok n) (p : ℤ × ℤ) :
    automatedName p ≠ n := by
  rintro rfl
  exact absurd (length_of_processName h) (not_le.2 (length_automatedName p))

/-! ## One more village -/

section Added

variable {p : ℤ × ℤ} {name : String} (h : Added d p name d')

include h

theorem fresh_added_iff (hfresh : Fresh d) :
    Fresh d' ↔ ∀ q, Choosable d.mapBlocks q → ¬d.Occupied q → automatedName q = name → q = p := by
  unfold Fresh
  simp only [h.occupied_iff, h.villageAt_iff, h.named_iff, h.mapBlocks, not_or]
  constructor
  · intro hafter q hq hfree hname
    by_contra hne
    exact (hafter q hq ⟨hfree, hne⟩).2.2 hname
  · rintro honly q hq ⟨hfree, hne⟩
    obtain ⟨hat, hnamed⟩ := hfresh q hq hfree
    exact ⟨⟨hat, hne⟩, hnamed, fun hname => hne (honly q hq hfree hname)⟩

theorem consistent_added (hd : Consistent d) : Consistent d' := by
  obtain ⟨v, hvillages, hid, hpos⟩ := h.villages
  obtain ⟨t, htiles, hat, -, hlink⟩ := h.mapTiles
  constructor
  · intro t' ht' id hv
    rw [h.next]
    rw [htiles] at ht'
    rcases List.mem_append.1 ht' with ht' | ht'
    · exact Nat.lt_succ_of_lt (hd.linked t' ht' id hv)
    · rw [List.mem_singleton.1 ht', hlink] at hv
      cases hv
      exact Nat.lt_succ_self _
  · intro t' ht' w hw hv
    rw [htiles] at ht'
    rw [hvillages] at hw
    rcases List.mem_append.1 ht' with ht' | ht' <;> rcases List.mem_append.1 hw with hw | hw
    · exact hd.placed t' ht' w hw hv
    · -- A tile of before is not linked to the new village.
      have hlt := hd.linked t' ht' _ hv
      rw [List.mem_singleton.1 hw, hid] at hlt
      exact absurd hlt (lt_irrefl _)
    · have hlt := d.villages.lt_next w hw
      rw [List.mem_singleton.1 ht', hlink] at hv
      exact absurd (Option.some.inj hv).symm (Nat.ne_of_lt hlt)
    · rw [List.mem_singleton.1 ht', List.mem_singleton.1 hw, hat, hpos]

end Added

/-! ## Removals -/

theorem removeEmpty_frame (d : MapDb C) :
    (removeEmpty d).villages = d.villages ∧ (removeEmpty d).columns = d.columns ∧
      (removeEmpty d).mapBlocks = d.mapBlocks ∧
      ∀ t, t ∈ (removeEmpty d).mapTiles.rows ↔ t ∈ d.mapTiles.rows ∧ t.id ∉ removedTiles d := by
  unfold removeEmpty removedTiles
  induction emptyAutomatedVillages d generalizing d with
  | nil => exact ⟨rfl, rfl, rfl, fun t => (and_iff_left List.not_mem_nil).symm⟩
  | cons v rest ih =>
    obtain ⟨hvillages, hcolumns, hblocks, htiles⟩ := ih (removeVillage d v.1 v.2)
    refine ⟨hvillages, hcolumns, hblocks, fun t => (htiles t).trans ?_⟩
    have hdelete : t ∈ (removeVillage d v.1 v.2).mapTiles.rows ↔
        t ∈ d.mapTiles.rows ∧ t.id ≠ v.1 :=
      List.mem_filter.trans (and_congr_right fun _ => decide_eq_true_iff)
    rw [hdelete, List.map_cons, List.mem_cons, not_or, and_assoc]

/-- A tile that a removal deletes has a village at its coordinates, which stays. -/
theorem villageAt_of_removed (h : Consistent d) {t : MapTile} (ht : t ∈ d.mapTiles.rows)
    (hremoved : t.id ∈ removedTiles d) : d.VillageAt t.at := by
  obtain ⟨⟨tileId, villageId⟩, hmem, htile⟩ := List.mem_map.1 hremoved
  obtain ⟨v, hv, hpair⟩ := List.mem_filterMap.1 hmem
  simp only [Option.bind_eq_bind, Option.bind_eq_some_iff, Option.guard_eq_some'] at hpair
  obtain ⟨-, -, -, -, mapTile, hfind, -, -, heq⟩ := hpair
  cases heq
  -- The deleted tile is the one that has been found.
  rw [← d.mapTiles.eq_of_key (List.mem_of_find?_eq_some hfind) ht htile]
  have hlink := List.find?_some hfind
  exact ⟨v, hv, h.placed mapTile (List.mem_of_find?_eq_some hfind) v hv (of_decide_eq_true hlink)⟩

theorem consistent_removeEmpty (h : Consistent d) : Consistent (removeEmpty d) := by
  obtain ⟨hvillages, hcolumns, -, htiles⟩ := removeEmpty_frame d
  constructor
  · intro t ht
    rw [hvillages]
    exact h.linked t ((htiles t).1 ht).1
  · intro t ht
    rw [hvillages]
    exact h.placed t ((htiles t).1 ht).1

theorem occupied_removeEmpty_iff (q : ℤ × ℤ) :
    (removeEmpty d).Occupied q ↔ ∃ t ∈ d.mapTiles.rows, t.at = q ∧ t.id ∉ removedTiles d := by
  obtain ⟨-, -, -, htiles⟩ := removeEmpty_frame d
  constructor
  · rintro ⟨t, ht, hat⟩
    obtain ⟨ht, hkept⟩ := (htiles t).1 ht
    exact ⟨t, ht, hat, hkept⟩
  · rintro ⟨t, ht, hat, hkept⟩
    exact ⟨t, (htiles t).2 ⟨ht, hkept⟩, hat⟩

theorem fresh_removeEmpty_iff (h : Consistent d) (hfresh : Fresh d) :
    Fresh (removeEmpty d) ↔ KeepsFresh d .remove := by
  obtain ⟨hvillages, hcolumns, hblocks, -⟩ := removeEmpty_frame d
  unfold Fresh KeepsFresh
  simp only [occupied_removeEmpty_iff, MapDb.VillageAt, MapDb.Named, hvillages, hcolumns, hblocks]
  constructor
  · intro hafter t ht hremoved hq
    by_contra hnone
    exact (hafter t.at hq hnone).1 (villageAt_of_removed h ht hremoved)
  · intro hkeeps q hq hnone
    refine hfresh q hq ?_
    rintro ⟨t, ht, rfl⟩
    by_cases hremoved : t.id ∈ removedTiles d
    · exact hnone (hkeeps t ht hremoved hq)
    · exact hnone ⟨t, ht, rfl, hremoved⟩

/-! ## One operation -/

theorem create_eq_ok {dto : CreateVillageDto} {userId : ℕ} {now : ℤ}
    (h : create d dto userId now = .ok d') :
    ∃ user n, processName dto.name = .ok n ∧
      createVillage d { dto with name := n } user now = some d' := by
  unfold create at h
  split at h
  · cases h
  next user _ =>
    obtain ⟨dto', hdto, h⟩ := bind_eq_ok.1 h
    obtain ⟨-, -, h⟩ := bind_eq_ok.1 h
    unfold checkOccupiedMapTile at hdto
    split at hdto
    · cases hdto
    · obtain ⟨n, hn, heq⟩ := bind_eq_ok.1 hdto
      cases heq
      split at h
      next hcreate =>
        cases h
        exact ⟨user, n, hn, hcreate⟩
      · cases h

theorem generation_eq_some {mapBlock : MapBlock} {random : ℚ × ℚ} {now : ℤ} {p : ℤ × ℤ} :
    generation d mapBlock random now = some (p, d') ↔
      mapBlock ∈ d.mapBlocks ∧ unusedTileLocation d mapBlock random = some p ∧
        generateVillage d p now = some d' := by
  unfold generation
  simp only [Option.bind_eq_bind, Option.bind_eq_some_iff, Option.guard_eq_some']
  constructor
  · rintro ⟨_, hblock, _, hlocation, _, hd, heq⟩
    cases heq
    exact ⟨hblock, hlocation, hd⟩
  · rintro ⟨hblock, hlocation, hd⟩
    exact ⟨(), hblock, p, hlocation, d', hd, rfl⟩

theorem consistent_step (h : Consistent d) (op : Operation C) : Consistent (step d op) := by
  cases op with
  | create dto userId now =>
    simp only [step]
    split
    next hcreate =>
      obtain ⟨user, n, -, hcreate⟩ := create_eq_ok hcreate
      exact consistent_added (.of_createVillage hcreate) h
    · exact h
  | generate mapBlock random now =>
    simp only [step]
    cases hgeneration : generation d mapBlock random now with
    | none => exact h
    | some p =>
      exact consistent_added (.of_generateVillage (generation_eq_some.1 hgeneration).2.2) h
  | remove => exact consistent_removeEmpty h
  | counts count => exact ⟨h.linked, h.placed⟩

/-- The transaction of a generation goes through if no constraint refuses the village. -/
theorem generateVillage_isSome_iff {p : ℤ × ℤ} (now : ℤ) :
    (generateVillage d p now).isSome ↔ ¬d.Taken p (automatedName p) := by
  unfold generateVillage
  split
  next htaken => exact iff_of_false Bool.false_ne_true (not_not_intro htaken)
  next hfree => exact iff_of_true rfl hfree

theorem fresh_step_iff (h : Consistent d) (hfresh : Fresh d) (op : Operation C) :
    Fresh (step d op) ↔ KeepsFresh d op := by
  cases op with
  | create dto userId now =>
    simp only [step]
    split
    next hcreate =>
      obtain ⟨user, n, hn, hcreate⟩ := create_eq_ok hcreate
      rw [fresh_added_iff (.of_createVillage hcreate) hfresh]
      refine iff_of_true (fun q _ _ hname => ?_) trivial
      exact absurd hname (automatedName_ne hn q)
    · exact iff_of_true hfresh trivial
  | generate mapBlock random now =>
    simp only [step]
    cases hgeneration : generation d mapBlock random now with
    | none =>
      refine iff_of_true hfresh fun hblock p hp hfree => ?_
      have hnew := (generateVillage_isSome_iff now).2 hfree
      obtain ⟨d', hd'⟩ := Option.isSome_iff_exists.1 hnew
      rw [generation_eq_some.2 ⟨hblock, hp, hd'⟩] at hgeneration
      cases hgeneration
    | some p =>
      obtain ⟨hblock, hlocation, hnew⟩ := generation_eq_some.1 hgeneration
      refine (fresh_added_iff (.of_generateVillage hnew) hfresh).trans ?_
      constructor
      · intro honly _ p' hp' _
        rw [hlocation] at hp'
        cases hp'
        exact honly
      · intro hkeeps
        exact hkeeps hblock p.1 hlocation (generateVillage_eq_some hnew).1
  | remove => exact fresh_removeEmpty_iff h hfresh
  | counts count => exact iff_of_true hfresh trivial

/-! ## Runs -/

theorem choosable_of_unusedTileLocation {mapBlock : MapBlock} {random : ℚ × ℚ} {p : ℤ × ℤ}
    (hblock : mapBlock ∈ d.mapBlocks) (hrandom : Uniform random)
    (h : unusedTileLocation d mapBlock random = some p) : Choosable d.mapBlocks p := by
  unfold unusedTileLocation at h
  split at h
  · cases h
  · refine ⟨mapBlock, hblock, _, random, fun q hq => ?_, hrandom, h⟩
    obtain ⟨t, ht, rfl⟩ := List.mem_map.1 hq
    exact of_decide_eq_true (List.mem_filter.1 ht).2

/-- The villages that may be generated are fresh, so that no transaction aborts on a free tile, at
every point of a run exactly if every step keeps them fresh. -/
theorem stays_fresh_iff (h : Consistent d) (hfresh : Fresh d) (as : List (Operation C)) :
    ((∀ bs, bs <+: as → Fresh (bs.foldl step d)) ↔ Meets step KeepsFresh d as) ∧
      (Meets step KeepsFresh d as → ∀ bs, bs <+: as → ∀ mapBlock ∈ (bs.foldl step d).mapBlocks,
        ∀ random, Uniform random →
        ∀ p ∈ unusedTileLocation (bs.foldl step d) mapBlock random,
          ¬(bs.foldl step d).Occupied p →
          ∀ now, (generateVillage (bs.foldl step d) p now).isSome) := by
  have hiff := holds_iff_meets h (fun _ op hs => consistent_step hs op) hfresh
    (fun _ op hs hf => fresh_step_iff hs hf op) as
  refine ⟨hiff, fun hmeets bs hbs mapBlock hblock random hrandom p hp hfree now => ?_⟩
  have hchoose := choosable_of_unusedTileLocation hblock hrandom hp
  exact (generateVillage_isSome_iff now).2 (not_or.2 (hiff.2 hmeets bs hbs p hchoose hfree))

/-! ## Positions of a block -/

theorem randomIntegerBetween_mem {random : ℚ} {min max : ℤ} (h : 0 ≤ random ∧ random < 1)
    (hle : min ≤ max) :
    min ≤ randomIntegerBetween random min max ∧ randomIntegerBetween random min max ≤ max := by
  have hwidth : (0 : ℚ) < max - min + 1 := by
    have hcast : (min : ℚ) ≤ max := by exact_mod_cast hle
    linarith
  unfold randomIntegerBetween
  rw [Int.le_floor, ← Int.lt_add_one_iff, Int.floor_lt]
  push_cast
  constructor
  · have hpos := mul_nonneg h.1 hwidth.le
    linarith
  · have hlt := mul_lt_mul_of_pos_right h.2 hwidth
    linarith

theorem contains_right {b : MapBlock} {p : ℤ × ℤ} (h : b.Contains p) (hne : p ≠ (b.x2, b.y2)) :
    b.Contains (b.right p) := by
  obtain ⟨⟨hx₁, hx₂⟩, hy₁, hy₂⟩ := h
  unfold MapBlock.right
  split
  · exact ⟨⟨by omega, by omega⟩, hy₁, hy₂⟩
  next hlast =>
    have hrow : p.2 ≠ b.y2 := fun hy => hne (Prod.ext (by omega) hy)
    exact ⟨⟨le_rfl, by omega⟩, by omega, by omega⟩

theorem contains_left {b : MapBlock} {p : ℤ × ℤ} (h : b.Contains p) (hne : p ≠ (b.x1, b.y1)) :
    b.Contains (b.left p) := by
  obtain ⟨⟨hx₁, hx₂⟩, hy₁, hy₂⟩ := h
  unfold MapBlock.left
  split
  · exact ⟨⟨by omega, by omega⟩, hy₁, hy₂⟩
  next hfirst =>
    have hrow : p.2 ≠ b.y1 := fun hy => hne (Prod.ext (by omega) hy)
    exact ⟨⟨by omega, le_rfl⟩, by omega, by omega⟩

/-- Both loops stay in a block whose first tile is the one that the second loop looks for. -/
theorem contains_of_choosable {b : MapBlock} {p : ℤ × ℤ} (hx : b.x1 ≤ b.x2) (hy : b.y1 ≤ b.y2)
    (hfirst : b.y1 = b.x1) (h : Choosable [b] p) : b.Contains p := by
  obtain ⟨b', hb', mapTiles, random, -, hrandom, hfind⟩ := h
  rw [List.mem_singleton.1 hb'] at hfind
  have hinitial : b.Contains (randomIntegerBetween random.1 b.x1 b.x2,
      randomIntegerBetween random.2 b.y1 b.y2) :=
    ⟨randomIntegerBetween_mem hrandom.1 hx, randomIntegerBetween_mem hrandom.2 hy⟩
  unfold findRandomUnusedTileLocation at hfind
  dsimp only at hfind
  split at hfind
  next hright =>
    cases hfind
    exact of_search_unused (fun q hne hq => contains_right hq hne) hinitial hright
  · split at hfind
    next hleft =>
      cases hfind
      exact of_search_unused (fun q hne hq => contains_left hq (hfirst ▸ hne)) hinitial hleft
    · cases hfind

/-! ## An emptied village, and two positions that read alike -/

/-- No villages, a user who is new, and a block. -/
def sampleEmpty (mapBlock : MapBlock) : MapDb sampleCatalog where
  villages := Table.empty
  villagesResourceTypes := Table.empty
  facilities := Table.empty
  villagesStorageResourceTypes := Table.empty
  attacks := Table.empty
  users :=
    { rows := [⟨7, true⟩]
      next := 8
      nodup := by decide
      lt_next := by decide }
  columns := fun _ => ⟨"none", false⟩
  mapTiles := Table.empty
  mapBlocks := [mapBlock]
  automatedVillageHistory := Table.empty

/-- The tables after operations on a block. -/
def after (mapBlock : MapBlock) (as : List (Operation sampleCatalog)) : MapDb sampleCatalog :=
  as.foldl step (sampleEmpty mapBlock)

theorem consistent_sampleEmpty (mapBlock : MapBlock) : Consistent (sampleEmpty mapBlock) :=
  ⟨fun _ ht => absurd ht List.not_mem_nil, fun _ ht => absurd ht List.not_mem_nil⟩

theorem fresh_sampleEmpty (mapBlock : MapBlock) : Fresh (sampleEmpty mapBlock) := by
  rintro p - -
  constructor <;> rintro ⟨v, hv, -⟩ <;> exact absurd hv List.not_mem_nil

/-- Two tiles. -/
def twoTiles : MapBlock := ⟨1, 1, 2, 1⟩

def sampleOperations : List (Operation sampleCatalog) :=
  [.generate twoTiles (0, 0) 0, .create ⟨"hill", 2, 1⟩ 7 0, .remove]

/-- A block with the positions `(1, 11)` and `(11, 1)`. -/
def square : MapBlock := ⟨1, 1, 11, 11⟩

/-- The automated village of the first tile loses everything, and is removed. -/
def sampleRemoval : List (Operation sampleCatalog) :=
  [.generate twoTiles (0, 0) 0, .counts fun _ => 0, .remove]

theorem stays_fresh_iff_sample :
    (after twoTiles sampleOperations).villages.rows.length = 2 ∧
      ∀ bs, bs <+: sampleOperations → Fresh (after twoTiles bs) := by
  have hiff := (stays_fresh_iff (consistent_sampleEmpty twoTiles) (fresh_sampleEmpty twoTiles)
    sampleOperations).1
  refine ⟨by decide +kernel, hiff.2 ⟨?_, trivial, ?_, trivial⟩⟩
  · -- The names of the two tiles differ.
    rintro - p hp - q hq - hname
    have hlocation : unusedTileLocation (sampleEmpty twoTiles) twoTiles (0, 0) = some (1, 1) := by
      decide +kernel
    rw [hlocation] at hp
    cases hp
    obtain ⟨⟨hx₁, hx₂⟩, hy₁, hy₂⟩ :=
      contains_of_choosable (b := twoTiles) (by decide) (by decide) rfl hq
    obtain ⟨x, y⟩ := q
    obtain rfl : y = 1 := le_antisymm hy₂ hy₁
    have hx : x = 1 ∨ x = 2 := by
      change 1 ≤ x at hx₁
      change x ≤ 2 at hx₂
      omega
    rcases hx with rfl | rfl
    · rfl
    · exact absurd hname (by decide +kernel)
  · -- No village is empty.
    intro t _ hremoved
    have hnone : removedTiles (after twoTiles (sampleOperations.take 2)) = [] := by decide +kernel
    exact absurd (hnone ▸ hremoved) List.not_mem_nil

/-- The tile of a removed village is free, and so is `(11, 1)` beside a village at `(1, 11)`, but a
generation there aborts. -/
theorem generation_aborts :
    (unusedTileLocation (after twoTiles sampleRemoval) twoTiles (0, 0) = some (1, 1) ∧
      ¬(after twoTiles sampleRemoval).Occupied (1, 1) ∧
      (generateVillage (after twoTiles sampleRemoval) (1, 1) 0).isNone) ∧
    (unusedTileLocation (after square [.generate square (0, 10 / 11) 0]) square (10 / 11, 0) =
        some (11, 1) ∧
      ¬(after square [.generate square (0, 10 / 11) 0]).Occupied (11, 1) ∧
      ¬(after square [.generate square (0, 10 / 11) 0]).VillageAt (11, 1) ∧
      (generateVillage (after square [.generate square (0, 10 / 11) 0]) (11, 1) 0).isNone) := by
  decide +kernel

end Cme.Map.Sequence
