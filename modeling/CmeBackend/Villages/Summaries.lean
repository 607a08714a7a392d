import CmeBackend.GameRules.MilitaryResources
import CmeBackend.Lib.Json
import CmeBackend.Lib.Table

/-!
# Two summaries of the resources of a village

`ResourcesMsService.formatVillageResources` (`resources-ms.service.ts`), which is to replace
`VillagesController.showResources` (`villages.controller.ts`). Both walk the rows of a village and
sort them into fighters and others: the first one by the column `characteristics` of
`resource_types`, the second one by the list of units of the game rules.

The migrations leave no characteristics in the table (`characteristics_null`): the units that had some
are deleted with the units that have none inserted. So the first summary has no fighters at all, and
the summaries agree where the village has no row of a unit (`summaries_alike_iff`).
-/

namespace Cme.Villages.Summaries

open GameRules Js

/-! ## The table -/

/-- The columns of `resource_types` that the summaries read. -/
structure ResourceTypeRow where
  id : ℕ
  type : String
  industry : ℕ
  characteristics : Json

instance : Keyed ResourceTypeRow := ⟨ResourceTypeRow.id⟩

/-- `INSERT INTO resource_types (type, industry, characteristics) VALUES ...` -/
def insertAll (t : Table ResourceTypeRow) (values : List (String × ℕ × Json)) :
    Table ResourceTypeRow :=
  values.foldl (fun t v => t.insert fun id => ⟨id, v.1, v.2.1, v.2.2⟩) t

/-- The characteristics of a unit of `units.json`. -/
def unitCharacteristics (health range damage defense pierceDefense speed foodUpkeep
    productionTime : ℤ) : Json :=
  .obj [("health", .num health), ("range", .num range), ("damage", .num damage),
    ("defense", .num defense), ("pierce_defense", .num pierceDefense), ("speed", .num speed),
    ("food_upkeep", .num foodUpkeep), ("production_time", .num productionTime)]

/-- `units.json` -/
def unitsJson : List (String × Json) :=
  [("clubman", unitCharacteristics 100 1 8 4 2 10 1 10),
    ("maceman", unitCharacteristics 120 1 12 5 2 10 1 12),
    ("short_sword", unitCharacteristics 140 1 14 5 4 10 1 14),
    ("long_sword", unitCharacteristics 150 1 16 7 6 10 2 16),
    ("rock_thrower", unitCharacteristics 40 3 6 2 2 12 1 12),
    ("slinger", unitCharacteristics 100 1 8 4 2 10 1 10),
    ("shortbow", unitCharacteristics 100 1 8 4 2 10 1 10),
    ("spearman", unitCharacteristics 100 1 8 4 2 10 1 10),
    ("pikeman", unitCharacteristics 100 1 8 4 2 10 1 10)]

/-- `Populate.up` -/
def populate (t : Table ResourceTypeRow) : Table ResourceTypeRow :=
  insertAll
    (insertAll t [("food", 1, .null), ("iron", 2, .null), ("wood", 3, .null), ("mkc", 8, .null)])
    (unitsJson.map fun unit => (unit.1, 3, unit.2))

/-- `toRm` -/
def toRm : List String :=
  ["clubman", "maceman", "short_sword", "long_sword", "rock_thrower", "slinger", "shortbow",
    "spearman", "pikeman"]

/-- `NewBarracksNewUnits.up` -/
def newBarracksNewUnits (t : Table ResourceTypeRow) : Table ResourceTypeRow :=
  let resources := insertAll t (militaryResourceList.map fun unit => (unit.name, 4, .null))
  let resToRm := resources.rows.filter (·.type ∈ toRm)
  resToRm.foldl (fun t res => t.deleteWhere (·.type = res.type)) resources

/-- `MapTiles.up`. The industry `terrain` has the id 9. -/
def mapTiles (t : Table ResourceTypeRow) : Table ResourceTypeRow :=
  insertAll t (["croplands", "forest", "swamp", "mines", "hills", "plains", "water",
    "mountain"].map fun type => (type, 9, .null))

/-- `resource_types` after the migrations. -/
def resourceTypes : Table ResourceTypeRow := mapTiles (newBarracksNewUnits (populate Table.empty))

theorem characteristics_null : ∀ t ∈ resourceTypes.rows, t.characteristics.isNull = true := by
  decide +kernel

/-! ## The summaries -/

/-- A row of `villages_resource_types` with its relation `resourceType`. -/
structure VillageResource where
  resourceType : ResourceTypeRow
  count : ℤ

/-- `VillageResourcesSummaryResource` -/
structure SummaryResource where
  name : String
  industryId : ℕ
  count : ℤ
  id : ℕ

/-- `VillageResourcesSummaryResourceFighter` -/
structure SummaryResourceFighter extends SummaryResource where
  health : Option Json
  range : Option Json
  damage : Option Json
  defense : Option Json
  pierceDefense : Option Json
  speed : Option Json
  foodUpkeep : Option Json
  productionTime : Option Json

/-- `VillageResourcesSummary` -/
structure Summary (α : Type) where
  fighters : List α
  others : List SummaryResource

def baseInfo (res : VillageResource) : SummaryResource :=
  ⟨res.resourceType.type, res.resourceType.industry, res.count, res.resourceType.id⟩

/-- `isEmpty` of a column of the type `json`. -/
def isEmpty : Json → Bool
  | .null | .bool _ | .num _ => true
  | .str s => s = ""
  | .arr xs => xs.isEmpty
  | .obj fs => fs.isEmpty

/-- A loop over `village.villagesResourceTypes?`. -/
def summarize {α : Type} (isFighter : VillageResource → Bool) (fighter : VillageResource → α)
    (villagesResourceTypes : Option (List VillageResource)) : Summary α :=
  (villagesResourceTypes.getD []).foldl (fun s res =>
    if isFighter res then { s with fighters := s.fighters ++ [fighter res] }
    else { s with others := s.others ++ [baseInfo res] }) ⟨[], []⟩

/-- The fighter of a row with characteristics. -/
def fighter (res : VillageResource) : SummaryResourceFighter :=
  let characteristics := res.resourceType.characteristics
  { baseInfo res with
    health := characteristics.get "health"
    range := characteristics.get "range"
    damage := characteristics.get "damage"
    defense := characteristics.get "defense"
    pierceDefense := characteristics.get "pierce_defense"
    speed := characteristics.get "speed"
    foodUpkeep := characteristics.get "food_upkeep"
    productionTime := characteristics.get "production_time" }

/-- `ResourcesMsService.formatVillageResources` -/
def formatVillageResources : Option (List VillageResource) → Summary SummaryResourceFighter :=
  summarize (fun res => !isEmpty res.resourceType.characteristics) fighter

/-- `isMilitaryResource` -/
def isMilitaryResource (unitTypeName : String) : Bool :=
  unitTypeName ∈ militaryResourceList.map MilitaryResource.name

/-- The summary of `VillagesController.showResources`. -/
def showResources : Option (List VillageResource) → Summary SummaryResource :=
  summarize (fun res => isMilitaryResource res.resourceType.type) baseInfo

/-- The loop keeps the order of the rows in both lists. -/
theorem summarize_eq {α : Type} (isFighter : VillageResource → Bool) (fighter : VillageResource → α)
    (rows : Option (List VillageResource)) :
    summarize isFighter fighter rows =
      ⟨((rows.getD []).filter isFighter).map fighter,
        ((rows.getD []).filter fun res => !isFighter res).map baseInfo⟩ := by
  have hloop : ∀ (l : List VillageResource) (s : Summary α), l.foldl (fun s res =>
      if isFighter res then { s with fighters := s.fighters ++ [fighter res] }
      else { s with others := s.others ++ [baseInfo res] }) s =
      ⟨s.fighters ++ (l.filter isFighter).map fighter,
        s.others ++ (l.filter fun res => !isFighter res).map baseInfo⟩ := by
    intro l
    induction l with
    | nil => intro s; simp
    | cons res l ih =>
      intro s
      rw [List.foldl_cons, ih]
      cases h : isFighter res <;> simp [h]
  unfold summarize
  rw [hloop]
  rfl

/-! ## Agreement -/

/-- The summaries have the same rows as fighters, and the same rows as others. -/
structure Alike (rows : Option (List VillageResource)) : Prop where
  fighters : (formatVillageResources rows).fighters.map (·.toSummaryResource) =
    (showResources rows).fighters
  others : (formatVillageResources rows).others = (showResources rows).others

/-- With the resource types of the migrations, the service finds no fighters. -/
theorem formatVillageResources_eq {rows : Option (List VillageResource)}
    (h : ∀ res ∈ rows.getD [], res.resourceType ∈ resourceTypes.rows) :
    formatVillageResources rows = ⟨[], (rows.getD []).map baseInfo⟩ := by
  have hempty : ∀ res ∈ rows.getD [], isEmpty res.resourceType.characteristics = true := by
    intro res hres
    have hnull := characteristics_null _ (h res hres)
    cases hcharacteristics : res.resourceType.characteristics with
    | null => rfl
    | _ =>
      rw [hcharacteristics] at hnull
      cases hnull
  unfold formatVillageResources
  rw [summarize_eq, List.filter_eq_nil_iff.2 fun res hres => by simp [hempty res hres],
    List.filter_eq_self.2 fun res hres => by simp [hempty res hres]]
  rfl

theorem isMilitaryResource_iff {name : String} :
    isMilitaryResource name = true ↔ ∃ unit : MilitaryResource, name = unit.name := by
  have hall : ∀ unit : MilitaryResource, unit ∈ militaryResourceList := by
    intro unit
    cases unit <;> decide
  unfold isMilitaryResource
  rw [decide_eq_true_eq, List.mem_map]
  constructor
  · rintro ⟨unit, -, rfl⟩
    exact ⟨unit, rfl⟩
  · rintro ⟨unit, rfl⟩
    exact ⟨unit, hall unit, rfl⟩

/-- The summaries of a village agree exactly if it has no row of a unit. -/
theorem summaries_alike_iff (rows : Option (List VillageResource))
    (h : ∀ res ∈ rows.getD [], res.resourceType ∈ resourceTypes.rows) :
    Alike rows ↔ ∀ res ∈ rows.getD [], ∀ unit : MilitaryResource,
      res.resourceType.type ≠ unit.name := by
  have hshow := summarize_eq (fun res => isMilitaryResource res.resourceType.type) baseInfo rows
  constructor
  · intro halike res hres unit hname
    have hfighters := halike.fighters
    rw [formatVillageResources_eq h, showResources, hshow] at hfighters
    have hnone := List.map_eq_nil_iff.1 hfighters.symm
    exact List.filter_eq_nil_iff.1 hnone res hres (isMilitaryResource_iff.2 ⟨unit, hname⟩)
  · intro hnone
    have hothers : ∀ res ∈ rows.getD [], isMilitaryResource res.resourceType.type = false := by
      intro res hres
      rw [Bool.eq_false_iff, ne_eq, isMilitaryResource_iff]
      rintro ⟨unit, hname⟩
      exact hnone res hres unit hname
    have hfighters : (rows.getD []).filter
        (fun res => isMilitaryResource res.resourceType.type) = [] :=
      List.filter_eq_nil_iff.2 fun res hres => by simp [hothers res hres]
    have hrest : (rows.getD []).filter
        (fun res => !isMilitaryResource res.resourceType.type) = rows.getD [] :=
      List.filter_eq_self.2 fun res hres => by simp [hothers res hres]
    rw [hfighters, hrest] at hshow
    constructor
    · rw [formatVillageResources_eq h, showResources, hshow]
      rfl
    · rw [formatVillageResources_eq h, showResources, hshow]

/-- A village with food. -/
def sampleFood : List VillageResource := [⟨⟨1, "food", 1, .null⟩, 100⟩]

/-- A village with food and ten stone hunters. -/
def sampleHunters : List VillageResource :=
  sampleFood ++ [⟨⟨14, "stone_hunter", 4, .null⟩, 10⟩]

theorem summaries_alike_iff_sample : Alike (some sampleFood) := by
  have hfood : ⟨1, "food", 1, .null⟩ ∈ resourceTypes.rows :=
    (Table.get?_eq_some.1 (by rfl : resourceTypes.get? 1 = some ⟨1, "food", 1, .null⟩)).1
  have hiff := summaries_alike_iff (some sampleFood) fun res hres =>
    List.mem_singleton.1 hres ▸ hfood
  refine hiff.2 fun res hres unit => ?_
  rw [List.mem_singleton.1 hres]
  cases unit <;> decide

/-- The stone hunters are fighters in one summary, and others in the other one. -/
theorem hunters_classified_apart :
    (∀ res ∈ sampleHunters, res.resourceType ∈ resourceTypes.rows) ∧
      ¬Alike (some sampleHunters) := by
  have hfood : resourceTypes.get? 1 = some ⟨1, "food", 1, .null⟩ := by rfl
  have hhunter : resourceTypes.get? 14 = some ⟨14, "stone_hunter", 4, .null⟩ := by rfl
  constructor
  · intro res hres
    rcases List.mem_cons.1 hres with rfl | hres
    · exact (Table.get?_eq_some.1 hfood).1
    · rw [List.mem_singleton.1 hres]
      exact (Table.get?_eq_some.1 hhunter).1
  · intro halike
    have hlength := congrArg List.length halike.others
    revert hlength
    decide

end Cme.Villages.Summaries
