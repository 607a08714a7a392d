import CmeBackend.Map.Price

/-!
# The price of a village, spread over several

`removeResourcesForVillageCreation` (`villages.service.ts`) for villages with any rows and any
counts, as they are stored: what the saves do to each row, and to all rows together.

* `Stored`: the rows of the villages are rows of the table, each listed once.
* `Spent`: a row before the saves and after them.
* `price_spread`: the villages lose the price, and nothing else changes.
-/

namespace Cme.Map.Price

variable {C : Catalog} {d : Db C} {villages : List (LoadedVillage C)}

/-- The rows of the villages are in the table, and none of them is listed twice. -/
structure Stored (d : Db C) (villages : List (LoadedVillage C)) : Prop where
  nodup : ((villages.flatMap (·.villagesResourceTypes)).map VillageResourceType.id).Nodup
  mem : ∀ r ∈ villages.flatMap (·.villagesResourceTypes), r ∈ d.villagesResourceTypes.rows

/-- A village whose rows are read again. -/
def reread (d : Db C) (village : LoadedVillage C) : LoadedVillage C :=
  { village with
    villagesResourceTypes := village.villagesResourceTypes.map fun r =>
      (d.villagesResourceTypes.get? r.id).getD r }

/-- A row that may have paid. -/
structure Spent (villages : List (LoadedVillage C)) (r r' : VillageResourceType C) : Prop where
  id : r'.id = r.id
  villageId : r'.villageId = r.villageId
  resourceType : r'.resourceType = r.resourceType
  le : r'.count ≤ r.count
  nonneg : 0 ≤ r.count → 0 ≤ r'.count
  others : r.resourceType.type ∉ chargedResources ∨
    r ∉ villages.flatMap (·.villagesResourceTypes) → r'.count = r.count

/-! ## One row -/

/-- An entity has a part of the count of its row. -/
theorem count_of_mem_removeFromRows {left : LeftToRemove} {rows : List (VillageResourceType C)}
    {e : Entity C} (he : e ∈ (removeFromRows left rows).2) :
    0 ≤ e.count ∧ e.count ≤ e.loaded.count := by
  induction rows generalizing left with
  | nil => cases he
  | cons r rest ih =>
    have hrows : (removeFromRows left (r :: rest)).2 = (removeFromRow left r).2.toList ++
        (removeFromRows (removeFromRow left r).1 rest).2 := rfl
    rw [hrows, List.mem_append] at he
    rcases he with he | he
    · rcases removeFromRow_cases left r with ⟨⟨hleft, hcount⟩, hrow⟩ | ⟨-, hrow⟩
      · rw [hrow] at he
        obtain rfl := List.mem_singleton.1 he
        dsimp only
        omega
      · rw [hrow] at he
        cases he
    · exact ih he

/-- What the saves make of a row of the table. -/
theorem spent_savedRow (h : Stored d villages) {r : VillageResourceType C}
    (hr : r ∈ d.villagesResourceTypes.rows) :
    Spent villages r (Db.savedRow (savedForVillages villages) r) := by
  unfold Db.savedRow
  cases hf : (savedForVillages villages).find? (·.loaded.id = r.id) with
  | none => exact ⟨rfl, rfl, rfl, le_rfl, id, fun _ => rfl⟩
  | some e =>
    have he := List.mem_of_find?_eq_some hf
    have hid : e.loaded.id = r.id := by simpa using List.find?_some hf
    have hmem := loaded_mem he
    rw [flatMap_chargedRows, List.mem_filter] at hmem
    obtain ⟨hlisted, htype⟩ := hmem
    -- The table has one row with the id.
    have hrow : e.loaded = r := Table.eq_of_key (h.mem _ hlisted) hr hid
    obtain ⟨hnonneg, hle⟩ := count_of_mem_removeFromRows he
    rw [hrow] at hle hlisted htype
    refine ⟨rfl, rfl, rfl, hle, fun _ => hnonneg, ?_⟩
    rintro (hother | hother)
    · exact absurd (of_decide_eq_true htype) hother
    · exact absurd hlisted hother

/-! ## All rows -/

theorem rows_removeResources (h : Stored d villages) :
    (removeResourcesForVillageCreation d villages).villagesResourceTypes.rows =
      d.villagesResourceTypes.rows.map (Db.savedRow (savedForVillages villages)) := by
  refine rows_removeFromVillages ?_
  rw [flatMap_chargedRows]
  exact h.nodup.sublist (List.filter_sublist.map _)

/-- A listed row that is read again is the saved one. -/
theorem get?_removeResources (h : Stored d villages) {r : VillageResourceType C}
    (hr : r ∈ villages.flatMap (·.villagesResourceTypes)) :
    (removeResourcesForVillageCreation d villages).villagesResourceTypes.get? r.id =
      some (Db.savedRow (savedForVillages villages) r) := by
  rw [Table.get?_eq_some, rows_removeResources h]
  exact ⟨List.mem_map_of_mem (h.mem r hr), rfl⟩

theorem flatMap_reread (h : Stored d villages) :
    (villages.map (reread (removeResourcesForVillageCreation d villages))).flatMap
        (·.villagesResourceTypes) =
      (villages.flatMap (·.villagesResourceTypes)).map (Db.savedRow (savedForVillages villages)) := by
  rw [List.flatMap_map, List.map_flatMap]
  refine List.flatMap_congr fun v hv => List.map_congr_left fun r hr => ?_
  rw [get?_removeResources h (List.mem_flatMap.2 ⟨v, hv, hr⟩)]
  rfl

/-- The saves write counts only. -/
theorem removeResources_eq (d : Db C) (villages : List (LoadedVillage C)) :
    removeResourcesForVillageCreation d villages =
      { d with
        villagesResourceTypes :=
          (removeResourcesForVillageCreation d villages).villagesResourceTypes } := by
  have hloop : ∀ (left : LeftToRemove) (d : Db C), removeFromVillages d left villages =
      { d with
        villagesResourceTypes := (removeFromVillages d left villages).villagesResourceTypes } := by
    induction villages with
    | nil => exact fun _ _ => rfl
    | cons v rest ih => exact fun _ _ => ih _ _
  exact hloop _ d

/-- Villages that have enough of food, iron and wood lose the price of each, from rows that had
something, and no other count changes. -/
theorem price_spread (h : Stored d villages)
    (henough : checkIfHasEnoughResourcesForNewVillage villages = true) :
    (∀ type ∈ chargedResources,
      totalOfVillages (villages.map (reread (removeResourcesForVillageCreation d villages))) type =
        totalOfVillages villages type - RESOURCES_NEEDED_NEW_VILLAGE) ∧
    List.Forall₂ (Spent villages) d.villagesResourceTypes.rows
      (removeResourcesForVillageCreation d villages).villagesResourceTypes.rows ∧
    removeResourcesForVillageCreation d villages =
      { d with
        villagesResourceTypes :=
          (removeResourcesForVillageCreation d villages).villagesResourceTypes } := by
  refine ⟨fun type ht => ?_, ?_, removeResources_eq d villages⟩
  · have hheld : RESOURCES_NEEDED_NEW_VILLAGE ≤ totalOfVillages villages type := by
      obtain ⟨hwood, hiron, hfood⟩ := of_decide_eq_true henough
      simp only [chargedResources, List.mem_cons, List.not_mem_nil, or_false] at ht
      rcases ht with rfl | rfl | rfl
      · exact hfood
      · exact hiron
      · exact hwood
    obtain ⟨t, rfl⟩ := exists_type hheld
    rw [← sum_savedRow h.nodup ht hheld, totalOfVillages_eq, flatMap_reread h, List.filter_map,
      List.map_map]
    rfl
  · rw [rows_removeResources h]
    exact List.forall₂_map_right_iff.2
      (List.forall₂_same.2 fun r hr => spent_savedRow h hr)

/-- The two villages of user 2 have 20000 of each resource. -/
theorem price_spread_sample :
    let villages := villagesForThisUser sampleOwners 2
    let after := villages.map
      (reread (removeResourcesForVillageCreation sampleOwners.toDb villages))
    chargedResources.map (totalOfVillages after) = [5000, 5000, 5000] ∧
      ∀ type ∈ chargedResources,
        totalOfVillages after type = totalOfVillages villages type - RESOURCES_NEEDED_NEW_VILLAGE :=
  ⟨by decide +kernel,
    (price_spread ⟨by decide +kernel, by decide +kernel⟩ (by decide +kernel)).1⟩

end Cme.Map.Price
