import CmeBackend.Lib.Table
import CmeBackend.Lib.Json
import CmeBackend.Lib.Sql
import CmeBackend.GameRules.MilitaryResources

/-!
# The tables of the villages

The rows that the game services read and write (`village.entity.ts`, `facility.entity.ts`,
`village-resource-type.entity.ts`, `village-storage-resource-type.entity.ts`,
`resource-type.entity.ts`, `attack.entity.ts` and the migrations).

* `Catalog` is `resource_types`, which no service writes. A row that references a resource type has
  one of the catalog, so no row names a type that does not exist. `Catalog.find?` is the search for
  a type by its name.
* `countOf` is the number of units or resources of a type that a village holds.
* `addToCounts` is the statement by which battles and returns change the counts of a village.
-/

namespace Cme

open Js

/-- A request that goes through has gone through its first part. -/
theorem bind_eq_ok {ε α β : Type} {x : Except ε α} {f : α → Except ε β} {b : β} :
    x >>= f = .ok b ↔ ∃ a, x = .ok a ∧ f a = .ok b := by
  cases x with
  | error e => exact ⟨fun h => by contradiction, fun ⟨a, h, _⟩ => by contradiction⟩
  | ok a => exact ⟨fun h => ⟨a, rfl, h⟩, fun ⟨a', h, hf⟩ => by cases h; exact hf⟩

theorem exists_of_isOk {ε α : Type} {x : Except ε α} (h : x.isOk = true) : ∃ a, x = .ok a := by
  cases x with
  | error e => cases h
  | ok a => exact ⟨a, rfl⟩

theorem eq_ok_of_toOption {ε α : Type} {x : Except ε α} {a : α} (h : x.toOption = some a) :
    x = .ok a := by
  cases x with
  | error e => cases h
  | ok b => exact congrArg _ (Option.some.inj h)

/-! ## Resource types -/

/-- A row of `resource_types`. -/
structure ResourceType where
  id : ℕ
  type : String
  deriving DecidableEq, Repr

instance : Keyed ResourceType := ⟨ResourceType.id⟩

/-- The table `resource_types`, with its `UNIQUE (type)`. -/
structure Catalog where
  types : Table ResourceType
  unique : (types.rows.map ResourceType.type).Nodup

/-- A reference to a row of `resource_types`. -/
abbrev Catalog.Ref (C : Catalog) := { t : ResourceType // t ∈ C.types.rows }

variable {C : Catalog}

/-- The id of a resource type. -/
abbrev Catalog.Ref.id (t : C.Ref) : ℕ := t.val.id

/-- The name of a resource type. -/
abbrev Catalog.Ref.type (t : C.Ref) : String := t.val.type

/-- An id names one resource type. -/
theorem Catalog.Ref.eq_of_id {t u : C.Ref} (h : t.id = u.id) : t = u :=
  Subtype.ext (C.types.eq_of_key t.property u.property h)

/-- A name names one resource type. -/
theorem Catalog.Ref.eq_of_type {t u : C.Ref} (h : t.type = u.type) : t = u :=
  Subtype.ext (List.inj_on_of_nodup_map C.unique t.property u.property h)

/-- `resourceTypes.find((resource) => resource.type === type)` -/
def Catalog.find? (C : Catalog) (type : String) : Option C.Ref :=
  C.types.rows.attach.find? (·.val.type = type)

theorem Catalog.find?_eq_some {type : String} {t : C.Ref} :
    C.find? type = some t ↔ t.type = type := by
  constructor
  · intro h
    simpa using List.find?_some h
  · rintro rfl
    cases hf : C.find? t.type with
    | none =>
      have := List.find?_eq_none.1 hf t (List.mem_attach _ _)
      simp at this
    | some u =>
      have hu : u.type = t.type := by simpa using List.find?_some hf
      rw [Catalog.Ref.eq_of_type hu]

/-- The resource type with an id. -/
def Catalog.ofId? (C : Catalog) (id : ℕ) : Option C.Ref :=
  C.types.rows.attach.find? (·.val.id = id)

theorem Catalog.ofId?_eq_some {id : ℕ} {t : C.Ref} : C.ofId? id = some t ↔ t.id = id := by
  constructor
  · intro h
    simpa using List.find?_some h
  · rintro rfl
    cases hf : C.ofId? t.id with
    | none =>
      have := List.find?_eq_none.1 hf t (List.mem_attach _ _)
      simp at this
    | some u =>
      have hu : u.id = t.id := by simpa using List.find?_some hf
      rw [Catalog.Ref.eq_of_id hu]

/-! ## Rows -/

/-- A row of `villages`. Times are in milliseconds. -/
structure Village where
  id : ℕ
  userId : Option ℕ
  x : ℤ
  y : ℤ
  createdAt : ℤ
  truceEndsAt : ℤ
  deriving DecidableEq, Repr

/-- The virtual field `inTrucePeriod` of a village that is loaded at the time `now`. -/
def Village.inTrucePeriod (v : Village) (now : ℤ) : Bool := now < v.truceEndsAt

/-- A row of `villages_resource_types`. -/
structure VillageResourceType (C : Catalog) where
  id : ℕ
  villageId : Option ℕ
  resourceType : C.Ref
  count : ℤ
  deriving DecidableEq

/-- A row of `facilities`, with the `type` of its row of `facility_types`. -/
structure Facility where
  id : ℕ
  level : ℤ
  facilityType : String
  villageId : ℕ
  deriving DecidableEq, Repr

/-- A row of `villages_storage_resource_types`. -/
structure VillageStorageResourceType (C : Catalog) where
  id : ℕ
  facilityId : ℕ
  resourceType : C.Ref
  count : ℤ
  deriving DecidableEq

/-- A row of `attacks`. The columns of type `json` have the value that was written. -/
structure Attack where
  id : ℕ
  attackTime : Number
  report : Option Json
  isUnderAttack : Bool
  isTroopHome : Bool
  attackerWon : Bool
  stolenResources : Option Json
  attackerVillageId : ℕ
  attackerId : Option ℕ
  unitSent : Fields
  defenderVillageId : ℕ
  defenderId : Option ℕ

instance : Keyed Village := ⟨Village.id⟩
instance : Keyed (VillageResourceType C) := ⟨VillageResourceType.id⟩
instance : Keyed Facility := ⟨Facility.id⟩
instance : Keyed (VillageStorageResourceType C) := ⟨VillageStorageResourceType.id⟩
instance : Keyed Attack := ⟨Attack.id⟩

/-- The tables of the game. -/
structure Db (C : Catalog) where
  villages : Table Village
  villagesResourceTypes : Table (VillageResourceType C)
  facilities : Table Facility
  villagesStorageResourceTypes : Table (VillageStorageResourceType C)
  attacks : Table Attack

namespace Db

/-! ## Counts of a village -/

/-- `village.villagesResourceTypes` -/
def rowsOf (d : Db C) (villageId : ℕ) : List (VillageResourceType C) :=
  d.villagesResourceTypes.rows.filter (·.villageId = some villageId)

/-- The row of a resource type that the services find in a village. -/
def rowOf (d : Db C) (villageId : ℕ) (t : C.Ref) : Option (VillageResourceType C) :=
  (d.rowsOf villageId).find? (·.resourceType.id = t.id)

/-- How many of a resource type a village holds. -/
def countOf (d : Db C) (villageId : ℕ) (t : C.Ref) : ℤ :=
  ((d.rowOf villageId t).map VillageResourceType.count).getD 0

/-- A statement that gives every row of `villages_resource_types` a new count. -/
def setCounts (d : Db C) (f : VillageResourceType C → ℤ) : Db C :=
  { d with villagesResourceTypes := d.villagesResourceTypes.map fun r => { r with count := f r } }

/-- `UPDATE villages_resource_types SET count = count + v.added FROM (values ...) AS v(id, added)
WHERE village_id = villageId AND resource_type_id = v.id` -/
def addToCounts (d : Db C) (villageId : ℕ) (values : List (ℕ × ℚ)) : Db C :=
  d.setCounts fun r =>
    if r.villageId = some villageId then
      match values.lookup r.resourceType.id with
      | some x => Sql.toInteger (r.count + x)
      | none => r.count
    else r.count

/-- `UPDATE villages_resource_types SET count = count - v.amount FROM (values ...) AS v(id, amount)
WHERE village_id = villageId AND resource_type_id = v.id` -/
def subtractFromCounts (d : Db C) (villageId : ℕ) (values : List (ℕ × ℚ)) : Db C :=
  d.addToCounts villageId (values.map fun v => (v.1, -v.2))

/-- `UPDATE attacks SET ... WHERE id = id` -/
def updateAttack (d : Db C) (id : ℕ) (f : Attack → Attack)
    (hf : ∀ a, key (f a) = key a := by intro _; rfl) : Db C :=
  { d with attacks := d.attacks.update id f hf }

variable {d : Db C} {villageId v : ℕ} {t : C.Ref} {r : VillageResourceType C}
  {f : VillageResourceType C → ℤ}

theorem mem_rowsOf : r ∈ d.rowsOf v ↔ r ∈ d.villagesResourceTypes.rows ∧ r.villageId = some v := by
  simp [rowsOf]

theorem rowOf_eq_some (h : d.rowOf v t = some r) : r ∈ d.rowsOf v ∧ r.resourceType = t := by
  refine ⟨List.mem_of_find?_eq_some h, Catalog.Ref.eq_of_id ?_⟩
  simpa using List.find?_some h

theorem countOf_of_rowOf (h : d.rowOf v t = some r) : d.countOf v t = r.count := by
  simp [countOf, h]

theorem rowOf_congr {d' : Db C} (h : d'.rowsOf v = d.rowsOf v) : d'.rowOf v t = d.rowOf v t := by
  rw [rowOf, h, rowOf]

theorem countOf_congr {d' : Db C} (h : d'.rowsOf v = d.rowsOf v) :
    d'.countOf v t = d.countOf v t := by
  rw [countOf, rowOf_congr h, countOf]

theorem rowsOf_setCounts :
    (d.setCounts f).rowsOf v = (d.rowsOf v).map fun r => { r with count := f r } := by
  simp only [rowsOf, setCounts, Table.map, List.filter_map]
  rfl

/-- A statement that keeps every count changes nothing. -/
theorem setCounts_count : d.setCounts VillageResourceType.count = d := by
  have hrows : d.villagesResourceTypes.rows.map (fun r => { r with count := r.count }) =
      d.villagesResourceTypes.rows := List.map_id _
  unfold setCounts Table.map
  simp only [hrows]

/-- Only the rows of the table count. -/
theorem setCounts_congr {g : VillageResourceType C → ℤ}
    (h : ∀ r ∈ d.villagesResourceTypes.rows, f r = g r) : d.setCounts f = d.setCounts g := by
  have hrows : d.villagesResourceTypes.rows.map (fun r => { r with count := f r }) =
      d.villagesResourceTypes.rows.map fun r => { r with count := g r } :=
    List.map_congr_left fun r hr => by rw [h r hr]
  unfold setCounts Table.map
  simp only [hrows]

theorem setCounts_setCounts {g : VillageResourceType C → ℤ} :
    (d.setCounts f).setCounts g = d.setCounts fun r => g { r with count := f r } := by
  unfold setCounts Table.map
  simp only [List.map_map]
  rfl

theorem rowOf_setCounts :
    (d.setCounts f).rowOf v t = (d.rowOf v t).map fun r => { r with count := f r } := by
  unfold rowOf
  rw [rowsOf_setCounts, List.find?_map]
  rfl

theorem isSome_rowOf_setCounts : ((d.setCounts f).rowOf v t).isSome = (d.rowOf v t).isSome := by
  rw [rowOf_setCounts, Option.isSome_map]

/-- A statement that keeps the count of a row keeps the count of its village and type. -/
theorem countOf_setCounts_of_eq (h : ∀ r, d.rowOf v t = some r → f r = r.count) :
    (d.setCounts f).countOf v t = d.countOf v t := by
  unfold countOf
  rw [rowOf_setCounts]
  cases hr : d.rowOf v t with
  | none => rfl
  | some r => simp [h r hr]

theorem countOf_setCounts (h : d.rowOf v t = some r) : (d.setCounts f).countOf v t = f r := by
  rw [countOf, rowOf_setCounts, h]
  rfl

section AddToCounts

variable {values : List (ℕ × ℚ)}

/-- The rows of other villages do not change. -/
theorem rowsOf_addToCounts_of_ne (h : v ≠ villageId) :
    (d.addToCounts villageId values).rowsOf v = d.rowsOf v := by
  rw [addToCounts, rowsOf_setCounts]
  refine (List.map_congr_left fun r hr => ?_).trans (List.map_id _)
  have hv : r.villageId ≠ some villageId := (mem_rowsOf.1 hr).2 ▸ fun heq => h (Option.some.inj heq)
  rw [if_neg hv]
  rfl

/-- The counts of the types that are not listed do not change. -/
theorem countOf_addToCounts_of_none (h : values.lookup t.id = none) :
    (d.addToCounts villageId values).countOf v t = d.countOf v t := by
  apply countOf_setCounts_of_eq
  intro r hr
  obtain ⟨-, rfl⟩ := rowOf_eq_some hr
  simp [h]

/-- The count of a type that is listed grows by its value. -/
theorem countOf_addToCounts {n : ℤ} (hrow : (d.rowOf v t).isSome)
    (h : values.lookup t.id = some (n : ℚ)) :
    (d.addToCounts v values).countOf v t = d.countOf v t + n := by
  obtain ⟨r, hr⟩ := Option.isSome_iff_exists.1 hrow
  obtain ⟨hmem, rfl⟩ := rowOf_eq_some hr
  have hv : r.villageId = some v := (mem_rowsOf.1 hmem).2
  rw [addToCounts, countOf_setCounts hr, countOf_of_rowOf hr]
  simp only [hv, h, if_true]
  exact_mod_cast Sql.toInteger_int (r.count + n)

theorem isSome_rowOf_addToCounts :
    ((d.addToCounts villageId values).rowOf v t).isSome = (d.rowOf v t).isSome :=
  isSome_rowOf_setCounts

/-- Statements that subtract from different types are one statement. -/
theorem foldl_subtractFromCounts (hn : (values.map Prod.fst).Nodup) :
    values.foldl (fun d value => d.subtractFromCounts villageId [value]) d =
      d.subtractFromCounts villageId values := by
  induction values generalizing d with
  | nil =>
    refine Eq.symm (Eq.trans (congrArg d.setCounts (funext fun r => ?_)) setCounts_count)
    simp
  | cons value rest ih =>
    obtain ⟨hnot, hrest⟩ := List.nodup_cons.1 hn
    rw [List.foldl_cons, ih hrest]
    unfold subtractFromCounts addToCounts
    rw [setCounts_setCounts]
    congr 1
    funext r
    by_cases hv : r.villageId = some villageId
    · by_cases heq : r.resourceType.id = value.1
      · have hnone : (rest.map fun v => (v.1, -v.2)).lookup r.resourceType.id = none := by
          refine List.lookup_eq_none_iff.2 fun p hp => ?_
          obtain ⟨v, hv, rfl⟩ := List.mem_map.1 hp
          simp only [bne_iff_ne, ne_eq]
          exact fun h => hnot (heq ▸ h ▸ List.mem_map_of_mem hv)
        rw [heq] at hnone
        simp [hv, hnone, heq]
      · have hne : (r.resourceType.id == value.1) = false := beq_false_of_ne heq
        simp [hv, List.lookup_cons, hne]
    · simp [hv]

end AddToCounts

@[simp] theorem countOf_updateAttack {id : ℕ} {g : Attack → Attack} {hg} :
    (d.updateAttack id g hg).countOf v t = d.countOf v t := rfl

/-- What an update of an attack makes of its row. -/
theorem get?_updateAttack {id : ℕ} {g : Attack → Attack} {hg} {a : Attack}
    (h : d.attacks.get? id = some a) : (d.updateAttack id g hg).attacks.get? id = some (g a) :=
  Table.get?_update_self h hg

end Db

/-! ## A small catalog -/

def sampleCatalog : Catalog where
  types :=
    { rows := [⟨1, "food"⟩, ⟨2, "wood"⟩, ⟨3, "iron"⟩, ⟨4, "mkc"⟩, ⟨5, "stone_hunter"⟩,
        ⟨6, "stone_slinger"⟩]
      next := 7
      nodup := by decide
      lt_next := by decide }
  unique := by decide

def food : sampleCatalog.Ref := ⟨⟨1, "food"⟩, by decide⟩

def wood : sampleCatalog.Ref := ⟨⟨2, "wood"⟩, by decide⟩

def iron : sampleCatalog.Ref := ⟨⟨3, "iron"⟩, by decide⟩

def mkc : sampleCatalog.Ref := ⟨⟨4, "mkc"⟩, by decide⟩

def stoneHunter : sampleCatalog.Ref := ⟨⟨5, "stone_hunter"⟩, by decide⟩

def stoneSlinger : sampleCatalog.Ref := ⟨⟨6, "stone_slinger"⟩, by decide⟩

end Cme
