import CmeBackend.GameRules.Production
import CmeBackend.Villages.Resources
import Mathlib.Logic.Function.Basic

/-!
# The tables of production

The rows that the services of the barracks read and write besides those of the villages
(`orders.entity.ts`, `facility.entity.ts`).

* `GameDb`: the tables of the game with the orders, and with the columns of `facilities` that say
  what a facility produces.
* `LoadedFacility`: a facility as `findOne` gives it to a service. Its relation `village` is not
  eager, so it is undefined unless the query asks for it.
-/

namespace Cme

/-- A row of `orders`. -/
structure Order (C : Catalog) where
  id : ℕ
  facilityId : ℕ
  resourceType : C.Ref
  orderedQuantity : ℤ
  deliveredQuantity : ℤ
  deriving DecidableEq

instance {C : Catalog} : Keyed (Order C) := ⟨Order.id⟩

/-- The columns of a row of `facilities` that production writes. -/
structure FacilityProduction where
  isInProduction : Bool
  /-- In milliseconds. -/
  lastProductionAt : Option ℤ
  deriving DecidableEq

/-- The columns of a facility that has not produced. -/
def FacilityProduction.none : FacilityProduction := ⟨false, .none⟩

structure GameDb (C : Catalog) extends Db C where
  orders : Table (Order C)
  /-- By the id of the facility. -/
  production : ℕ → FacilityProduction

/-- A village with its eager relation `villagesResourceTypes`. -/
structure LoadedVillage (C : Catalog) where
  village : Village
  villagesResourceTypes : List (VillageResourceType C)

structure LoadedFacility (C : Catalog) where
  facility : Facility
  production : FacilityProduction
  village : Option (LoadedVillage C)

variable {C : Catalog}

/-- `villagesRepository.findOne(id)` -/
def Db.findVillage (d : Db C) (id : ℕ) : Option (LoadedVillage C) :=
  (d.villages.get? id).map fun v => ⟨v, d.rowsOf id⟩

theorem Db.findVillage_eq_some {d : Db C} {v : ℕ} {village : LoadedVillage C} :
    d.findVillage v = some village ↔
      d.villages.get? v = some village.village ∧ village.villagesResourceTypes = d.rowsOf v := by
  unfold Db.findVillage
  rw [Option.map_eq_some_iff]
  constructor
  · rintro ⟨row, hrow, rfl⟩
    exact ⟨hrow, rfl⟩
  · rintro ⟨hrow, hrows⟩
    obtain ⟨row, rows⟩ := village
    exact ⟨row, hrow, by rw [← hrows]⟩

theorem Db.id_of_findVillage {d : Db C} {v : ℕ} {village : LoadedVillage C}
    (h : d.findVillage v = some village) : village.village.id = v :=
  (Table.get?_eq_some.1 (Db.findVillage_eq_some.1 h).1).2

theorem Db.rows_of_findVillage {d : Db C} {v : ℕ} {village : LoadedVillage C}
    (h : d.findVillage v = some village) :
    village.villagesResourceTypes = d.rowsOf village.village.id := by
  rw [Db.id_of_findVillage h]
  exact (Db.findVillage_eq_some.1 h).2

namespace GameDb

/-- `facilitiesRepository.findOne({ where: { id } })`, with the relation `village` if it is asked
for. -/
def findFacility (d : GameDb C) (withVillage : Bool) (id : ℕ) : Option (LoadedFacility C) :=
  (d.facilities.get? id).map fun f =>
    { facility := f
      production := d.production id
      village := if withVillage then d.findVillage f.villageId else none }

/-- `getRepository(Facility).save(facility)`: every column has the value of the entity. -/
def saveFacility (d : GameDb C) (facility : Facility) (production : FacilityProduction) :
    GameDb C :=
  { d with
    facilities := d.facilities.update facility.id fun f =>
      { f with level := facility.level, facilityType := facility.facilityType }
    production := Function.update d.production facility.id production }

theorem findFacility_eq_some {d : GameDb C} {withVillage : Bool} {id : ℕ} {f : LoadedFacility C}
    (h : d.findFacility withVillage id = some f) :
    d.facilities.get? id = some f.facility ∧ f.production = d.production id := by
  obtain ⟨row, hrow, rfl⟩ := Option.map_eq_some_iff.1 h
  exact ⟨hrow, rfl⟩

/-- The columns of an entity as it was loaded are those of its row. -/
theorem facilities_saveFacility {d : GameDb C} {facility : Facility} {p : FacilityProduction}
    (h : facility ∈ d.facilities.rows) :
    (d.saveFacility facility p).facilities.rows = d.facilities.rows := by
  let save (f : Facility) : Facility :=
    { f with level := facility.level, facilityType := facility.facilityType }
  refine Table.rows_update_of_eq (f := save) (fun _ => rfl) fun f hf hk => ?_
  rw [Table.eq_of_key hf h hk]

end GameDb

end Cme
