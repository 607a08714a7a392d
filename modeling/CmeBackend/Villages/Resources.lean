import CmeBackend.Villages.Entities

/-!
# Resources that leave and enter a village

The errors that the services return (`libs/errors`), the check that a village has the resources of a
request (`resources-ms-resources.service.ts`) and the move of these into or out of it
(`resources-ms-exchanges.service.ts`).

* `SentResources`: the counts of a request by the names of their resource types.
* `villageHasEnoughResources`: the check reads the first row of a type.
* `addOrRemoveResourcesToVillage`: the move changes every row of a type.
* `totalOf`: what a village holds of a type, in all its rows. Nothing keeps a village from having
  two rows of one type, and then a move changes the total by a multiple (`totalOf_saveResources_one`).
-/

namespace Cme

/-! ## Errors -/

inductive HttpStatus where
  | badRequest
  | unauthorized
  | forbidden
  | notFound
  | internalServerError
  deriving DecidableEq, Repr

structure HttpException where
  response : String
  status : HttpStatus
  deriving DecidableEq, Repr

def ERROR_VILLAGE_NOT_FOUND : HttpException := ⟨"VILLAGE_NOT_FOUND", .notFound⟩

def ERROR_VILLAGE_NOT_ENOUGH_RESOURCES : HttpException :=
  ⟨"ERROR_VILLAGE_NOT_ENOUGH_RESOURCES", .badRequest⟩

def ERROR_FACILITY_NOT_FOUND : HttpException := ⟨"FACILITY_NOT_FOUND", .notFound⟩

def ERROR_FACILITY_STORAGE_NOT_FOUND : HttpException :=
  ⟨"ERROR_FACILITY_STORAGE_NOT_FOUND", .notFound⟩

def ERROR_FACILITY_HAS_NO_MORE_RESOURCES : HttpException :=
  ⟨"ERROR_FACILITY_HAS_NO_MORE_RESOURCES", .badRequest⟩

def ERROR_FACILITY_HAS_MAXIMUM_AMOUNT_OF_RESOURCES : HttpException :=
  ⟨"ERROR_FACILITY_HAS_MAXIMUM_AMOUNT_OF_RESOURCES", .badRequest⟩

def ERROR_RESOURCE_NOT_FOUND : HttpException := ⟨"ERROR_RESOURCE_NOT_FOUND", .notFound⟩

/-- How a request ends that does not go through: with an exception that is its result, or with the
`TypeError` of a property of an undefined value. -/
inductive ResourcesError where
  | exception (e : HttpException)
  | typeError
  deriving DecidableEq

/-- The value of a variable, or the exception that is returned if it is empty. -/
def orError {α : Type} (x : Option α) (e : HttpException) : Except ResourcesError α :=
  match x with
  | some a => .ok a
  | none => .error (.exception e)

theorem orError_eq_ok {α : Type} {x : Option α} {e : HttpException} {a : α} :
    orError x e = .ok a ↔ x = some a := by
  cases x <;> simp [orError]

/-! ## The check and the move -/

structure SentResource where
  resourceTypeId : ℕ
  count : ℤ

/-- The resources of a request by the names of their types. -/
abbrev SentResources := List (String × SentResource)

/-- What `villageHasEnoughResources` refuses: counts below or above those of the request. -/
inductive Refused where
  | inferior
  | superior

variable {C : Catalog}

/-- The loop of `villageHasEnoughResources`. The village has no row of a type: `TypeError`. -/
def villageHasEnoughResources (rows : List (VillageResourceType C)) (resources : SentResources)
    (type : Refused := .inferior) : Except ResourcesError Bool :=
  match resources with
  | [] => .ok true
  | (key, sent) :: rest =>
    match rows.find? (·.resourceType.type = key) with
    | none => .error .typeError
    | some villageRes =>
      let refused : Bool :=
        match type with
        | .inferior => villageRes.count < sent.count
        | .superior => villageRes.count > sent.count
      if refused then .ok false else villageHasEnoughResources rows rest type

/-- The count of a row of the village after the move of the resources of a request. -/
def addOrRemoveResourcesToVillage (sentResourcesFormatted : SentResources) (shouldRemove : Bool)
    (villageResourceType : VillageResourceType C) : ℤ :=
  match sentResourcesFormatted.lookup villageResourceType.resourceType.type with
  | none => villageResourceType.count
  | some resourceRequested =>
    if shouldRemove then villageResourceType.count - resourceRequested.count
    else villageResourceType.count + resourceRequested.count

/-- `villagesResourceTypesRepository.save` of the rows of a village after the move. -/
def Db.saveResources (d : Db C) (villageId : ℕ) (sentResourcesFormatted : SentResources)
    (shouldRemove : Bool) : Db C :=
  d.setCounts fun r =>
    if r.villageId = some villageId then
      addOrRemoveResourcesToVillage sentResourcesFormatted shouldRemove r
    else r.count

/-- What the move of one resource adds to a row of its type. -/
def SentResource.added (sent : SentResource) (shouldRemove : Bool) : ℤ :=
  if shouldRemove then -sent.count else sent.count

/-! ## Rows that a service has loaded -/

/-- A row as it was loaded, with the count that the service has given it since. -/
structure Entity (C : Catalog) where
  loaded : VillageResourceType C
  count : ℤ
  deriving DecidableEq

/-- `villagesResourceTypesRepository.save(entities)`: the count of an entity is written to its row,
whatever the row holds by then. -/
def Db.saveEntities (d : Db C) (entities : List (Entity C)) : Db C :=
  d.setCounts fun r =>
    match entities.find? (·.loaded.id = r.id) with
    | some e => e.count
    | none => r.count

/-- `INSERT INTO villages_resource_types` -/
def Db.insertCount (d : Db C) (villageId : ℕ) (t : C.Ref) (count : ℤ) : Db C :=
  { d with villagesResourceTypes := d.villagesResourceTypes.insert fun id =>
      { id, villageId := some villageId, resourceType := t, count } }

/-! ## What a village holds -/

/-- The rows of a resource type in a village. -/
def Db.rowsOfType (d : Db C) (villageId : ℕ) (t : C.Ref) : List (VillageResourceType C) :=
  (d.rowsOf villageId).filter (·.resourceType = t)

/-- No village has two rows of a resource type. -/
def Db.OneRowPerType (d : Db C) : Prop :=
  d.villagesResourceTypes.rows.Pairwise fun r r' =>
    ¬(r.villageId.isSome ∧ r.villageId = r'.villageId ∧ r.resourceType = r'.resourceType)

instance (d : Db C) : Decidable d.OneRowPerType :=
  inferInstanceAs (Decidable (List.Pairwise _ _))

/-- What a village holds of a resource type. -/
def Db.totalOf (d : Db C) (villageId : ℕ) (t : C.Ref) : ℤ :=
  ((d.rowsOfType villageId t).map VillageResourceType.count).sum

/-! ## Requests for one resource type -/

section One

variable {d : Db C} {villageId v : ℕ} {t : C.Ref} {sent : SentResource}

/-- The first row of a type by its name is the row of the type. -/
theorem find?_type : (d.rowsOf v).find? (·.resourceType.type = t.type) = d.rowOf v t := by
  unfold Db.rowOf
  congr 1
  funext r
  have hiff : r.resourceType.type = t.type ↔ r.resourceType.id = t.id :=
    ⟨fun h => congrArg _ (Catalog.Ref.eq_of_type h), fun h => congrArg _ (Catalog.Ref.eq_of_id h)⟩
  simp only [hiff]

/-- The village has a row of the type, and as much as is sent. -/
theorem villageHasEnoughResources_eq_true :
    villageHasEnoughResources (d.rowsOf v) [(t.type, sent)] = .ok true ↔
      ∃ r, d.rowOf v t = some r ∧ sent.count ≤ r.count := by
  simp only [villageHasEnoughResources, find?_type]
  cases d.rowOf v t with
  | none => simp
  | some r =>
    by_cases h : r.count < sent.count
    · simp [h]
    · simp [not_lt.1 h]

/-- The move of one resource adds to the counts of its rows. -/
theorem addOrRemoveResourcesToVillage_one {shouldRemove : Bool} (r : VillageResourceType C) :
    addOrRemoveResourcesToVillage [(t.type, sent)] shouldRemove r =
      r.count + if r.resourceType = t then sent.added shouldRemove else 0 := by
  unfold addOrRemoveResourcesToVillage SentResource.added
  by_cases h : r.resourceType = t
  · cases shouldRemove <;> simp [h, sub_eq_add_neg]
  · have hne : r.resourceType.type ≠ t.type := fun heq => h (Catalog.Ref.eq_of_type heq)
    simp [h, List.lookup_cons, beq_false_of_ne hne]

theorem rowsOf_saveResources_one {shouldRemove : Bool} :
    (d.saveResources v [(t.type, sent)] shouldRemove).rowsOf v =
      (d.rowsOf v).map fun r =>
        { r with count := r.count + if r.resourceType = t then sent.added shouldRemove else 0 } := by
  rw [Db.saveResources, Db.rowsOf_setCounts]
  apply List.map_congr_left
  intro r hr
  rw [if_pos (Db.mem_rowsOf.1 hr).2, addOrRemoveResourcesToVillage_one]

/-- Every row of the type changes, and no other. -/
theorem rowsOfType_saveResources_one {shouldRemove : Bool} (u : C.Ref) :
    (d.saveResources v [(t.type, sent)] shouldRemove).rowsOfType v u =
      (d.rowsOfType v u).map fun r =>
        { r with count := r.count + if u = t then sent.added shouldRemove else 0 } := by
  unfold Db.rowsOfType
  rw [rowsOf_saveResources_one, List.filter_map]
  apply List.map_congr_left
  intro r hr
  obtain rfl : r.resourceType = u := by simpa using (List.mem_filter.1 hr).2
  rfl

/-- The total of the type changes once for each of its rows. -/
theorem totalOf_saveResources_one {shouldRemove : Bool} (u : C.Ref) :
    (d.saveResources v [(t.type, sent)] shouldRemove).totalOf v u =
      d.totalOf v u +
        if u = t then (d.rowsOfType v t).length * sent.added shouldRemove else 0 := by
  unfold Db.totalOf
  rw [rowsOfType_saveResources_one, List.map_map]
  show ((d.rowsOfType v u).map fun r => r.count + _).sum = _
  rw [List.sum_map_add, List.map_const', List.sum_replicate, nsmul_eq_mul]
  by_cases h : u = t
  · rw [if_pos h, if_pos h, h]
  · rw [if_neg h, if_neg h, mul_zero]

/-- The village has a row of every type that it has enough of. -/
theorem rowsOfType_length_pos {r : VillageResourceType C} (h : d.rowOf v t = some r) :
    0 < (d.rowsOfType v t).length := by
  obtain ⟨hr, ht⟩ := Db.rowOf_eq_some h
  exact List.length_pos_of_mem (List.mem_filter.2 ⟨hr, by simpa using ht⟩)

end One

end Cme
