import CmeBackend.Production.Orders

/-!
# Producing units

`UnitsProducerService.produce` (`units-producer.service.ts`), for one item that has been popped: the
query for the order and the row of the village (`selectRows`), and the transaction that delivers one
unit (`deliverUnit`).

* `OrderToken`: the item, as the creation of the order has queued it.
* `none` of `readRows`: more than one row matches, and the tick ends with an error.
* `none` of `deliverUnit`: a statement fails, and the transaction is rolled back.
* `saveUnit`: the transaction for runs in which others save the facility while it is open.
-/

namespace Cme.Production

open GameRules

variable {C : Catalog}

/-- A member of `delayed:type`, an element of `pending:type`. -/
structure OrderToken where
  orderId : ℕ
  resourceTypeId : ℕ
  orderedQuantity : ℤ
  productionTime : ℕ
  villageId : ℕ
  facilityId : ℕ
  queue : String
  action : String
  deriving DecidableEq

instance : Keyed OrderToken := ⟨OrderToken.orderId⟩

/-- The item that the creation of an order queues. -/
def CheckedOrder.token (c : CheckedOrder C) (orderId : ℕ) : OrderToken where
  orderId := orderId
  resourceTypeId := c.resourceRequested.id
  orderedQuantity := c.orderedQuantity.num
  productionTime := productionTime c.unit
  villageId := c.village.village.id
  facilityId := c.facility.facility.id
  queue := s!"pending:{c.resourceRequested.type}"
  action := "create"

/-! ## The query -/

/-- The rows of the query: the order with each row of its type in the village. -/
def selectRows (d : GameDb C) (token : OrderToken) : List (Order C × VillageResourceType C) :=
  match d.orders.get? token.orderId with
  | some order => (d.rowsOfType token.villageId order.resourceType).map fun vrt => (order, vrt)
  | none => []

/-- What the service keeps of the rows. -/
structure Selected where
  deliveredQuantity : ℤ
  villageResourceTypeCount : Option ℤ
  deriving DecidableEq

def readRows : List (Order C × VillageResourceType C) → Option Selected
  | [] => some ⟨0, none⟩
  | [row] => some ⟨row.1.deliveredQuantity, some row.2.count⟩
  | _ => none

/-- `(rows.length === 0 || deliveredQuantity < orderedQuantity) && action === 'create'`. A row has a
count. -/
def Selected.due (sel : Selected) (token : OrderToken) : Bool :=
  (sel.villageResourceTypeCount.isNone || sel.deliveredQuantity < token.orderedQuantity) &&
    token.action = "create"

/-- `isCurrentProductionContinued` -/
def Selected.continued (sel : Selected) (token : OrderToken) : Bool :=
  sel.deliveredQuantity + 1 < token.orderedQuantity

/-! ## The transaction -/

/-- `UPDATE orders SET delivered_quantity = delivered_quantity + 1 WHERE id = id` -/
def deliverOne (d : GameDb C) (orderId : ℕ) : GameDb C :=
  { d with
    orders := d.orders.update orderId fun o =>
      { o with deliveredQuantity := o.deliveredQuantity + 1 } }

/-- The unit is a new row of the village, or one more in the rows of its type. -/
def storeUnit (d : Db C) (token : OrderToken) (villageResourceTypeCount : Option ℤ) :
    Option (Db C) :=
  match villageResourceTypeCount with
  | none => do
    let t ← C.ofId? token.resourceTypeId
    let _ ← d.villages.get? token.villageId
    return d.insertCount token.villageId t 1
  | some _ => some (d.addToCounts token.villageId [(token.resourceTypeId, 1)])

/-- The columns of the facility after a unit at the time `now`. -/
def producedAt (now : ℤ) (continued : Bool) (p : FacilityProduction) : FacilityProduction where
  isInProduction := if continued then p.isInProduction else false
  lastProductionAt := some now

/-- The transaction. The facility is loaded in it, and saved with its new columns. -/
def deliverUnit (now : ℤ) (d : GameDb C) (token : OrderToken) (sel : Selected) :
    Option (GameDb C) := do
  let stored ← storeUnit d.toDb token sel.villageResourceTypeCount
  let facility ← d.findFacility false token.facilityId
  return ({ deliverOne d token.orderId with toDb := stored } : GameDb C).saveFacility
    facility.facility (producedAt now (sel.continued token) facility.production)

/-- The transaction when it saves the facility that it has loaded before. -/
def saveUnit (now : ℤ) (d : GameDb C) (token : OrderToken) (sel : Selected)
    (facility : LoadedFacility C) : Option (GameDb C) := do
  let stored ← storeUnit d.toDb token sel.villageResourceTypeCount
  return ({ deliverOne d token.orderId with toDb := stored } : GameDb C).saveFacility
    facility.facility (producedAt now (sel.continued token) facility.production)

/-- Without anything in between, the two parts are the transaction. -/
theorem deliverUnit_eq_some {now : ℤ} {d d' : GameDb C} {token : OrderToken} {sel : Selected} :
    deliverUnit now d token sel = some d' ↔ ∃ facility,
      d.findFacility false token.facilityId = some facility ∧
        saveUnit now d token sel facility = some d' := by
  unfold deliverUnit saveUnit
  cases storeUnit d.toDb token sel.villageResourceTypeCount <;>
    cases d.findFacility false token.facilityId <;> simp

end Cme.Production
