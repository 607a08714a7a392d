import CmeBackend.Facilities.Levels
import CmeBackend.Lib.Transaction
import CmeBackend.Villages.Charges

/-!
# Orders charge exactly

`ResourcesMsOrdersService.create` (`resources-ms-orders.service.ts`) for a barrack that is loaded
with its village, with the transaction statement by statement. The checks are the ones of
`checkOrder`; the transaction writes the counts, the order, and the facility.

* `ends_placeOrder`: the statements do what `storeOrder` says, or one of them fails.
* `lookup_amounts`: the list of values that the first statement reads is the price of the three
  resources, and has no entry for the others. The price in mkc is left out.
* `order_charges`: the result.

What is queued after the commit is no row, and an error of it is caught.
-/

namespace Cme.Production.Charging

open GameRules Transaction

variable {C : Catalog}

/-! ## The code -/

/-- A program between the start of the transaction and its commit. -/
abbrev GameM (C : Catalog) (α : Type) := TxM (GameDb C) Unit α

/-- `UPDATE villages_resource_types ... FROM (values ...)`. The database refuses a text that is no
list of values. -/
def subtractAmounts (c : CheckedOrder C) : GameM C Unit :=
  match resourceTypeIdAmounts c with
  | none => throw .sql
  | some amounts => execute fun d =>
    { d with toDb := d.toDb.subtractFromCounts c.village.village.id amounts }

/-- The order that is saved. -/
def orderEntity (c : CheckedOrder C) (id : ℕ) : Order C :=
  { id, facilityId := c.facility.facility.id, resourceType := c.resourceRequested
    orderedQuantity := c.orderedQuantity.num, deliveredQuantity := 0 }

theorem key_orderEntity (c : CheckedOrder C) (id : ℕ) : key (orderEntity c id) = id := rfl

/-- `getRepository(Order).save(order)`. The column of the quantity is an integer. -/
def saveOrder (c : CheckedOrder C) : GameM C (Order C) :=
  if c.orderedQuantity.den ≠ 1 then throw .sql else
  query fun d =>
    (orderEntity c d.orders.next,
      { d with orders := d.orders.insert (orderEntity c) (key_orderEntity c) })

/-- The `try` block, up to the commit. -/
def placeOrder (c : CheckedOrder C) : GameM C (Order C) := do
  subtractAmounts c
  let orderEntity ← saveOrder c
  execute fun d => d.saveFacility c.facility.facility c.busy
  return orderEntity

/-- The exception that the `catch` block makes of what is thrown. -/
def caught : Thrown → ResourcesError
  | .error message => .exception ⟨message, .badRequest⟩
  | .sql => .exception ⟨"QueryFailedError", .badRequest⟩
  | .library => .exception ⟨"Error", .badRequest⟩

/-- `create`, for a facility that is loaded with its village. -/
def create (d : GameDb C) (faults : Faults) (order : CreateOrder) :
    GameDb C × Except ResourcesError (Order C) :=
  match checkOrder true d order with
  | .error e => (d, .error e)
  | .ok c =>
    let outcome := transact d () faults (placeOrder c)
    (outcome.db, outcome.result.mapError caught)

/-! ## What the statements do -/

theorem ends_placeOrder {c : CheckedOrder C} {amounts : List (ℕ × ℚ)} {s : Tx (GameDb C) Unit}
    (hamounts : resourceTypeIdAmounts c = some amounts) (hquantity : c.orderedQuantity.den = 1) :
    Ends (placeOrder c)
      (fun order s' =>
        (order = ⟨s.db.orders.next, c.facility.facility.id, c.resourceRequested,
          c.orderedQuantity.num, 0⟩ ∧
        s'.db = (storeOrder s.db c amounts).saveFacility c.facility.facility c.busy) ∧
        (Reliable s → Reliable s'))
      (fun _ _ => ¬Reliable s) s := by
  unfold placeOrder subtractAmounts saveOrder
  rw [hamounts, if_neg (not_not.2 hquantity)]
  simp only [ends_bind, ends_pure]
  exact ends_query (fun _ => ends_query (fun _ => ends_query (fun _ => ⟨⟨rfl, rfl⟩, id⟩) id) id) id

/-! ## The list of values -/

section Amounts

variable {c : CheckedOrder C}

theorem cost_mem (unit : MilitaryResource) {name : String} (h : name ∈ ["food", "iron", "wood"]) :
    ∃ cost, (name, cost) ∈ productionCosts unit := by
  have hall : ∀ name ∈ ["food", "iron", "wood"],
      ((productionCosts unit).map Prod.fst).contains name := by
    cases unit <;> decide
  obtain ⟨⟨found, cost⟩, hcost, rfl⟩ := List.mem_map.1 (List.contains_iff_mem.1 (hall name h))
  exact ⟨cost, hcost⟩

/-- With a row of food, no entry of the list is without its separator. -/
theorem resourceTypeIdAmounts_eq
    (hfood : (c.resources.find? (·.resourceType.type = "food")).isSome) :
    resourceTypeIdAmounts c = some ((productionCosts c.unit).filterMap (resourceTypeIdAmount c)) := by
  obtain ⟨cost, rest, hcosts⟩ : ∃ cost rest, productionCosts c.unit = ("food", cost) :: rest := by
    cases c.unit <;> exact ⟨_, _, rfl⟩
  obtain ⟨r, hr⟩ := Option.isSome_iff_exists.1 hfood
  unfold resourceTypeIdAmounts
  rw [hcosts, List.filterMap_cons]
  unfold resourceTypeIdAmount
  simp only [hr, Option.map_some]

end Amounts

/-! ## What the checks mean -/

/-- The unit is one of those up to the level. -/
def Unlocked (unit : MilitaryResource) (level : ℤ) : Prop :=
  ∃ l : ℕ, (l, unit) ∈ barrackLevels ∧ l ≤ level

/-- What an order of `n` units costs, of the resources that are charged. -/
def orderPrice (unit : MilitaryResource) (n : ℕ) (t : C.Ref) : ℤ :=
  if t.type ∈ ["food", "iron", "wood"] then
    ((productionCosts unit).lookup t.type).getD 0 * n
  else 0

/-- A barrack that has just been loaded with its village, which has one row each of food, iron and
wood. -/
structure LoadedBarrack (d : GameDb C) (facility : LoadedFacility C) (village : LoadedVillage C) :
    Prop where
  loaded : d.findFacility true facility.facility.id = some facility
  relation : facility.village = some village
  barrack : facility.facility.facilityType = barrackDescriptor.name
  rows : ∀ name ∈ ["food", "iron", "wood"],
    ∃ t : C.Ref, t.type = name ∧ d.HasOneRow village.village.id t

/-- The barrack and the village take the order. -/
structure Acceptable (d : GameDb C) (facility : LoadedFacility C) (villageId : ℕ)
    (unit : MilitaryResource) (n : ℕ) : Prop where
  unlocked : Unlocked unit facility.facility.level
  free : facility.production.isInProduction = false
  stock : ∀ t : C.Ref, t.type ∈ ["food", "iron", "wood"] →
    orderPrice unit n t ≤ d.countOf villageId t

/-- The entity of an order that has passed the checks. -/
def checked (facility : LoadedFacility C) (village : LoadedVillage C) (resourceRequested : C.Ref)
    (unit : MilitaryResource) (n : ℕ) : CheckedOrder C where
  facility := facility
  village := village
  resourceRequested := resourceRequested
  unit := unit
  resources := village.villagesResourceTypes.filter isOrderResource
  orderedQuantity := n

section Checks

variable {d : GameDb C} {facility : LoadedFacility C} {village : LoadedVillage C}
  {unit : MilitaryResource} {n : ℕ} {level : ℤ}

theorem unlocked_of_tier {tier : MilitaryBuildingTier}
    (h : (barrackDescriptor.tiers.find? fun t => t.tier = level) = some tier) :
    unit ∈ tier.availableMilitaryResources ↔ Unlocked unit level := by
  obtain ⟨i, -, rfl⟩ := List.mem_map.1 (List.mem_of_find?_eq_some h)
  have hlevel := List.find?_some h
  rw [decide_eq_true_eq] at hlevel
  have hmem : unit ∈ getUnitUntilLevel (i + 1) ↔ ∃ l : ℕ, (l, unit) ∈ barrackLevels ∧ l ≤ i + 1 := by
    unfold getUnitUntilLevel
    simp
  rw [hmem]
  unfold Unlocked
  rw [← hlevel]
  simp only [Nat.cast_le]

theorem LoadedBarrack.rows_eq (h : LoadedBarrack d facility village) :
    village.villagesResourceTypes = d.rowsOf village.village.id := by
  obtain ⟨row, -, hfacility⟩ := Option.map_eq_some_iff.1 h.loaded
  have hvillage := h.relation
  rw [← hfacility] at hvillage
  exact Db.rows_of_findVillage hvillage

theorem LoadedBarrack.hasOneRow (h : LoadedBarrack d facility village) {t : C.Ref}
    (ht : t.type ∈ ["food", "iron", "wood"]) : d.HasOneRow village.village.id t := by
  obtain ⟨t', htype, hrow⟩ := h.rows t.type ht
  rwa [Catalog.Ref.eq_of_type htype] at hrow

theorem mem_orderResources (h : LoadedBarrack d facility village) {r : VillageResourceType C} :
    r ∈ village.villagesResourceTypes.filter isOrderResource ↔
      r.resourceType.type ∈ ["food", "iron", "wood"] ∧
        d.rowOf village.village.id r.resourceType = some r := by
  rw [List.mem_filter, h.rows_eq]
  constructor
  · rintro ⟨hmem, htype⟩
    have htype := of_decide_eq_true htype
    exact ⟨htype, (h.hasOneRow htype).rowOf_eq hmem⟩
  · rintro ⟨htype, hrow⟩
    exact ⟨(Db.rowOf_eq_some hrow).1, decide_eq_true htype⟩

/-- The rows of three types, one type after the other. -/
theorem length_filter_types {food iron wood : C.Ref} (hfood : food.type = "food")
    (hiron : iron.type = "iron") (hwood : wood.type = "wood") (rows : List (VillageResourceType C)) :
    (rows.filter isOrderResource).length =
      (rows.filter (·.resourceType = food)).length + (rows.filter (·.resourceType = iron)).length +
        (rows.filter (·.resourceType = wood)).length := by
  have htype : ∀ (r : VillageResourceType C) (t : C.Ref),
      r.resourceType = t ↔ r.resourceType.type = t.type :=
    fun r t => ⟨congrArg _, Catalog.Ref.eq_of_type⟩
  induction rows with
  | nil => rfl
  | cons r rest ih =>
    simp only [List.filter_cons, isOrderResource, htype, hfood, hiron, hwood, List.mem_cons,
      List.not_mem_nil, or_false, decide_eq_true_eq] at ih ⊢
    by_cases h₁ : r.resourceType.type = "food"
    · simp [h₁, ih]
      omega
    · by_cases h₂ : r.resourceType.type = "iron"
      · simp [h₂, ih]
        omega
      · by_cases h₃ : r.resourceType.type = "wood"
        · simp [h₃, ih]
          omega
        · simp [h₁, h₂, h₃, ih]

/-- The quantities are checked on the rows of the three types. -/
theorem hasEnoughResources_iff (h : LoadedBarrack d facility village) :
    hasEnoughResources (village.villagesResourceTypes.filter isOrderResource) unit n = true ↔
      ∀ t : C.Ref, t.type ∈ ["food", "iron", "wood"] →
        orderPrice unit n t ≤ d.countOf village.village.id t := by
  have hprice : ∀ t : C.Ref, t.type ∈ ["food", "iron", "wood"] →
      price unit n t.type = (orderPrice unit n t : ℚ) := by
    intro t ht
    unfold price orderPrice
    rw [if_pos ht]
    push_cast
    rfl
  have hlength : (village.villagesResourceTypes.filter isOrderResource).length = 3 := by
    obtain ⟨food, hfood, hfoods⟩ := h.rows "food" (by decide)
    obtain ⟨iron, hiron, hirons⟩ := h.rows "iron" (by decide)
    obtain ⟨wood, hwood, hwoods⟩ := h.rows "wood" (by decide)
    rw [h.rows_eq, length_filter_types hfood hiron hwood]
    show (d.rowsOfType _ food).length + (d.rowsOfType _ iron).length +
      (d.rowsOfType _ wood).length = 3
    rw [hfoods, hirons, hwoods]
  unfold hasEnoughResources
  rw [decide_eq_true_eq]
  constructor
  · rintro ⟨-, hall⟩ t ht
    obtain ⟨r, hr⟩ := Option.isSome_iff_exists.1 (h.hasOneRow ht).isSome_rowOf
    obtain ⟨-, rfl⟩ := Db.rowOf_eq_some hr
    have hle := hall r ((mem_orderResources h).2 ⟨ht, hr⟩)
    rw [hprice _ ht] at hle
    rw [Db.countOf_of_rowOf hr]
    exact_mod_cast hle
  · refine fun hstock => ⟨hlength, fun r hr => ?_⟩
    obtain ⟨htype, hrow⟩ := (mem_orderResources h).1 hr
    have hle := hstock r.resourceType htype
    rw [Db.countOf_of_rowOf hrow] at hle
    rw [hprice _ htype]
    exact_mod_cast hle

/-- An order of `n` units that has passed the checks. -/
theorem checkOrder_acceptable (h : LoadedBarrack d facility village) {c : CheckedOrder C}
    (hc : checkOrder true d ⟨facility.facility.id, n, unit.name⟩ = .ok c) :
    Acceptable d facility village.village.id unit n ∧
      ∃ t : C.Ref, t.type = unit.name ∧ c = checked facility village t unit n := by
  unfold checkOrder at hc
  split at hc
  · cases hc
  obtain ⟨found, hfound, hc⟩ := bind_eq_ok.1 hc
  obtain rfl := Option.some.inj (h.loaded.symm.trans (orError_eq_ok.1 hfound))
  split at hc
  · cases hc
  obtain ⟨t, ht, hc⟩ := bind_eq_ok.1 hc
  have htype := Catalog.find?_eq_some.1 (orError_eq_ok.1 ht)
  obtain ⟨found, hfound, hc⟩ := bind_eq_ok.1 hc
  have hunit := orError_eq_ok.1 hfound
  rw [htype, MilitaryResource.ofName?_name] at hunit
  obtain rfl := Option.some.inj hunit
  split at hc
  · cases hc
  next tier htier =>
    split at hc
    · cases hc
    next hmem =>
      rw [h.relation] at hc
      simp only at hc
      split at hc
      · cases hc
      next henough =>
        split at hc
        · cases hc
        next hfree =>
          cases hc
          exact ⟨⟨(unlocked_of_tier htier).1 (not_not.1 hmem), by simpa using hfree,
            (hasEnoughResources_iff h).1 (by simpa using henough)⟩, t, htype, rfl⟩

/-- An order that the barrack and the village take passes the checks. -/
theorem checkOrder_of_acceptable (h : LoadedBarrack d facility village) (hn : 0 < n)
    (hlevel : facility.facility.level ≤ 20) {t : C.Ref} (ht : t.type = unit.name)
    (ha : Acceptable d facility village.village.id unit n) :
    checkOrder true d ⟨facility.facility.id, n, unit.name⟩ =
      .ok (checked facility village t unit n) := by
  have hpos : ¬(n : ℚ) ≤ 0 := by
    rw [not_le]
    exact_mod_cast hn
  obtain ⟨l, hl, hle⟩ := ha.unlocked
  have hfirst : 1 ≤ l := by
    have hall : ∀ p ∈ barrackLevels, 1 ≤ p.1 := by decide
    exact hall _ hl
  have htiers : (barrackDescriptor.tiers.find? fun t => t.tier = facility.facility.level).isSome :=
    Facilities.Saves.isSome_find?_tier (by omega) hlevel
  obtain ⟨tier, htier⟩ := Option.isSome_iff_exists.1 htiers
  have hmem := (unlocked_of_tier htier).2 ha.unlocked
  have henough := (hasEnoughResources_iff h).2 ha.stock
  unfold checkOrder
  rw [if_neg hpos]
  refine bind_eq_ok.2 ⟨facility, orError_eq_ok.2 h.loaded, ?_⟩
  rw [if_neg (not_not.2 h.barrack)]
  refine bind_eq_ok.2 ⟨t, orError_eq_ok.2 (Catalog.find?_eq_some.2 ht), ?_⟩
  refine bind_eq_ok.2 ⟨unit, orError_eq_ok.2 (by rw [ht, MilitaryResource.ofName?_name]), ?_⟩
  rw [htier]
  dsimp only
  rw [if_neg (not_not.2 hmem), h.relation]
  dsimp only
  rw [henough, ha.free]
  rfl

/-! ## What an order writes -/

/-- The list of values has an amount for each of the three types, and for no other. -/
theorem lookup_amounts (h : LoadedBarrack d facility village) (t u : C.Ref) :
    (∀ amount, ((productionCosts unit).filterMap
      (resourceTypeIdAmount (checked facility village u unit n))).lookup t.id = some amount →
      orderPrice unit n t = amount) ∧
    (((productionCosts unit).filterMap
      (resourceTypeIdAmount (checked facility village u unit n))).lookup t.id = none →
      orderPrice unit n t = 0) := by
  have hvalues : (productionCosts unit).filterMap
      (resourceTypeIdAmount (checked facility village u unit n)) =
      valuesOf (checked facility village u unit n).resources Prod.fst
        (fun cost : String × ℕ => (cost.2 : ℚ) * n) (productionCosts unit) := rfl
  rw [hvalues]
  constructor
  · intro amount hlookup
    obtain ⟨cost, hcost, hname, rfl, r, hr, rfl⟩ := mem_of_lookup_valuesOf hlookup
    obtain ⟨htype, -⟩ := (mem_orderResources h).1 hr
    unfold orderPrice
    rw [if_pos htype, ← hname, lookup_of_mem (nodup_productionCosts unit) hcost]
    simp only [Option.getD_some]
    push_cast
    rfl
  · intro hlookup
    unfold orderPrice
    split
    next htype =>
      obtain ⟨cost, hcost⟩ := cost_mem unit htype
      obtain ⟨r, hr⟩ := Option.isSome_iff_exists.1 (h.hasOneRow htype).isSome_rowOf
      obtain ⟨-, rfl⟩ := Db.rowOf_eq_some hr
      have hmem : r ∈ (checked facility village u unit n).resources :=
        (mem_orderResources h).2 ⟨htype, hr⟩
      exact absurd rfl (name_ne_of_lookup_valuesOf hlookup hmem rfl hcost)
    · rfl

/-- What an order writes: the price is paid, the order is stored, and the barrack is busy. -/
structure Ordered (d d' : GameDb C) (facility : Facility) (villageId : ℕ) (unit : MilitaryResource)
    (n : ℕ) (order : Order C) : Prop where
  paid : Paid d.toDb (d.toDb.charge villageId (orderPrice unit n)) villageId (orderPrice unit n)
  nonneg : ∀ t : C.Ref, t.type ∈ ["food", "iron", "wood"] → 0 ≤ d'.countOf villageId t
  ordersUnit : order.resourceType.type = unit.name
  columns : order = ⟨d.orders.next, facility.id, order.resourceType, n, 0⟩
  stored : d' = { d with
    toDb := d.toDb.charge villageId (orderPrice unit n)
    orders := d.orders.insert fun id => { order with id }
    production := Function.update d.production facility.id
      { d.production facility.id with isInProduction := true } }

theorem ordered (h : LoadedBarrack d facility village) {t : C.Ref} (ht : t.type = unit.name)
    (ha : Acceptable d facility village.village.id unit n) :
    Ordered d ((storeOrder d (checked facility village t unit n)
        ((productionCosts unit).filterMap
          (resourceTypeIdAmount (checked facility village t unit n)))).saveFacility
        facility.facility (checked facility village t unit n).busy)
      facility.facility village.village.id unit n
      ⟨d.orders.next, facility.facility.id, t, (n : ℚ).num, 0⟩ := by
  obtain ⟨hget, hproduction⟩ := GameDb.findFacility_eq_some h.loaded
  have hcovers : ∀ u : C.Ref, orderPrice unit n u ≠ 0 →
      (d.rowOf village.village.id u).isSome ∧
        orderPrice unit n u ≤ d.countOf village.village.id u := by
    intro u hu
    by_cases htype : u.type ∈ ["food", "iron", "wood"]
    · exact ⟨(h.hasOneRow htype).isSome_rowOf, ha.stock u htype⟩
    · exact absurd (if_neg htype) hu
  have hpaid := paid_charge hcovers
  have hcharge : d.toDb.subtractFromCounts village.village.id
      ((productionCosts unit).filterMap (resourceTypeIdAmount (checked facility village t unit n))) =
      d.toDb.charge village.village.id (orderPrice unit n) :=
    subtractFromCounts_eq_charge (fun u _ => (lookup_amounts h u t).1 _)
      fun u => (lookup_amounts h u t).2
  refine ⟨hpaid, fun u hu => ?_, ht, rfl, ?_⟩
  · show 0 ≤ (d.toDb.subtractFromCounts village.village.id _).countOf village.village.id u
    rw [hcharge, hpaid.falls]
    exact sub_nonneg.2 (ha.stock u hu)
  · -- The columns of the facility that the save writes besides are those of its row.
    have hfacilities : (d.toDb.charge village.village.id (orderPrice unit n)).facilities.update
        facility.facility.id (fun f => { f with
          level := facility.facility.level, facilityType := facility.facility.facilityType }) =
        d.facilities :=
      Table.update_of_eq _ fun f hf hid => by
        rw [Table.eq_of_key hf (Table.get?_eq_some.1 hget).1 hid]
    generalize (productionCosts unit).filterMap
      (resourceTypeIdAmount (checked facility village t unit n)) = amounts at hcharge ⊢
    unfold storeOrder GameDb.saveFacility CheckedOrder.busy
    simp only [checked, hcharge, hfacilities, hproduction]
    rfl

end Checks

/-- What the request of an order may end in. -/
structure ChargesOrFails (d : GameDb C) (faults : Faults) (facility : LoadedFacility C)
    (villageId : ℕ) (unit : MilitaryResource) (n : ℕ)
    (out : GameDb C × Except ResourcesError (Order C)) : Prop where
  /-- With no failing statement, an order at one of the levels of a barrack is accepted exactly if it
  can be. -/
  accepts : faults.Silent → facility.facility.level ≤ 20 →
    (out.2.isOk ↔ (C.find? unit.name).isSome ∧ Acceptable d facility villageId unit n)
  ok : ∀ order, out.2 = .ok order →
    Acceptable d facility villageId unit n ∧
      Ordered d out.1 facility.facility villageId unit n order
  error : ∀ e, out.2 = .error e → out.1 = d

/-- An order of a barrack that has just been loaded with its village charges exactly, or changes
nothing. -/
theorem order_charges (d : GameDb C) (facility : LoadedFacility C) (village : LoadedVillage C)
    (h : LoadedBarrack d facility village) (unit : MilitaryResource) (n : ℕ) (hn : 0 < n)
    (faults : Faults) :
    ChargesOrFails d faults facility village.village.id unit n
      (create d faults ⟨facility.facility.id, n, unit.name⟩) := by
  unfold create
  cases hcheck : checkOrder true d ⟨facility.facility.id, n, unit.name⟩ with
  | error e =>
    refine ⟨fun _ hlevel => iff_of_false Bool.false_ne_true ?_, fun _ hok => (nomatch hok),
      fun _ _ => rfl⟩
    rintro ⟨hfound, ha⟩
    obtain ⟨t, ht⟩ := Option.isSome_iff_exists.1 hfound
    rw [checkOrder_of_acceptable h hn hlevel (Catalog.find?_eq_some.1 ht) ha] at hcheck
    cases hcheck
  | ok c =>
    obtain ⟨ha, t, ht, rfl⟩ := checkOrder_acceptable h hcheck
    have hfound : (C.find? unit.name).isSome := by
      rw [Catalog.find?_eq_some.2 ht]
      rfl
    have hfood : ((checked facility village t unit n).resources.find?
        (·.resourceType.type = "food")).isSome := by
      obtain ⟨food, hname, -⟩ := h.rows "food" (by decide)
      have htype : food.type ∈ ["food", "iron", "wood"] := by
        rw [hname]
        decide
      obtain ⟨r, hr⟩ := Option.isSome_iff_exists.1 (h.hasOneRow htype).isSome_rowOf
      obtain ⟨-, rfl⟩ := Db.rowOf_eq_some hr
      exact List.find?_isSome.2 ⟨r, (mem_orderResources h).2 ⟨htype, hr⟩, decide_eq_true hname⟩
    have hends := ends_placeOrder (s := start d () faults) (resourceTypeIdAmounts_eq hfood)
      (Rat.den_natCast n)
    rcases transact_settled (Q := fun order db => order = _ ∧ db = _) (E := False) hends with
      ⟨order, hok, rfl, hdb⟩ | ⟨⟨e, herror⟩, hdb, hsilent⟩
    · simp only [hok, hdb]
      refine ⟨fun _ _ => iff_of_true rfl ⟨hfound, ha⟩, ?_, fun e he => nomatch he⟩
      rintro order ⟨⟩
      exact ⟨ha, ordered h ht ha⟩
    · simp only [herror, hdb]
      exact ⟨fun h _ => (hsilent h).elim, fun _ hok => (nomatch hok), fun _ _ => rfl⟩

/-! ## One order -/

def sampleVillage : LoadedVillage sampleCatalog :=
  ⟨⟨1, some 1, 3, 4, 0, 0⟩, Lifecycle.sampleBarrack.villagesResourceTypes.rows⟩

def sampleFacility : LoadedFacility sampleCatalog :=
  ⟨⟨1, 1, "barrack", 1⟩, .none, some sampleVillage⟩

theorem loadedBarrack_sample :
    LoadedBarrack Lifecycle.sampleBarrack sampleFacility sampleVillage where
  loaded := rfl
  relation := rfl
  barrack := rfl
  rows := by
    intro name hname
    simp only [List.mem_cons, List.not_mem_nil, or_false] at hname
    rcases hname with rfl | rfl | rfl
    · exact ⟨food, rfl, rfl⟩
    · exact ⟨iron, rfl, rfl⟩
    · exact ⟨wood, rfl, rfl⟩

/-- Ten stone hunters cost 200 of food. -/
theorem order_charges_sample :
    (create Lifecycle.sampleBarrack .none ⟨1, (10 : ℕ), "stone_hunter"⟩).2.isOk ∧
      (create Lifecycle.sampleBarrack .none ⟨1, (10 : ℕ), "stone_hunter"⟩).1.countOf 1 food = 800 ∧
      ChargesOrFails Lifecycle.sampleBarrack .none sampleFacility 1 .stoneHunter 10
        (create Lifecycle.sampleBarrack .none ⟨1, (10 : ℕ), "stone_hunter"⟩) :=
  ⟨by decide +kernel, by decide +kernel,
    order_charges Lifecycle.sampleBarrack sampleFacility sampleVillage loadedBarrack_sample
      .stoneHunter 10 (by decide) .none⟩

end Cme.Production.Charging
