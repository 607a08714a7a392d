import CmeBackend.Facilities.PriceLaw
import CmeBackend.Lib.Transaction
import CmeBackend.Villages.Charges

/-!
# An upgrade charges exactly, or changes nothing

`ResourcesMsFacilitiesService.upgradeFacility` (`resources-ms-facilities.service.ts`), statement by
statement. All of it is in one transaction, and everything it throws is caught and returned as an
exception after the rollback: the check for a next level, the two loops over the costs, and each
statement that fails.

* `Passes`: what the checks of the code ask for. With silent faults this decides the outcome
  (`ends_upgrade`), and the state that is committed is the one of `Facilities.upgradeFacility`.
* `HasNextLevel` and `Holds`: what they mean. `upgrade_charges` is the result about them.
-/

namespace Cme.Facilities.Upgrade

open GameRules Transaction

variable {C : Catalog}

/-! ## The code -/

/-- A program between the start of the transaction and its commit. -/
abbrev GameM (C : Catalog) (α : Type) := TxM (GameDb C) Unit α

/-- `facility.village`, of which a relation is read. -/
def villageOf (facility : LoadedFacility C) : GameM C (LoadedVillage C) :=
  match facility.village with
  | some village => pure village
  | none => throw (.error "Cannot read property 'villagesResourceTypes' of undefined")

/-- The check for tiers. -/
def checkNextLevel (facility : Facility) : GameM C Unit :=
  match findBuildingType facility.facilityType with
  | .militaryBuilding | .levelableBuilding =>
    match checkIfFacilityNextLevel facility.facilityType facility.level with
    | none => throw (.error "Cannot read property 'maxTier' of undefined")
    | some false => throw (.error "Facility already at max level")
    | some true => pure ()
  | .building => pure ()

/-- One turn of the loop that checks the resources. -/
def checkCost (facility : LoadedFacility C) (cost : FacilityTypeResPrice) : GameM C Unit := do
  let village ← villageOf facility
  if affordable village cost then pure () else throw (.error "Insufficient resources")

/-- One turn of the loop that removes the costs. -/
def payCost (facility : LoadedFacility C) (cost : FacilityTypeResPrice) : GameM C Unit := do
  let village ← villageOf facility
  match resourceOf village cost with
  | none => throw (.error "Cannot read property 'resourceType' of undefined")
  | some res => execute fun d =>
    { d with toDb :=
        d.toDb.subtractFromCounts village.village.id [(res.resourceType.id, cost.amount)] }

/-- The `try` block. -/
def upgrade (facility : LoadedFacility C) : GameM C (LoadedFacility C) := do
  checkNextLevel facility.facility
  let resTypesCosts :=
    computeBuildingCost facility.facility.facilityType (facility.facility.level + 1)
  forM resTypesCosts (checkCost facility)
  forM resTypesCosts (payCost facility)
  let saved := { facility.facility with level := facility.facility.level + 1 }
  execute fun d => d.saveFacility saved facility.production
  return { facility with facility := saved }

/-- `upgradeFacility`. What is thrown ends in an `HttpException`. -/
def upgradeFacility (d : GameDb C) (faults : Faults) (facility : LoadedFacility C) :
    Outcome (GameDb C) Unit (LoadedFacility C) :=
  transact d () faults (upgrade facility)

/-! ## What the statements do -/

section Program

variable {facility : LoadedFacility C} {village : LoadedVillage C}
  {costs : List FacilityTypeResPrice} {s : Tx (GameDb C) Unit}

/-- What an upgrade costs. -/
def costsOf (facility : Facility) : List FacilityTypeResPrice :=
  computeBuildingCost facility.facilityType (facility.level + 1)

/-- What the code checks. -/
structure Passes (facility : Facility) (village : LoadedVillage C) : Prop where
  level : checkLevel facility = .ok ()
  affordable : (costsOf facility).all (affordable village) = true

theorem ends_checkNextLevel (f : Facility) :
    Ends (checkNextLevel f) (fun _ s' => s' = s ∧ checkLevel f = .ok ())
      (fun _ _ => checkLevel f ≠ .ok ()) s := by
  unfold checkNextLevel checkLevel
  cases findBuildingType f.facilityType with
  | building => exact ⟨rfl, rfl⟩
  | militaryBuilding | levelableBuilding =>
    cases checkIfFacilityNextLevel f.facilityType f.level with
    | none => exact fun h => nomatch h
    | some next =>
      cases next with
      | false => exact fun h => nomatch h
      | true => exact ⟨rfl, rfl⟩

theorem checkCost_eq (hvillage : facility.village = some village) (cost : FacilityTypeResPrice) :
    checkCost facility cost =
      if affordable village cost then pure () else throw (.error "Insufficient resources") := by
  unfold checkCost villageOf
  rw [hvillage]
  rfl

theorem payCost_eq (hvillage : facility.village = some village) {cost : FacilityTypeResPrice}
    {res : VillageResourceType C} (hres : resourceOf village cost = some res) :
    payCost facility cost = execute fun d =>
      { d with toDb :=
          d.toDb.subtractFromCounts village.village.id [(res.resourceType.id, cost.amount)] } := by
  unfold payCost villageOf
  rw [hvillage]
  simp only [pure_bind, hres]

theorem ends_checkCosts (hvillage : facility.village = some village) :
    Ends (forM costs (checkCost facility))
      (fun _ s' => s' = s ∧ costs.all (affordable village) = true)
      (fun _ _ => costs.all (affordable village) ≠ true) s := by
  induction costs with
  | nil => exact ⟨rfl, rfl⟩
  | cons cost rest ih =>
    rw [List.forM_cons, ends_bind, List.all_cons, checkCost_eq hvillage]
    by_cases h : affordable village cost = true
    · simpa [h] using ih
    · simp [h]

/-- The loop that removes the costs does what `pay` says, or a statement of it fails. -/
theorem ends_payCosts (hvillage : facility.village = some village)
    (hrows : ∀ cost ∈ costs, (resourceOf village cost).isSome) :
    Ends (forM costs (payCost facility))
      (fun _ s' => s'.db = { s.db with toDb := pay s.db.toDb village costs } ∧
        (Reliable s → Reliable s'))
      (fun _ _ => ¬Reliable s) s := by
  induction costs generalizing s with
  | nil => exact ⟨rfl, id⟩
  | cons cost rest ih =>
    obtain ⟨res, hres⟩ := Option.isSome_iff_exists.1 (hrows cost List.mem_cons_self)
    rw [List.forM_cons, ends_bind, payCost_eq hvillage hres]
    refine ends_query (fun hlive => ?_) id
    refine (ih fun cost hcost => hrows cost (List.mem_cons_of_mem _ hcost)).mono ?_ ?_
    · rintro - s' ⟨hdb, hreliable⟩
      refine ⟨?_, hreliable⟩
      rw [hdb]
      unfold pay payments
      rw [List.filterMap_cons, hres]
      rfl
    · exact fun _ _ hfault => hfault

theorem ends_upgrade (hvillage : facility.village = some village) :
    Ends (upgrade facility)
      (fun f s' => (Passes facility.facility village ∧
        f = { facility with
          facility := { facility.facility with level := facility.facility.level + 1 } } ∧
        s'.db = Facilities.upgradeFacility s.db ⟨facility, village, costsOf facility.facility⟩) ∧
        (Reliable s → Reliable s'))
      (fun _ _ => Reliable s → ¬Passes facility.facility village) s := by
  unfold upgrade
  simp only [ends_bind, ends_pure]
  refine (ends_checkNextLevel _).mono ?_ fun _ _ hlevel _ hpasses => hlevel hpasses.level
  rintro - s' ⟨rfl, hlevel⟩
  refine (ends_checkCosts hvillage).mono ?_ fun _ _ h _ hpasses => h hpasses.affordable
  rintro - s' ⟨rfl, haffordable⟩
  have hrows : ∀ cost ∈ costsOf facility.facility, (resourceOf village cost).isSome := by
    intro cost hcost
    have hcost := List.all_eq_true.1 haffordable cost hcost
    unfold affordable at hcost
    split at hcost
    next hres => simp [hres]
    · cases hcost
  refine (ends_payCosts hvillage hrows).mono ?_ fun _ _ hfault hs => absurd hs hfault
  rintro - paid ⟨hpaid, hreliable⟩
  refine ends_query (fun hlive => ⟨⟨⟨hlevel, haffordable⟩, trivial, ?_⟩, hreliable⟩)
    fun hfault hs => absurd (hreliable hs) hfault
  rw [hpaid]
  rfl

end Program

/-! ## What the checks mean -/

/-- The level after the one of a facility exists. Plain buildings have no last level. -/
def HasNextLevel (f : Facility) : Prop :=
  f.facilityType ∈ buildings ∨
    (∃ b, findFacilityDescriptorByType f.facilityType = some b ∧
      (b.level? (f.level + 1)).isSome) ∨
    f.facilityType = barrackDescriptor.name ∧
      (barrackDescriptor.tiers.find? fun t => t.tier = f.level + 1).isSome

theorem isSome_level?_iff {level : ℤ} (hpos : 1 ≤ level) :
    (storageVault.level? level).isSome ↔ level ≤ 20 := by
  constructor
  · intro h
    obtain ⟨l, hl⟩ := Option.isSome_iff_exists.1 h
    have hall : ∀ l ∈ storageVault.levels, l.1 ≤ 20 := by decide
    exact hall _ (mem_of_lookup hl)
  · exact Saves.isSome_level? hpos

theorem isSome_find?_tier_iff {level : ℤ} (hpos : 1 ≤ level) :
    (barrackDescriptor.tiers.find? fun t => t.tier = level).isSome ↔ level ≤ 20 := by
  constructor
  · intro h
    obtain ⟨t, ht, hlevel⟩ := List.find?_isSome.1 h
    have hall : ∀ t ∈ barrackDescriptor.tiers, t.tier ≤ 20 := by decide
    have hle := hall t ht
    have hlevel : (t.tier : ℤ) = level := of_decide_eq_true hlevel
    omega
  · exact Saves.isSome_find?_tier hpos

theorem checkLevel_eq_ok {f : Facility} (hpos : 1 ≤ f.level) :
    checkLevel f = .ok () ↔ HasNextLevel f := by
  obtain ⟨id, level, type, villageId⟩ := f
  dsimp only at hpos
  unfold HasNextLevel checkLevel findBuildingType checkIfFacilityNextLevel
  dsimp only
  cases hdescriptor : findFacilityDescriptorByType type with
  | some b =>
    obtain ⟨rfl, rfl⟩ := eq_of_descriptor hdescriptor
    have hnot : "storage_vault" ∉ buildings := by decide
    have hne : "storage_vault" ≠ barrackDescriptor.name := by decide
    have hlast : (storageVault.levels.getLast?.map Prod.fst).getD 0 = 20 := by decide
    have hlevel : (storageVault.level? (level + 1)).isSome ↔ level < 20 :=
      (isSome_level?_iff (by omega)).trans Int.add_one_le_iff
    by_cases hlt : level < 20
    · simp [hnot, hne, hlast, hlt, hlevel]
    · simp [hnot, hne, hlast, hlt, hlevel]
  | none =>
    by_cases hmem : type ∈ buildings
    · simp [hmem]
    · unfold relatedMilitaryBuildingDescriptors
      by_cases hbarrack : type = barrackDescriptor.name
      · have hlevel : (barrackDescriptor.tiers.find? fun t => t.tier = level + 1).isSome ↔
            level < 20 := (isSome_find?_tier_iff (by omega)).trans Int.add_one_le_iff
        have hlast : barrackDescriptor.maxTier = 20 := rfl
        by_cases hlt : level < 20
        · simp [hbarrack, hlast, hlt, hlevel]
        · simp [hbarrack, hlast, hlt, hlevel]
      · simp [hmem, hbarrack]

section Price

variable {d : GameDb C} {facility : LoadedFacility C} {village : LoadedVillage C}
  {costs : List FacilityTypeResPrice} {price : C.Ref → ℤ}

/-- The village holds every amount. -/
def Holds (d : Db C) (villageId : ℕ) (costs : List FacilityTypeResPrice) : Prop :=
  ∀ cost ∈ costs, ∃ t : C.Ref, t.type = cost.resourcesType ∧ cost.amount ≤ d.countOf villageId t

/-- The amounts of the costs, by their types. -/
structure IsPrice (costs : List FacilityTypeResPrice) (price : C.Ref → ℤ) : Prop where
  listed : ∀ cost ∈ costs, ∀ t : C.Ref, t.type = cost.resourcesType → price t = cost.amount
  others : ∀ t : C.Ref, (∀ cost ∈ costs, t.type ≠ cost.resourcesType) → price t = 0

/-- What an upgrade writes: the price is paid, and the row of the facility has the next level. -/
def Upgraded (d d' : GameDb C) (facility : Facility) (villageId : ℕ) : Prop :=
  ∃ (paid : Db C) (price : C.Ref → ℤ), IsPrice (costsOf facility) price ∧
    Paid d.toDb paid villageId price ∧
    d' = { d with toDb := { paid with
      facilities := d.facilities.update facility.id fun f => { f with level := f.level + 1 } } }

/-- The row that a cost is paid from is the one of its type. -/
theorem resourceOf_eq_some (hrows : village.villagesResourceTypes = d.rowsOf village.village.id)
    {cost : FacilityTypeResPrice} {r : VillageResourceType C} :
    resourceOf village cost = some r ↔
      ∃ t : C.Ref, t.type = cost.resourcesType ∧ d.rowOf village.village.id t = some r := by
  unfold resourceOf
  rw [hrows]
  constructor
  · intro h
    have htype := List.find?_some h
    rw [decide_eq_true_eq] at htype
    refine ⟨r.resourceType, htype, ?_⟩
    rw [← find?_type, htype]
    exact h
  · rintro ⟨t, htype, hr⟩
    rw [← htype, find?_type]
    exact hr

theorem affordable_iff (hrows : village.villagesResourceTypes = d.rowsOf village.village.id)
    (heach : ∀ t : C.Ref, d.HasOneRow village.village.id t) (cost : FacilityTypeResPrice) :
    affordable village cost = true ↔
      ∃ t : C.Ref, t.type = cost.resourcesType ∧ cost.amount ≤ d.countOf village.village.id t := by
  unfold affordable
  constructor
  · intro h
    split at h
    next r hr =>
      obtain ⟨t, htype, hrow⟩ := (resourceOf_eq_some hrows).1 hr
      refine ⟨t, htype, ?_⟩
      rw [Db.countOf_of_rowOf hrow]
      exact of_decide_eq_true h
    · cases h
  · rintro ⟨t, htype, hle⟩
    obtain ⟨r, hr⟩ := Option.isSome_iff_exists.1 (heach t).isSome_rowOf
    rw [(resourceOf_eq_some hrows).2 ⟨t, htype, hr⟩]
    rw [Db.countOf_of_rowOf hr] at hle
    exact decide_eq_true hle

theorem passes_iff (hrows : village.villagesResourceTypes = d.rowsOf village.village.id)
    (heach : ∀ t : C.Ref, d.HasOneRow village.village.id t) {f : Facility} (hpos : 1 ≤ f.level) :
    Passes f village ↔ HasNextLevel f ∧ Holds d.toDb village.village.id (costsOf f) := by
  have haffordable : (costsOf f).all (affordable village) = true ↔
      Holds d.toDb village.village.id (costsOf f) := by
    rw [List.all_eq_true]
    exact forall₂_congr fun cost _ => affordable_iff hrows heach cost
  constructor
  · rintro ⟨hlevel, hall⟩
    exact ⟨(checkLevel_eq_ok hpos).1 hlevel, haffordable.1 hall⟩
  · rintro ⟨hlevel, hall⟩
    exact ⟨(checkLevel_eq_ok hpos).2 hlevel, haffordable.2 hall⟩

theorem exists_isPrice (hnodup : (costs.map FacilityTypeResPrice.resourcesType).Nodup)
    (hint : ∀ cost ∈ costs, ∃ n : ℕ, 0 < n ∧ cost.amount = n) :
    ∃ price : C.Ref → ℤ, IsPrice costs price := by
  refine ⟨fun t => ((costs.find? fun cost => t.type = cost.resourcesType).map
    fun cost => cost.amount.num).getD 0, ?_, ?_⟩
  · intro cost hcost t htype
    have hfind : (costs.find? fun cost => t.type = cost.resourcesType) = some cost := by
      have hsome : (costs.find? fun cost => t.type = cost.resourcesType).isSome :=
        List.find?_isSome.2 ⟨cost, hcost, decide_eq_true htype⟩
      obtain ⟨found, hfound⟩ := Option.isSome_iff_exists.1 hsome
      have hname := List.find?_some hfound
      rw [decide_eq_true_eq] at hname
      rw [hfound, List.inj_on_of_nodup_map hnodup (List.mem_of_find?_eq_some hfound) hcost
        (hname.symm.trans htype)]
    obtain ⟨n, -, hn⟩ := hint cost hcost
    simp only [hfind, Option.map_some, Option.getD_some, hn]
    rfl
  · intro t hother
    have hfind : (costs.find? fun cost => t.type = cost.resourcesType) = none :=
      List.find?_eq_none.2 fun cost hcost h => hother cost hcost (of_decide_eq_true h)
    rw [hfind]
    rfl

/-- The statements that pay are one payment of the price. -/
theorem pay_eq_charge (h : CanPay d village costs) (hprice : IsPrice costs price) (e : Db C) :
    pay e village costs = e.charge village.village.id price := by
  have hvalues : payments village costs = valuesOf village.villagesResourceTypes
      FacilityTypeResPrice.resourcesType FacilityTypeResPrice.amount costs := rfl
  rw [h.pay_eq, hvalues]
  refine subtractFromCounts_eq_charge (fun t amount hlookup => ?_) fun t hlookup =>
    hprice.others t fun cost hcost htype => ?_
  · obtain ⟨cost, hcost, hname, rfl, -⟩ := mem_of_lookup_valuesOf hlookup
    exact hprice.listed cost hcost t hname.symm
  · have haffordable := List.all_eq_true.1 h.affordable cost hcost
    unfold affordable at haffordable
    split at haffordable
    next r hr =>
      have hname := List.find?_some hr
      rw [decide_eq_true_eq] at hname
      exact name_ne_of_lookup_valuesOf hlookup (List.mem_of_find?_eq_some hr)
        (Catalog.Ref.eq_of_type (hname.trans htype.symm)) hcost htype.symm
    · cases haffordable

/-- A village that holds every amount holds the price. -/
theorem Holds.covers (h : Holds d.toDb village.village.id costs) (hprice : IsPrice costs price)
    {t : C.Ref} (ht : price t ≠ 0) : price t ≤ d.countOf village.village.id t := by
  by_contra hlt
  refine ht (hprice.others t fun cost hcost htype => hlt ?_)
  obtain ⟨t', htype', hle⟩ := h cost hcost
  rw [Catalog.Ref.eq_of_type (htype'.trans htype.symm), ← hprice.listed cost hcost t htype] at hle
  exact_mod_cast hle

/-- What the statements of an upgrade leave behind. -/
theorem upgraded (hload : d.findFacility true facility.facility.id = some facility)
    (hrows : village.villagesResourceTypes = d.rowsOf village.village.id)
    (heach : ∀ t : C.Ref, d.HasOneRow village.village.id t) (hpos : 1 ≤ facility.facility.level)
    (hpasses : Passes facility.facility village) :
    Upgraded d (Facilities.upgradeFacility d ⟨facility, village, costsOf facility.facility⟩)
      facility.facility village.village.id := by
  obtain ⟨hget, hproduction⟩ := GameDb.findFacility_eq_some hload
  obtain ⟨hlevel, hholds⟩ := (passes_iff hrows heach hpos).1 hpasses
  have hnodup := nodup_computeBuildingCost facility.facility.facilityType
    (facility.facility.level + 1)
  obtain ⟨price, hprice⟩ := exists_isPrice (C := C) hnodup
    (PriceLaw.exists_amount (by omega) (by omega))
  have hcanPay : CanPay d village (costsOf facility.facility) :=
    ⟨hrows, hpasses.affordable, hnodup⟩
  refine ⟨d.toDb.charge village.village.id price, price, hprice,
    paid_charge fun t ht => ⟨(heach t).isSome_rowOf, hholds.covers hprice ht⟩, ?_⟩
  unfold Facilities.upgradeFacility GameDb.saveFacility
  have hproductions : Function.update d.production facility.facility.id facility.production =
      d.production := by
    rw [hproduction, Function.update_eq_self]
  have hrow : ∀ f ∈ d.facilities.rows, f.id = facility.facility.id → f = facility.facility :=
    fun f hf hid => Table.eq_of_key hf (Table.get?_eq_some.1 hget).1 hid
  have hfacilities : (d.toDb.charge village.village.id price).facilities.update facility.facility.id
      (fun f => { f with
        level := facility.facility.level + 1, facilityType := facility.facility.facilityType }) =
      d.facilities.update facility.facility.id fun f => { f with level := f.level + 1 } :=
    Table.update_congr _ _ fun f hf hid => by rw [hrow f hf hid]
  simp only [pay_eq_charge hcanPay hprice, hfacilities, hproductions]

/-- What an upgrade may end in. -/
structure ChargesOrFails (d : GameDb C) (faults : Faults) (facility : Facility) (villageId : ℕ)
    (out : Outcome (GameDb C) Unit (LoadedFacility C)) : Prop where
  /-- With no failing statement, it succeeds exactly if it can. -/
  succeeds : faults.Silent → (out.result.isOk ↔
    HasNextLevel facility ∧ Holds d.toDb villageId (costsOf facility))
  ok : ∀ saved, out.result = .ok saved →
    (HasNextLevel facility ∧ Holds d.toDb villageId (costsOf facility)) ∧
      saved.facility = { facility with level := facility.level + 1 } ∧
      Upgraded d out.db facility villageId
  error : ∀ e, out.result = .error e → out.db = d

/-- An upgrade of a facility that has just been loaded with its village, in which each resource type
has a row, charges exactly or changes nothing. -/
theorem upgrade_charges (d : GameDb C) (facility : LoadedFacility C) (village : LoadedVillage C)
    (hload : d.findFacility true facility.facility.id = some facility)
    (hvillage : facility.village = some village)
    (heach : ∀ t : C.Ref, d.HasOneRow village.village.id t)
    (hpos : 1 ≤ facility.facility.level) (faults : Faults) :
    ChargesOrFails d faults facility.facility village.village.id
      (upgradeFacility d faults facility) := by
  have hrows : village.villagesResourceTypes = d.rowsOf village.village.id := by
    obtain ⟨row, -, hfacility⟩ := Option.map_eq_some_iff.1 hload
    rw [← hfacility] at hvillage
    exact Db.rows_of_findVillage hvillage
  have hpasses := passes_iff hrows heach hpos
  unfold upgradeFacility
  have hends := ends_upgrade (s := start d () faults) hvillage
  rcases transact_settled (Q := fun f db => _ ∧ f = _ ∧ db = _) hends with
    ⟨saved, hok, hpass, rfl, hdb⟩ | ⟨⟨e, herror⟩, hdb, hsilent⟩
  · refine ⟨fun _ => ?_, ?_, ?_⟩
    · rw [hok]
      exact iff_of_true rfl (hpasses.1 hpass)
    · intro saved hsaved
      obtain rfl := Except.ok.inj (hok.symm.trans hsaved)
      rw [hdb]
      exact ⟨hpasses.1 hpass, rfl, upgraded hload hrows heach hpos hpass⟩
    · intro e he
      rw [hok] at he
      cases he
  · refine ⟨fun hfaults => ?_, ?_, fun _ _ => hdb⟩
    · rw [herror]
      exact iff_of_false Bool.false_ne_true fun hpass => hsilent hfaults (hpasses.2 hpass)
    · intro saved hsaved
      rw [herror] at hsaved
      cases hsaved

end Price

/-! ## One upgrade -/

/-- A village with a row of each type, and with a barrack. -/
def sampleDb : GameDb sampleCatalog where
  villages :=
    { rows := [⟨1, some 1, 7, 8, 0, 0⟩]
      next := 2
      nodup := by decide
      lt_next := by decide }
  villagesResourceTypes :=
    { rows := [⟨1, some 1, food, 1000⟩, ⟨2, some 1, wood, 1000⟩, ⟨3, some 1, iron, 1000⟩,
        ⟨4, some 1, mkc, 0⟩, ⟨5, some 1, stoneHunter, 0⟩, ⟨6, some 1, stoneSlinger, 0⟩]
      next := 7
      nodup := by decide
      lt_next := by decide }
  facilities :=
    { rows := [⟨5, 1, "barrack", 1⟩]
      next := 6
      nodup := by decide
      lt_next := by decide }
  villagesStorageResourceTypes := Table.empty
  attacks := Table.empty
  orders := Table.empty
  production := fun _ => .none

def sampleVillage : LoadedVillage sampleCatalog :=
  ⟨⟨1, some 1, 7, 8, 0, 0⟩, sampleDb.villagesResourceTypes.rows⟩

def sampleFacility : LoadedFacility sampleCatalog :=
  ⟨⟨5, 1, "barrack", 1⟩, .none, some sampleVillage⟩

/-- The second level of the barrack costs 300 of food and 960 of iron. -/
theorem upgrade_charges_sample :
    (upgradeFacility sampleDb .none sampleFacility).result.isOk ∧
      (upgradeFacility sampleDb .none sampleFacility).db.countOf 1 food = 700 ∧
      (upgradeFacility sampleDb .none sampleFacility).db.countOf 1 iron = 40 ∧
      ChargesOrFails sampleDb .none sampleFacility.facility 1
        (upgradeFacility sampleDb .none sampleFacility) := by
  have heach : ∀ t ∈ sampleCatalog.types.rows.attach, (sampleDb.rowsOfType 1 t).length = 1 := by
    decide
  exact ⟨by decide +kernel, by decide +kernel, by decide +kernel,
    upgrade_charges sampleDb sampleFacility sampleVillage rfl rfl
      (fun t => heach t (List.mem_attach _ t)) (by decide) .none⟩

end Cme.Facilities.Upgrade
