import CmeBackend.Game.Requests

/-!
# What orders, facilities and new villages do to the units in the villages

* `held_placeOrder`, `held_pay`: nobody pays with units.
* `held_produce`: the producer adds the units that the orders count as delivered (`ordered`).
* `held_createVillage`, `held_generateVillage`: no village starts with units.
-/

namespace Cme.Game

open Js GameRules Attacks Battles Production Production.Lifecycle

variable {C : Catalog} {d d' : GameDb C} {e e' : Db C} {v w : ℕ} {t u : C.Ref}

/-- What the orders of a type count as delivered. -/
def ordered (d : GameDb C) (t : C.Ref) : ℤ :=
  d.orders.total fun o => if o.resourceType = t then o.deliveredQuantity else 0

/-- An order with the type that a token names. -/
def Booked (d : GameDb C) (token : OrderToken) : Prop :=
  ∃ o, d.orders.get? token.orderId = some o ∧ o.resourceType.id = token.resourceTypeId

/-! ## Orders -/

section Order

variable {withVillage : Bool} {order : CreateOrder} {c : CheckedOrder C}

theorem keeps_placeOrder (h : placeOrder d c = some d') : Game.Keeps d.toDb d'.toDb := by
  obtain ⟨amounts, -, -, rfl⟩ := placeOrder_eq_some.1 h
  exact (Game.Keeps.setCounts d.toDb _).trans (Game.Keeps.of_eq rfl fun _ hv => hv)

theorem held_placeOrder (h : placeOrder d c = some d') (hc : Placeable d c) (ht : IsUnit t) :
    held d'.toDb t = held d.toDb t := by
  have hunits := (pays_placeOrder h hc).units
  obtain ⟨amounts, -, -, rfl⟩ := placeOrder_eq_some.1 h
  exact held_congr rfl fun v => hunits v t ht

/-- A new order has delivered nothing. -/
theorem ordered_placeOrder (h : placeOrder d c = some d') : ordered d' t = ordered d t := by
  obtain ⟨amounts, -, -, rfl⟩ := placeOrder_eq_some.1 h
  show Table.total (Table.insert d.orders _) _ = _
  rw [Table.total_insert]
  simp [ordered]

theorem frame_placeOrder (h : placeOrder d c = some d') : d'.villages = d.villages ∧
    d'.attacks = d.attacks ∧ d'.villagesStorageResourceTypes = d.villagesStorageResourceTypes := by
  obtain ⟨amounts, -, -, rfl⟩ := placeOrder_eq_some.1 h
  exact ⟨rfl, rfl, rfl⟩

/-- The token of a new order is one of it, and those of the others stay so. -/
theorem booked_placeOrder (h : placeOrder d c = some d') :
    Booked d' (c.token d.orders.next) ∧ ∀ token, Booked d token → Booked d' token := by
  obtain ⟨amounts, -, -, rfl⟩ := placeOrder_eq_some.1 h
  refine ⟨⟨_, Table.get?_insert_self, rfl⟩, ?_⟩
  rintro token ⟨o, ho, hid⟩
  refine ⟨o, (Table.get?_insert_of_ne fun heq => ?_).trans ho, hid⟩
  rw [heq, Table.get?_next] at ho
  cases ho

end Order

/-! ## The producer -/

section Produce

variable {token : OrderToken} {now : ℤ} {o : Cme.Order C} {sel : Selected}

/-- A tick changes nothing, or it is the transaction for what the query has found. -/
theorem produce_cases (now : ℤ) (d : GameDb C) (token : OrderToken) :
    (produce now d token).1 = d ∨ ∃ sel, readRows (selectRows d token) = some sel ∧
      deliverUnit now d token sel = some (produce now d token).1 := by
  unfold produce
  split
  · exact .inl rfl
  next sel hsel =>
    split
    · split
      next d' hd' => exact .inr ⟨sel, hsel, hd'⟩
      next => exact .inl rfl
    · exact .inl rfl

theorem keeps_deliverUnit (h : deliverUnit now d token sel = some d')
    (hmissing : sel.villageResourceTypeCount = none → d.NoRow token.villageId token.resourceTypeId) :
    Game.Keeps d.toDb d'.toDb := by
  obtain ⟨stored, hstored, h⟩ := Option.bind_eq_some_iff.1 h
  obtain ⟨facility, -, h⟩ := Option.bind_eq_some_iff.1 h
  cases h
  refine @Game.Keeps.trans _ _ stored _ ?_ (Game.Keeps.of_eq rfl fun _ hv => hv)
  unfold storeUnit at hstored
  split at hstored
  next hnone =>
    obtain ⟨u, hu, hstored⟩ := Option.bind_eq_some_iff.1 hstored
    obtain ⟨village, hvillage, hstored⟩ := Option.bind_eq_some_iff.1 hstored
    cases hstored
    refine Game.Keeps.insertCount (by rw [hvillage]; rfl) ?_ 1
    rw [Catalog.ofId?_eq_some.1 hu]
    exact hmissing hnone
  · cases hstored
    exact Game.Keeps.setCounts _ _

/-- What the query has found of the rows of the village. -/
theorem found_selectRows (ho : d.orders.get? token.orderId = some o)
    (hid : o.resourceType.id = token.resourceTypeId)
    (hsel : readRows (selectRows d token) = some sel) :
    (sel.villageResourceTypeCount = none → d.NoRow token.villageId token.resourceTypeId) ∧
      (sel.villageResourceTypeCount.isSome →
        d.rowsOfType token.villageId o.resourceType ≠ []) := by
  unfold selectRows at hsel
  simp only [ho] at hsel
  rw [← hid, ← rowsOfType_eq_nil]
  match hrows : d.rowsOfType token.villageId o.resourceType with
  | [] =>
    rw [hrows] at hsel
    cases hsel
    exact ⟨fun _ => rfl, fun h => by cases h⟩
  | [vrt] =>
    rw [hrows] at hsel
    cases hsel
    exact ⟨fun h => (by cases h), fun _ => List.cons_ne_nil _ _⟩
  | _ :: _ :: _ =>
    rw [hrows] at hsel
    cases hsel

/-- A unit that the order counts as delivered is in the village. -/
theorem held_deliverUnit (h : deliverUnit now d token sel = some d')
    (ho : d.orders.get? token.orderId = some o) (hid : o.resourceType.id = token.resourceTypeId)
    (hsel : readRows (selectRows d token) = some sel) (hone : d.OneRowPerType)
    (hhoused : Housed d.toDb) :
    held d'.toDb t = held d.toDb t + (if o.resourceType = t then 1 else 0) ∧
      ordered d' t = ordered d t + (if o.resourceType = t then 1 else 0) := by
  obtain ⟨hmissing, hfound⟩ := found_selectRows ho hid hsel
  obtain ⟨stored, hstored, h⟩ := Option.bind_eq_some_iff.1 h
  obtain ⟨facility, -, h⟩ := Option.bind_eq_some_iff.1 h
  cases h
  obtain ⟨-, hunits⟩ := totalOf_storeUnit hstored hone hid hmissing hfound
  have hvillage : (d.villages.get? token.villageId).isSome := by
    unfold storeUnit at hstored
    split at hstored
    next =>
      obtain ⟨u, -, hstored⟩ := Option.bind_eq_some_iff.1 hstored
      obtain ⟨village, hvillage, -⟩ := Option.bind_eq_some_iff.1 hstored
      rw [hvillage]
      rfl
    next hsome =>
      obtain ⟨r, hr⟩ := List.exists_mem_of_ne_nil _ (hfound (by rw [hsome]; rfl))
      obtain ⟨hrow, hv⟩ := Db.mem_rowsOf.1 (List.mem_filter.1 hr).1
      exact hhoused r hrow _ hv
  have hvillages : stored.villages = d.villages := by
    unfold storeUnit at hstored
    split at hstored
    · obtain ⟨u, -, hstored⟩ := Option.bind_eq_some_iff.1 hstored
      obtain ⟨village, -, hstored⟩ := Option.bind_eq_some_iff.1 hstored
      cases hstored
      rfl
    · cases hstored
      rfl
  constructor
  · refine held_of_one (v := token.villageId)
      (congrArg (fun t : Table Village => t.rows.map key) hvillages) hvillage ?_ fun w hw => ?_
    · exact (hunits token.villageId t).trans (by simp)
    · refine (hunits w t).trans ?_
      rw [if_neg fun heq => hw heq.1.symm, add_zero]
  · obtain ⟨hmem, hkey⟩ := Table.get?_eq_some.1 ho
    show Table.total (Table.update d.orders token.orderId _) _ = _
    rw [Table.total_update hmem hkey]
    show ordered d t - _ + _ = _
    dsimp only
    split_ifs <;> ring

/-- What the transaction of a tick leaves as it is. -/
theorem frame_deliverUnit (h : deliverUnit now d token sel = some d') :
    d'.villages = d.villages ∧ d'.attacks = d.attacks ∧
      d'.villagesStorageResourceTypes = d.villagesStorageResourceTypes ∧
      ∀ token', Booked d token' → Booked d' token' := by
  have horders := (delivers_of_deliverUnit h).orders
  obtain ⟨stored, hstored, h⟩ := Option.bind_eq_some_iff.1 h
  obtain ⟨facility, -, h⟩ := Option.bind_eq_some_iff.1 h
  cases h
  have hstored : stored.villages = d.villages ∧ stored.attacks = d.attacks ∧
      stored.villagesStorageResourceTypes = d.villagesStorageResourceTypes := by
    unfold storeUnit at hstored
    split at hstored
    · obtain ⟨u, -, hstored⟩ := Option.bind_eq_some_iff.1 hstored
      obtain ⟨village, -, hstored⟩ := Option.bind_eq_some_iff.1 hstored
      cases hstored
      exact ⟨rfl, rfl, rfl⟩
    · cases hstored
      exact ⟨rfl, rfl, rfl⟩
  refine ⟨hstored.1, hstored.2.1, hstored.2.2, ?_⟩
  rintro token' ⟨o, ho, hid⟩
  unfold Booked
  rw [horders]
  unfold deliverOne
  rw [Table.get?_update, ho]
  refine ⟨_, rfl, ?_⟩
  unfold Table.patch
  split <;> exact hid

end Produce

/-! ## Facilities -/

section Facility

open Facilities

/-- Everything that a facility costs may be looted. -/
theorem looted_computeBuildingCost (facilityType : String) (level : ℤ) :
    ∀ cost ∈ computeBuildingCost facilityType level, cost.resourcesType ∈ lootedResources := by
  have hvault : ∀ l ∈ storageVaultPrices, ∀ p ∈ l.2, p.1 ∈ lootedResources := by decide
  have hothers : ∀ p ∈ facilityTypePricesDescriptors, ∀ q ∈ p.2, q.1 ∈ lootedResources := by
    decide
  intro cost hcost
  unfold computeBuildingCost at hcost
  obtain ⟨ftp, hftp, rfl⟩ := List.mem_map.1 hcost
  cases h : baseCosts facilityType level with
  | none =>
    rw [h] at hftp
    cases hftp
  | some prices =>
    rw [h] at hftp
    unfold baseCosts at h
    split at h
    · exact hvault _ (mem_of_lookup h) _ hftp
    · exact hothers _ (mem_of_lookup h) _ hftp

variable {village : LoadedVillage C} {costs : List FacilityTypeResPrice}

theorem pay_eq_setCounts (costs : List (ℕ × ℚ)) :
    ∃ f, costs.foldl (fun e cost => e.subtractFromCounts v [cost]) e = e.setCounts f := by
  induction costs generalizing e with
  | nil => exact ⟨_, Db.setCounts_count.symm⟩
  | cons cost rest ih =>
    obtain ⟨f, hf⟩ := ih (e := e.subtractFromCounts v [cost])
    rw [List.foldl_cons, hf, Db.subtractFromCounts, Db.addToCounts]
    exact ⟨_, setCounts_setCounts _ _⟩

theorem keeps_pay : Game.Keeps e (pay e village costs) := by
  obtain ⟨f, hf⟩ := pay_eq_setCounts (e := e) (v := village.village.id) (payments village costs)
  unfold pay
  exact hf ▸ Game.Keeps.setCounts e f

/-- Nobody pays for a facility with units. -/
theorem held_pay (hcosts : ∀ cost ∈ costs, cost.resourcesType ∈ lootedResources) (ht : IsUnit t) :
    held (pay e village costs) t = held e t := by
  have hnot : ∀ p ∈ payments village costs, p.1 ≠ t.id := by
    intro p hp heq
    obtain ⟨cost, hcost, hp⟩ := List.mem_filterMap.1 hp
    obtain ⟨r, hr, rfl⟩ := Option.map_eq_some_iff.1 hp
    have htype : r.resourceType.type = cost.resourcesType := by simpa using List.find?_some hr
    obtain rfl : r.resourceType = t := Catalog.Ref.eq_of_id heq
    exact not_looted ht (show _ ∈ _ from htype ▸ hcosts cost hcost)
  unfold pay
  revert hnot
  induction payments village costs generalizing e with
  | nil => exact fun _ => rfl
  | cons p rest ih =>
    intro hnot
    obtain ⟨hp, hrest⟩ := List.forall_mem_cons.1 hnot
    rw [List.foldl_cons, ih hrest]
    refine held_addToCounts_of_none ?_
    simpa using hp.symm

theorem costs_checkUpgrade {facilityId userId : ℕ} {c : CheckedUpgrade C}
    (h : checkUpgrade d facilityId userId = .ok c) :
    ∀ cost ∈ c.resTypesCosts, cost.resourcesType ∈ lootedResources := by
  obtain ⟨facility, -, h⟩ := bind_eq_ok.1 h
  split at h
  · cases h
  split at h
  · cases h
  split at h
  · cases h
  obtain ⟨⟨⟩, -, h⟩ := bind_eq_ok.1 h
  simp only at h
  split at h
  · cases h
    exact looted_computeBuildingCost _ _
  · cases h

theorem costs_checkCreate {facilityTypes : List (ℕ × String)} {facility : CreateFacility}
    {userId : ℕ} {c : CheckedCreate C} (h : checkCreate facilityTypes d facility userId = .ok c) :
    ∀ cost ∈ c.resTypesCosts, cost.resourcesType ∈ lootedResources := by
  obtain ⟨populatedType, -, h⟩ := bind_eq_ok.1 h
  simp only at h
  split at h
  · cases h
  split at h
  · cases h
  split at h
  · cases h
  split at h
  · cases h
  · cases h
  split at h
  · cases h
  split at h
  · cases h
    exact looted_computeBuildingCost _ _
  · cases h

/-- The statements that pay write no other table. -/
theorem frame_pay : (pay e village costs).villages = e.villages ∧
    (pay e village costs).attacks = e.attacks ∧
    (pay e village costs).villagesStorageResourceTypes = e.villagesStorageResourceTypes := by
  obtain ⟨f, hf⟩ := pay_eq_setCounts (e := e) (v := village.village.id) (payments village costs)
  unfold pay
  rw [hf]
  exact ⟨rfl, rfl, rfl⟩

end Facility

/-! ## New villages -/

section Village

variable {nv : NewVillage} {counts : List (C.Ref × ℤ)}

/-- A new village has no unit. -/
theorem not_isUnit_of_mem_baseTypes (h : u ∈ baseTypes C) : ¬IsUnit u := by
  rintro ⟨m, hm⟩
  have hbase := of_decide_eq_true (List.mem_filter.1 h).2
  exact m.name_not_mem_lootedResources (hm ▸ hbase)

theorem keeps_insertVillage : Game.Keeps e (e.insertVillage nv) := by
  refine Game.Keeps.of_eq rfl fun v hv => ?_
  obtain ⟨village, hvillage⟩ := Option.isSome_iff_exists.1 hv
  have hne : v ≠ e.villages.next := by
    rintro rfl
    rw [Table.get?_next] at hvillage
    cases hvillage
  exact (congrArg Option.isSome (Table.get?_insert_of_ne hne)).trans hv

theorem keeps_insertCounts (hv : (e.villages.get? v).isSome)
    (hn : (counts.map fun p => p.1.id).Nodup) (hno : ∀ p ∈ counts, e.NoRow v p.1.id) :
    Game.Keeps e (e.insertCounts v counts) := by
  induction counts generalizing e with
  | nil => exact Game.Keeps.refl e
  | cons p rest ih =>
    obtain ⟨hnot, hn'⟩ := List.nodup_cons.1 hn
    obtain ⟨hp, hrest⟩ := List.forall_mem_cons.1 hno
    refine (Game.Keeps.insertCount hv hp p.2).trans (ih hv hn' fun q hq => ?_)
    exact (hrest q hq).insertCount (fun heq => hnot (List.mem_map.2 ⟨q, hq, heq.symm⟩)) p.2

/-- A row of a history is one of no village. -/
theorem keeps_insertHistoryCount (u : C.Ref) (n : ℤ) :
    Game.Keeps e (e.insertHistoryCount u n) where
  villages _ h := h
  rows w t hr := by
    obtain ⟨r, hr⟩ := Option.isSome_iff_exists.1 hr
    obtain ⟨hmem, ht⟩ := Db.rowOf_eq_some hr
    obtain ⟨hrow, hw⟩ := Db.mem_rowsOf.1 hmem
    refine List.find?_isSome.2 ⟨r, Db.mem_rowsOf.2 ⟨Table.mem_insert.2 (.inl hrow), hw⟩, ?_⟩
    exact decide_eq_true (congrArg Catalog.Ref.id ht)
  oneRow hone hhoused := by
    refine ⟨(Db.oneRow_insertHistoryCount hone hhoused.inUse n).1, fun r hr w hw => ?_⟩
    rcases Table.mem_insert.1 hr with hr | rfl
    · exact hhoused r hr w hw
    · cases hw

theorem keeps_newVillage (hhoused : Housed e) (counts : C.Ref → ℤ) :
    Game.Keeps e ((e.insertVillage nv).insertCounts e.villages.next
      ((baseTypes C).map fun t => (t, counts t))) := by
  have hnew : ((e.insertVillage nv).villages.get? e.villages.next).isSome :=
    congrArg Option.isSome Table.get?_insert_self
  refine keeps_insertVillage.trans (keeps_insertCounts hnew (Db.nodup_baseTypes counts) ?_)
  exact fun p _ => hhoused.inUse.noRow le_rfl p.1.id

theorem keeps_createVillage (hhoused : Housed e) (isNew : Bool) :
    Game.Keeps e (e.createVillage nv isNew) := keeps_newVillage hhoused _

theorem keeps_generateVillage (hhoused : Housed e) : Game.Keeps e (e.generateVillage nv) := by
  refine (@keeps_newVillage _ _ { nv with userId := none } hhoused
    fun t => automatedVillageInitialResources t.type).trans ?_
  unfold Db.generateVillage
  generalize (Db.insertVillage e _).insertCounts _ _ = created
  induction baseTypes C generalizing created with
  | nil => exact Game.Keeps.refl created
  | cons u rest ih => exact (keeps_insertHistoryCount u _).trans (ih _)

/-- Rows of other types leave what there is of a type. -/
theorem totalOf_insertCounts (h : ∀ p ∈ counts, p.1 ≠ t) :
    (e.insertCounts v counts).totalOf w t = e.totalOf w t := by
  induction counts generalizing e with
  | nil => rfl
  | cons p rest ih =>
    obtain ⟨hp, hrest⟩ := List.forall_mem_cons.1 h
    refine (ih hrest).trans ?_
    rw [Db.totalOf_insertCount, if_neg fun heq => hp heq.2, add_zero]

theorem totalOf_insertHistoryCount (u : C.Ref) (n : ℤ) :
    (e.insertHistoryCount u n).totalOf w t = e.totalOf w t := by
  rw [Db.totalOf_eq_total, Db.totalOf_eq_total]
  show (e.villagesResourceTypes.insert _).total _ = _
  rw [Table.total_insert]
  simp [amountOf]

/-- Of a type that the rows of the new village are not of, there is as much as before. -/
theorem held_newVillage (hhoused : Housed e) (ht : IsUnit t) (counts : C.Ref → ℤ) :
    held ((e.insertVillage nv).insertCounts e.villages.next
      ((baseTypes C).map fun t => (t, counts t))) t = held e t := by
  have htotal : ∀ w, ((e.insertVillage nv).insertCounts e.villages.next
      ((baseTypes C).map fun t => (t, counts t))).totalOf w t = e.totalOf w t := by
    intro w
    refine totalOf_insertCounts fun p hp => ?_
    obtain ⟨u, hu, rfl⟩ := List.mem_map.1 hp
    rintro rfl
    exact not_isUnit_of_mem_baseTypes hu ht
  have hnone : e.totalOf e.villages.next t = 0 := by
    have hrows : e.rowsOfType e.villages.next t = [] := by
      refine List.filter_eq_nil_iff.2 fun r hr hu => ?_
      exact hhoused.inUse.noRow le_rfl t.id r hr (congrArg _ (of_decide_eq_true hu))
    rw [Db.totalOf, hrows]
    rfl
  rw [held_eq_sum, held_eq_sum]
  simp only [htotal, Db.villages_insertCounts]
  show ((List.map key (e.villages.rows ++ [_])).map _).sum = _
  rw [List.map_append, List.map_append, List.sum_append, List.map_singleton, List.map_singleton,
    List.sum_singleton]
  exact (congrArg _ hnone).trans (add_zero _)

theorem held_createVillage (hhoused : Housed e) (ht : IsUnit t) (isNew : Bool) :
    held (e.createVillage nv isNew) t = held e t := held_newVillage hhoused ht _

theorem held_generateVillage (hhoused : Housed e) (ht : IsUnit t) :
    held (e.generateVillage nv) t = held e t := by
  refine Eq.trans ?_ (@held_newVillage _ _ _ { nv with userId := none } hhoused ht
    fun t => automatedVillageInitialResources t.type)
  unfold Db.generateVillage
  generalize (Db.insertVillage e _).insertCounts _ _ = created
  induction baseTypes C generalizing created with
  | nil => rfl
  | cons u rest ih =>
    refine (ih _).trans ?_
    exact held_congr rfl fun w => totalOf_insertHistoryCount u _

theorem frame_insertCounts : (e.insertCounts v counts).attacks = e.attacks ∧
    (e.insertCounts v counts).villagesStorageResourceTypes = e.villagesStorageResourceTypes := by
  induction counts generalizing e with
  | nil => exact ⟨rfl, rfl⟩
  | cons p rest ih =>
    have hrest := ih (e := e.insertCount v p.1 p.2)
    exact hrest

/-- What a new village leaves as it is. -/
theorem frame_createVillage (isNew : Bool) : (e.createVillage nv isNew).attacks = e.attacks ∧
    (e.createVillage nv isNew).villagesStorageResourceTypes = e.villagesStorageResourceTypes :=
  frame_insertCounts (e := e.insertVillage nv)

theorem frame_generateVillage : (e.generateVillage nv).attacks = e.attacks ∧
    (e.generateVillage nv).villagesStorageResourceTypes = e.villagesStorageResourceTypes := by
  have hcreated := @frame_insertCounts _ (e.insertVillage { nv with userId := none }) e.villages.next
    ((baseTypes C).map fun t => (t, automatedVillageInitialResources t.type))
  unfold Db.generateVillage
  revert hcreated
  generalize (Db.insertVillage e _).insertCounts _ _ = created
  induction baseTypes C generalizing created with
  | nil => exact id
  | cons u rest ih => exact fun hcreated => ih _ hcreated

end Village

end Cme.Game
