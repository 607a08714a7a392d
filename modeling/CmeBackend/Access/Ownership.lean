import CmeBackend.Attacks.Create
import CmeBackend.Production.Orders
import CmeBackend.Storage.Transfer

/-!
# Whose rows a request changes

The routes that create and remove attacks, create orders, remove facilities and transfer resources
to a storage (`attacks.controller.ts`, `orders.controller.ts`, `facilities.controller.ts`,
`villages.controller.ts`). Every controller hands the request on without the user, so no service can
tell whose villages and facilities it is about.

* `handle`: a request of a user.
* `others`: the rows that do not belong to a user. They are the same whatever the user sends if
  every request leaves them as they are.
* `Spares`: the requests that leave them as they are (`others_handle_iff`).
-/

namespace Cme.Access

open Js GameRules

variable {C : Catalog}

/-- A request on one of the routes. -/
inductive Request where
  | createAttack (dto : Attacks.CreateAttackDto)
  | removeAttack (id : ℕ)
  | createOrder (order : Production.CreateOrder)
  | removeFacility (facilityId : ℕ)
  | transferToStorage (villageId facilityId : ℕ) (req : Storage.Request)

/-- What a request meets besides the tables. -/
structure Env where
  math : Math
  dev : Bool
  clock : Attacks.Clock
  /-- The facility of an order is loaded with its village. -/
  withVillage : Bool

/-! ## The code -/

/-- `attacksRepository.delete(id)` -/
def removeAttack (d : GameDb C) (id : ℕ) : GameDb C :=
  { d with attacks := d.attacks.delete id }

/-- A row of `orders` or of `villages_storage_resource_types` references the facility. -/
def isReferenced (d : GameDb C) (facilityId : ℕ) : Bool :=
  d.orders.rows.any (·.facilityId = facilityId) ||
    d.villagesStorageResourceTypes.rows.any (·.facilityId = facilityId)

/-- `facilitiesRepository.delete(id)`: an error if the facility is referenced. -/
def removeFacility (d : GameDb C) (facilityId : ℕ) : GameDb C :=
  if isReferenced d facilityId then d else { d with facilities := d.facilities.delete facilityId }

/-- The tables after a request of the user `u`, who is not part of what the services get. -/
def handle (e : Env) (_u : ℕ) (d : GameDb C) : Request → GameDb C
  | .createAttack dto =>
    match Attacks.create e.math e.dev e.clock d.toDb dto with
    | .ok dep => { d with toDb := dep.db }
    | .error _ => d
  | .removeAttack id => removeAttack d id
  | .createOrder order => Production.create e.withVillage d order
  | .removeFacility facilityId => removeFacility d facilityId
  | .transferToStorage villageId facilityId req =>
    { d with toDb := Storage.step villageId facilityId d.toDb req }

/-! ## Ownership -/

/-- The village belongs to the user. -/
def owns (d : Db C) (u villageId : ℕ) : Bool := (d.villages.get? villageId).any (·.userId = some u)

/-- The village of the facility belongs to the user. -/
def ownsFacility (d : Db C) (u facilityId : ℕ) : Bool :=
  (d.facilities.get? facilityId).any fun f => owns d u f.villageId

/-- The user has sent the attack or is attacked. -/
def ownsAttack (u : ℕ) (a : Attack) : Bool := a.attackerId = some u ∨ a.defenderId = some u

/-- The counts of villages, the facilities, the vault rows and the attacks that are not a user's. -/
@[ext]
structure Others (C : Catalog) where
  counts : List (VillageResourceType C)
  facilities : List (Facility × FacilityProduction)
  vaults : List (VillageStorageResourceType C)
  attacks : List Attack

def others (u : ℕ) (d : GameDb C) : Others C where
  counts := d.villagesResourceTypes.rows.filter fun r => !r.villageId.any (owns d.toDb u)
  facilities := (d.facilities.rows.filter fun f => !owns d.toDb u f.villageId).map fun f =>
    (f, d.production f.id)
  vaults := d.villagesStorageResourceTypes.rows.filter fun s => !ownsFacility d.toDb u s.facilityId
  attacks := d.attacks.rows.filter fun a => !ownsAttack u a

/-! ## Requests that leave the rows of others as they are -/

/-- The checks that an attack passes. -/
structure Admitted (d : Db C) (dto : Attacks.CreateAttackDto) (now : ℤ)
    (attackerVillage defenderVillage : Village) : Prop where
  attacker : d.villages.get? dto.attackerVillageId = some attackerVillage
  defender : d.villages.get? dto.defenderVillageId = some defenderVillage
  villages : Attacks.checkVillages attackerVillage defenderVillage now = .ok ()
  filtered : (Attacks.filterUnits dto.unitSent.entries).isOk
  sent : dto.keptUnits ≠ []
  units : (Attacks.checkUnits (d.rowsOf attackerVillage.id) 0 dto.keptUnits).isOk

/-- Units leave the village: a row has the name of an entry, and the count of every entry that a row
has the name of is an integer. -/
def Leave (d : Db C) (villageId : ℕ) (units : Fields) : Prop :=
  (∃ r ∈ d.rowsOf villageId, (units.lookup r.resourceType.type).isSome) ∧
    ∀ r ∈ d.rowsOf villageId, ∀ unit, units.lookup r.resourceType.type = some unit →
      ∃ n : ℤ, Json.toNumber? (unit.get "count") = some (.fin n)

/-- The request passes no row of another user on to a service that changes it. -/
def Spares (e : Env) (u : ℕ) (d : GameDb C) : Request → Prop
  | .createAttack dto =>
    ∀ attackerVillage defenderVillage,
      Admitted d.toDb dto e.clock.loaded attackerVillage defenderVillage →
        attackerVillage.userId = some u ∨
          defenderVillage.userId = some u ∧ ¬Leave d.toDb attackerVillage.id dto.keptUnits
  | .removeAttack id => ∀ a, d.attacks.get? id = some a → ownsAttack u a
  | .createOrder order =>
    ∀ c, Production.checkOrder e.withVillage d order = .ok c →
      (Production.resourceTypeIdAmounts c).isSome → c.orderedQuantity.den = 1 →
        owns d.toDb u c.village.village.id
  | .removeFacility facilityId =>
    ∀ f, d.facilities.get? facilityId = some f →
      isReferenced d facilityId ∨ owns d.toDb u f.villageId
  | .transferToStorage villageId facilityId req =>
    ∀ facility t n, Storage.Passes d.toDb villageId facilityId req facility t n →
      (owns d.toDb u villageId ∨ req.resource.count = 0) ∧
        (owns d.toDb u facility.villageId ∨
          req.resource.count = 0 ∧ (Storage.storageOf d.toDb facilityId).isSome)

/-! ## Lists of rows -/

section Lists

variable {α : Type} {p q : α → Bool} {f : α → α} {l : List α}

/-- An update that the filter does not see keeps the filtered rows if it changes none of them. -/
theorem filter_map_eq_iff (hp : ∀ a, p (f a) = p a) :
    (l.map f).filter p = l.filter p ↔ ∀ a ∈ l, p a = true → f a = a := by
  rw [List.filter_map, show p ∘ f = p from funext hp]
  conv_lhs => rw [← List.map_id (l.filter p), List.map_map]
  rw [List.map_inj_left]
  simp only [List.mem_filter, and_imp]
  rfl

/-- Rows that are deleted are missing if the filter lets one of them through. -/
theorem filter_filter_eq_iff :
    (l.filter q).filter p = l.filter p ↔ ∀ a ∈ l, p a = true → q a = true := by
  rw [List.filter_comm, List.filter_eq_self]
  simp only [List.mem_filter, and_imp]

/-- A row that is added is one more if the filter lets it through. -/
theorem filter_append_eq_iff {a : α} : (l ++ [a]).filter p = l.filter p ↔ p a = false := by
  cases h : p a <;> simp [h]

end Lists

/-! ## Rows of others after one statement -/

section Statements

variable {d : GameDb C} {u v : ℕ}

theorem owns_iff {village : Village} (h : d.villages.get? v = some village) :
    owns d.toDb u v = true ↔ village.userId = some u := by
  simp [owns, h]

/-- No attack of others is deleted. -/
theorem others_removeAttack_iff {id : ℕ} :
    others u (removeAttack d id) = others u d ↔
      ∀ a, d.attacks.get? id = some a → ownsAttack u a := by
  have hrows : others u (removeAttack d id) = others u d ↔
      (d.attacks.rows.filter (key · ≠ id)).filter (fun a => !ownsAttack u a) =
        d.attacks.rows.filter fun a => !ownsAttack u a := by
    rw [Others.ext_iff]
    exact ⟨fun h => h.2.2.2, fun h => ⟨rfl, rfl, rfl, h⟩⟩
  rw [hrows, filter_filter_eq_iff]
  constructor
  · intro h a ha
    obtain ⟨hmem, hkey⟩ := Table.get?_eq_some.1 ha
    have := h a hmem
    grind
  · intro h a ha hothers
    have := fun hkey => h a (Table.get?_eq_some.2 ⟨ha, hkey⟩)
    grind

/-- A facility that is not referenced has no vault row that could change its owner. -/
theorem vaults_removeFacility {id : ℕ} (hr : isReferenced d id = false) :
    (others u { d with facilities := d.facilities.delete id }).vaults = (others u d).vaults := by
  apply List.filter_congr
  intro s hs
  have hne : s.facilityId ≠ id := by
    intro heq
    simp only [isReferenced, Bool.or_eq_false_iff, List.any_eq_false] at hr
    exact hr.2 s hs (by simpa using heq)
  have hget : (d.facilities.delete id).get? s.facilityId = d.facilities.get? s.facilityId := by
    unfold Table.get? Table.delete
    rw [List.find?_filter]
    congr 1
    funext f
    grind
  show (!(_ : Option Facility).any _) = !(_ : Option Facility).any _
  rw [hget]
  rfl

/-- No facility of others is deleted. -/
theorem others_removeFacility_iff {id : ℕ} :
    others u (removeFacility d id) = others u d ↔
      ∀ f, d.facilities.get? id = some f → isReferenced d id ∨ owns d.toDb u f.villageId := by
  unfold removeFacility
  by_cases hr : isReferenced d id
  · simp [hr]
  have hr : isReferenced d id = false := by simpa using hr
  have hrows : others u { d with facilities := d.facilities.delete id } = others u d ↔
      (d.facilities.rows.filter (key · ≠ id)).filter (fun f => !owns d.toDb u f.villageId) =
        d.facilities.rows.filter fun f => !owns d.toDb u f.villageId := by
    rw [Others.ext_iff]
    constructor
    · rintro ⟨-, h, -⟩
      exact List.map_injective_iff.2 (fun f g hfg => (Prod.mk.inj hfg).1) h
    · intro h
      refine ⟨rfl, ?_, vaults_removeFacility hr, rfl⟩
      exact congrArg (List.map fun f : Facility => (f, d.production f.id)) h
  rw [hr, if_neg (by decide), hrows, filter_filter_eq_iff]
  constructor
  · intro h f hf
    obtain ⟨hmem, hkey⟩ := Table.get?_eq_some.1 hf
    have := h f hmem
    grind
  · intro h f hf hothers
    have := fun hkey => h f (Table.get?_eq_some.2 ⟨hf, hkey⟩)
    grind

/-- A statement that sets counts changes none of others. -/
theorem counts_setCounts_iff {f : VillageResourceType C → ℤ} :
    (others u { d with toDb := d.toDb.setCounts f }).counts = (others u d).counts ↔
      ∀ r ∈ d.villagesResourceTypes.rows, r.villageId.any (owns d.toDb u) = false →
        f r = r.count := by
  have hset : (others u { d with toDb := d.toDb.setCounts f }).counts =
      (d.villagesResourceTypes.rows.map fun r => { r with count := f r }).filter fun r =>
        !r.villageId.any (owns d.toDb u) := rfl
  rw [hset]
  refine (filter_map_eq_iff
    (f := fun r : VillageResourceType C => { r with count := f r }) fun _ => rfl).trans ?_
  apply forall₂_congr
  intro r _
  have hrow : ({ r with count := f r } : VillageResourceType C) = r ↔ f r = r.count := by
    cases r
    simp
  rw [hrow, Bool.not_eq_true']

/-- The rows of one village are those of others unless the user owns it. -/
theorem counts_village_iff {f : VillageResourceType C → ℤ} :
    (others u { d with toDb := d.toDb.setCounts fun r =>
        if r.villageId = some v then f r else r.count }).counts = (others u d).counts ↔
      owns d.toDb u v = true ∨ ∀ r ∈ d.rowsOf v, f r = r.count := by
  rw [counts_setCounts_iff]
  constructor
  · intro h
    by_cases ho : owns d.toDb u v = true
    · exact .inl ho
    · refine .inr fun r hr => ?_
      obtain ⟨hmem, hv⟩ := Db.mem_rowsOf.1 hr
      have := h r hmem (by simpa [hv] using ho)
      rwa [if_pos hv] at this
  · rintro h r hr hothers
    by_cases hv : r.villageId = some v
    · rw [if_pos hv]
      rcases h with ho | h
      · simp [hv, ho] at hothers
      · exact h r (Db.mem_rowsOf.2 ⟨hr, hv⟩)
    · rw [if_neg hv]

end Statements

/-! ## Attacks -/

section Attacks

open Attacks

variable {d : GameDb C} {u v : ℕ} {dto : CreateAttackDto} {c : Clock}
  {attackerVillage defenderVillage : Village} {units : Fields} {travelTime : Number}

/-- A request goes through if its attack is admitted. -/
theorem create_of_admitted {d : Db C} (M : Math) (dev : Bool)
    (h : Admitted d dto c.loaded attackerVillage defenderVillage) :
    ∃ travelTime, create M dev c d dto =
      .ok (depart c d attackerVillage defenderVillage dto.keptUnits travelTime) := by
  obtain ⟨kept, hkept⟩ := exists_of_isOk h.filtered
  obtain rfl : kept = dto.keptUnits := filterUnits_eq_ok hkept
  obtain ⟨speed, hspeed⟩ := exists_of_isOk h.units
  have hfind : ∀ {id v}, d.villages.get? id = some v → findOneOrFail d id = .ok v := by
    intro id v hv
    rw [findOneOrFail, hv]
  refine ⟨computeAttackTime (distance M attackerVillage defenderVillage) speed dev
    dto.attackTimeMode, ?_⟩
  refine bind_eq_ok.2 ⟨_, hfind h.attacker, bind_eq_ok.2 ⟨_, hfind h.defender, ?_⟩⟩
  refine bind_eq_ok.2 ⟨_, h.villages, bind_eq_ok.2 ⟨_, hkept, ?_⟩⟩
  rw [if_neg (by simpa using h.sent)]
  exact bind_eq_ok.2 ⟨_, hspeed, rfl⟩

/-- Only admitted attacks go through. -/
theorem admitted_of_create {M : Math} {dev : Bool} {d : Db C} {dep : Departure C}
    (h : create M dev c d dto = .ok dep) :
    ∃ attackerVillage defenderVillage, Admitted d dto c.loaded attackerVillage defenderVillage := by
  obtain ⟨attackerVillage, defenderVillage, _, hchecked, -⟩ := checked_of_create h
  refine ⟨attackerVillage, defenderVillage, hchecked.attacker, hchecked.defender,
    hchecked.villages, ?_, hchecked.sent, ?_⟩
  · rw [hchecked.filtered]
    rfl
  · rw [hchecked.units]
    rfl

/-- The number of units of an entry that the filter has left and the village has. -/
theorem positive_of_available {d : Db C} {name : String} {unit : Json} {t : C.Ref} {n : Number}
    {m : MilitaryResource} (h : Available d v name unit t n m) (hk : isKept (name, unit) = true) :
    n = .nan ∨ ∃ x : ℚ, n = .fin x ∧ 0 < x := by
  obtain ⟨r, -, hlt⟩ := h.enough
  have hpos : n.le (.fin 0) = false := by
    simpa [isKept, h.count] using hk
  cases n with
  | nan => exact .inl rfl
  | inf s => cases s <;> simp [Number.lt, Number.le] at hlt hpos
  | fin x => exact .inr ⟨x, rfl, by simpa [Number.le] using hpos⟩

/-- What is left of a row that an entry has the name of: less than before, if the count of the entry
is an integer. -/
theorem leftDuringAttack_cases {r : VillageResourceType C} {unit : Json} {n : Number}
    (hl : units.lookup r.resourceType.type = some unit) (ht : unit.truthy = true)
    (hn : Json.toNumber? (unit.get "count") = some n)
    (hpos : n = .nan ∨ ∃ x : ℚ, n = .fin x ∧ 0 < x) :
    (∃ m : ℤ, n = .fin m ∧ (leftDuringAttack units r).toInt? = some (r.count - m) ∧ 0 < m) ∨
      (¬∃ m : ℤ, n = .fin m) ∧ (leftDuringAttack units r).toInt? = none := by
  have hleft : leftDuringAttack units r = Number.sub (.fin r.count) n := by
    simp [leftDuringAttack, hl, ht, hn]
  rw [hleft]
  rcases hpos with rfl | ⟨x, rfl, hx⟩
  · exact .inr ⟨by simp, rfl⟩
  · by_cases hint : ∃ m : ℤ, x = m
    · obtain ⟨m, rfl⟩ := hint
      refine .inl ⟨m, rfl, ?_, by exact_mod_cast hx⟩
      rw [Number.sub_int, Number.toInt?_int]
    · refine .inr ⟨by simpa using hint, ?_⟩
      have hden : x.den ≠ 1 := fun hden => hint ⟨x.num, ((Rat.den_eq_one_iff x).1 hden).symm⟩
      simp [Number.sub, Number.neg, Number.add, Number.toInt?, hden]

/-- What the entry that a row has the name of leaves of the row. -/
theorem row_cases {d : Db C} (hdto : ∀ e ∈ dto.keptUnits, ∃ t n m, Available d v e.1 e.2 t n m)
    {r : VillageResourceType C} {unit : Json}
    (hl : dto.keptUnits.lookup r.resourceType.type = some unit) :
    ∃ n, Json.toNumber? (unit.get "count") = some n ∧
      ((∃ m : ℤ, n = .fin m ∧
          (leftDuringAttack dto.keptUnits r).toInt? = some (r.count - m) ∧ 0 < m) ∨
        (¬∃ m : ℤ, n = .fin m) ∧ (leftDuringAttack dto.keptUnits r).toInt? = none) := by
  have hmem := mem_of_lookup hl
  obtain ⟨t, n, m, havail⟩ := hdto _ hmem
  have hk : isKept (r.resourceType.type, unit) = true := (List.mem_filter.1 hmem).2
  have ht : unit.truthy = true := by
    cases unit with
    | obj fs => rfl
    | _ => exact absurd havail.unitTypeId (by simp [Json.get])
  exact ⟨n, havail.count,
    leftDuringAttack_cases hl ht havail.count (positive_of_available havail hk)⟩

/-- Units leave a village if the save of its rows goes through and changes a count. -/
theorem leave_iff {d : Db C} (hdto : ∀ e ∈ dto.keptUnits, ∃ t n m, Available d v e.1 e.2 t n m) :
    Leave d v dto.keptUnits ↔
      ((d.rowsOf v).all fun r => (leftDuringAttack dto.keptUnits r).toInt?.isSome) = true ∧
        ∃ r ∈ d.rowsOf v, (leftDuringAttack dto.keptUnits r).toInt?.getD r.count ≠ r.count := by
  have hnone : ∀ r : VillageResourceType C, dto.keptUnits.lookup r.resourceType.type = none →
      (leftDuringAttack dto.keptUnits r).toInt? = some r.count := by
    intro r hl
    simp [leftDuringAttack, hl]
  rw [List.all_eq_true]
  constructor
  · rintro ⟨⟨r, hr, hsome⟩, hint⟩
    refine ⟨fun r hr => ?_, r, hr, ?_⟩
    · cases hl : dto.keptUnits.lookup r.resourceType.type with
      | none => simp [hnone r hl]
      | some unit =>
        obtain ⟨n, hn, ⟨m, -, hleft, -⟩ | ⟨hno, -⟩⟩ := row_cases hdto hl
        · simp [hleft]
        · obtain ⟨m, hm⟩ := hint r hr unit hl
          exact absurd ⟨m, Option.some.inj (hn.symm.trans hm)⟩ hno
    · obtain ⟨unit, hl⟩ := Option.isSome_iff_exists.1 hsome
      obtain ⟨n, hn, ⟨m, -, hleft, hpos⟩ | ⟨hno, -⟩⟩ := row_cases hdto hl
      · rw [hleft]
        show r.count - m ≠ r.count
        omega
      · obtain ⟨m, hm⟩ := hint r hr unit hl
        exact absurd ⟨m, Option.some.inj (hn.symm.trans hm)⟩ hno
  · rintro ⟨hall, r, hr, hne⟩
    refine ⟨⟨r, hr, ?_⟩, fun r hr unit hl => ?_⟩
    · cases hl : dto.keptUnits.lookup r.resourceType.type with
      | none => exact absurd (by rw [hnone r hl]; rfl) hne
      | some unit => rfl
    · obtain ⟨n, hn, ⟨m, rfl, -⟩ | ⟨-, hleft⟩⟩ := row_cases hdto hl
      · exact ⟨m, hn⟩
      · simpa [hleft] using hall r hr

/-- The truces are not part of what a user owns. -/
theorem others_updateTruces :
    others u { d with toDb := updateTruces d.toDb c attackerVillage defenderVillage } =
      others u d := by
  have howns : owns (updateTruces d.toDb c attackerVillage defenderVillage) u = owns d.toDb u := by
    funext w
    have hupdate : ∀ (t : Table Village) (k : ℕ) (e : ℤ),
        ((t.update k fun v => { v with truceEndsAt := e }).get? w).any (·.userId = some u) =
          (t.get? w).any (·.userId = some u) := by
      intro t k e
      rw [Table.get?_update]
      cases t.get? w with
      | none => rfl
      | some v => by_cases hk : key v = k <;> simp [Table.patch, hk]
    unfold owns updateTruces
    split <;> split <;> simp only [hupdate]
  unfold others ownsFacility
  rw [howns]
  rfl

/-- An attack is a row of others unless the user takes part in it. -/
theorem others_insertAttack (attackerVillage defenderVillage : Village) (units : Fields)
    (t : Number) :
    (others u { d with
        toDb := insertAttack d.toDb attackerVillage defenderVillage units t }).attacks =
          (others u d).attacks ↔
      attackerVillage.userId = some u ∨ defenderVillage.userId = some u := by
  refine filter_append_eq_iff.trans ?_
  simp [ownsAttack, or_iff_not_imp_left]

/-- The save of the rows of a village changes counts of others if it goes through, changes a count,
and the user does not own the village. -/
theorem counts_saveCounts_iff {f : VillageResourceType C → Number} :
    (others u { d with toDb := saveCounts d.toDb v f }).counts = (others u d).counts ↔
      owns d.toDb u v = true ∨
        ¬(((d.rowsOf v).all fun r => (f r).toInt?.isSome) = true ∧
          ∃ r ∈ d.rowsOf v, (f r).toInt?.getD r.count ≠ r.count) := by
  unfold saveCounts
  by_cases hall : ((d.rowsOf v).all fun r => (f r).toInt?.isSome) = true
  · rw [if_pos hall, counts_village_iff (f := fun r => (f r).toInt?.getD r.count)]
    simp only [hall, true_and, not_exists, not_and, not_not]
  · simp [hall]

/-- The rows of others after an attack is stored and its units are taken from the village `v`. -/
theorem others_insert_save_iff {t : Number} {f : VillageResourceType C → Number} :
    others u { d with
        toDb := saveCounts (insertAttack d.toDb attackerVillage defenderVillage units t) v f } =
          others u d ↔
      (attackerVillage.userId = some u ∨ defenderVillage.userId = some u) ∧
        (owns d.toDb u v = true ∨
          ¬(((d.rowsOf v).all fun r => (f r).toInt?.isSome) = true ∧
            ∃ r ∈ d.rowsOf v, (f r).toInt?.getD r.count ≠ r.count)) := by
  rw [← others_insertAttack attackerVillage defenderVillage units t,
    ← counts_saveCounts_iff (f := f)]
  let inserted := insertAttack d.toDb attackerVillage defenderVillage units t
  have hsame : (others u { d with toDb := saveCounts inserted v f }).counts =
      (others u { d with toDb := saveCounts d.toDb v f }).counts := by
    unfold saveCounts
    rw [show inserted.rowsOf v = d.rowsOf v from rfl]
    split <;> rfl
  constructor
  · intro h
    refine ⟨?_, hsame.symm.trans (congrArg Others.counts h)⟩
    have hattacks := congrArg Others.attacks h
    unfold saveCounts at hattacks
    split at hattacks <;> exact hattacks
  · rintro ⟨hattacks, hcounts⟩
    apply Others.ext (hsame.trans hcounts)
    all_goals
      unfold saveCounts
      split
    · rfl
    · rfl
    · rfl
    · rfl
    · exact hattacks
    · exact hattacks

/-- The rows of others after an admitted attack. -/
theorem others_depart_iff
    (h : Admitted d.toDb dto c.loaded attackerVillage defenderVillage) :
    others u { d with toDb :=
        (depart c d.toDb attackerVillage defenderVillage dto.keptUnits travelTime).db } =
          others u d ↔
      attackerVillage.userId = some u ∨
        defenderVillage.userId = some u ∧ ¬Leave d.toDb attackerVillage.id dto.keptUnits := by
  have hid : attackerVillage.id = dto.attackerVillageId := (Table.get?_eq_some.1 h.attacker).2
  have hdto : ∀ e ∈ dto.keptUnits, ∃ t n m, Available d.toDb attackerVillage.id e.1 e.2 t n m := by
    intro e he
    obtain ⟨speed, hspeed⟩ := exists_of_isOk h.units
    obtain ⟨speed, hunit⟩ := checkUnits_eq_ok hspeed e he
    exact checkUnit_eq_ok hunit
  have howns : owns d.toDb u attackerVillage.id = true ↔ attackerVillage.userId = some u :=
    owns_iff (hid ▸ h.attacker)
  let saved := saveCounts (insertAttack d.toDb attackerVillage defenderVillage dto.keptUnits
    (Number.add (.fin c.departed) travelTime)) attackerVillage.id (leftDuringAttack dto.keptUnits)
  have htruces : others u { d with toDb :=
      (depart c d.toDb attackerVillage defenderVillage dto.keptUnits travelTime).db } =
        others u { d with toDb := saved } :=
    others_updateTruces (d := { d with toDb := saved })
  rw [htruces, others_insert_save_iff, leave_iff hdto, howns]
  by_cases hu : attackerVillage.userId = some u
  · simp [hu]
  · simp only [hu, false_or]

end Attacks

/-! ## Orders -/

section Orders

open Production

variable {d d' : GameDb C} {u : ℕ} {withVillage : Bool} {order : CreateOrder} {c : CheckedOrder C}
  {facility : Facility} {p : FacilityProduction}

/-- A facility that is saved with other columns of production is one of others unless the user owns
its village. -/
theorem facilities_saveFacility_iff (h : facility ∈ d.facilities.rows)
    (hne : p ≠ d.production facility.id) :
    (others u (d.saveFacility facility p)).facilities = (others u d).facilities ↔
      owns d.toDb u facility.villageId = true := by
  have hsaved : (others u (d.saveFacility facility p)).facilities =
      (d.facilities.rows.filter fun f => !owns d.toDb u f.villageId).map fun f =>
        (f, Function.update d.production facility.id p f.id) := by
    show ((d.saveFacility facility p).facilities.rows.filter fun f =>
      !owns d.toDb u f.villageId).map _ = _
    rw [GameDb.facilities_saveFacility h]
    rfl
  rw [hsaved]
  refine List.map_inj_left.trans ⟨fun h' => ?_, fun ho f hf => ?_⟩
  · by_contra hnot
    have hpair := h' facility (List.mem_filter.2 ⟨h, by simpa using hnot⟩)
    exact hne (by simpa using hpair)
  · obtain ⟨hf, hothers⟩ := List.mem_filter.1 hf
    have hid : f.id ≠ facility.id := by
      intro hid
      rw [Table.eq_of_key hf h hid, ho] at hothers
      cases hothers
    rw [Function.update_of_ne hid]

theorem ownsFacility_saveFacility (h : facility ∈ d.facilities.rows) :
    ownsFacility (d.saveFacility facility p).toDb u = ownsFacility d.toDb u := by
  funext w
  unfold ownsFacility Table.get?
  rw [GameDb.facilities_saveFacility h]
  rfl

/-- The facility of an order is in production after it, and was not before. -/
theorem others_placeOrder_iff (h : Payable withVillage d order c) (hp : placeOrder d c = some d') :
    others u d' = others u d ↔ owns d.toDb u c.village.village.id = true := by
  obtain ⟨amounts, -, -, rfl⟩ := placeOrder_eq_some.1 hp
  have hmem : c.facility.facility ∈ (storeOrder d c amounts).facilities.rows := h.facility_mem
  have hne : c.busy ≠ (storeOrder d c amounts).production c.facility.facility.id := by
    intro heq
    have hfree := h.production_free
    rw [show d.production _ = (storeOrder d c amounts).production _ from rfl, ← heq] at hfree
    cases hfree
  have hiff := facilities_saveFacility_iff (u := u) hmem hne
  constructor
  · intro heq
    have hfacilities := congrArg Others.facilities heq
    rw [h.village_id]
    exact hiff.1 hfacilities
  · intro ho
    apply Others.ext
    · exact counts_village_iff.2 (.inl ho)
    · exact hiff.2 (h.village_id ▸ ho)
    · unfold others
      rw [ownsFacility_saveFacility hmem]
      rfl
    · rfl

end Orders

/-! ## Transfers -/

section Transfers

open Storage

variable {d : GameDb C} {u v f : ℕ} {req : Storage.Request} {facility : Facility} {t : C.Ref}
  {n : ℤ}

/-- The vault rows after a transfer. -/
def vaultsAfter (d : Db C) (facility : Facility) (t : C.Ref) (n : ℤ) (k : TransferType) :
    Table (VillageStorageResourceType C) :=
  let opened := openStorage d facility.id t
  opened.1.villagesStorageResourceTypes.update opened.2.id fun s =>
    { s with count := opened.2.count + k.intoVault n }

/-- A transfer changes the counts of the village and the vault rows. -/
theorem move_db {d : Db C} {resource : TransferableResource} {k : TransferType} :
    (move d v facility t resource k).db =
      { d.saveResources v [(resource.type, ⟨t.id, resource.count⟩)] (k = .deposit) with
        villagesStorageResourceTypes := vaultsAfter d facility t resource.count k } := by
  have hcount : (move d v facility t resource k).villageStorageResourceType.count =
      (openStorage d facility.id t).2.count + k.intoVault resource.count := by
    show (if k = .withdraw then _ else _) = _
    unfold TransferType.intoVault
    split <;> ring
  have hopen : (openStorage d facility.id t).1 =
      { d with villagesStorageResourceTypes :=
        (openStorage d facility.id t).1.villagesStorageResourceTypes } := by
    unfold openStorage
    split <;> rfl
  show saveStorage (Db.saveResources (openStorage d facility.id t).1 v _ _)
    (move d v facility t resource k).villageStorageResourceType = _
  unfold saveStorage vaultsAfter
  rw [hcount]
  conv_lhs => rw [hopen]
  rfl

/-- The village has a row of the type, which a transfer of anything changes. -/
theorem counts_move_iff (h : Passes d.toDb v f req facility t n) :
    (others u { d with toDb :=
        (move d.toDb v facility t { req.resource with count := n } req.transferType).db }).counts =
          (others u d).counts ↔ owns d.toDb u v = true ∨ n = 0 := by
  rw [move_db, ← h.type_eq]
  refine Iff.trans counts_village_iff (or_congr Iff.rfl ?_)
  simp only [addOrRemoveResourcesToVillage_one]
  constructor
  · intro hall
    obtain ⟨r, hr, -⟩ := h.enough
    obtain ⟨hmem, ht⟩ := Db.rowOf_eq_some hr
    have := hall r hmem
    rw [if_pos ht] at this
    unfold SentResource.added at this
    split at this <;> grind
  · rintro rfl r -
    simp [SentResource.added]

/-- A facility without a vault row has one after a transfer. -/
theorem vaultsAfter_of_none {d : Db C} {k : TransferType} (hs : storageOf d facility.id = none) :
    ∃ s : VillageStorageResourceType C, s.facilityId = facility.id ∧
      (vaultsAfter d facility t n k).rows = d.villagesStorageResourceTypes.rows ++ [s] := by
  have hold : ∀ r ∈ d.villagesStorageResourceTypes.rows,
      key r ≠ d.villagesStorageResourceTypes.next :=
    fun r hr => Nat.ne_of_lt (d.villagesStorageResourceTypes.lt_next r hr)
  unfold vaultsAfter openStorage
  simp only [hs, Table.update, Table.insert, List.map_append]
  refine ⟨_, ?_, congrArg₂ _ ?_ rfl⟩
  · unfold Table.patch
    split <;> rfl
  · exact (List.map_congr_left fun r hr => Table.patch_ne (hold r hr)).trans (List.map_id _)

/-- The vault row of a facility has another count after a transfer. -/
theorem vaultsAfter_of_some {d : Db C} {k : TransferType} {s : VillageStorageResourceType C}
    (hs : storageOf d facility.id = some s) :
    (vaultsAfter d facility t n k).rows =
      d.villagesStorageResourceTypes.rows.map
        (Table.patch s.id fun r => { r with count := s.count + k.intoVault n }) := by
  unfold vaultsAfter openStorage
  rw [hs]
  rfl

/-- The vault row of the facility is opened or changed. -/
theorem vaults_move_iff (h : Passes d.toDb v f req facility t n) :
    (others u { d with toDb :=
        (move d.toDb v facility t { req.resource with count := n } req.transferType).db }).vaults =
          (others u d).vaults ↔
      owns d.toDb u facility.villageId = true ∨ n = 0 ∧ (storageOf d.toDb f).isSome := by
  have howns : ∀ s : VillageStorageResourceType C, s.facilityId = facility.id →
      ownsFacility d.toDb u s.facilityId = owns d.toDb u facility.villageId := by
    intro s hs
    unfold ownsFacility
    rw [hs, h.facility_id, h.facility_exists]
    rfl
  rw [move_db, ← h.facility_id]
  show List.filter (fun s => !ownsFacility d.toDb u s.facilityId)
    (vaultsAfter d.toDb _ _ _ _).rows = List.filter _ _ ↔ _
  cases hs : storageOf d.toDb facility.id with
  | none =>
    obtain ⟨s, hsid, hrows⟩ := @vaultsAfter_of_none C facility t n d.toDb req.transferType hs
    rw [hrows, filter_append_eq_iff, howns s hsid]
    simp
  | some s =>
    have hmem : s ∈ d.villagesStorageResourceTypes.rows := List.mem_of_find?_eq_some hs
    have hsid : s.facilityId = facility.id := by simpa using List.find?_some hs
    have hzero : req.transferType.intoVault n = 0 ↔ n = 0 := by
      unfold TransferType.intoVault
      split <;> omega
    rw [vaultsAfter_of_some hs, filter_map_eq_iff]
    · constructor
      · intro hall
        by_cases ho : owns d.toDb u facility.villageId = true
        · exact .inl ho
        · have hrow := hall s hmem (by simpa [howns s hsid] using ho)
          have hcount := congrArg VillageStorageResourceType.count hrow
          rw [show s.id = key s from rfl, Table.patch_self] at hcount
          exact .inr ⟨by grind, rfl⟩
      · rintro hor r hr hothers
        unfold Table.patch
        split
        next hk =>
          obtain rfl : r = s := Table.eq_of_key hr hmem hk
          rcases hor with ho | ⟨hn, -⟩
          · rw [howns r hsid, ho] at hothers
            cases hothers
          · rw [hzero.2 hn, add_zero]
        next => rfl
    · intro r
      unfold Table.patch
      split <;> rfl

/-- The rows of others after a transfer that passes. -/
theorem others_step_iff (h : Passes d.toDb v f req facility t n) :
    others u { d with toDb := step v f d.toDb req } = others u d ↔
      (owns d.toDb u v = true ∨ req.resource.count = 0) ∧
        (owns d.toDb u facility.villageId = true ∨
          req.resource.count = 0 ∧ (storageOf d.toDb f).isSome) := by
  rw [step_of_passes h, ← h.allowed.eq_zero_iff, ← counts_move_iff h, ← vaults_move_iff h]
  constructor
  · intro heq
    exact ⟨congrArg Others.counts heq, congrArg Others.vaults heq⟩
  · rintro ⟨hcounts, hvaults⟩
    refine Others.ext hcounts ?_ hvaults ?_
    · rw [move_db]
      rfl
    · rw [move_db]
      rfl

end Transfers

/-! ## Requests -/

/-- A request leaves the rows of others as they are if it spares them. -/
theorem others_handle_iff (e : Env) (u : ℕ) (d : GameDb C) (req : Request) :
    others u (handle e u d req) = others u d ↔ Spares e u d req := by
  cases req with
  | createAttack dto =>
    constructor
    · intro h attackerVillage defenderVillage hadmitted
      obtain ⟨travelTime, hcreate⟩ := create_of_admitted e.math e.dev hadmitted
      rw [handle, hcreate] at h
      exact (others_depart_iff hadmitted).1 h
    · intro h
      cases hcreate : Attacks.create e.math e.dev e.clock d.toDb dto with
      | error err => rw [handle, hcreate]
      | ok dep =>
        obtain ⟨attackerVillage, defenderVillage, hadmitted⟩ := admitted_of_create hcreate
        obtain ⟨travelTime, hdepart⟩ := create_of_admitted e.math e.dev hadmitted
        rw [handle, hdepart]
        exact (others_depart_iff hadmitted).2 (h _ _ hadmitted)
  | removeAttack id => exact others_removeAttack_iff
  | createOrder order =>
    show others u (Production.create e.withVillage d order) = _ ↔ _
    unfold Production.create
    constructor
    · intro h c hcheck hamounts hden
      obtain ⟨amounts, hamounts⟩ := Option.isSome_iff_exists.1 hamounts
      have hplace := (Production.placeOrder_eq_some (d := d)).2 ⟨amounts, hamounts, hden, rfl⟩
      rw [hcheck] at h
      simp only [hplace] at h
      exact (others_placeOrder_iff (Production.checkOrder_eq_ok hcheck) hplace).1 h
    · intro h
      cases hcheck : Production.checkOrder e.withVillage d order with
      | error err => rfl
      | ok c =>
        cases hplace : Production.placeOrder d c with
        | none => simp [hplace]
        | some d' =>
          obtain ⟨amounts, hamounts, hden, -⟩ := Production.placeOrder_eq_some.1 hplace
          simp only [hplace]
          exact (others_placeOrder_iff (Production.checkOrder_eq_ok hcheck) hplace).2
            (h c hcheck (by rw [hamounts]; rfl) hden)
  | removeFacility facilityId => exact others_removeFacility_iff
  | transferToStorage villageId facilityId req =>
    constructor
    · intro h facility t n hpasses
      exact (others_step_iff hpasses).1 h
    · intro h
      rcases Storage.step_cases d.toDb villageId facilityId req with heq | ⟨facility, t, n, hpasses⟩
      · show others u { d with toDb := Storage.step villageId facilityId d.toDb req } = _
        rw [heq]
      · exact (others_step_iff hpasses).2 (h facility t n hpasses)

/-! ## A facility of somebody else -/

/-- Village 1 of user 1 has a storage vault. -/
def sampleGame : GameDb sampleCatalog where
  toDb := Storage.sampleDb
  orders := Table.empty
  production := fun _ => .none

def sampleEnv : Env := ⟨Attacks.sampleMath, false, Attacks.sampleClock, true⟩

/-- User 2 removes the facility of user 1. -/
theorem others_handle_removeFacility :
    others 2 (handle sampleEnv 2 sampleGame (.removeFacility 1)) ≠ others 2 sampleGame := by
  intro h
  have hfacilities := congrArg (fun o => o.facilities.length) h
  revert hfacilities
  decide

end Cme.Access
