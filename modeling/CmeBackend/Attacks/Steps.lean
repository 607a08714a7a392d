import CmeBackend.Attacks.Create
import CmeBackend.Villages.Resources

/-!
# The calls of an attack request

`AttacksService.create` call by call, for runs in which other requests come between its calls: the
checks on what is loaded first (`check`), the rows of the attacker's village that the request still
holds (`CheckedAttack.rows`), and what is saved of them later.

* `create_eq_check`, `depart_eq`: without anything in between, the calls are `create`.
-/

namespace Cme.Attacks

open Js GameRules

variable {C : Catalog}

/-- An attack that has passed the checks, with the rows that were loaded with the village. -/
structure CheckedAttack (C : Catalog) where
  attackerVillage : Village
  defenderVillage : Village
  rows : List (VillageResourceType C)
  unitSent : Fields
  travelTime : Number

/-- The part of `create` before the attack is saved. -/
def check (M : Math) (dev : Bool) (now : ℤ) (d : Db C) (dto : CreateAttackDto) :
    Except AttackError (CheckedAttack C) := do
  let attackerVillage ← findOneOrFail d dto.attackerVillageId
  let defenderVillage ← findOneOrFail d dto.defenderVillageId
  checkVillages attackerVillage defenderVillage now
  let unitSent ← filterUnits dto.unitSent.entries
  if unitSent.isEmpty then .error (.badRequest "No unit sent to battle") else
    let rows := d.rowsOf attackerVillage.id
    let slowestSpeed ← checkUnits rows 0 unitSent
    let travelTime := computeAttackTime (distance M attackerVillage defenderVillage) slowestSpeed
      dev dto.attackTimeMode
    return { attackerVillage, defenderVillage, rows, unitSent, travelTime }

/-- `attacksRepository.save(attack)`, when the clock shows `now`. -/
def CheckedAttack.insert (a : CheckedAttack C) (now : ℤ) (d : Db C) : Db C :=
  insertAttack d a.attackerVillage a.defenderVillage a.unitSent (Number.add (.fin now) a.travelTime)

/-- The member that is added to `delayed:normal` for the attack with the id `attackId`. -/
def CheckedAttack.token (a : CheckedAttack C) (attackId : ℕ) : AttackToken where
  attackId := attackId
  travelTime := a.travelTime
  attackerVillageId := a.attackerVillage.id
  defenderVillageId := a.defenderVillage.id
  attackerUnitsInfoByType := a.unitSent

/-- `attackerVillageResourceTypesLeftDuringAttack`. `none`: one of the counts is no integer, and the
database does not take the rows. -/
def CheckedAttack.left (a : CheckedAttack C) : Option (List (Entity C)) :=
  if a.rows.all fun r => (leftDuringAttack a.unitSent r).toInt?.isSome then
    some (a.rows.map fun r => ⟨r, (leftDuringAttack a.unitSent r).toInt?.getD r.count⟩)
  else none

/-- The attacker loses the truce that the village had when it was loaded. -/
def CheckedAttack.loseTruce (a : CheckedAttack C) (loaded now : ℤ) (d : Db C) : Db C :=
  if a.attackerVillage.inTrucePeriod loaded then
    { d with villages := d.villages.update a.attackerVillage.id fun v => { v with truceEndsAt := now } }
  else d

/-- The defender gains a truce. -/
def CheckedAttack.gainTruce (a : CheckedAttack C) (now : ℤ) (d : Db C) : Db C :=
  if now < a.defenderVillage.createdAt + truceEligibilityPeriod then
    { d with
      villages := d.villages.update a.defenderVillage.id fun v =>
        { v with truceEndsAt := now + truceDuration } }
  else d

theorem attacks_loseTruce (a : CheckedAttack C) (loaded now : ℤ) (d : Db C) :
    (a.loseTruce loaded now d).attacks = d.attacks := by
  unfold CheckedAttack.loseTruce
  split <;> rfl

theorem attacks_gainTruce (a : CheckedAttack C) (now : ℤ) (d : Db C) :
    (a.gainTruce now d).attacks = d.attacks := by
  unfold CheckedAttack.gainTruce
  split <;> rfl

theorem updateTruces_eq (a : CheckedAttack C) (c : Clock) (d : Db C) :
    updateTruces d c a.attackerVillage a.defenderVillage =
      a.gainTruce c.updated (a.loseTruce c.loaded c.updated d) := by
  unfold updateTruces CheckedAttack.gainTruce CheckedAttack.loseTruce
  dsimp only
  split <;> split <;> rfl

/-- The rows are saved as they were loaded, without the units. -/
theorem saveCounts_eq_left {a : CheckedAttack C} {d : Db C}
    (h : a.rows = d.rowsOf a.attackerVillage.id) :
    saveCounts d a.attackerVillage.id (leftDuringAttack a.unitSent) =
      (a.left.map d.saveEntities).getD d := by
  unfold saveCounts CheckedAttack.left
  rw [h]
  split
  · show d.setCounts _ = d.setCounts _
    refine Db.setCounts_congr fun r hr => ?_
    by_cases hv : r.villageId = some a.attackerVillage.id
    · have hfind : (d.rowsOf a.attackerVillage.id).find? (fun r' => r'.id = r.id) = some r := by
        refine List.find?_eq_some_iff_append.2 ?_
        obtain ⟨l₁, l₂, heq⟩ := List.mem_iff_append.1 (Db.mem_rowsOf.2 ⟨hr, hv⟩)
        have hn : ((d.rowsOf a.attackerVillage.id).map key).Nodup :=
          d.villagesResourceTypes.nodup.sublist (List.filter_sublist.map _)
        rw [heq, List.map_append, List.map_cons] at hn
        refine ⟨by simp, l₁, l₂, heq, fun r' hr' => ?_⟩
        have hne := List.disjoint_of_nodup_append hn (List.mem_map_of_mem hr')
        simp only [Bool.not_eq_eq_eq_not, Bool.not_true, decide_eq_false_iff_not]
        rintro hid
        have hkey : key r' = key r := hid
        exact hne (hkey ▸ List.mem_cons_self)
      rw [if_pos hv, List.find?_map]
      simp only [Function.comp_def, hfind, Option.map_some]
    · have hnone : ((d.rowsOf a.attackerVillage.id).map fun r =>
          (⟨r, (leftDuringAttack a.unitSent r).toInt?.getD r.count⟩ : Entity C)).find?
            (·.loaded.id = r.id) = none := by
        refine List.find?_eq_none.2 fun e he heq => hv ?_
        obtain ⟨r', hr', rfl⟩ := List.mem_map.1 he
        obtain ⟨hmem, hv'⟩ := Db.mem_rowsOf.1 hr'
        have hid : key r' = key r := of_decide_eq_true heq
        exact d.villagesResourceTypes.eq_of_key hmem hr hid ▸ hv'
      rw [if_neg hv, hnone]
  · rfl

/-- The calls of an accepted request, one after the other. -/
theorem depart_eq {a : CheckedAttack C} {d : Db C} (c : Clock)
    (h : a.rows = d.rowsOf a.attackerVillage.id) :
    (depart c d a.attackerVillage a.defenderVillage a.unitSent a.travelTime).db =
      a.gainTruce c.updated (a.loseTruce c.loaded c.updated
        ((a.left.map (a.insert c.departed d).saveEntities).getD (a.insert c.departed d))) := by
  have hrows : a.rows = (a.insert c.departed d).rowsOf a.attackerVillage.id := h
  rw [← updateTruces_eq, ← saveCounts_eq_left hrows]
  rfl

theorem create_eq_check {M : Math} {dev : Bool} {c : Clock} {d : Db C} {dto : CreateAttackDto} :
    create M dev c d dto = (check M dev c.loaded d dto).map fun a =>
      depart c d a.attackerVillage a.defenderVillage a.unitSent a.travelTime := by
  simp only [create, check, bind, Except.bind]
  cases findOneOrFail d dto.attackerVillageId with
  | error e => rfl
  | ok attackerVillage =>
    simp only
    cases findOneOrFail d dto.defenderVillageId with
    | error e => rfl
    | ok defenderVillage =>
      simp only
      cases checkVillages attackerVillage defenderVillage c.loaded with
      | error e => rfl
      | ok u =>
        simp only
        cases filterUnits dto.unitSent.entries with
        | error e => rfl
        | ok unitSent =>
          simp only
          split
          · rfl
          · cases checkUnits (d.rowsOf attackerVillage.id) 0 unitSent <;> rfl

end Cme.Attacks
