import CmeBackend.Game.Reports

/-!
# What an attack does to the units in the villages

For each part of the life of an attack: what it keeps (`Keeps`), and what it adds to the number of
units that the villages hold (`held`).

* `held_create`: an attack takes its army from the villages.
* `resolve_cases`, `held_execReportQuery`: a battle takes the casualties of the defender.
* `comeHome_cases`, `held_comeBack`: a return gives what is left of the army.
-/

namespace Cme.Game

open Js GameRules Attacks Battles Production.Lifecycle

variable {C : Catalog} {d d' d₁ : Db C} {v w : ℕ} {t : C.Ref} {A : Army C}
  {values : List (ℕ × ℚ)}

/-- Units are no loot. -/
theorem not_looted (ht : IsUnit t) : ¬Looted t := by
  obtain ⟨m, hm⟩ := ht
  exact fun h => m.name_not_mem_lootedResources (hm ▸ h)

/-! ## Statements -/

/-- A statement that does not name the type. -/
theorem held_addToCounts_of_none (h : values.lookup t.id = none) :
    held (d.addToCounts v values) t = held d t := by
  refine held_congr rfl fun w => ?_
  unfold Db.totalOf
  rw [Db.rowsOfType_addToCounts_of_none fun _ => h]

/-- A statement that adds an army to a village with rows for its types. -/
theorem held_addToCounts (hone : d.OneRowPerType) (hv : (d.villages.get? v).isSome)
    (hrows : ∀ a ∈ A.units, (d.rowOf v a.1).isSome)
    (hvalues : ∀ t : C.Ref, values.lookup t.id = (A.units.lookup t).map fun n => (n : ℚ)) :
    held (d.addToCounts v values) t = held d t + A.count t := by
  refine held_of_one rfl hv ?_ fun w hw => totalOf_congr (Db.rowsOf_addToCounts_of_ne hw)
  have hone' : (d.addToCounts v values).OneRowPerType := Db.oneRowPerType_setCounts.2 hone
  rw [totalOf_eq_countOf hone, totalOf_eq_countOf hone']
  cases hl : A.units.lookup t with
  | none =>
    rw [Db.countOf_addToCounts_of_none (by rw [hvalues, hl]; rfl), Army.count, hl]
    simp
  | some n =>
    rw [Army.count_of_mem (mem_of_lookup hl)]
    exact Db.countOf_addToCounts (hrows _ (mem_of_lookup hl)) (by rw [hvalues, hl]; rfl)

/-! ## Creation of attacks -/

section Create

variable {M : Math} {dev : Bool} {c : Clock} {dto : CreateAttackDto} {dep : Departure C}

theorem ids_updateTruces (a b : Village) :
    (updateTruces d c a b).villages.rows.map key = d.villages.rows.map key := by
  have hupdate : ∀ (t : Table Village) (k : ℕ) (truceEndsAt : ℤ),
      (t.update k fun v => { v with truceEndsAt }).rows.map key = t.rows.map key := by
    intro t k truceEndsAt
    simp only [Table.update, List.map_map]
    exact List.map_congr_left fun r _ =>
      Table.key_patch (f := fun v : Village => { v with truceEndsAt }) (fun _ => rfl) r
  unfold updateTruces
  dsimp only
  split
  · split
    · rw [hupdate, hupdate]
    · rw [hupdate]
  · split
    · rw [hupdate]
    · rfl

theorem isSome_get?_of_ids (h : d'.villages.rows.map key = d.villages.rows.map key)
    (hv : (d.villages.get? v).isSome) : (d'.villages.get? v).isSome := by
  obtain ⟨village, hvillage⟩ := Option.isSome_iff_exists.1 hv
  obtain ⟨hmem, rfl⟩ := Table.get?_eq_some.1 hvillage
  obtain ⟨village', hmem', hid⟩ := List.mem_map.1 (h ▸ List.mem_map_of_mem hmem)
  exact Option.isSome_iff_exists.2 ⟨village', Table.get?_eq_some.2 ⟨hmem', hid⟩⟩

theorem ids_create (h : create M dev c d dto = .ok dep) :
    dep.db.villages.rows.map key = d.villages.rows.map key := by
  obtain ⟨attackerVillage, defenderVillage, slowestSpeed, -, rfl⟩ := checked_of_create h
  unfold depart
  dsimp only
  rw [ids_updateTruces]
  unfold saveCounts
  split <;> rfl

theorem vaults_create (h : create M dev c d dto = .ok dep) :
    dep.db.villagesStorageResourceTypes = d.villagesStorageResourceTypes := by
  obtain ⟨attackerVillage, defenderVillage, slowestSpeed, -, rfl⟩ := checked_of_create h
  unfold depart saveCounts
  dsimp only
  split <;> rfl

theorem keeps_create (h : create M dev c d dto = .ok dep) : Keeps d dep.db := by
  have hids := ids_create h
  obtain ⟨attackerVillage, defenderVillage, slowestSpeed, -, rfl⟩ := checked_of_create h
  let inserted := insertAttack d attackerVillage defenderVillage dto.keptUnits
    (Number.add (.fin c.departed) (computeAttackTime
      (distance M attackerVillage defenderVillage) slowestSpeed dev dto.attackTimeMode))
  have hsave : Keeps inserted (saveCounts inserted attackerVillage.id
      (leftDuringAttack dto.keptUnits)) := by
    unfold saveCounts
    split
    · exact Keeps.setCounts _ _
    · exact Keeps.refl _
  refine ((Keeps.of_eq rfl fun _ hv => hv : Keeps d inserted).trans hsave).trans ?_
  refine Keeps.of_eq rfl fun v hv => isSome_get?_of_ids (ids_updateTruces _ _) hv

theorem village_create (h : create M dev c d dto = .ok dep) :
    (d.villages.get? dto.attackerVillageId).isSome ∧
      (d.villages.get? dto.defenderVillageId).isSome := by
  obtain ⟨attackerVillage, defenderVillage, slowestSpeed, hchecked, -⟩ := checked_of_create h
  rw [hchecked.attacker, hchecked.defender]
  exact ⟨rfl, rfl⟩

/-- The army leaves its village. -/
theorem held_create (h : create M dev c d dto = .ok dep) (hone : d.OneRowPerType)
    (hhoused : Housed d) (hformat : ∀ u ∈ dto.keptUnits, WellFormatted C u.1 u.2)
    (hA : Represents dto.keptUnits A.units) : held dep.db t = held d t + -A.count t := by
  refine held_of_one (v := dto.attackerVillageId) (ids_create h) (village_create h).1 ?_
    fun w hw => ?_
  · rw [totalOf_eq_countOf hone, totalOf_eq_countOf ((keeps_create h).oneRow hone hhoused).1,
      countOf_create h hformat hA, sub_eq_add_neg]
  · obtain ⟨attackerVillage, _, _, ha, -, -, -, rfl⟩ := create_eq_ok h
    refine totalOf_congr ?_
    rw [rowsOf_depart, saveCounts_eq hformat, Db.rowsOf_setCounts]
    refine (List.map_congr_left fun r hr => ?_).trans (List.map_id _)
    have hne : r.villageId ≠ some attackerVillage.id := by
      rw [(Db.mem_rowsOf.1 hr).2, ha]
      exact fun heq => hw (Option.some.inj heq)
    rw [if_neg hne]
    rfl

end Create

/-! ## Battles -/

section Battle

variable {M : Math} {token : AttackToken} {report : AttackReport} {stolen : List StolenResource}
  {attackId : ℕ} {units : Fields}

theorem keeps_execReportQuery (h : execReportQuery d report = some d') : Keeps d d' := by
  obtain ⟨-, casualties, -, rfl⟩ := execReportQuery_eq_some h
  exact (Keeps.setCounts d _).trans (Keeps.of_eq rfl fun _ hv => hv)

/-- The casualties of the defender leave his village. -/
theorem held_execReportQuery (hreport : battleReport M d token = some report)
    (h : execReportQuery d report = some d') (hone : d.OneRowPerType)
    (hv : (d.villages.get? report.defenderVillageId).isSome) :
    held d' t = held d t + -countIn report.defenderCasualties t := by
  obtain ⟨-, casualties, hvalues, rfl⟩ := execReportQuery_eq_some h
  obtain ⟨B, hB, hrows⟩ := represents_defenderCasualties hreport hvalues
  have hlist := hB.sqlValues?.symm.trans hvalues
  obtain rfl := Option.some.inj hlist
  have hcount : -countIn report.defenderCasualties t = (B.mapCounts Neg.neg).count t := by
    rw [B.count_mapCounts neg_zero, hB.countIn]
    rfl
  rw [hcount]
  refine held_addToCounts hone hv (fun b hb => ?_) fun t => ?_
  · obtain ⟨b', hb', rfl⟩ := List.mem_map.1 hb
    exact hrows b' hb'
  · unfold negated
    rw [lookup_map_snd, lookup_sqlValues, Army.mapCounts, lookup_map_snd]
    cases B.units.lookup t <;> simp

/-- The loot does not touch the units. -/
theorem held_updateDefenderStolenResources (ht : IsUnit t)
    (h : updateDefenderStolenResources d attackId v units = some (d', stolen)) :
    held d' t = held d t := by
  have hstolen := (mem_stolen h).1
  rw [updateDefenderStolenResources_eq] at h
  obtain ⟨stolen', -, h⟩ := Option.bind_eq_some_iff.1 h
  obtain ⟨d₁, htake, h⟩ := Option.map_eq_some_iff.1 h
  obtain ⟨values, hvalues, rfl⟩ := Option.map_eq_some_iff.1 htake
  obtain ⟨rfl, rfl⟩ := Prod.mk.inj h
  have hnone := lookup_of_not_looted hvalues hstolen (not_looted ht)
  refine held_addToCounts_of_none ?_
  rw [lookup_map_snd, hnone]
  rfl

theorem keeps_updateDefenderStolenResources
    (h : updateDefenderStolenResources d attackId v units = some (d', stolen)) : Keeps d d' := by
  rw [updateDefenderStolenResources_eq] at h
  obtain ⟨stolen', -, h⟩ := Option.bind_eq_some_iff.1 h
  obtain ⟨d₁, htake, h⟩ := Option.map_eq_some_iff.1 h
  obtain ⟨values, -, rfl⟩ := Option.map_eq_some_iff.1 htake
  obtain ⟨rfl, rfl⟩ := Prod.mk.inj h
  exact (Keeps.setCounts d _).trans (Keeps.of_eq rfl fun _ hv => hv)

/-- What the loot writes of the attacks. -/
theorem attacks_updateDefenderStolenResources
    (h : updateDefenderStolenResources d attackId v units = some (d', stolen)) :
    d'.attacks = (recordLoot d attackId stolen).attacks := by
  rw [updateDefenderStolenResources_eq] at h
  obtain ⟨stolen', -, h⟩ := Option.bind_eq_some_iff.1 h
  obtain ⟨d₁, htake, h⟩ := Option.map_eq_some_iff.1 h
  obtain ⟨values, -, rfl⟩ := Option.map_eq_some_iff.1 htake
  obtain ⟨rfl, rfl⟩ := Prod.mk.inj h
  rfl

/-- A battle stops without a report, stores its report, or stores it and sends the units home with
their loot. -/
theorem resolve_cases (M : Math) (d : Db C) (token : AttackToken) :
    resolve M d token = (d, none) ∨
      ∃ report d₁, battleReport M d (parsedAttack token) = some report ∧
        execReportQuery d report = some d₁ ∧
        (resolve M d token = (d₁, none) ∨
          ∃ d₂ stolen, report.WonByAttacker ∧
            updateDefenderStolenResources d₁ report.attackId report.defenderVillageId
              report.attackerUnits = some (d₂, stolen) ∧
            resolve M d token = (d₂, some (report.returnToken stolen))) := by
  unfold resolve battle
  cases hreport : battleReport M d (parsedAttack token) with
  | none => exact .inl rfl
  | some report =>
    simp only [Option.bind_eq_bind, Option.bind_some, updateDb_eq]
    cases hexec : execReportQuery d report with
    | none => exact .inl rfl
    | some d₁ =>
      refine .inr ⟨report, d₁, rfl, hexec, ?_⟩
      simp only [Option.bind_some, Option.getD_some]
      by_cases hwon : report.WonByAttacker
      · simp only [if_pos hwon]
        cases hloot : updateDefenderStolenResources d₁ report.attackId report.defenderVillageId
            report.attackerUnits with
        | none => exact .inl rfl
        | some p => exact .inr ⟨p.1, p.2, hwon, rfl, rfl⟩
      · simp only [if_neg hwon]
        exact .inl trivial

end Battle

/-! ## Returns -/

section Return

variable {token : ReturnToken} {stolen : List StolenResource} {f : ℤ → ℤ}

theorem rowsOf_giveResourcesToAttacker (hw : w ≠ v) :
    (giveResourcesToAttacker d stolen v).rowsOf w = d.rowsOf w := by
  unfold giveResourcesToAttacker
  split
  · exact Db.rowsOf_addToCounts_of_ne hw
  · rfl

theorem keeps_giveResourcesToAttacker : Keeps d (giveResourcesToAttacker d stolen v) := by
  unfold giveResourcesToAttacker
  split
  · exact Keeps.setCounts d _
  · exact Keeps.refl d

/-- Loot does not touch the attacks or the vaults. -/
theorem frame_giveResourcesToAttacker :
    (giveResourcesToAttacker d stolen v).villages = d.villages ∧
      (giveResourcesToAttacker d stolen v).attacks = d.attacks ∧
      (giveResourcesToAttacker d stolen v).villagesStorageResourceTypes =
        d.villagesStorageResourceTypes := by
  unfold giveResourcesToAttacker
  split <;> exact ⟨rfl, rfl, rfl⟩

theorem held_giveResourcesToAttacker (ht : IsUnit t)
    (hloot : ∀ s ∈ stolen, ∃ t : C.Ref, t.id = s.id ∧ t.type ∈ lootedResources) :
    held (giveResourcesToAttacker d stolen v) t = held d t := by
  unfold giveResourcesToAttacker
  split
  next values hvalues =>
    exact held_addToCounts_of_none (lookup_of_not_looted hvalues hloot (not_looted ht))
  · rfl

/-- A return that goes through gives the loot and the units. -/
theorem comeBack_eq_some (h : comeBack d token = some d')
    (hstolen : token.stolenResources = some stolen) :
    ∃ left values, subtractCasualties (parsedReturn token).attackerUnitsInfoByType
        (parsedReturn token).attackerCasualties = some left ∧ sqlValues? left = some values ∧
      d' = ((giveResourcesToAttacker d stolen token.attackerVillageId).addToCounts
        token.attackerVillageId values).updateAttack token.attackId fun a =>
          { a with isTroopHome := true, attackerWon := true } := by
  obtain ⟨left, hleft, h⟩ := Option.bind_eq_some_iff.1 h
  have hparsed : (parsedReturn token).stolenResources = some stolen := hstolen
  simp only [hparsed] at h
  obtain ⟨values, hvalues, h⟩ := Option.bind_eq_some_iff.1 h
  exact ⟨left, values, hleft, hvalues, (Option.some.inj h).symm⟩

/-- A return goes through, or it gives no more than the loot. -/
theorem comeHome_cases (hstolen : token.stolenResources = some stolen) :
    comeBack d token = some (comeHome d token) ∨ comeHome d token = d ∨
      comeHome d token = giveResourcesToAttacker d stolen token.attackerVillageId := by
  unfold comeHome
  cases comeBack d token with
  | some d' => exact .inl rfl
  | none =>
    dsimp only
    split
    · refine .inr (.inr ?_)
      have hparsed : (parsedReturn token).stolenResources = some stolen := hstolen
      unfold giveLoot
      rw [hparsed]
      rfl
    · exact .inr (.inl rfl)

theorem keeps_comeBack (h : comeBack d token = some d')
    (hstolen : token.stolenResources = some stolen) : Keeps d d' := by
  obtain ⟨left, values, -, -, rfl⟩ := comeBack_eq_some h hstolen
  exact (keeps_giveResourcesToAttacker.trans (Keeps.setCounts _ _)).trans
    (Keeps.of_eq rfl fun _ hv => hv)

/-- What the casualties leave of the army is back in its village. -/
theorem held_comeBack (hA : Represents token.attackerUnitsInfoByType A.units)
    (hcs : Represents token.attackerCasualties (A.mapCounts f).units) (hf : f 0 = 0)
    (hrow : ∀ a ∈ A.units, (d.rowOf token.attackerVillageId a.1).isSome)
    (hstolen : token.stolenResources = some stolen)
    (hloot : ∀ s ∈ stolen, ∃ t : C.Ref, t.id = s.id ∧ t.type ∈ lootedResources)
    (hone : d.OneRowPerType) (hhoused : Housed d)
    (hv : (d.villages.get? token.attackerVillageId).isSome) (ht : IsUnit t)
    (h : comeBack d token = some d') : held d' t = held d t + (A.count t - f (A.count t)) := by
  obtain ⟨m, hm⟩ := ht
  have hone' := ((keeps_comeBack h hstolen).oneRow hone hhoused).1
  have hcount := countOf_comeBack hA hcs hf hrow hstolen hloot hm h
  obtain ⟨left, values, -, -, rfl⟩ := comeBack_eq_some h hstolen
  refine held_of_one (v := token.attackerVillageId) ?_ hv ?_ fun w hw => totalOf_congr ?_
  · exact congrArg (fun t : Table Village => t.rows.map key)
      (@frame_giveResourcesToAttacker _ d _ stolen).1
  · rw [totalOf_eq_countOf hone, totalOf_eq_countOf hone', hcount]
  · exact (Db.rowsOf_addToCounts_of_ne hw).trans (rowsOf_giveResourcesToAttacker hw)

end Return

end Cme.Game
