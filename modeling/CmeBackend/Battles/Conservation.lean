import CmeBackend.Battles.Armies
import CmeBackend.Battles.Text

/-!
# Armies are conserved

An attack in the documented format from its creation to the return of its units: what each step does
to the counts of the attacker's village.

* `countOf_create`: the request takes the army from the village.
* `battle_eq_some`: the battle does not touch the village, and sends the units home if they won.
* `countOf_comeBack`: the return adds what is left of the army, and the loot, which has no units.
* `army_conserved`: what was taken is what the report lists as casualties and what came back.
-/

namespace Cme.Battles

open Js GameRules Attacks

variable {C : Catalog} {d d' : Db C} {A : Army C} {v : ℕ} {t : C.Ref}

/-! ## Creation -/

/-- The save takes from a row what the map has for its type. -/
theorem unitsLeft_eq {units : Fields} (hunits : ∀ u ∈ units, WellFormatted C u.1 u.2)
    (r : VillageResourceType C) : unitsLeft units r = r.count - countIn units r.resourceType := by
  cases hl : units.lookup r.resourceType.type with
  | none => simp [unitsLeft, leftDuringAttack_of_none hl, countIn, hl]
  | some unit =>
    obtain ⟨t, n, hdoc⟩ := hunits _ (mem_of_lookup hl)
    rw [unitsLeft_of_documented hl hdoc]
    simp [countIn, hl, hdoc.count]

section Create

variable {M : Math} {dev : Bool} {c : Clock} {dto : CreateAttackDto} {dep : Departure C}

/-- The village has a row for each type of the army. -/
theorem isSome_rowOf_sent (h : create M dev c d dto = .ok dep)
    (hA : Represents dto.keptUnits A.units) (ht : A.count t ≠ 0) :
    (d.rowOf dto.attackerVillageId t).isSome := by
  obtain ⟨_, _, _, -, -, -, havailable, -⟩ := create_eq_ok h
  unfold Army.count at ht
  cases hl : A.units.lookup t with
  | none => simp [hl] at ht
  | some n =>
    obtain ⟨u, hu, hdoc⟩ := hA.exists_entry (mem_of_lookup hl)
    obtain ⟨t', x, m, hav⟩ := havailable u hu
    obtain ⟨rfl, rfl⟩ := hav.eq_of_documented hdoc
    obtain ⟨r, hr, -⟩ := hav.le_countOf
    exact Option.isSome_iff_exists.2 ⟨r, hr⟩

/-- What the filter leaves has positive numbers. -/
theorem pos_of_represents (hA : Represents dto.keptUnits A.units) : ∀ a ∈ A.units, 0 < a.2 := by
  intro a ha
  obtain ⟨u, hu, hdoc⟩ := hA.exists_entry ha
  exact hdoc.pos (List.mem_filter.1 hu).2

/-- The rows of the village after the request. -/
theorem rowOf_create (h : create M dev c d dto = .ok dep)
    (hformat : ∀ u ∈ dto.keptUnits, WellFormatted C u.1 u.2) :
    dep.db.rowOf dto.attackerVillageId t = (d.rowOf dto.attackerVillageId t).map fun r =>
      { r with count := r.count - countIn dto.keptUnits t } := by
  obtain ⟨attackerVillage, defenderVillage, travelTime, ha, -, -, -, rfl⟩ := create_eq_ok h
  rw [Db.rowOf_congr (rowsOf_depart _), ha, saveCounts_eq hformat, Db.rowOf_setCounts]
  apply Option.map_congr
  intro r hr
  obtain ⟨hmem, rfl⟩ := Db.rowOf_eq_some hr
  rw [if_pos (Db.mem_rowsOf.1 hmem).2, unitsLeft_eq hformat]

/-- The request takes the army from the village. -/
theorem countOf_create (h : create M dev c d dto = .ok dep)
    (hformat : ∀ u ∈ dto.keptUnits, WellFormatted C u.1 u.2)
    (hA : Represents dto.keptUnits A.units) (t : C.Ref) :
    dep.db.countOf dto.attackerVillageId t = d.countOf dto.attackerVillageId t - A.count t := by
  have hcount : countIn dto.keptUnits t = A.count t := hA.countIn t
  unfold Db.countOf
  rw [rowOf_create h hformat, hcount]
  cases hr : d.rowOf dto.attackerVillageId t with
  | some r => rfl
  | none =>
    have hzero : A.count t = 0 := by
      by_contra hne
      simpa [hr] using isSome_rowOf_sent h hA hne
    simp [hzero]

end Create

/-! ## The battle -/

/-- The loot is a row of a resource that may be looted. -/
theorem mem_stolen {attackId : ℕ} {units : Fields} {stolen : List StolenResource}
    (h : updateDefenderStolenResources d attackId v units = some (d', stolen)) :
    (∀ s ∈ stolen, ∃ t : C.Ref, t.id = s.id ∧ t.type ∈ lootedResources) ∧
      ∀ w ≠ v, d'.rowsOf w = d.rowsOf w := by
  obtain ⟨capacity, -, h⟩ := Option.bind_eq_some_iff.1 h
  obtain ⟨values, -, h⟩ := Option.bind_eq_some_iff.1 h
  cases h
  constructor
  · intro s hs
    obtain ⟨r, hr, rfl⟩ := List.mem_map.1 hs
    exact ⟨r.resourceType, rfl, by simpa using (List.mem_filter.1 hr).2⟩
  · exact fun w hw => Db.rowsOf_addToCounts_of_ne hw

/-- The battle leaves the attacker's village alone. It sends the units home if the attacker won, with
the casualties of the report and the loot. -/
theorem battle_eq_some {M : Math} {token : AttackToken} {o : Outcome C}
    (h : battle M d token = some o) (hne : token.attackerVillageId ≠ token.defenderVillageId) :
    battleReport M d (parsedAttack token) = some o.report ∧
      o.db.rowsOf token.attackerVillageId = d.rowsOf token.attackerVillageId ∧
      (o.report.attackerWon = false ∧ o.returning = none ∨
        o.report.attackerWon = true ∧ ∃ stolen, o.returning = some
          { attackId := token.attackId
            attackerVillageId := token.attackerVillageId
            attackerUnitsInfoByType := o.report.attackerUnits
            attackerCasualties := o.report.attackerCasualties
            defenderVillageId := token.defenderVillageId
            stolenResources := some stolen } ∧
          ∀ s ∈ stolen, ∃ t : C.Ref, t.id = s.id ∧ t.type ∈ lootedResources) := by
  obtain ⟨report, hreport, h⟩ := Option.bind_eq_some_iff.1 h
  obtain ⟨hid, -, ha, hd, -, -, -⟩ := generateAttackReport_eq_some hreport
  obtain ⟨d₁, hexec, h⟩ := Option.bind_eq_some_iff.1 h
  have hne' : report.attackerVillageId ≠ report.defenderVillageId := ha ▸ hd ▸ hne
  have hwon : report.WonByAttacker ↔ report.attackerWon = true := by
    unfold AttackReport.WonByAttacker AttackReport.winnerVillageId
    cases report.attackerWon <;> simp [hne']
  have hrows : d₁.rowsOf report.attackerVillageId = d.rowsOf report.attackerVillageId :=
    (changesOnlyReport hexec).rows _ hne'
  split at h
  · next hw =>
    obtain ⟨⟨d₂, stolen⟩, hstolen, h⟩ := Option.bind_eq_some_iff.1 h
    cases h
    obtain ⟨hloot, hrows₂⟩ := mem_stolen hstolen
    refine ⟨hreport, ?_, .inr ⟨hwon.1 hw, stolen, ?_, hloot⟩⟩
    · exact ha ▸ (hrows₂ _ hne').trans hrows
    · rw [hid, ha, hd]
      rfl
  · next hw =>
    cases h
    refine ⟨hreport, ha ▸ hrows, .inl ⟨?_, rfl⟩⟩
    rw [← Bool.not_eq_true]
    exact fun heq => hw (hwon.2 heq)

/-! ## The return -/

theorem lookup_stolenValues? {stolen : List StolenResource} {values : List (ℕ × ℚ)} {id : ℕ}
    (h : stolenValues? stolen = some values) (hid : ∀ s ∈ stolen, s.id ≠ id) :
    values.lookup id = none := by
  induction stolen generalizing values with
  | nil =>
    cases h
    rfl
  | cons s rest ih =>
    obtain ⟨id', count⟩ := s
    obtain ⟨hne, hrest⟩ := List.forall_mem_cons.1 hid
    cases count with
    | fin x =>
      obtain ⟨values', hvalues, rfl⟩ := Option.map_eq_some_iff.1 h
      simp only [List.lookup_cons, beq_eq_false_iff_ne.2 (Ne.symm hne), ih hvalues hrest]
    | _ => cases h

/-- The loot has no units. -/
theorem countOf_giveResourcesToAttacker {stolen : List StolenResource} {m : MilitaryResource}
    (hstolen : ∀ s ∈ stolen, ∃ t : C.Ref, t.id = s.id ∧ t.type ∈ lootedResources)
    (ht : m.name = t.type) :
    (giveResourcesToAttacker d stolen v).countOf v t = d.countOf v t := by
  unfold giveResourcesToAttacker
  split
  · next values hvalues =>
    refine Db.countOf_addToCounts_of_none (lookup_stolenValues? hvalues fun s hs heq => ?_)
    obtain ⟨t', hid, hloot⟩ := hstolen s hs
    obtain rfl : t' = t := Catalog.Ref.eq_of_id (hid.trans heq)
    exact m.name_not_mem_lootedResources (ht ▸ hloot)
  · rfl

theorem isSome_rowOf_giveResourcesToAttacker {stolen : List StolenResource} :
    ((giveResourcesToAttacker d stolen v).rowOf v t).isSome = (d.rowOf v t).isSome := by
  unfold giveResourcesToAttacker
  split
  · exact Db.isSome_rowOf_addToCounts
  · rfl

/-- The query of the return adds an army. -/
theorem countOf_afterReturn {units : Fields} {attackId : ℕ} (hA : Represents units A.units)
    (hrow : ∀ a ∈ A.units, (d.rowOf v a.1).isSome)
    (h : updateAttackerValuesAfterReturnAsSql d units v attackId = some d') :
    d'.countOf v t = d.countOf v t + A.count t := by
  obtain ⟨values, hvalues, h⟩ := Option.bind_eq_some_iff.1 h
  cases h
  rw [hA.sqlValues?] at hvalues
  obtain rfl := Option.some.inj hvalues
  rw [Db.countOf_updateAttack]
  have hlookup := lookup_sqlValues A.units t
  cases hl : A.units.lookup t with
  | none =>
    rw [Db.countOf_addToCounts_of_none (by rw [hlookup, hl]; rfl), Army.count, hl]
    simp
  | some n =>
    rw [Army.count_of_mem (mem_of_lookup hl)]
    exact Db.countOf_addToCounts (hrow _ (mem_of_lookup hl)) (by rw [hlookup, hl]; rfl)

/-- The return adds what the casualties leave of the army. -/
theorem countOf_comeBack {token : ReturnToken} {stolen : List StolenResource} {f : ℤ → ℤ}
    {m : MilitaryResource} (hA : Represents token.attackerUnitsInfoByType A.units)
    (hcs : Represents token.attackerCasualties (A.mapCounts f).units) (hf : f 0 = 0)
    (hrow : ∀ a ∈ A.units, (d.rowOf token.attackerVillageId a.1).isSome)
    (hstolen : token.stolenResources = some stolen)
    (hloot : ∀ s ∈ stolen, ∃ t : C.Ref, t.id = s.id ∧ t.type ∈ lootedResources)
    (ht : m.name = t.type) (h : comeBack d token = some d') :
    d'.countOf token.attackerVillageId t =
      d.countOf token.attackerVillageId t + (A.count t - f (A.count t)) := by
  obtain ⟨left, hleft, h⟩ := Option.bind_eq_some_iff.1 h
  have hparsed : (parsedReturn token).stolenResources = some stolen := hstolen
  simp only [hparsed] at h
  have hleft := hA.roundTrip.subtract hcs.roundTrip hleft
  have hrow' : ∀ a ∈ (A.mapCounts fun n => n - f n).units,
      ((giveResourcesToAttacker d stolen token.attackerVillageId).rowOf
        token.attackerVillageId a.1).isSome := by
    intro a ha
    obtain ⟨b, hb, rfl⟩ := List.mem_map.1 ha
    rw [isSome_rowOf_giveResourcesToAttacker]
    exact hrow b hb
  calc d'.countOf token.attackerVillageId t
      = (giveResourcesToAttacker d stolen token.attackerVillageId).countOf
          token.attackerVillageId t + (A.mapCounts fun n => n - f n).count t :=
        countOf_afterReturn hleft hrow' h
    _ = d.countOf token.attackerVillageId t + (A.count t - f (A.count t)) := by
        rw [countOf_giveResourcesToAttacker hloot ht, A.count_mapCounts (by rw [hf, sub_zero])]

/-! ## The whole attack -/

/-- What an attack does to the number of units of the type `t` in the attacker's village: `d` is the
state before the request, `d₁` after it, `d₂` after the battle and `d₃` after the return. -/
structure Conserved (v : ℕ) (sent : Fields) (report : AttackReport) (d d₁ d₂ d₃ : Db C) (t : C.Ref) :
    Prop where
  /-- The request takes what it sends. -/
  taken : d.countOf v t - d₁.countOf v t = countIn sent t
  /-- The battle does not touch the village. -/
  battle : d₂.countOf v t = d₁.countOf v t
  /-- What was taken is lost or comes back. -/
  balance : d.countOf v t - d₁.countOf v t =
    countIn report.attackerCasualties t + (d₃.countOf v t - d₂.countOf v t)
  /-- Nothing comes back if the attacker did not win. -/
  lost : report.attackerWon = false → d₃.countOf v t = d₂.countOf v t
  /-- A type that is not sent does not change. -/
  notSent : sent.lookup t.type = none →
    d₁.countOf v t = d.countOf v t ∧ d₂.countOf v t = d.countOf v t ∧ d₃.countOf v t = d.countOf v t

/-- The ratio of the casualties of the attacker. It is 1 if the attacker did not win. -/
theorem casualtiesRatios_attacker (M : Math) (a b : Number) :
    (casualtiesRatios M a b).1 ≠ .inf true ∧
      (b.lt a = false → (casualtiesRatios M a b).1 = .fin 1) := by
  simp only [casualtiesRatios]
  split
  · exact ⟨by simp, fun _ => rfl⟩
  · split
    · next hwon => exact ⟨M.pow32_ne _, fun h => absurd hwon (by simp [h])⟩
    · exact ⟨by simp, fun _ => rfl⟩

/-- The army of an accepted attack in the documented format: what the report of its battle lists, and
what comes back. -/
theorem report_and_return {M : Math} {dev : Bool} {c : Clock} {dto : CreateAttackDto}
    {dep : Departure C} {o : Outcome C} {d₃ : Db C} (h : create M dev c d dto = .ok dep)
    (hformat : ∀ u ∈ dto.keptUnits, WellFormatted C u.1 u.2)
    (hA : Represents dto.keptUnits A.units)
    (hbattle : battle M dep.db dep.token = some o) (hreturn : o.afterReturn = some d₃)
    (t : C.Ref) {m : MilitaryResource} (ht : m.name = t.type) :
    (A.count t = 0 → countIn o.report.attackerCasualties t = 0) ∧
      o.db.countOf dto.attackerVillageId t = dep.db.countOf dto.attackerVillageId t ∧
      d₃.countOf dto.attackerVillageId t = o.db.countOf dto.attackerVillageId t +
        (A.count t - countIn o.report.attackerCasualties t) ∧
      (o.report.attackerWon = false →
        d₃.countOf dto.attackerVillageId t = o.db.countOf dto.attackerVillageId t) := by
  obtain ⟨attackerVillage, defenderVillage, travelTime, ha, hd, hne, -, hdep⟩ := create_eq_ok h
  have hav : dep.token.attackerVillageId = dto.attackerVillageId := by rw [hdep]; exact ha
  have hdv : dep.token.defenderVillageId = dto.defenderVillageId := by rw [hdep]; exact hd
  obtain ⟨hreport, hrows, hcases⟩ := battle_eq_some hbattle (hav ▸ hdv ▸ hne)
  rw [hav] at hrows hcases
  obtain ⟨hunits, -, -⟩ := battleReport_sent h hreport
  obtain ⟨-, -, -, -, hau, -, a, b, -, -, hac, -, hwon⟩ :=
    generateAttackReport_eq_some hreport
  obtain ⟨hratio, hratio_lost⟩ := casualtiesRatios_attacker M a b
  -- The casualties of the report are those of the army.
  have hparsed : Represents o.report.attackerUnits A.units := hunits ▸ hA.roundTrip
  have hcs := hparsed.computeCasualties (pos_of_represents hA) hratio (hau ▸ hac)
  have hcount : countIn o.report.attackerCasualties t =
      casualtyCount (casualtiesRatios M a b).1 (A.count t) :=
    (hcs.countIn t).trans (A.count_mapCounts (casualtyCount_zero _) t)
  have hback : o.db.countOf dto.attackerVillageId t = dep.db.countOf dto.attackerVillageId t :=
    Db.countOf_congr hrows
  rw [hcount]
  rcases hcases with ⟨hlost, hnone⟩ | ⟨hw, stolen, hreturning, hloot⟩
  · obtain rfl : o.db = d₃ := by
      rw [Outcome.afterReturn, hnone] at hreturn
      exact Option.some.inj hreturn
    rw [hratio_lost (hwon ▸ hlost), casualtyCount_one]
    exact ⟨id, hback, by omega, fun _ => rfl⟩
  · rw [Outcome.afterReturn, hreturning] at hreturn
    have hrow : ∀ a ∈ A.units, (o.db.rowOf dto.attackerVillageId a.1).isSome := by
      intro a ha
      rw [Db.rowOf_congr hrows, rowOf_create h hformat, Option.isSome_map]
      apply isSome_rowOf_sent h hA
      rw [Army.count_of_mem ha]
      exact (pos_of_represents hA a ha).ne'
    refine ⟨fun hzero => by rw [hzero, casualtyCount_zero], hback, ?_,
      fun hlost => by simp [hw] at hlost⟩
    exact countOf_comeBack hparsed hcs (casualtyCount_zero _) hrow rfl hloot ht hreturn

/-- **Army conservation.** An accepted attack in the documented format, its battle and the return of
its units conserve every type of unit. -/
theorem army_conserved {M : Math} {dev : Bool} {c : Clock} {dto : CreateAttackDto}
    {dep : Departure C} {o : Outcome C} {d₃ : Db C} (h : create M dev c d dto = .ok dep)
    (hformat : ∀ u ∈ dto.unitSent.entries, isKept u → WellFormatted C u.1 u.2)
    (hbattle : battle M dep.db dep.token = some o) (hreturn : o.afterReturn = some d₃)
    (t : C.Ref) {m : MilitaryResource} (ht : m.name = t.type) :
    Conserved dto.attackerVillageId dto.keptUnits o.report d dep.db o.db d₃ t := by
  have hkept : ∀ u ∈ dto.keptUnits, WellFormatted C u.1 u.2 := fun u hu =>
    hformat u (List.mem_filter.1 hu).1 (List.mem_filter.1 hu).2
  obtain ⟨A, hA⟩ := exists_represents dto.keptUnits_nodup hkept
  have hsent : countIn dto.keptUnits t = A.count t := hA.countIn t
  have hcreate := countOf_create h hkept hA t
  obtain ⟨hcasualties, hback, hreturned, hlost⟩ := report_and_return h hkept hA hbattle hreturn t ht
  refine ⟨by omega, hback, by omega, hlost, fun hnone => ?_⟩
  have hzero : A.count t = 0 := by
    rw [← hsent, countIn, hnone]
    rfl
  have hnocasualties := hcasualties hzero
  exact ⟨by omega, by omega, by omega⟩

/-- 28 stone hunters against 12 stone slingers: the steps go through. -/
theorem sample_run :
    ∃ dep o d₃, create sampleMath false sampleClock sampleDb (sampleRequest sampleHunters) = .ok dep ∧
      battle sampleMath dep.db dep.token = some o ∧ o.afterReturn = some d₃ := by
  obtain ⟨dep, hcreate⟩ := accepted_sampleHunters
  have hrun : ((create sampleMath false sampleClock sampleDb (sampleRequest sampleHunters)).toOption.bind
      fun dep => (battle sampleMath dep.db dep.token).bind Outcome.afterReturn).isSome = true := by
    decide +kernel
  obtain ⟨d₃, hrun⟩ := Option.isSome_iff_exists.1 hrun
  rw [hcreate] at hrun
  have hafter : (battle sampleMath dep.db dep.token).bind Outcome.afterReturn = some d₃ := hrun
  obtain ⟨o, hbattle, hreturn⟩ := Option.bind_eq_some_iff.1 hafter
  exact ⟨dep, o, d₃, hcreate, hbattle, hreturn⟩

theorem army_conserved_sample :
    ∃ dep o d₃, create sampleMath false sampleClock sampleDb (sampleRequest sampleHunters) = .ok dep ∧
      battle sampleMath dep.db dep.token = some o ∧ o.afterReturn = some d₃ ∧
      Conserved 1 (sampleRequest sampleHunters).keptUnits o.report sampleDb dep.db o.db d₃
        stoneHunter := by
  obtain ⟨dep, o, d₃, hcreate, hbattle, hreturn⟩ := sample_run
  refine ⟨dep, o, d₃, hcreate, hbattle, hreturn, ?_⟩
  refine army_conserved hcreate (fun u hu _ => ?_) hbattle hreturn stoneHunter
    (m := .stoneHunter) rfl
  rw [List.mem_singleton.1 hu]
  exact ⟨stoneHunter, 28, rfl, rfl, rfl, rfl⟩

end Cme.Battles
