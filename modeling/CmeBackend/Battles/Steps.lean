import CmeBackend.Battles.Text

/-!
# The calls of a battle

`updateDefenderStolenResources` cut at its queries (`battles-manager.service.ts`): the query that
reads what may be looted (`stolenResources`), the statement that takes it (`takeLoot`), and the
statement that records it (`recordLoot`).

What a battle takes from a row of the defender is at most what it has read of it (`casualty_le`,
`stolen_le`).
-/

namespace Cme.Battles

open Js GameRules Attacks

variable {C : Catalog}

/-- `stolenResources`, from the rows of the defender. -/
def stolenResources (d : Db C) (defenderVillageId : ℕ) (unitsInfoLeftByType : Fields) :
    Option (List StolenResource) := do
  let averageLoot := ((← totalLoadCapacity unitsInfoLeftByType).div (.fin 4)).floor
  let averageMKCLoot := (averageLoot.div (.fin 100)).floor
  return (lootedRows d defenderVillageId).map (stolenFrom averageLoot averageMKCLoot)

/-- The statement that takes the loot. -/
def takeLoot (d : Db C) (defenderVillageId : ℕ) (stolenResources : List StolenResource) :
    Option (Db C) :=
  (stolenValues? stolenResources).map fun values => d.subtractFromCounts defenderVillageId values

/-- The statement that records the loot. -/
def recordLoot (d : Db C) (attackId : ℕ) (stolenResources : List StolenResource) : Db C :=
  d.updateAttack attackId fun a =>
    { a with stolenResources := some (.obj [("resources", .arr (stolenResources.map (·.json)))]) }

/-- The member of `delayed:return` for the units of the attacker. -/
def AttackReport.returnToken (report : AttackReport) (stolenResources : List StolenResource) :
    ReturnToken where
  attackId := report.attackId
  attackerVillageId := report.attackerVillageId
  attackerUnitsInfoByType := report.attackerUnits
  attackerCasualties := report.attackerCasualties
  defenderVillageId := report.defenderVillageId
  stolenResources := some stolenResources

variable {d d' : Db C} {v attackId : ℕ} {units : Fields} {stolen : List StolenResource}

/-- The calls of `updateDb`, one after the other. -/
theorem updateDb_eq {report : AttackReport} :
    updateDb d report = (execReportQuery d report).bind fun d =>
      if report.WonByAttacker then
        (updateDefenderStolenResources d report.attackId report.defenderVillageId
          report.attackerUnits).map fun r => ⟨r.1, report, some (report.returnToken r.2)⟩
      else some ⟨d, report, none⟩ := by
  unfold updateDb
  cases execReportQuery d report with
  | none => rfl
  | some d =>
    simp only [Option.bind_eq_bind, Option.bind_some]
    split
    · cases updateDefenderStolenResources d report.attackId report.defenderVillageId
        report.attackerUnits <;> rfl
    · rfl

/-- The calls of `updateDefenderStolenResources`, one after the other. -/
theorem updateDefenderStolenResources_eq :
    updateDefenderStolenResources d attackId v units =
      (stolenResources d v units).bind fun stolen =>
        (takeLoot d v stolen).map fun d' => (recordLoot d' attackId stolen, stolen) := by
  unfold updateDefenderStolenResources stolenResources takeLoot
  cases totalLoadCapacity units with
  | none => rfl
  | some capacity =>
    simp only [Option.bind_eq_bind, Option.bind_some, Option.pure_def]
    generalize (lootedRows d v).map _ = stolen
    cases stolenValues? stolen <;> rfl

/-! ## What a battle takes -/

/-- The value of an entry that a row of the catalog has made. -/
theorem sqlValue?_of_get {entry : Json} {id : ℕ} {x : ℚ}
    (hid : entry.get "unitTypeId" = some (.num (.fin id)))
    (hcount : entry.get "count" = some (.num (.fin x))) : sqlValue? entry = some (id, x) := by
  unfold sqlValue?
  rw [hid, hcount]
  simp

/-- A unit of the defender loses at most what was read of it. -/
theorem casualtiesOf_unitEntry {ratio : Number} {r : VillageResourceType C} {c : Json}
    {p : ℕ × ℚ} (hc : casualtiesOf ratio (unitEntry r) = some c) (hp : sqlValue? c = some p) :
    r.resourceType.id = p.1 ∧ p.2 ≤ r.count := by
  obtain ⟨n, hn, rfl⟩ := casualtiesOf_eq_some hc
  obtain rfl : Number.fin r.count = n := Option.some.inj hn
  split at hp
  next hle =>
    generalize ((Number.fin r.count).mul ratio).round = x at hle hp
    cases x with
    | fin x =>
      obtain rfl := Option.some.inj ((sqlValue?_of_get rfl rfl).symm.trans hp)
      exact ⟨rfl, by simpa [Number.le] using hle⟩
    | _ => cases hp
  · obtain rfl := Option.some.inj ((sqlValue?_of_get rfl rfl).symm.trans hp)
    exact ⟨rfl, le_rfl⟩

/-- A value of the statement for the casualties is that of an entry. -/
theorem mem_sqlValues? {cs : Fields} {values : List (ℕ × ℚ)} (h : sqlValues? cs = some values)
    {p : ℕ × ℚ} (hp : p ∈ values) : ∃ c ∈ cs, sqlValue? c.2 = some p := by
  induction cs generalizing values with
  | nil =>
    cases h
    cases hp
  | cons c rest ih =>
    unfold sqlValues? at h
    split at h
    next value values' hvalue hvalues =>
      cases h
      rcases List.mem_cons.1 hp with rfl | hp
      · exact ⟨c, List.mem_cons_self, hvalue⟩
      · obtain ⟨c', hc', hval⟩ := ih hvalues hp
        exact ⟨c', List.mem_cons_of_mem _ hc', hval⟩
    · cases h

/-- The casualties of a type are at most what a row of the type held when the battle read it, and
the type is a unit. -/
theorem casualty_le {M : Math} {token : AttackToken} {report : AttackReport}
    {values : List (ℕ × ℚ)} (h : battleReport M d token = some report)
    (hvalues : sqlValues? report.defenderCasualties = some values) {p : ℕ × ℚ} (hp : p ∈ values) :
    ∃ r ∈ d.rowsOf report.defenderVillageId,
      (∃ m : MilitaryResource, r.resourceType.type = m.name) ∧
        r.resourceType.id = p.1 ∧ p.2 ≤ r.count := by
  obtain ⟨-, -, -, hdefender, -, -, a, b, -, -, -, hcasualties, -⟩ :=
    generateAttackReport_eq_some h
  obtain ⟨c, hc, hval⟩ := mem_sqlValues? hvalues hp
  obtain ⟨u, hu, -, hcu⟩ := Fields.mem_mapValues? hcasualties hc
  obtain ⟨r, hr, m, hm, rfl⟩ := mem_defenderUnits hu
  exact ⟨r, hdefender ▸ hr, ⟨m, hm⟩, casualtiesOf_unitEntry hcu hval⟩

/-- A value of the statement for the loot is that of an element. -/
theorem mem_stolenValues? {values : List (ℕ × ℚ)} (h : stolenValues? stolen = some values)
    {p : ℕ × ℚ} (hp : p ∈ values) : ∃ s ∈ stolen, s.count = .fin p.2 ∧ s.id = p.1 := by
  induction stolen generalizing values with
  | nil =>
    cases h
    cases hp
  | cons s rest ih =>
    obtain ⟨id, count⟩ := s
    cases count with
    | fin x =>
      obtain ⟨values', hvalues, rfl⟩ := Option.map_eq_some_iff.1 h
      rcases List.mem_cons.1 hp with rfl | hp
      · exact ⟨_, List.mem_cons_self, rfl, rfl⟩
      · obtain ⟨s, hs, hval⟩ := ih hvalues hp
        exact ⟨s, List.mem_cons_of_mem _ hs, hval⟩
    | _ => cases h

/-- The loot of a type is at most what a row of the type held when the battle read it. -/
theorem stolen_le (h : stolenResources d v units = some stolen) {values : List (ℕ × ℚ)}
    (hvalues : stolenValues? stolen = some values) {p : ℕ × ℚ} (hp : p ∈ values) :
    ∃ r ∈ d.rowsOf v, r.resourceType.id = p.1 ∧ p.2 ≤ r.count := by
  obtain ⟨capacity, -, h⟩ := Option.bind_eq_some_iff.1 h
  cases h
  obtain ⟨s, hs, hcount, hid⟩ := mem_stolenValues? hvalues hp
  obtain ⟨r, hr, rfl⟩ := List.mem_map.1 hs
  exact ⟨r, (List.mem_filter.1 hr).1, hid, Number.le_of_min_int hcount⟩

end Cme.Battles
