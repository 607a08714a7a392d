import CmeBackend.Battles.Conservation
import CmeBackend.Battles.Steps
import CmeBackend.Villages.Totals

/-!
# Loot is conserved

The loot of a battle from the village of the defender, over the column that records it and the token
of the units on their way home, to the village of the attacker.

* `count_stolen`: the list of the loot has one entry for each resource, with an integer.
* `lootConserved_of_update`: one list, subtracted here and added there.
* `loot_conserved`: the three amounts are one, and nothing else changes.
-/

namespace Cme.Battles

open Js GameRules Attacks

variable {C : Catalog} {d d' : Db C} {v w attackId : ℕ} {t : C.Ref} {units : Fields}
  {stolen : List StolenResource}

/-- A resource that may be looted: food, iron, wood or mkc. -/
def Looted (t : C.Ref) : Prop := t.type ∈ lootedResources

instance (t : C.Ref) : Decidable (Looted t) := inferInstanceAs (Decidable (_ ∈ _))

/-- A village has exactly one row of each resource that may be looted. -/
def OneRowOfEach (d : Db C) (v : ℕ) : Prop := ∀ t : C.Ref, Looted t → (d.rowsOfType v t).length = 1

/-- The counts that `attacks.stolen_resources` has for a resource type. -/
def recordedCounts (a : Attack) (t : C.Ref) : List (Option Json) :=
  match a.stolenResources.bind (·.get "resources") with
  | some (.arr entries) =>
    (entries.filter fun e => Json.isNumber (e.get "id") (.fin t.id)).map (·.get "count")
  | _ => []

/-! ## The list of the loot -/

/-- The rows of a `VALUES` list are the elements of the list of the loot. -/
theorem stolen_eq_map {values : List (ℕ × ℚ)} (h : stolenValues? stolen = some values) :
    stolen = values.map fun p => ⟨p.1, .fin p.2⟩ := by
  induction stolen generalizing values with
  | nil =>
    cases h
    rfl
  | cons s rest ih =>
    obtain ⟨id, count⟩ := s
    cases count with
    | fin x =>
      obtain ⟨values', hvalues, rfl⟩ := Option.map_eq_some_iff.1 h
      rw [List.map_cons, ← ih hvalues]
    | _ => cases h

/-- The rows that may be looted, of one type. -/
theorem filter_lootedRows (ht : Looted t) :
    (lootedRows d v).filter (·.resourceType.id = t.id) = d.rowsOfType v t := by
  unfold lootedRows Db.rowsOfType
  rw [List.filter_filter]
  refine List.filter_congr fun r _ => ?_
  by_cases h : r.resourceType = t
  · have hmem : t.type ∈ lootedResources := ht
    simp [h, hmem]
  · have hne : r.resourceType.id ≠ t.id := fun heq => h (Catalog.Ref.eq_of_id heq)
    simp [h, hne]

/-- The list of the loot has one entry for the one row of a type, with an integer. -/
theorem count_stolen (h : stolenResources d v units = some stolen) {values : List (ℕ × ℚ)}
    (hvalues : stolenValues? stolen = some values) (ht : Looted t) {r : VillageResourceType C}
    (hr : d.rowsOfType v t = [r]) :
    ∃ n : ℤ, n ≤ r.count ∧ stolen.filter (·.id = t.id) = [⟨t.id, .fin n⟩] ∧
      values.lookup t.id = some (n : ℚ) := by
  obtain ⟨capacity, -, h⟩ := Option.bind_eq_some_iff.1 h
  have hstolen := (Option.some.inj h).symm
  -- The entry of the row.
  have hentry : stolen.filter (·.id = t.id) = [stolenFrom (capacity.div (.fin 4)).floor
      ((capacity.div (.fin 4)).floor.div (.fin 100)).floor r] := by
    rw [hstolen, List.filter_map]
    refine (congrArg (List.map _) ?_).trans (congrArg (List.map _) hr)
    exact filter_lootedRows ht
  have hid : r.resourceType = t :=
    of_decide_eq_true (List.mem_filter.1 (hr ▸ List.mem_singleton_self r : r ∈ _)).2
  -- Its value.
  have hpairs := hentry
  rw [stolen_eq_map hvalues, List.filter_map] at hpairs
  obtain ⟨p, hp, heq⟩ := List.map_eq_singleton_iff.1 hpairs
  obtain ⟨-, hcount⟩ := StolenResource.mk.inj heq
  have hint : ∃ n : ℤ, p.2 = n ∧ n ≤ r.count := by
    by_cases hmkc : r.resourceType.type = "mkc"
    · rw [if_pos hmkc] at hcount
      exact Number.exists_int_of_min hcount.symm
    · rw [if_neg hmkc] at hcount
      exact Number.exists_int_of_min hcount.symm
  obtain ⟨n, hn, hle⟩ := hint
  refine ⟨n, hle, ?_, ?_⟩
  · rw [hentry, ← heq, hn]
    congr 2
    exact (StolenResource.mk.inj heq).1.trans (congrArg _ hid)
  · have hfilter : values.filter (fun p => p.1 = t.id) = [p] := hp
    rw [lookup_eq_filter, hfilter, List.map_singleton, hn]
    rfl

/-! ## Both villages -/

/-- What is not looted has no value. -/
theorem lookup_of_not_looted {values : List (ℕ × ℚ)} (hvalues : stolenValues? stolen = some values)
    (hstolen : ∀ s ∈ stolen, ∃ u : C.Ref, u.id = s.id ∧ u.type ∈ lootedResources)
    (ht : ¬Looted t) : values.lookup t.id = none := by
  refine lookup_stolenValues? hvalues fun s hs heq => ht ?_
  obtain ⟨u, hid, hu⟩ := hstolen s hs
  obtain rfl := Catalog.Ref.eq_of_id (hid.trans heq)
  exact hu

/-- What the attack records of the loot. -/
theorem recordedCounts_recordLoot {a : Attack} (h : d.attacks.get? attackId = some a)
    (stolen : List StolenResource) :
    ∃ a', (recordLoot d attackId stolen).attacks.get? attackId = some a' ∧
      ∀ t : C.Ref, recordedCounts a' t =
        (stolen.filter (·.id = t.id)).map fun s => some (.num s.count) := by
  refine ⟨_, Db.get?_updateAttack h, fun t => ?_⟩
  show ((stolen.map StolenResource.json).filter _).map _ = _
  rw [List.filter_map, List.map_map]
  refine congrArg _ (List.filter_congr fun s _ => ?_)
  rw [Bool.eq_iff_iff, decide_eq_true_iff]
  show Json.isNumber (some (.num (.fin s.id))) (.fin t.id) = true ↔ _
  simp

/-- The loot `loot` of an attack: `d` is the state before `updateDefenderStolenResources`, `d'` the
state after it, and `stolen` the list in the token. -/
structure LootConserved (attackId defender attacker : ℕ) (stolen : List StolenResource)
    (d d' : Db C) (loot : C.Ref → ℤ) : Prop where
  subtracted : ∀ t, Looted t → d'.totalOf defender t = d.totalOf defender t - loot t
  recorded : ∃ a, d'.attacks.get? attackId = some a ∧
    ∀ t, Looted t → recordedCounts a t = [some (.num (.fin (loot t)))]
  added : ∀ d₂ : Db C, OneRowOfEach d₂ attacker → ∀ t, Looted t →
    (giveResourcesToAttacker d₂ stolen attacker).totalOf attacker t =
      d₂.totalOf attacker t + loot t
  nonneg : ∀ t, Looted t → 0 ≤ d'.totalOf defender t
  /-- Nothing else is taken. -/
  takenOnly : ∀ v t, ¬(v = defender ∧ Looted t) → d'.rowsOfType v t = d.rowsOfType v t
  /-- Nothing else is given. -/
  givenOnly : ∀ (d₂ : Db C) v t, ¬(v = attacker ∧ Looted t) →
    (giveResourcesToAttacker d₂ stolen attacker).rowsOfType v t = d₂.rowsOfType v t

/-- A village that has one row of a type. -/
theorem exists_row_of_each (h : OneRowOfEach d v) (ht : Looted t) :
    ∃ r, d.rowsOfType v t = [r] ∧ d.totalOf v t = r.count := by
  obtain ⟨r, hr⟩ := List.length_eq_one_iff.1 (h t ht)
  exact ⟨r, hr, by simp [Db.totalOf, hr]⟩

/-- A statement with an integer for the one row of a type. -/
theorem totalOf_addToCounts {values : List (ℕ × ℚ)} {n : ℤ} (h : OneRowOfEach d v) (ht : Looted t)
    (hn : values.lookup t.id = some (n : ℚ)) :
    (d.addToCounts v values).totalOf v t = d.totalOf v t + n := by
  obtain ⟨r, hr, htotal⟩ := exists_row_of_each h ht
  rw [htotal, Db.totalOf, Db.rowsOfType_addToCounts hr hn]
  simp

/-- `updateDefenderStolenResources` takes what it records and returns, and what is given later is
the same. -/
theorem lootConserved_of_update
    (h : updateDefenderStolenResources d attackId v units = some (d', stolen))
    (hattack : (d.attacks.get? attackId).isSome) (hrows : OneRowOfEach d v) (w : ℕ) :
    ∃ loot, LootConserved attackId v w stolen d d' loot := by
  have hmem := (mem_stolen h).1
  rw [updateDefenderStolenResources_eq] at h
  obtain ⟨stolen', hstolen, h⟩ := Option.bind_eq_some_iff.1 h
  obtain ⟨d₁, htake, h⟩ := Option.map_eq_some_iff.1 h
  cases h
  obtain ⟨values, hvalues, rfl⟩ := Option.map_eq_some_iff.1 htake
  have hcount : ∀ t, Looted t → ∃ n : ℤ, n ≤ d.totalOf v t ∧
      stolen.filter (·.id = t.id) = [⟨t.id, .fin n⟩] ∧ values.lookup t.id = some (n : ℚ) := by
    intro t ht
    obtain ⟨r, hr, htotal⟩ := exists_row_of_each hrows ht
    rw [htotal]
    exact count_stolen hstolen hvalues ht hr
  have hgive : ∀ d₂ : Db C, giveResourcesToAttacker d₂ stolen w = d₂.addToCounts w values :=
    fun d₂ => by rw [giveResourcesToAttacker, hvalues]
  choose! loot hle hentry hvalue using hcount
  have hsubtracted : ∀ t, Looted t →
      (d.subtractFromCounts v values).totalOf v t = d.totalOf v t - loot t := by
    intro t ht
    have hneg : (values.map fun p => (p.1, -p.2)).lookup t.id = some ((-loot t : ℤ) : ℚ) := by
      rw [lookup_map_snd, hvalue t ht, Option.map_some, Int.cast_neg]
    rw [Db.subtractFromCounts, totalOf_addToCounts hrows ht hneg, sub_eq_add_neg]
  obtain ⟨a, ha⟩ := Option.isSome_iff_exists.1 hattack
  refine ⟨loot, ?_, ?_, ?_, ?_, ?_, ?_⟩
  · exact hsubtracted
  · have ha' : (d.subtractFromCounts v values).attacks.get? attackId = some a := ha
    obtain ⟨a', hget, hrecorded⟩ := recordedCounts_recordLoot ha' stolen
    refine ⟨a', hget, fun t ht => ?_⟩
    rw [hrecorded, hentry t ht]
    rfl
  · intro d₂ hrows₂ t ht
    rw [hgive]
    exact totalOf_addToCounts hrows₂ ht (hvalue t ht)
  · intro t ht
    have htotal := hsubtracted t ht
    have hn := hle t ht
    show 0 ≤ (d.subtractFromCounts v values).totalOf v t
    omega
  · intro u t hut
    refine Db.rowsOfType_addToCounts_of_none fun hu => ?_
    rw [lookup_map_snd, lookup_of_not_looted hvalues hmem fun ht => hut ⟨hu, ht⟩]
    rfl
  · intro d₂ u t hut
    rw [hgive]
    exact Db.rowsOfType_addToCounts_of_none fun hu =>
      lookup_of_not_looted hvalues hmem fun ht => hut ⟨hu, ht⟩

/-! ## A battle that is won -/

/-- The casualties of the defender have no value for what may be looted. -/
theorem lookup_casualties {M : Math} {token : AttackToken} {report : AttackReport}
    {casualties : List (ℕ × ℚ)} (hreport : battleReport M d token = some report)
    (hvalues : sqlValues? report.defenderCasualties = some casualties) (ht : Looted t) :
    (negated casualties).lookup t.id = none := by
  refine List.lookup_eq_none_iff.2 fun p hp => ?_
  obtain ⟨q, hq, rfl⟩ := List.mem_map.1 hp
  obtain ⟨r, -, ⟨m, hm⟩, hid, -⟩ := casualty_le hreport hvalues hq
  simp only [bne_iff_ne, ne_eq]
  rintro heq
  obtain rfl : r.resourceType = t := Catalog.Ref.eq_of_id (hid.trans heq.symm)
  exact m.name_not_mem_lootedResources (hm ▸ ht)

/-- The query with the report does not touch what may be looted. -/
theorem rowsOfType_execReportQuery {M : Math} {token : AttackToken} {report : AttackReport}
    (hreport : battleReport M d token = some report) (h : execReportQuery d report = some d')
    (ht : Looted t) : d'.rowsOfType v t = d.rowsOfType v t := by
  obtain ⟨-, casualties, hvalues, rfl⟩ := execReportQuery_eq_some h
  exact Db.rowsOfType_addToCounts_of_none fun _ => lookup_casualties hreport hvalues ht

/-- **Loot conservation.** A battle that the attacker has won takes its loot from the village of the
defender, records it, and sends it with the token; the step that processes the token gives it to the
village of the attacker. The three amounts are one for each resource, the counts of the defender
stay at least 0, and no other row of a village changes with the loot. -/
theorem loot_conserved {M : Math} {token : AttackToken} {o : Outcome C}
    (h : battle M d token = some o) (hwon : o.report.WonByAttacker)
    (hattack : (d.attacks.get? token.attackId).isSome)
    (hrows : OneRowOfEach d token.defenderVillageId) :
    ∃ d₁ stolen loot returning, execReportQuery d o.report = some d₁ ∧
      updateDefenderStolenResources d₁ token.attackId token.defenderVillageId
        o.report.attackerUnits = some (o.db, stolen) ∧
      LootConserved token.attackId token.defenderVillageId token.attackerVillageId stolen d₁ o.db
        loot ∧
      o.returning = some returning ∧
      ∀ d₂ : Db C, comeBack d₂ returning =
        (subtractCasualties (parsedReturn returning).attackerUnitsInfoByType
          (parsedReturn returning).attackerCasualties).bind fun left =>
            updateAttackerValuesAfterReturnAsSql
              (giveResourcesToAttacker d₂ stolen token.attackerVillageId) left
              token.attackerVillageId token.attackId := by
  obtain ⟨report, hreport, h⟩ := Option.bind_eq_some_iff.1 h
  obtain ⟨hid, -, ha, hd, -⟩ := generateAttackReport_eq_some hreport
  obtain ⟨d₁, hexec, h⟩ := Option.bind_eq_some_iff.1 h
  split at h
  next =>
    obtain ⟨⟨d₂, stolen⟩, hstolen, h⟩ := Option.bind_eq_some_iff.1 h
    cases h
    rw [hid, hd] at hstolen
    have hrows₁ : OneRowOfEach d₁ token.defenderVillageId := fun t ht => by
      rw [rowsOfType_execReportQuery hreport hexec ht]
      exact hrows t ht
    have hattack₁ : (d₁.attacks.get? token.attackId).isSome := by
      rw [(changesOnlyReport hexec).attacks, Option.isSome_map]
      exact hattack
    obtain ⟨loot, hloot⟩ :=
      lootConserved_of_update hstolen hattack₁ hrows₁ token.attackerVillageId
    refine ⟨d₁, stolen, loot, _, hexec, hstolen, hloot, rfl, fun d₂ => ?_⟩
    rw [hid, ha]
    rfl
  next hlost =>
    cases h
    exact absurd hwon hlost

/-- The two villages, with one row of each resource. -/
def sampleStock : Db sampleCatalog :=
  { sampleDb with
    villagesResourceTypes :=
      { rows := [⟨1, some 1, food, 1000⟩, ⟨2, some 1, wood, 0⟩, ⟨3, some 1, iron, 20⟩,
          ⟨4, some 1, mkc, 5⟩, ⟨5, some 1, stoneHunter, 30⟩, ⟨6, some 2, food, 500⟩,
          ⟨7, some 2, wood, 0⟩, ⟨8, some 2, iron, 1000⟩, ⟨9, some 2, mkc, 7⟩,
          ⟨10, some 2, stoneSlinger, 12⟩]
        next := 11
        nodup := by decide
        lt_next := by decide } }

/-- 28 stone hunters against 12 stone slingers, over the stock of a village. -/
theorem loot_conserved_sample :
    ∃ dep o,
      create sampleMath false sampleClock sampleStock (sampleRequest sampleHunters) = .ok dep ∧
      battle sampleMath dep.db dep.token = some o ∧
      ∃ d₁ stolen loot returning, execReportQuery dep.db o.report = some d₁ ∧
        updateDefenderStolenResources d₁ dep.token.attackId dep.token.defenderVillageId
          o.report.attackerUnits = some (o.db, stolen) ∧
        LootConserved dep.token.attackId dep.token.defenderVillageId dep.token.attackerVillageId
          stolen d₁ o.db loot ∧
        o.returning = some returning ∧
        ∀ d₂ : Db sampleCatalog, comeBack d₂ returning =
          (subtractCasualties (parsedReturn returning).attackerUnitsInfoByType
            (parsedReturn returning).attackerCasualties).bind fun left =>
              updateAttackerValuesAfterReturnAsSql
                (giveResourcesToAttacker d₂ stolen dep.token.attackerVillageId) left
                dep.token.attackerVillageId dep.token.attackId := by
  have hrun : ((create sampleMath false sampleClock sampleStock
      (sampleRequest sampleHunters)).toOption.bind fun dep =>
        (battle sampleMath dep.db dep.token).map fun o =>
          decide (o.report.WonByAttacker ∧ (dep.db.attacks.get? dep.token.attackId).isSome ∧
            ∀ t ∈ sampleCatalog.types.rows.attach, Looted t →
              (dep.db.rowsOfType dep.token.defenderVillageId t).length = 1)) = some true := by
    decide +kernel
  obtain ⟨dep, hcreate, hrun⟩ := Option.bind_eq_some_iff.1 hrun
  obtain ⟨o, hbattle, hrun⟩ := Option.map_eq_some_iff.1 hrun
  obtain ⟨hwon, hattack, hrows⟩ := of_decide_eq_true hrun
  exact ⟨dep, o, eq_ok_of_toOption hcreate, hbattle,
    loot_conserved hbattle hwon hattack fun t => hrows t (List.mem_attach _ t)⟩

end Cme.Battles
