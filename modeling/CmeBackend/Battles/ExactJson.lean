import CmeBackend.Battles.Exact

/-!
# Exact reports of JSON values

The reports of `Report` are those of `Exact`, over the rational numbers, if `x ** (3 / 2)` is: for the
JSON values of two armies, both have one winner, and the casualties of one stand for those of the
other.

* `Denotes.points`, `Denotes.casualties`: the two functions of a team.
* `generateAttackReport_denotes`: the reports.
-/

namespace Cme.Battles.Exact

open Js GameRules Shares

/-- A JSON value with the fields of a unit. -/
structure DenotesUnit (unit : Json) (u : CountedUnit) : Prop where
  unitTypeId : unit.get "unitTypeId" = some (.num (.fin u.unitTypeId))
  unitTypeName : unit.get "unitTypeName" = some (.str u.unitTypeName)
  count : unit.get "count" = some (.num (.fin u.count))

/-- The entries of an object stand for those of a team. -/
def Denotes (fields : Fields) (units : UnitInfoByType) : Prop :=
  List.Forall₂ (fun f u => f.1 = u.1 ∧ DenotesUnit f.2 u.2) fields units.entries

/-- A row of `unitsInfo` has the same name and points in both models. -/
def SameInfo (info : Battles.UnitInfo) (info' : UnitInfo ℚ) : Prop :=
  info.unitTypeName = info'.unitTypeName ∧ ∀ status, (info.points status : ℚ) = info'.points status

/-- The rows that `onModuleInit` reads. -/
theorem sameInfo_unitsInfo (C : Catalog) :
    List.Forall₂ SameInfo (Battles.unitsInfo C) (Exact.unitsInfo C) := by
  unfold Battles.unitsInfo Exact.unitsInfo
  induction C.types.rows with
  | nil => exact .nil
  | cons t rest ih =>
    rw [List.filterMap_cons, List.filterMap_cons, getRelatedCharacteristic]
    cases MilitaryResource.ofName? t.type with
    | none => exact ih
    | some m =>
      refine .cons ⟨rfl, fun status => ?_⟩ ih
      cases status with
      | attacker => rfl
      | defender => exact Nat.cast_add _ _

/-! ## Teams -/

section Teams

variable {unit c : Json} {u : CountedUnit} {fields cs : Fields} {units : UnitInfoByType}

theorem DenotesUnit.unitCount? (h : DenotesUnit unit u) :
    Battles.unitCount? unit = some (.fin u.count) := by
  obtain ⟨fs, rfl⟩ := Json.eq_obj_of_get h.count
  show Json.toNumber? (Json.get (.obj fs) "count") = _
  rw [h.count]
  rfl

theorem DenotesUnit.setCount (h : DenotesUnit unit u) (f : ℤ → ℤ) :
    DenotesUnit (unit.set "count" (.num (.fin (f u.count)))) (u.mapCount f) := by
  obtain ⟨fs, rfl⟩ := Json.eq_obj_of_get h.count
  refine ⟨?_, ?_, Fields.lookup_set⟩
  · exact (Fields.lookup_set_of_ne (by decide)).trans h.unitTypeId
  · exact (Fields.lookup_set_of_ne (by decide)).trans h.unitTypeName

/-- The casualties of one unit. -/
theorem DenotesUnit.casualties (h : DenotesUnit unit u) {q : ℚ}
    (hc : casualtiesOf (.fin q) unit = some c) : DenotesUnit c (u.mapCount (share q)) := by
  obtain ⟨n, hn, rfl⟩ := casualtiesOf_eq_some hc
  obtain rfl := Option.some.inj (h.unitCount?.symm.trans hn)
  have hround : (Number.mul (.fin u.count) (.fin q)).round =
      .fin (nearest (u.count * q) : ℤ) := rfl
  rw [hround, Number.le_int]
  by_cases hle : nearest (u.count * q) ≤ u.count
  · rw [if_pos (decide_eq_true hle)]
    have hshare : share q u.count = nearest (u.count * q) := if_pos hle
    rw [← hshare]
    exact h.setCount _
  · rw [if_neg (by rwa [decide_eq_true_iff])]
    have hshare : u.mapCount (share q) = u := by
      rw [CountedUnit.mapCount, share, if_neg hle]
    rw [hshare]
    exact h

/-- The casualties of a team. -/
theorem Denotes.casualties (h : Denotes fields units) {q : ℚ}
    (hc : Battles.computeCasualtiesForTeam fields (.fin q) = some cs) :
    Denotes cs (computeCasualtiesForTeam units q) := by
  have hall := Fields.forall₂_mapValues? hc
  clear hc
  unfold Denotes at h
  show List.Forall₂ _ cs (units.entries.map fun u => (u.1, u.2.mapCount (share q)))
  generalize units.entries = entries at h ⊢
  induction h generalizing cs with
  | nil =>
    cases hall
    exact .nil
  | cons hu _ ih =>
    cases hall with
    | cons hc hrest => exact .cons ⟨hc.1.trans hu.1, hu.2.casualties hc.2⟩ (ih hrest)

/-- All units of a team. -/
theorem Denotes.all (h : Denotes fields units)
    (hc : Battles.computeCasualtiesForTeam fields (.fin 1) = some cs) : Denotes cs units := by
  have hall : computeCasualtiesForTeam units (1 : ℚ) = units :=
    UnitInfoByType.mapCounts_id share_one
  exact hall ▸ h.casualties hc

theorem Denotes.isSome_unitCount? (h : Denotes fields units) :
    ∀ u ∈ fields, (Battles.unitCount? u.2).isSome := by
  unfold Denotes at h
  generalize units.entries = entries at h
  induction h with
  | nil => exact fun u hu => by cases hu
  | cons hu _ ih =>
    refine List.forall_mem_cons.2 ⟨?_, ih⟩
    rw [hu.2.unitCount?]
    rfl

/-- What is found under a name. -/
theorem Denotes.lookup (h : Denotes fields units) (name : String) :
    (fields.lookup name = none ∧ units.get? name = none) ∨
      ∃ unit u, fields.lookup name = some unit ∧ units.get? name = some u ∧ DenotesUnit unit u := by
  unfold Denotes at h
  unfold UnitInfoByType.get?
  generalize units.entries = entries at h ⊢
  induction h with
  | nil => exact .inl ⟨rfl, rfl⟩
  | @cons f u _ _ hfu _ ih =>
    obtain ⟨name', unit⟩ := f
    obtain ⟨_, u⟩ := u
    obtain ⟨rfl, hunit⟩ := hfu
    by_cases heq : name = name'
    · subst heq
      exact .inr ⟨unit, u, by simp, by simp, hunit⟩
    · simp only [List.lookup_cons, beq_eq_false_iff_ne.2 heq]
      exact ih

/-- The points of a team. -/
theorem Denotes.points (h : Denotes fields units) {infos : List Battles.UnitInfo}
    {infos' : List (UnitInfo ℚ)} (hinfos : List.Forall₂ SameInfo infos infos')
    (status : StakeholderStatus) : Battles.computePointsForTeam fields status infos =
      some (.fin (computePointsForTeam units status infos')) := by
  induction hinfos with
  | nil => rfl
  | @cons info info' infos infos' hinfo _ ih =>
    have hcons : computePointsForTeam units status (info' :: infos') =
        units.countOf info'.unitTypeName * info'.points status +
          computePointsForTeam units status infos' := by
      rw [computePointsForTeam_eq, computePointsForTeam_eq, List.map_cons, List.sum_cons]
    unfold Battles.computePointsForTeam
    rw [ih, hinfo.1, hcons, UnitInfoByType.countOf]
    rcases h.lookup info'.unitTypeName with ⟨hnone, hnone'⟩ | ⟨unit, u, hsome, hsome', hunit⟩
    · rw [hnone, hnone', Option.map_none, Option.getD_none, Int.cast_zero, zero_mul]
      rfl
    · rw [hsome, hsome', ← hinfo.2 status]
      simp only [hunit.unitCount?]
      rfl

end Teams

/-! ## Reports -/

section Reports

variable {M : Math} {P : Power ℚ} {a d : ℚ}

theorem casualtiesRatios_of_attackerWon
    (hpow : ∀ x, 0 ≤ x → x ≤ 1 → M.pow32 (.fin x) = .fin (P.pow x)) (hd : 0 ≤ d) (h : d < a) :
    casualtiesRatios M (.fin a) (.fin d) = (.fin (P.pow (d / a)), .fin 1) := by
  have ha := hd.trans_lt h
  have hdiv : Number.div (.fin d) (.fin a) = .fin (d / a) := if_neg ha.ne'
  have hstrict : Number.strictEq (.fin a) (.fin d) = false := by
    simpa [Number.strictEq] using h.ne'
  have hlt : Number.lt (.fin d) (.fin a) = true := decide_eq_true h
  simp only [casualtiesRatios, hstrict, hlt, hdiv, if_true, Bool.false_eq_true, if_false,
    hpow _ (div_nonneg hd ha.le) (div_le_one_of_le₀ h.le ha.le)]

theorem casualtiesRatios_of_defenderWon
    (hpow : ∀ x, 0 ≤ x → x ≤ 1 → M.pow32 (.fin x) = .fin (P.pow x)) (ha : 0 ≤ a) (h : a < d) :
    casualtiesRatios M (.fin a) (.fin d) = (.fin 1, .fin (P.pow (a / d))) := by
  have hd := ha.trans_lt h
  have hdiv : Number.div (.fin a) (.fin d) = .fin (a / d) := if_neg hd.ne'
  have hstrict : Number.strictEq (.fin a) (.fin d) = false := by
    simpa [Number.strictEq] using h.ne
  have hlt : Number.lt (.fin d) (.fin a) = false := decide_eq_false h.not_gt
  simp only [casualtiesRatios, hstrict, hlt, hdiv, Bool.false_eq_true, if_false,
    hpow _ (div_nonneg ha hd.le) (div_le_one_of_le₀ h.le hd.le)]

theorem casualtiesRatios_of_nobodyWon : casualtiesRatios M (.fin a) (.fin a) = (.fin 1, .fin 1) := by
  simp [casualtiesRatios, Number.strictEq]

/-- What a report of JSON values says is what the exact report says. -/
structure DenotesReport (report : Battles.AttackReport) (exact : AttackReport ℚ) : Prop where
  attackId : report.attackId = exact.attackId
  travelTime : report.travelTime = .fin exact.travelTime
  winnerVillageId : report.winnerVillageId = exact.winnerVillageId
  loserVillageId : report.loserVillageId = exact.loserVillageId
  attackerUnits : Denotes report.attackerUnits exact.attackerUnits
  defenderUnits : Denotes report.defenderUnits exact.defenderUnits
  attackerCasualties : Denotes report.attackerCasualties exact.attackerCasualties
  defenderCasualties : Denotes report.defenderCasualties exact.defenderCasualties

/-- The report of the JSON values of two armies is the exact one. -/
theorem generateAttackReport_denotes {attackId attackerVillageId defenderVillageId : ℕ}
    {travelTime : ℚ} {attacker defender : Army} {attackerFields defenderFields : Fields}
    {infos : List Battles.UnitInfo} {infos' : List (UnitInfo ℚ)}
    (hpow : ∀ x, 0 ≤ x → x ≤ 1 → M.pow32 (.fin x) = .fin (P.pow x))
    (hattacker : Denotes attackerFields attacker.toUnitInfoByType)
    (hdefender : Denotes defenderFields defender.toUnitInfoByType)
    (hinfos : List.Forall₂ SameInfo infos infos') :
    ∃ report exact,
      Battles.generateAttackReport M attackId (.fin travelTime) attackerVillageId attackerFields
        defenderVillageId defenderFields infos = some report ∧
      generateAttackReport P.pow attackId travelTime attackerVillageId attacker.toUnitInfoByType
        defenderVillageId defender.toUnitInfoByType infos' = some exact ∧
      DenotesReport report exact := by
  obtain ⟨report, hreport⟩ : ∃ report, Battles.generateAttackReport M attackId (.fin travelTime)
      attackerVillageId attackerFields defenderVillageId defenderFields infos = some report :=
    exists_generateAttackReport _ _ _ _ _ hattacker.isSome_unitCount? hdefender.isSome_unitCount?
  refine ⟨report, ?_⟩
  have h := hreport
  obtain ⟨a, ha, h⟩ := Option.bind_eq_some_iff.1 h
  obtain ⟨d, hd, h⟩ := Option.bind_eq_some_iff.1 h
  obtain rfl := Option.some.inj ((hattacker.points hinfos .attacker).symm.trans ha)
  obtain rfl := Option.some.inj ((hdefender.points hinfos .defender).symm.trans hd)
  obtain ⟨attackerCasualties, hac, h⟩ := Option.bind_eq_some_iff.1 h
  obtain ⟨defenderCasualties, hdc, h⟩ := Option.bind_eq_some_iff.1 h
  obtain rfl := Option.some.inj h
  have hnonneg := attacker.points_nonneg .attacker infos'
  have hnonneg' := defender.points_nonneg .defender infos'
  rcases lt_trichotomy (computePointsForTeam attacker.toUnitInfoByType .attacker infos')
    (computePointsForTeam defender.toUnitInfoByType .defender infos') with hlt | heq | hlt
  · have hwon : Number.lt (.fin (computePointsForTeam defender.toUnitInfoByType .defender infos'))
        (.fin (computePointsForTeam attacker.toUnitInfoByType .attacker infos')) = false :=
      decide_eq_false hlt.not_gt
    rw [casualtiesRatios_of_defenderWon hpow hnonneg hlt] at hac hdc
    refine ⟨_, hreport, generateAttackReport_of_defenderWon hnonneg hlt, rfl, rfl, ?_, ?_,
      hattacker, hdefender, hattacker.all hac, hdefender.casualties hdc⟩
    · simp only [Battles.AttackReport.winnerVillageId, hwon, Bool.false_eq_true, if_false]
    · simp only [Battles.AttackReport.loserVillageId, hwon, Bool.false_eq_true, if_false]
  · have hwon : Number.lt (.fin (computePointsForTeam defender.toUnitInfoByType .defender infos'))
        (.fin (computePointsForTeam attacker.toUnitInfoByType .attacker infos')) = false :=
      decide_eq_false heq.not_gt
    rw [heq, casualtiesRatios_of_nobodyWon] at hac hdc
    refine ⟨_, hreport, generateAttackReport_of_nobodyWon heq, rfl, rfl, ?_, ?_,
      hattacker, hdefender, hattacker.all hac, hdefender.all hdc⟩
    · simp only [Battles.AttackReport.winnerVillageId, hwon, Bool.false_eq_true, if_false]
    · simp only [Battles.AttackReport.loserVillageId, hwon, Bool.false_eq_true, if_false]
  · have hwon : Number.lt (.fin (computePointsForTeam defender.toUnitInfoByType .defender infos'))
        (.fin (computePointsForTeam attacker.toUnitInfoByType .attacker infos')) = true :=
      decide_eq_true hlt
    rw [casualtiesRatios_of_attackerWon hpow hnonneg' hlt] at hac hdc
    refine ⟨_, hreport, generateAttackReport_of_attackerWon hnonneg' hlt, rfl, rfl, ?_, ?_,
      hattacker, hdefender, hattacker.casualties hac, hdefender.all hdc⟩
    · simp only [Battles.AttackReport.winnerVillageId, hwon, if_true]
    · simp only [Battles.AttackReport.loserVillageId, hwon, if_true]

end Reports

end Cme.Battles.Exact
