import CmeBackend.Battles.Exact

/-!
# What a report says

The report of two armies, with exact numbers. The results are about every power that `Power`
describes, so they are about the rational model of the code as well. The last theorems say them of
`x ** (3 / 2)`.

* `generateAttackReport_sound`: there is a report, and it says who won and what the battle costs.
* `reinforcements_never_hurt`: more units of the winner make its other casualties no greater.
-/

namespace Cme.Battles.Exact

open GameRules Shares

variable {K : Type} [Field K] [LinearOrder K] [IsStrictOrderedRing K] [FloorRing K]

/-- The damage points of an army. -/
def Army.damagePoints (A : Army) (unitsInfo : List (UnitInfo K)) : K :=
  computePointsForTeam A.toUnitInfoByType .attacker unitsInfo

/-- The defense points of an army. -/
def Army.defensePoints (A : Army) (unitsInfo : List (UnitInfo K)) : K :=
  computePointsForTeam A.toUnitInfoByType .defender unitsInfo

/-- The report of two armies. -/
def reportOf (P : Power K) (attackId : ℕ) (travelTime : K) (attackerVillageId defenderVillageId : ℕ)
    (attacker defender : Army) (unitsInfo : List (UnitInfo K)) : Option (AttackReport K) :=
  generateAttackReport P.pow attackId travelTime attackerVillageId attacker.toUnitInfoByType
    defenderVillageId defender.toUnitInfoByType unitsInfo

/-! ## Soundness -/

/-- Casualties have the keys of their army, and are between none and all units of each type. -/
structure CasualtiesOf (A : Army) (casualties : UnitInfoByType) : Prop where
  keys : casualties.keys = A.keys
  nonneg : ∀ name, 0 ≤ casualties.countOf name
  le : ∀ name, casualties.countOf name ≤ A.countOf name

theorem CasualtiesOf.all (A : Army) : CasualtiesOf A A.toUnitInfoByType :=
  ⟨rfl, A.countOf_nonneg, fun _ => le_rfl⟩

theorem CasualtiesOf.share (A : Army) {q : K} (hq : 0 ≤ q) :
    CasualtiesOf A (computeCasualtiesForTeam A.toUnitInfoByType q) where
  keys := UnitInfoByType.keys_mapCounts
  nonneg name := by
    rw [computeCasualtiesForTeam, UnitInfoByType.countOf_mapCounts (share_zero q)]
    exact share_nonneg hq (A.countOf_nonneg name)
  le name := by
    rw [computeCasualtiesForTeam, UnitInfoByType.countOf_mapCounts (share_zero q)]
    exact share_le q _

/-- What a report says of the points of the attacker and of the defender. -/
structure SaysOutcome (attackerPoints defenderPoints : K) (attacker defender : Army)
    (report : AttackReport K) : Prop where
  attackerCasualties : CasualtiesOf attacker report.attackerCasualties
  defenderCasualties : CasualtiesOf defender report.defenderCasualties
  /-- Villages that are one cannot be told apart by the winner. -/
  winner_iff : report.attackerVillageId ≠ report.defenderVillageId →
    (report.winnerVillageId = report.attackerVillageId ↔ defenderPoints < attackerPoints)
  attackerWon : defenderPoints < attackerPoints →
    report.winnerVillageId = report.attackerVillageId ∧
      report.loserVillageId = report.defenderVillageId ∧
      report.defenderCasualties = defender.toUnitInfoByType
  defenderWon : attackerPoints < defenderPoints →
    report.winnerVillageId = report.defenderVillageId ∧
      report.loserVillageId = report.attackerVillageId ∧
      report.attackerCasualties = attacker.toUnitInfoByType
  nobodyWon : attackerPoints = defenderPoints →
    report.winnerVillageId = report.defenderVillageId ∧
      report.loserVillageId = report.attackerVillageId ∧
      report.attackerCasualties = attacker.toUnitInfoByType ∧
      report.defenderCasualties = defender.toUnitInfoByType

section Reports

variable {P : Power K} {attackId attackerVillageId defenderVillageId : ℕ} {travelTime : K}
  {attacker defender : Army} {unitsInfo : List (UnitInfo K)}

/-- There is a report: nothing is divided by zero. -/
theorem exists_reportOf : ∃ report,
    reportOf P attackId travelTime attackerVillageId defenderVillageId attacker defender unitsInfo =
      some report ∧
    report.attackerVillageId = attackerVillageId ∧ report.defenderVillageId = defenderVillageId ∧
    SaysOutcome (attacker.damagePoints unitsInfo) (defender.defensePoints unitsInfo) attacker defender
      report := by
  have ha : 0 ≤ attacker.damagePoints unitsInfo := attacker.points_nonneg _ _
  have hd : 0 ≤ defender.defensePoints unitsInfo := defender.points_nonneg _ _
  rcases lt_trichotomy (attacker.damagePoints unitsInfo) (defender.defensePoints unitsInfo)
    with h | h | h
  · refine ⟨_, generateAttackReport_of_defenderWon ha h, rfl, rfl, ?_⟩
    exact {
      attackerCasualties := .all _
      defenderCasualties := .share _ (P.nonneg (div_nonneg ha hd))
      winner_iff := fun hne => iff_of_false hne.symm h.not_gt
      attackerWon := fun hlt => absurd hlt h.not_gt
      defenderWon := fun _ => ⟨rfl, rfl, rfl⟩
      nobodyWon := fun heq => absurd heq h.ne }
  · refine ⟨_, generateAttackReport_of_nobodyWon h, rfl, rfl, ?_⟩
    exact {
      attackerCasualties := .all _
      defenderCasualties := .all _
      winner_iff := fun hne => iff_of_false hne.symm h.not_gt
      attackerWon := fun hlt => absurd hlt h.not_gt
      defenderWon := fun hlt => absurd hlt h.not_lt
      nobodyWon := fun _ => ⟨rfl, rfl, rfl, rfl⟩ }
  · refine ⟨_, generateAttackReport_of_attackerWon hd h, rfl, rfl, ?_⟩
    exact {
      attackerCasualties := .share _ (P.nonneg (div_nonneg hd ha))
      defenderCasualties := .all _
      winner_iff := fun _ => iff_of_true rfl h
      attackerWon := fun _ => ⟨rfl, rfl, rfl⟩
      defenderWon := fun hlt => absurd hlt h.not_gt
      nobodyWon := fun heq => absurd heq h.ne' }

end Reports

/-- **Soundness.** Two armies have a report, with a ratio between 0 and 1. The casualties of each
side have the keys of its army and are between none and all. The attacker wins exactly if its damage
points exceed the defense points; who loses, loses every unit, and so do both on a tie, which is
reported as won by the defender. -/
theorem generateAttackReport_sound (attackId attackerVillageId defenderVillageId : ℕ)
    (travelTime : ℝ) (attacker defender : Army) (unitsInfo : List (UnitInfo ℝ)) :
    ∃ base report,
      casualtiesBase? (attacker.damagePoints unitsInfo) (defender.defensePoints unitsInfo) =
        some base ∧
      base ^ (3 / 2 : ℝ) ∈ Set.Icc 0 1 ∧
      reportOf threeHalves attackId travelTime attackerVillageId defenderVillageId attacker defender
        unitsInfo = some report ∧
      report.attackerVillageId = attackerVillageId ∧ report.defenderVillageId = defenderVillageId ∧
      SaysOutcome (attacker.damagePoints unitsInfo) (defender.defensePoints unitsInfo) attacker
        defender report := by
  obtain ⟨base, hbase, hnonneg, hle⟩ :=
    exists_casualtiesBase (attacker.points_nonneg .attacker unitsInfo)
      (defender.points_nonneg .defender unitsInfo)
  obtain ⟨report, hreport, hsound⟩ := @exists_reportOf ℝ _ _ _ _ threeHalves attackId
    attackerVillageId defenderVillageId travelTime attacker defender unitsInfo
  refine ⟨base, report, hbase, ?_, hreport, hsound⟩
  rw [← threeHalves_pow]
  exact ⟨threeHalves.nonneg hnonneg, threeHalves.le_one hnonneg hle⟩

/-! ## Reinforcements -/

/-- No type has fewer units. -/
def Reinforces (A A' : Army) : Prop := ∀ name, A.countOf name ≤ A'.countOf name

/-- Of the types whose count is the same, no more units are lost. -/
def NoMoreLost (A A' : Army) (casualties casualties' : UnitInfoByType) : Prop :=
  ∀ name, A'.countOf name = A.countOf name → casualties'.countOf name ≤ casualties.countOf name

/-- What two reports say of a side that wins in both, with `A` in the first one and `A'` in the
second. -/
structure StillWins (villageId : ℕ) (A A' : Army) (own other : AttackReport K → UnitInfoByType)
    (report report' : AttackReport K) : Prop where
  winner : report.winnerVillageId = villageId
  winner' : report'.winnerVillageId = villageId
  own : NoMoreLost A A' (own report) (own report')
  other : other report' = other report

theorem noMoreLost_of_le {A A' : Army} {q q' : K} (h : q' ≤ q) :
    NoMoreLost A A' (computeCasualtiesForTeam A.toUnitInfoByType q)
      (computeCasualtiesForTeam A'.toUnitInfoByType q') := by
  intro name hname
  rw [computeCasualtiesForTeam, computeCasualtiesForTeam,
    UnitInfoByType.countOf_mapCounts (share_zero q'),
    UnitInfoByType.countOf_mapCounts (share_zero q), hname]
  exact share_mono h (A.countOf_nonneg name)

/-- More points of the winner make the ratio no greater. -/
theorem pow_div_anti (P : Power K) {loser winner winner' : K} (hloser : 0 ≤ loser)
    (h : loser < winner) (hle : winner ≤ winner') :
    P.pow (loser / winner') ≤ P.pow (loser / winner) := by
  have hwinner := hloser.trans_lt h
  refine P.mono (div_nonneg hloser (hwinner.trans_le hle).le) ?_ (div_le_one_of_le₀ h.le hwinner.le)
  exact div_le_div_of_nonneg_left hloser hwinner hle

section Reinforcements

variable {P : Power K} {attackId attackerVillageId defenderVillageId : ℕ} {travelTime : K}
  {attacker attacker' defender defender' : Army} {unitsInfo : List (UnitInfo K)}

/-- More units of an attacker that wins. -/
theorem attacker_reinforced
    (h : defender.defensePoints unitsInfo < attacker.damagePoints unitsInfo)
    (hmore : Reinforces attacker attacker') : ∃ report report',
      reportOf P attackId travelTime attackerVillageId defenderVillageId attacker defender
        unitsInfo = some report ∧
      reportOf P attackId travelTime attackerVillageId defenderVillageId attacker' defender
        unitsInfo = some report' ∧
      defender.defensePoints unitsInfo < attacker'.damagePoints unitsInfo ∧
      StillWins attackerVillageId attacker attacker' AttackReport.attackerCasualties
        AttackReport.defenderCasualties report report' := by
  have hd : 0 ≤ defender.defensePoints unitsInfo := defender.points_nonneg _ _
  have hle : attacker.damagePoints unitsInfo ≤ attacker'.damagePoints unitsInfo :=
    computePointsForTeam_mono hmore
  exact ⟨_, _, generateAttackReport_of_attackerWon hd h,
    generateAttackReport_of_attackerWon hd (h.trans_le hle), h.trans_le hle,
    ⟨rfl, rfl, noMoreLost_of_le (pow_div_anti P hd h hle), rfl⟩⟩

/-- More units of a defender that wins. -/
theorem defender_reinforced
    (h : attacker.damagePoints unitsInfo < defender.defensePoints unitsInfo)
    (hmore : Reinforces defender defender') : ∃ report report',
      reportOf P attackId travelTime attackerVillageId defenderVillageId attacker defender
        unitsInfo = some report ∧
      reportOf P attackId travelTime attackerVillageId defenderVillageId attacker defender'
        unitsInfo = some report' ∧
      attacker.damagePoints unitsInfo < defender'.defensePoints unitsInfo ∧
      StillWins defenderVillageId defender defender' AttackReport.defenderCasualties
        AttackReport.attackerCasualties report report' := by
  have ha : 0 ≤ attacker.damagePoints unitsInfo := attacker.points_nonneg _ _
  have hle : defender.defensePoints unitsInfo ≤ defender'.defensePoints unitsInfo :=
    computePointsForTeam_mono hmore
  exact ⟨_, _, generateAttackReport_of_defenderWon ha h,
    generateAttackReport_of_defenderWon ha (h.trans_le hle), h.trans_le hle,
    ⟨rfl, rfl, noMoreLost_of_le (pow_div_anti P ha h hle), rfl⟩⟩

end Reinforcements

/-- **Reinforcements never hurt.** A side that wins, and is not only reported to on a tie, still wins
with more units of any types. It loses no more units of the other types, and the other side loses the
same. -/
theorem reinforcements_never_hurt (attackId attackerVillageId defenderVillageId : ℕ)
    (travelTime : ℝ) (attacker defender : Army) (unitsInfo : List (UnitInfo ℝ)) :
    (∀ attacker' : Army, defender.defensePoints unitsInfo < attacker.damagePoints unitsInfo →
      Reinforces attacker attacker' → ∃ report report',
        reportOf threeHalves attackId travelTime attackerVillageId defenderVillageId attacker defender
          unitsInfo = some report ∧
        reportOf threeHalves attackId travelTime attackerVillageId defenderVillageId attacker'
          defender unitsInfo = some report' ∧
        defender.defensePoints unitsInfo < attacker'.damagePoints unitsInfo ∧
        StillWins attackerVillageId attacker attacker' AttackReport.attackerCasualties
          AttackReport.defenderCasualties report report') ∧
    ∀ defender' : Army, attacker.damagePoints unitsInfo < defender.defensePoints unitsInfo →
      Reinforces defender defender' → ∃ report report',
        reportOf threeHalves attackId travelTime attackerVillageId defenderVillageId attacker defender
          unitsInfo = some report ∧
        reportOf threeHalves attackId travelTime attackerVillageId defenderVillageId attacker
          defender' unitsInfo = some report' ∧
        attacker.damagePoints unitsInfo < defender'.defensePoints unitsInfo ∧
        StillWins defenderVillageId defender defender' AttackReport.defenderCasualties
          AttackReport.attackerCasualties report report' :=
  ⟨fun _ h hmore => attacker_reinforced h hmore, fun _ h hmore => defender_reinforced h hmore⟩

/-- Some stone hunters and stone slingers. -/
def sampleTeam (hunters slingers : ℕ) : Army where
  entries := [("stone_hunter", ⟨5, "stone_hunter", hunters⟩),
    ("stone_slinger", ⟨6, "stone_slinger", slingers⟩)]
  nodup := (by decide : ["stone_hunter", "stone_slinger"].Nodup)
  nonneg := by simp

/-- The units of the small catalog. -/
noncomputable def sampleInfo : List (UnitInfo ℝ) := unitsInfo sampleCatalog

theorem sampleInfo_eq : sampleInfo = [⟨5, "stone_hunter", characteristicsOf .stoneHunter⟩,
    ⟨6, "stone_slinger", characteristicsOf .stoneSlinger⟩] := rfl

theorem damagePoints_sampleTeam (hunters slingers : ℕ) :
    (sampleTeam hunters slingers).damagePoints sampleInfo = hunters * 12 + slingers * 10 := by
  simp [Army.damagePoints, computePointsForTeam, sampleInfo_eq, sampleTeam, UnitInfoByType.get?,
    UnitInfo.points, characteristicsOf, relatedUnitDescriptors, descriptor, List.lookup_cons]

theorem defensePoints_sampleTeam (hunters slingers : ℕ) :
    (sampleTeam hunters slingers).defensePoints sampleInfo = hunters * 6 + slingers * 7 := by
  simp [Army.defensePoints, computePointsForTeam, sampleInfo_eq, sampleTeam, UnitInfoByType.get?,
    UnitInfo.points, characteristicsOf, relatedUnitDescriptors, descriptor, List.lookup_cons]
  norm_num

theorem reinforces_sampleTeam {hunters hunters' slingers slingers' : ℕ} (hh : hunters ≤ hunters')
    (hs : slingers ≤ slingers') :
    Reinforces (sampleTeam hunters slingers) (sampleTeam hunters' slingers') := by
  intro name
  simp only [UnitInfoByType.countOf, UnitInfoByType.get?, sampleTeam, List.lookup_cons, List.lookup_nil]
  split
  · simpa using hh
  · split
    · simpa using hs
    · simp

/-- 10 hunters win against 5 slingers, and 2 hunters lose. -/
theorem reinforcements_never_hurt_sample :
    (∃ report report',
      reportOf threeHalves 1 0 1 2 (sampleTeam 10 0) (sampleTeam 0 5) sampleInfo = some report ∧
      reportOf threeHalves 1 0 1 2 (sampleTeam 10 3) (sampleTeam 0 5) sampleInfo = some report' ∧
      (sampleTeam 0 5).defensePoints sampleInfo < (sampleTeam 10 3).damagePoints sampleInfo ∧
      StillWins 1 (sampleTeam 10 0) (sampleTeam 10 3) AttackReport.attackerCasualties
        AttackReport.defenderCasualties report report') ∧
    ∃ report report',
      reportOf threeHalves 1 0 1 2 (sampleTeam 2 0) (sampleTeam 0 5) sampleInfo = some report ∧
      reportOf threeHalves 1 0 1 2 (sampleTeam 2 0) (sampleTeam 1 5) sampleInfo = some report' ∧
      (sampleTeam 2 0).damagePoints sampleInfo < (sampleTeam 1 5).defensePoints sampleInfo ∧
      StillWins 2 (sampleTeam 0 5) (sampleTeam 1 5) AttackReport.defenderCasualties
        AttackReport.attackerCasualties report report' := by
  constructor
  · refine (reinforcements_never_hurt 1 1 2 0 (sampleTeam 10 0) (sampleTeam 0 5) sampleInfo).1
      (sampleTeam 10 3) ?_ (reinforces_sampleTeam le_rfl (by norm_num))
    rw [damagePoints_sampleTeam, defensePoints_sampleTeam]
    norm_num
  · refine (reinforcements_never_hurt 1 1 2 0 (sampleTeam 2 0) (sampleTeam 0 5) sampleInfo).2
      (sampleTeam 1 5) ?_ (reinforces_sampleTeam (by norm_num) le_rfl)
    rw [damagePoints_sampleTeam, defensePoints_sampleTeam]
    norm_num

end Cme.Battles.Exact
