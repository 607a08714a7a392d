import CmeBackend.Game.Stocks

/-!
# Reports in the table

What the column `attack_report` says about the casualties of both sides (`casualtiesIn`), and what an
army is on both sides of a battle.

* `casualtiesIn_store`: the casualties of a report are found again under the ids of the villages.
* `represents_defenderCasualties`: the casualties of the defender are an army, and the village has a
  row for each of its types.
-/

namespace Cme.Game

open Js GameRules Attacks Battles

variable {C : Catalog} {d d' : Db C} {v : ℕ} {t : C.Ref}

/-- `attackReport.casualties[villageId].casualtiesInfoByUnitTypeId` -/
def casualtiesIn (a : Attack) (villageId : ℕ) : Fields :=
  match ((a.report.bind (·.get "casualties")).bind (·.get (toString villageId))).bind
      (·.get "casualtiesInfoByUnitTypeId") with
  | some (.obj units) => units
  | _ => []

/-- Different ids have different texts. -/
theorem toString_ne {m n : ℕ} (h : m ≠ n) : toString m ≠ toString n := by
  intro heq
  have htext := congrArg String.toList heq
  rw [Nat.toString_eq_repr, Nat.toString_eq_repr, Nat.toList_repr, Nat.toList_repr] at htext
  have hvalue := congrArg (fun ds => Nat.ofDigitChars 10 ds 0) htext
  simp only [Nat.ofDigitChars_ten_toDigits] at hvalue
  exact h hvalue

/-- The values for both villages are found under their ids. -/
theorem get_byVillage {report : AttackReport} (attacker defender : Json)
    (hne : report.attackerVillageId ≠ report.defenderVillageId) :
    (report.byVillage attacker defender).get (toString report.attackerVillageId) = some attacker ∧
      (report.byVillage attacker defender).get (toString report.defenderVillageId) =
        some defender := by
  have htext : (toString report.attackerVillageId == toString report.defenderVillageId) = false :=
    beq_false_of_ne (toString_ne hne)
  have htext' : (toString report.defenderVillageId == toString report.attackerVillageId) = false :=
    beq_false_of_ne (toString_ne hne.symm)
  unfold AttackReport.byVillage
  rcases lt_or_gt_of_ne hne with hlt | hlt
  · rw [if_pos hlt]
    simp only [Json.get, List.lookup_cons, beq_self_eq_true, htext', and_self]
  · rw [if_neg hlt.not_gt, if_pos hlt]
    simp only [Json.get, List.lookup_cons, beq_self_eq_true, htext, and_self]

theorem casualtiesIn_store {report : AttackReport} (a : Attack)
    (hne : report.attackerVillageId ≠ report.defenderVillageId) :
    casualtiesIn (report.store a) report.attackerVillageId = report.attackerCasualties ∧
      casualtiesIn (report.store a) report.defenderVillageId = report.defenderCasualties := by
  obtain ⟨hattacker, hdefender⟩ := get_byVillage
    (.obj [("casualtiesInfoByUnitTypeId", .obj report.attackerCasualties)])
    (.obj [("casualtiesInfoByUnitTypeId", .obj report.defenderCasualties)]) hne
  have hget : ∀ id, casualtiesIn (report.store a) id =
      match ((report.byVillage
          (.obj [("casualtiesInfoByUnitTypeId", .obj report.attackerCasualties)])
          (.obj [("casualtiesInfoByUnitTypeId", .obj report.defenderCasualties)])).get
            (toString id)).bind (·.get "casualtiesInfoByUnitTypeId") with
      | some (.obj units) => units
      | _ => [] := fun _ => rfl
  rw [hget, hget, hattacker, hdefender]
  exact ⟨rfl, rfl⟩

/-! ## The casualties of the defender -/

theorem nodup_set {fs : Fields} {name : String} {w : Json} (h : (fs.map Prod.fst).Nodup) :
    ((fs.set name w).map Prod.fst).Nodup := by
  induction fs with
  | nil => exact List.nodup_singleton _
  | cons f fs ih =>
    obtain ⟨n, u⟩ := f
    obtain ⟨hnot, hrest⟩ := List.nodup_cons.1 h
    unfold Fields.set
    split
    next heq => exact List.nodup_cons.2 ⟨heq ▸ hnot, hrest⟩
    next hne =>
      refine List.nodup_cons.2 ⟨fun hmem => ?_, ih hrest⟩
      obtain ⟨p, hp, hname⟩ := List.mem_map.1 hmem
      rcases Fields.mem_set hp with rfl | hp
      · exact hne hname.symm
      · exact hnot (List.mem_map.2 ⟨p, hp, hname⟩)

theorem nodup_keyByType (rows : List (VillageResourceType C)) :
    ((keyByType rows).map Prod.fst).Nodup := by
  suffices h : ∀ units : Fields, (units.map Prod.fst).Nodup →
      ((rows.foldl (fun units r => units.set r.resourceType.type (unitEntry r)) units).map
        Prod.fst).Nodup from h [] List.nodup_nil
  induction rows with
  | nil => exact fun _ h => h
  | cons r rows ih => exact fun units h => ih _ (nodup_set h)

/-- The casualties of a row are in the documented format if the database takes them for values. -/
theorem documented_casualtiesOf {ratio : Number} {r : VillageResourceType C} {c : Json} {p : ℕ × ℚ}
    (hc : casualtiesOf ratio (unitEntry r) = some c) (hp : sqlValue? c = some p) :
    WellFormatted C r.resourceType.type c := by
  have hrow : Documented r.resourceType.type (unitEntry r) r.resourceType r.count :=
    ⟨rfl, rfl, rfl, rfl⟩
  obtain ⟨n, -, rfl⟩ := casualtiesOf_eq_some hc
  split at hp
  next hle =>
    rw [if_pos hle]
    generalize (n.mul ratio) = x at hp ⊢
    cases x with
    | fin x => exact ⟨_, _, hrow.setCount _⟩
    | _ => cases hp
  next hle =>
    rw [if_neg hle]
    exact ⟨_, _, hrow⟩

/-- Every entry of a map that is taken for a list of values is taken for one. -/
theorem isSome_sqlValue? {cs : Fields} {values : List (ℕ × ℚ)} (h : sqlValues? cs = some values) :
    ∀ c ∈ cs, (sqlValue? c.2).isSome := by
  induction cs generalizing values with
  | nil => exact fun c hc => by cases hc
  | cons c rest ih =>
    unfold sqlValues? at h
    split at h
    next value values' hvalue hvalues =>
      exact List.forall_mem_cons.2 ⟨by rw [hvalue]; rfl, ih hvalues⟩
    · cases h

theorem keys_mapValues? {f : Json → Option Json} {fs ws : Fields} (h : fs.mapValues? f = some ws) :
    ws.map Prod.fst = fs.map Prod.fst := by
  have hall := Fields.forall₂_mapValues? h
  clear h
  induction hall with
  | nil => rfl
  | cons hxy _ ih => rw [List.map_cons, List.map_cons, hxy.1, ih]

theorem represents_defenderCasualties {M : Math} {token : AttackToken} {report : AttackReport}
    {values : List (ℕ × ℚ)} (hreport : battleReport M d token = some report)
    (hvalues : sqlValues? report.defenderCasualties = some values) :
    ∃ B : Army C, Represents report.defenderCasualties B.units ∧
      ∀ b ∈ B.units, (d.rowOf report.defenderVillageId b.1).isSome := by
  obtain ⟨-, -, -, hdefender, -, -, a, b, -, -, -, hcasualties, -⟩ :=
    generateAttackReport_eq_some hreport
  -- An entry stands for a row of the village.
  have hentry : ∀ c ∈ report.defenderCasualties, ∃ r ∈ d.rowsOf report.defenderVillageId,
      r.resourceType.type = c.1 ∧ WellFormatted C c.1 c.2 := by
    intro c hc
    obtain ⟨u, hu, hkey, hcu⟩ := Fields.mem_mapValues? hcasualties hc
    obtain ⟨r, hr, m, hm, rfl⟩ := mem_defenderUnits hu
    obtain ⟨p, hp⟩ := Option.isSome_iff_exists.1 (isSome_sqlValue? hvalues c hc)
    have htype : r.resourceType.type = c.1 := hm.trans hkey.symm
    exact ⟨r, hdefender ▸ hr, htype, htype ▸ documented_casualtiesOf hcu hp⟩
  have hkeys : (report.defenderCasualties.map Prod.fst).Nodup := by
    rw [keys_mapValues? hcasualties]
    exact nodup_keyByType _
  obtain ⟨B, hB⟩ := exists_represents hkeys fun c hc =>
    let ⟨_, _, _, h⟩ := hentry c hc
    h
  refine ⟨B, hB, fun b hb => ?_⟩
  obtain ⟨c, hc, hdoc⟩ := hB.exists_entry hb
  obtain ⟨r, hr, htype, -⟩ := hentry c hc
  have hb : r.resourceType = b.1 := Catalog.Ref.eq_of_type (htype.trans hdoc.type.symm)
  exact List.find?_isSome.2 ⟨r, hr, decide_eq_true (congrArg Catalog.Ref.id hb)⟩

end Cme.Game
