import CmeBackend.Game.Growth

/-!
# Units under way

What the table of the attacks says of the units that are not in their villages (`away`) and of those
that have fallen (`fallenIn`), and what the tokens of the attacks know of them.

* `Marching`, `Returning`: a token with the attack and the army that it stands for.
* `marching_create`, `fight_cases`, `war_comeBack`: what a request, a battle and a return make of the
  tokens and of both numbers.
-/

namespace Cme.Game

open Js GameRules Attacks Battles Production.Lifecycle

variable {C : Catalog} {d d' d₁ : Db C} {t : C.Ref} {a : Attack} {A : Army C} {f : ℤ → ℤ}

/-- The units of an attack that are not in their village. -/
def away (t : C.Ref) (a : Attack) : ℤ :=
  if a.isTroopHome then 0
  else if a.isUnderAttack then countIn a.unitSent t
  else countIn a.unitSent t - countIn (casualtiesIn a a.attackerVillageId) t

/-- The casualties of both sides. -/
def fallenIn (t : C.Ref) (a : Attack) : ℤ :=
  countIn (casualtiesIn a a.attackerVillageId) t + countIn (casualtiesIn a a.defenderVillageId) t

/-- The units of all attacks that are not in their villages. -/
def war (d : Db C) (t : C.Ref) : ℤ := d.attacks.total (away t)

/-- The casualties of all battles. -/
def fallen (d : Db C) (t : C.Ref) : ℤ := d.attacks.total (fallenIn t)

theorem war_congr (h : d'.attacks = d.attacks) : war d' t = war d t := by
  unfold war
  rw [h]

theorem fallen_congr (h : d'.attacks = d.attacks) : fallen d' t = fallen d t := by
  unfold fallen
  rw [h]

/-- A token of an attack whose battle is to come. -/
structure Marching (d : Db C) (token : AttackToken) (a : Attack) (A : Army C) : Prop where
  row : d.attacks.get? token.attackId = some a
  underAttack : a.isUnderAttack = true
  notHome : a.isTroopHome = false
  noReport : a.report = none
  attacker : a.attackerVillageId = token.attackerVillageId
  defender : a.defenderVillageId = token.defenderVillageId
  different : token.attackerVillageId ≠ token.defenderVillageId
  unitSent : a.unitSent = token.attackerUnitsInfoByType
  army : Represents token.attackerUnitsInfoByType A.units
  pos : ∀ u ∈ A.units, 0 < u.2
  rows : ∀ u ∈ A.units, (d.rowOf token.attackerVillageId u.1).isSome
  home : (d.villages.get? token.attackerVillageId).isSome
  target : (d.villages.get? token.defenderVillageId).isSome

/-- A token of an attack that was won. `f` says how many of each number have fallen. -/
structure Returning (d : Db C) (token : ReturnToken) (a : Attack) (A : Army C) (f : ℤ → ℤ) :
    Prop where
  row : d.attacks.get? token.attackId = some a
  fought : a.isUnderAttack = false
  notHome : a.isTroopHome = false
  attacker : a.attackerVillageId = token.attackerVillageId
  reported : casualtiesIn a a.attackerVillageId = token.attackerCasualties
  unitSent : Represents a.unitSent A.units
  army : Represents token.attackerUnitsInfoByType A.units
  casualties : Represents token.attackerCasualties (A.mapCounts f).units
  zero : f 0 = 0
  /-- No more than there are. -/
  le : ∀ n, f n ≤ n
  rows : ∀ u ∈ A.units, (d.rowOf token.attackerVillageId u.1).isSome
  home : (d.villages.get? token.attackerVillageId).isSome
  loot : ∃ stolen, token.stolenResources = some stolen ∧
    ∀ s ∈ stolen, ∃ t : C.Ref, t.id = s.id ∧ t.type ∈ lootedResources

theorem Marching.keeps {token : AttackToken} (h : Marching d token a A) (hkeeps : Keeps d d')
    (hrow : d'.attacks.get? token.attackId = some a) : Marching d' token a A :=
  { h with
    row := hrow
    rows := fun u hu => hkeeps.rows _ _ (h.rows u hu)
    home := hkeeps.villages _ h.home
    target := hkeeps.villages _ h.target }

theorem Returning.keeps {token : ReturnToken} (h : Returning d token a A f) (hkeeps : Keeps d d')
    (hrow : d'.attacks.get? token.attackId = some a) : Returning d' token a A f :=
  { h with
    row := hrow
    rows := fun u hu => hkeeps.rows _ _ (h.rows u hu)
    home := hkeeps.villages _ h.home }

/-- Without a report nobody has fallen. -/
theorem casualtiesIn_of_none (h : a.report = none) (v : ℕ) : casualtiesIn a v = [] := by
  unfold casualtiesIn
  rw [h]
  rfl

theorem Marching.away_eq {token : AttackToken} (h : Marching d token a A) :
    away t a = A.count t := by
  unfold away
  rw [h.notHome, h.underAttack, h.unitSent]
  exact h.army.countIn t

theorem Marching.fallenIn_eq {token : AttackToken} (h : Marching d token a A) :
    fallenIn t a = 0 := by
  unfold fallenIn
  rw [casualtiesIn_of_none h.noReport, casualtiesIn_of_none h.noReport]
  rfl

theorem Returning.away_eq {token : ReturnToken} (h : Returning d token a A f) :
    away t a = A.count t - f (A.count t) := by
  unfold away
  rw [h.notHome, h.fought, h.reported, h.unitSent.countIn, h.casualties.countIn]
  show _ - (A.mapCounts f).count t = _
  rw [A.count_mapCounts h.zero]
  rfl

/-! ## Creation -/

section Create

variable {M : Math} {dev : Bool} {c : Clock} {dto : CreateAttackDto} {dep : Departure C}

/-- The attack of an accepted request, and nothing else, is new in the table. -/
theorem attacks_create (h : create M dev c d dto = .ok dep) :
    ∃ a : Attack, dep.db.attacks.rows = d.attacks.rows ++ [a] ∧ a.id = d.attacks.next ∧
      dep.token.attackId = d.attacks.next ∧ a.isUnderAttack = true ∧ a.isTroopHome = false ∧
      a.report = none ∧ a.unitSent = dto.keptUnits ∧
      a.attackerVillageId = dto.attackerVillageId ∧ a.defenderVillageId = dto.defenderVillageId := by
  obtain ⟨attackerVillage, defenderVillage, slowestSpeed, hchecked, rfl⟩ := checked_of_create h
  have hsaved : ∀ (e : Db C) (count : VillageResourceType C → Number),
      (saveCounts e attackerVillage.id count).attacks = e.attacks := by
    intro e count
    unfold saveCounts
    split <;> rfl
  refine ⟨_, congrArg Table.rows (hsaved _ _), rfl, rfl, rfl, rfl, rfl, rfl, ?_, ?_⟩
  · exact (Table.get?_eq_some.1 hchecked.attacker).2
  · exact (Table.get?_eq_some.1 hchecked.defender).2

theorem marching_create (h : create M dev c d dto = .ok dep)
    (hformat : ∀ u ∈ dto.keptUnits, WellFormatted C u.1 u.2) :
    ∃ a A, Marching dep.db dep.token a A ∧ Represents dto.keptUnits A.units := by
  obtain ⟨A, hA⟩ := exists_represents dto.keptUnits_nodup hformat
  obtain ⟨a, hrows, hid, htoken, hunder, hhome, hreport, hsent, hattacker, hdefender⟩ :=
    attacks_create h
  have hkeeps := keeps_create h
  obtain ⟨hvillage, htarget⟩ := village_create h
  obtain ⟨attackerVillage, defenderVillage, _, ha, hd, hne, -, hdep⟩ := create_eq_ok h
  have htokenAttacker : dep.token.attackerVillageId = dto.attackerVillageId := by rw [hdep]; exact ha
  have htokenDefender : dep.token.defenderVillageId = dto.defenderVillageId := by rw [hdep]; exact hd
  have htokenUnits : dep.token.attackerUnitsInfoByType = dto.keptUnits := by rw [hdep]; rfl
  refine ⟨a, A, ?_, hA⟩
  exact {
    row := Table.get?_eq_some.2 ⟨by simp [hrows], hid.trans htoken.symm⟩
    underAttack := hunder
    notHome := hhome
    noReport := hreport
    attacker := hattacker.trans htokenAttacker.symm
    defender := hdefender.trans htokenDefender.symm
    different := by rwa [htokenAttacker, htokenDefender]
    unitSent := hsent.trans htokenUnits.symm
    army := htokenUnits ▸ hA
    pos := pos_of_represents hA
    rows := fun u hu => by
      rw [htokenAttacker]
      refine hkeeps.rows _ _ (isSome_rowOf_sent h hA ?_)
      rw [Army.count_of_mem hu]
      exact (pos_of_represents hA u hu).ne'
    home := htokenAttacker ▸ hkeeps.villages _ hvillage
    target := htokenDefender ▸ hkeeps.villages _ htarget }

/-- The army is on its way. -/
theorem war_create (h : create M dev c d dto = .ok dep) (hA : Represents dto.keptUnits A.units) :
    war dep.db t = war d t + A.count t ∧ fallen dep.db t = fallen d t := by
  obtain ⟨a, hrows, -, -, hunder, hhome, hreport, hsent, -, -⟩ := attacks_create h
  have haway : away t a = A.count t := by
    unfold away
    rw [hhome, hunder, hsent]
    exact hA.countIn t
  have hfallen : fallenIn t a = 0 := by
    unfold fallenIn
    rw [casualtiesIn_of_none hreport, casualtiesIn_of_none hreport]
    rfl
  unfold war fallen Table.total
  rw [hrows]
  simp [haway, hfallen]

/-- The attacks before stay as they are. -/
theorem get?_create (h : create M dev c d dto = .ok dep) {id : ℕ} {a : Attack}
    (ha : d.attacks.get? id = some a) : dep.db.attacks.get? id = some a := by
  obtain ⟨new, hrows, -⟩ := attacks_create h
  obtain ⟨hmem, hid⟩ := Table.get?_eq_some.1 ha
  exact Table.get?_eq_some.2 ⟨hrows ▸ List.mem_append_left _ hmem, hid⟩

end Create

/-! ## Battles -/

section Battle

variable {M : Math} {token : AttackToken} {report : AttackReport}

/-- An update that keeps the weights keeps the total. -/
theorem total_update_of_eq {k : ℕ} {g : Attack → Attack} {hg : ∀ a, key (g a) = key a}
    {weight : Attack → ℤ} (table : Table Attack) (h : ∀ a, weight (g a) = weight a) :
    (table.update k g hg).total weight = table.total weight := by
  unfold Table.total Table.update
  simp only [List.map_map]
  refine congrArg List.sum (List.map_congr_left fun a _ => ?_)
  show weight (Table.patch k g a) = weight a
  unfold Table.patch
  split
  · exact h a
  · rfl

theorem wonByAttacker_iff (hne : report.attackerVillageId ≠ report.defenderVillageId) :
    report.WonByAttacker ↔ report.attackerWon = true := by
  unfold AttackReport.WonByAttacker AttackReport.winnerVillageId
  cases report.attackerWon <;> simp [hne]

theorem casualtyCount_le (ratio : Number) (n : ℤ) : casualtyCount ratio n ≤ n := by
  unfold casualtyCount
  split
  · exact min_le_right _ _
  · exact le_rfl

/-- The attack in the table after its battle. Where it is lost, the whole army has fallen. -/
theorem fought (h : Marching d token a A)
    (hreport : battleReport M d (parsedAttack token) = some report) :
    ∃ f : ℤ → ℤ, f 0 = 0 ∧ (∀ n, f n ≤ n) ∧ Represents report.attackerUnits A.units ∧
      Represents report.attackerCasualties (A.mapCounts f).units ∧
      casualtiesIn (report.store a) (report.store a).attackerVillageId =
        report.attackerCasualties ∧
      ∀ t, away t (report.store a) = A.count t - f (A.count t) ∧
        fallenIn t (report.store a) = f (A.count t) + countIn report.defenderCasualties t := by
  obtain ⟨-, -, hattacker, hdefender, hunits, -, x, y, -, -, hcasualties, -, hwon⟩ :=
    generateAttackReport_eq_some hreport
  have hne : report.attackerVillageId ≠ report.defenderVillageId := by
    rw [hattacker, hdefender]
    exact h.different
  obtain ⟨hratio, hlost⟩ := casualtiesRatios_attacker M x y
  have harmy : Represents report.attackerUnits A.units := hunits ▸ h.army.roundTrip
  have hcs : Represents report.attackerCasualties
      (A.mapCounts (casualtyCount (casualtiesRatios M x y).1)).units :=
    harmy.computeCasualties h.pos hratio (hunits ▸ hcasualties)
  have hcount : ∀ t, countIn report.attackerCasualties t =
      casualtyCount (casualtiesRatios M x y).1 (A.count t) := fun t =>
    (hcs.countIn t).trans (A.count_mapCounts (casualtyCount_zero _) t)
  obtain ⟨hofAttacker, hofDefender⟩ := casualtiesIn_store a hne
  have hstoreAttacker : (report.store a).attackerVillageId = report.attackerVillageId :=
    h.attacker.trans hattacker.symm
  have hstoreDefender : (report.store a).defenderVillageId = report.defenderVillageId :=
    h.defender.trans hdefender.symm
  refine ⟨casualtyCount (casualtiesRatios M x y).1, casualtyCount_zero _, casualtyCount_le _, harmy,
    hcs, hstoreAttacker ▸ hofAttacker, fun t => ⟨?_, ?_⟩⟩
  · unfold away
    rw [hstoreAttacker, hofAttacker, hcount]
    have hsent : countIn (report.store a).unitSent t = A.count t := by
      show countIn a.unitSent t = _
      rw [h.unitSent]
      exact h.army.countIn t
    rw [hsent]
    show (if (decide ¬report.WonByAttacker) then 0 else if false then _ else _) = _
    by_cases hw : report.WonByAttacker
    · simp [hw]
    · have hratio_lost := hlost (by
        rw [wonByAttacker_iff hne, hwon] at hw
        simpa using hw)
      rw [hratio_lost, casualtyCount_one]
      simp [hw]
  · unfold fallenIn
    rw [hstoreAttacker, hstoreDefender, hofAttacker, hofDefender, hcount]

/-- What a battle leaves. -/
structure Resolved (d : Db C) (token : AttackToken) (A : Army C) (d' : Db C)
    (back : Option ReturnToken) : Prop where
  keeps : Keeps d d'
  vaults : d'.villagesStorageResourceTypes = d.villagesStorageResourceTypes
  others : ∀ id, id ≠ token.attackId → d'.attacks.get? id = d.attacks.get? id
  losses : ∀ t, IsUnit t → ∃ m n, held d' t = held d t + -n ∧ war d' t = war d t + -m ∧
    fallen d' t = fallen d t + (m + n)
  returning : ∀ token' ∈ back, token'.attackId = token.attackId ∧
    ∃ a f, Returning d' token' a A f

theorem Resolved.none (d : Db C) (token : AttackToken) (A : Army C) :
    Resolved d token A d .none where
  keeps := Keeps.refl d
  vaults := rfl
  others _ _ := rfl
  losses t _ := ⟨0, 0, by simp, by simp, by simp⟩
  returning token' h := by cases h

/-- A battle that stores its report. -/
theorem Resolved.reported (h : Marching d token a A) (hone : d.OneRowPerType)
    (hreport : battleReport M d (parsedAttack token) = some report)
    (hexec : execReportQuery d report = some d₁) :
    Resolved d token A d₁ .none ∧ d₁.attacks.get? token.attackId = some (report.store a) := by
  obtain ⟨hid, -, -, hdefender, -⟩ := generateAttackReport_eq_some hreport
  have hid : report.attackId = token.attackId := hid
  have hv : (d.villages.get? report.defenderVillageId).isSome := by
    rw [hdefender]
    exact h.target
  obtain ⟨hmem, hkey⟩ := Table.get?_eq_some.1 h.row
  obtain ⟨-, casualties, -, hd₁⟩ := execReportQuery_eq_some hexec
  have hattacks : d₁.attacks = d.attacks.update token.attackId report.store := by
    rw [hd₁, ← hid]
    rfl
  constructor
  · refine ⟨keeps_execReportQuery hexec, by rw [hd₁]; rfl, fun id hne => ?_, fun t ht => ?_,
      fun token' htoken => by cases htoken⟩
    · rw [hattacks]
      exact Table.get?_update_of_ne hne
    · obtain ⟨f, -, -, -, -, -, hcounts⟩ := fought h hreport
      obtain ⟨haway, hfallen⟩ := hcounts t
      refine ⟨f (A.count t), countIn report.defenderCasualties t,
        held_execReportQuery hreport hexec hone hv, ?_, ?_⟩
      · unfold war
        rw [hattacks]
        refine (Table.total_update hmem hkey).trans ?_
        rw [haway, h.away_eq]
        ring
      · unfold fallen
        rw [hattacks]
        refine (Table.total_update hmem hkey).trans ?_
        rw [hfallen, h.fallenIn_eq]
        ring
  · rw [hattacks]
    exact Table.get?_update_self h.row

/-- The columns of an attack with its loot. -/
def withLoot (stolen : List StolenResource) (a : Attack) : Attack :=
  { a with stolenResources := some (.obj [("resources", .arr (stolen.map (·.json)))]) }

/-- A battle that is won, with its loot: the units are on their way home. -/
theorem Resolved.won {stolen : List StolenResource} (h : Marching d token a A)
    (hone : d.OneRowPerType) (hreport : battleReport M d (parsedAttack token) = some report)
    (hexec : execReportQuery d report = some d₁) (hwon : report.WonByAttacker)
    (hloot : updateDefenderStolenResources d₁ report.attackId report.defenderVillageId
      report.attackerUnits = some (d', stolen)) :
    Resolved d token A d' (some (report.returnToken stolen)) := by
  obtain ⟨hresolved, hrow⟩ := Resolved.reported h hone hreport hexec
  obtain ⟨hid, -, hattacker, -⟩ := generateAttackReport_eq_some hreport
  have hid : report.attackId = token.attackId := hid
  have hattacker : report.attackerVillageId = token.attackerVillageId := hattacker
  have hattacks : d'.attacks = d₁.attacks.update token.attackId (withLoot stolen) := by
    rw [attacks_updateDefenderStolenResources hloot, ← hid]
    rfl
  have hkeeps := hresolved.keeps.trans (keeps_updateDefenderStolenResources hloot)
  refine ⟨hkeeps, ?_, fun id hne => ?_, fun t ht => ?_, ?_⟩
  · rw [updateDefenderStolenResources_eq] at hloot
    obtain ⟨stolen', -, hloot⟩ := Option.bind_eq_some_iff.1 hloot
    obtain ⟨d₂, htake, hloot⟩ := Option.map_eq_some_iff.1 hloot
    obtain ⟨values, -, rfl⟩ := Option.map_eq_some_iff.1 htake
    obtain ⟨rfl, rfl⟩ := Prod.mk.inj hloot
    exact hresolved.vaults
  · rw [hattacks, Table.get?_update_of_ne hne]
    exact hresolved.others id hne
  · obtain ⟨m, n, hheld, hwar, hfallen⟩ := hresolved.losses t ht
    refine ⟨m, n, ?_, ?_, ?_⟩
    · rw [held_updateDefenderStolenResources ht hloot, hheld]
    · unfold war
      rw [hattacks]
      refine (total_update_of_eq d₁.attacks ?_).trans hwar
      exact fun _ => rfl
    · unfold fallen
      rw [hattacks]
      refine (total_update_of_eq d₁.attacks ?_).trans hfallen
      exact fun _ => rfl
  · rintro token' ⟨⟩
    obtain ⟨f, hzero, hle, harmy, hcs, hstored, -⟩ := fought h hreport
    have hrow' : d'.attacks.get? token.attackId = some (withLoot stolen (report.store a)) := by
      rw [hattacks]
      exact Table.get?_update_self hrow
    refine ⟨hid, withLoot stolen (report.store a), f, ?_⟩
    exact {
      row := (congrArg d'.attacks.get? hid).trans hrow'
      fought := rfl
      notHome := by
        show decide (¬report.WonByAttacker) = false
        simp [hwon]
      attacker := h.attacker.trans hattacker.symm
      reported := hstored
      unitSent := by
        show Represents a.unitSent A.units
        rw [h.unitSent]
        exact h.army
      army := harmy
      casualties := hcs
      zero := hzero
      le := hle
      rows := fun u hu => by
        show (d'.rowOf report.attackerVillageId u.1).isSome
        rw [hattacker]
        exact hkeeps.rows _ _ (h.rows u hu)
      home := by
        show (d'.villages.get? report.attackerVillageId).isSome
        rw [hattacker]
        exact hkeeps.villages _ h.home
      loot := ⟨stolen, rfl, (mem_stolen hloot).1⟩ }

theorem resolved (M : Math) (h : Marching d token a A) (hone : d.OneRowPerType) :
    Resolved d token A (resolve M d token).1 (resolve M d token).2 := by
  rcases resolve_cases M d token with heq | ⟨report, d₁, hreport, hexec, heq | hwon⟩
  · rw [heq]
    exact Resolved.none d token A
  · rw [heq]
    exact (Resolved.reported h hone hreport hexec).1
  · obtain ⟨d₂, stolen, hwon, hloot, heq⟩ := hwon
    rw [heq]
    exact Resolved.won h hone hreport hexec hwon hloot

end Battle

/-! ## Returns -/

section Return

variable {token : ReturnToken}

/-- What a return leaves. -/
structure Returned (d : Db C) (token : ReturnToken) (d' : Db C) : Prop where
  keeps : Keeps d d'
  vaults : d'.villagesStorageResourceTypes = d.villagesStorageResourceTypes
  others : ∀ id, id ≠ token.attackId → d'.attacks.get? id = d.attacks.get? id
  units : ∀ t, IsUnit t → ∃ n, held d' t = held d t + n ∧ war d' t = war d t + -n ∧
    fallen d' t = fallen d t

/-- The tables after a return, of which only the loot may have been given. -/
theorem returned (h : Returning d token a A f) (hone : d.OneRowPerType) (hhoused : Housed d) :
    Returned d token (comeHome d token) := by
  obtain ⟨stolen, hstolen, hloot⟩ := h.loot
  rcases comeHome_cases (d := d) hstolen with hback | heq | heq
  · have hfinal := hback
    obtain ⟨left, values, -, -, heq⟩ := comeBack_eq_some hback hstolen
    obtain ⟨-, hattacks, hvaults⟩ :=
      @frame_giveResourcesToAttacker _ d token.attackerVillageId stolen
    have hupdated : (comeHome d token).attacks = d.attacks.update token.attackId fun a =>
        { a with isTroopHome := true, attackerWon := true } := by
      rw [heq, ← hattacks]
      rfl
    obtain ⟨hmem, hkey⟩ := Table.get?_eq_some.1 h.row
    refine ⟨keeps_comeBack hfinal hstolen, ?_, fun id hne => ?_, fun t ht => ?_⟩
    · rw [heq]
      exact hvaults
    · rw [hupdated]
      exact Table.get?_update_of_ne hne
    · refine ⟨A.count t - f (A.count t), held_comeBack h.army h.casualties h.zero h.rows hstolen
        hloot hone hhoused h.home ht hfinal, ?_, ?_⟩
      · unfold war
        rw [hupdated]
        refine (Table.total_update hmem hkey).trans ?_
        rw [h.away_eq]
        show _ - _ + 0 = _
        ring
      · unfold fallen
        rw [hupdated]
        exact total_update_of_eq d.attacks fun _ => rfl
  · rw [heq]
    exact ⟨Keeps.refl d, rfl, fun _ _ => rfl, fun t _ => ⟨0, by simp, by simp, rfl⟩⟩
  · rw [heq]
    obtain ⟨-, hattacks, hvaults⟩ :=
      @frame_giveResourcesToAttacker _ d token.attackerVillageId stolen
    refine ⟨keeps_giveResourcesToAttacker, hvaults, fun id _ => by rw [hattacks], fun t ht => ?_⟩
    refine ⟨0, ?_, ?_, ?_⟩
    · rw [held_giveResourcesToAttacker ht hloot, add_zero]
    · rw [war_congr hattacks, neg_zero, add_zero]
    · exact fallen_congr hattacks

end Return

end Cme.Game
