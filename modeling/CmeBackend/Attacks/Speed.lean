import CmeBackend.Attacks.Create
import CmeBackend.Exchanges.Conservation
import CmeBackend.Lib.Extremes

/-!
# Travel times

The speed that `AttacksService.create` (`attacks.service.ts`) computes the travel time from, and
that of `exchangeMilitaryResourcesBetweenVillages` (`resources-ms-exchanges.service.ts`). Both are
called the slowest speed of the units. The comparison of the attack is the other way round.

* `slowestSpeed_isGreatest`: an attack is as fast as its fastest unit.
* `slowestSpeed_isLeast`: an exchange is as fast as its slowest unit.
* `travel_times_agree_iff`: the two agree, on the slowest unit, exactly for units of one speed.
-/

namespace Cme.Attacks

open Js GameRules Extremes

variable {C : Catalog}

/-- The speeds of the units with the given names. -/
def speedsOf (names : List String) : Set ℕ :=
  { speed | ∃ m : MilitaryResource, m.name ∈ names ∧ (relatedUnitDescriptors m).speed = speed }

/-- All units with the given names have one speed. -/
def OneSpeed (names : List String) : Prop :=
  ∀ speed ∈ speedsOf names, ∀ speed' ∈ speedsOf names, speed = speed'

theorem speedsOf_congr {names names' : List String} (h : ∀ name, name ∈ names ↔ name ∈ names') :
    speedsOf names = speedsOf names' := by
  ext speed
  simp only [speedsOf, Set.mem_ofPred_eq, h]

/-- The columns of the resource types have the speeds of the descriptors. -/
def SameSpeeds (speedOf : C.Ref → Option ℚ) : Prop :=
  ∀ (t : C.Ref) (m : MilitaryResource), m.name = t.type →
    speedOf t = some ((relatedUnitDescriptors m).speed : ℚ)

/-! ## The attack -/

section Attack

variable {rows : List (VillageResourceType C)} {units : Fields} {slowest speed : ℕ}

/-- The speed that a unit of the request has. -/
def unitSpeed (name : String) : ℕ :=
  ((getRelatedCharacteristic name).map Characteristics.speed).getD 0

theorem checkUnit_speed {name : String} {unit : Json} (h : checkUnit rows name unit = .ok speed) :
    ∃ m : MilitaryResource, m.name = name ∧ (relatedUnitDescriptors m).speed = speed ∧
      unitSpeed name = speed := by
  unfold checkUnit at h
  split at h
  · cases h
  split at h
  · cases h
  obtain ⟨n, -, h⟩ := bind_eq_ok.1 h
  split at h
  · cases h
  split at h
  · cases h
  next characteristics hc =>
    cases h
    obtain ⟨m, hm, rfl⟩ := Option.map_eq_some_iff.1 hc
    refine ⟨m, MilitaryResource.ofName?_eq_some.1 hm, rfl, ?_⟩
    rw [unitSpeed, hc]
    rfl

/-- The loop over the units keeps the greatest speed so far. -/
theorem checkUnits_eq_best (h : checkUnits rows slowest units = .ok speed) :
    speed = best 0 (fun x acc => acc < x) slowest (units.map fun u => unitSpeed u.1) := by
  induction units generalizing slowest with
  | nil => exact (Except.ok.inj h).symm
  | cons u rest ih =>
    obtain ⟨name, unit⟩ := u
    obtain ⟨s, hs, hrest⟩ := bind_eq_ok.1 h
    obtain ⟨-, -, -, hspeed⟩ := checkUnit_speed hs
    rw [ih hrest, List.map_cons]
    show _ = best 0 _ (pick 0 _ slowest (unitSpeed name)) _
    rw [hspeed]
    rfl

/-- The speed of an attack is the greatest one of its units. -/
theorem slowestSpeed_isGreatest (h : checkUnits rows 0 units = .ok slowest) (hne : units ≠ []) :
    IsGreatest (speedsOf (units.map Prod.fst)) slowest := by
  have hunits : ∀ u ∈ units, ∃ m : MilitaryResource, m.name = u.1 ∧
      (relatedUnitDescriptors m).speed = unitSpeed u.1 := by
    intro u hu
    obtain ⟨speed, hspeed⟩ := checkUnits_eq_ok h u hu
    obtain ⟨m, hm, hms, heq⟩ := checkUnit_speed hspeed
    exact ⟨m, hm, hms.trans heq.symm⟩
  -- A greater speed comes first in the dual order.
  have hbest := @best_spec ℕ ℕᵒᵈ _ _ 0 (fun x acc => acc < x) _ OrderDual.toDual
    (units.map fun u => unitSpeed u.1) (fun _ _ => Iff.rfl) (by simpa using hne) fun s hs => by
      obtain ⟨u, hu, rfl⟩ := List.mem_map.1 hs
      obtain ⟨m, -, hm⟩ := hunits u hu
      exact hm ▸ (relatedUnitDescriptors_speed_pos m).ne'
  rw [← checkUnits_eq_best h] at hbest
  constructor
  · obtain ⟨u, hu, heq⟩ := List.mem_map.1 hbest.1
    obtain ⟨m, hm, hms⟩ := hunits u hu
    exact ⟨m, hm ▸ List.mem_map_of_mem hu, hms.trans heq⟩
  · rintro _ ⟨m, hm, rfl⟩
    obtain ⟨u, hu, hname⟩ := List.mem_map.1 hm
    obtain ⟨m', hm', hms⟩ := hunits u hu
    obtain rfl : m' = m := by
      have hof := MilitaryResource.ofName?_name m
      rw [← hname, ← hm', MilitaryResource.ofName?_name] at hof
      exact Option.some.inj hof
    exact OrderDual.toDual_le_toDual.1 (hbest.2 _ (List.mem_map.2 ⟨u, hu, hms.symm⟩))

end Attack

/-! ## The exchange -/

section Exchange

variable {speedOf : C.Ref → Option ℚ} {refs : List C.Ref} {slowest speed : ℚ}

/-- The loop over the resource types keeps the least speed so far. -/
theorem slowestSpeed_eq_best (hspeeds : SameSpeeds speedOf)
    (hmilitary : ∀ t ∈ refs, ∃ m : MilitaryResource, m.name = t.type)
    (h : Exchanges.slowestSpeed speedOf slowest refs = .ok speed) :
    speed = best 0 (fun x acc => x < acc) slowest (refs.map fun t => (unitSpeed t.type : ℚ)) := by
  induction refs generalizing slowest with
  | nil => exact (Except.ok.inj h).symm
  | cons t rest ih =>
    obtain ⟨⟨m, hm⟩, hrest⟩ := List.forall_mem_cons.1 hmilitary
    have hof : MilitaryResource.ofName? t.type = some m := MilitaryResource.ofName?_eq_some.2 hm
    have hunit : unitSpeed t.type = (relatedUnitDescriptors m).speed := by
      rw [unitSpeed, getRelatedCharacteristic, hof]
      rfl
    unfold Exchanges.slowestSpeed at h
    rw [if_pos (by rw [hof]; rfl), hspeeds t m hm] at h
    rw [ih hrest h, List.map_cons, hunit]
    rfl

/-- An id is queued exactly if its type is requested. -/
theorem id_mem_iff {sent : List Exchanges.Sent} {list : List Exchanges.SentMilitary}
    (h : List.Forall₂ (Exchanges.Formats C) sent list) (t : C.Ref) :
    t.id ∈ list.map (·.id) ↔ t.type ∈ sent.map Exchanges.Sent.type := by
  induction h with
  | nil => simp
  | @cons res resource sent list hres _ ih =>
    obtain ⟨u, hu, rfl⟩ := hres
    have htype := Catalog.find?_eq_some.1 hu
    have hiff : t.id = u.id ↔ t.type = res.type := by
      rw [← htype]
      exact ⟨fun heq => congrArg _ (Catalog.Ref.eq_of_id heq),
        fun heq => congrArg _ (Catalog.Ref.eq_of_type heq)⟩
    rw [List.map_cons, List.map_cons, List.mem_cons, List.mem_cons, ih, hiff]

/-- The resource types that are loaded for an exchange are those of the request. -/
theorem findByIds_types {sent : List Exchanges.Sent} {list : List Exchanges.SentMilitary}
    (h : List.Forall₂ (Exchanges.Formats C) sent list) (name : String) :
    name ∈ (Exchanges.findByIds C (list.map (·.id))).map Catalog.Ref.type ↔
      name ∈ sent.map Exchanges.Sent.type := by
  have hfind : ∀ t : C.Ref, t ∈ Exchanges.findByIds C (list.map (·.id)) ↔
      t.type ∈ sent.map Exchanges.Sent.type := by
    intro t
    rw [← id_mem_iff h t, Exchanges.findByIds, List.mem_filter]
    exact ⟨fun ht => of_decide_eq_true ht.2, fun ht => ⟨List.mem_attach _ _, decide_eq_true ht⟩⟩
  constructor
  · intro hname
    obtain ⟨t, ht, rfl⟩ := List.mem_map.1 hname
    exact (hfind t).1 ht
  · intro hname
    obtain ⟨res, hres, rfl⟩ := List.mem_map.1 hname
    obtain ⟨t, ht⟩ := Exchanges.exists_type h res hres
    rw [← Catalog.find?_eq_some.1 ht] at hname ⊢
    exact List.mem_map_of_mem ((hfind t).2 hname)

/-- The speed of an exchange is the least one of its units. -/
theorem slowestSpeed_isLeast (hspeeds : SameSpeeds speedOf)
    (hmilitary : ∀ t ∈ refs, ∃ m : MilitaryResource, m.name = t.type) (hne : refs ≠ [])
    (h : Exchanges.slowestSpeed speedOf 0 refs = .ok speed) :
    ∃ n : ℕ, speed = n ∧ IsLeast (speedsOf (refs.map Catalog.Ref.type)) n := by
  have hunit : ∀ (t : C.Ref) (m : MilitaryResource), m.name = t.type →
      (relatedUnitDescriptors m).speed = unitSpeed t.type := by
    intro t m hm
    rw [unitSpeed, getRelatedCharacteristic, MilitaryResource.ofName?_eq_some.2 hm]
    rfl
  have hbest := @best_spec ℚ ℚ _ _ 0 (fun x acc => x < acc) _ id
    (refs.map fun t => (unitSpeed t.type : ℚ)) (fun _ _ => Iff.rfl) (by simpa using hne)
    fun s hs => by
      obtain ⟨t, ht, rfl⟩ := List.mem_map.1 hs
      obtain ⟨m, hm⟩ := hmilitary t ht
      rw [← hunit t m hm]
      exact_mod_cast (relatedUnitDescriptors_speed_pos m).ne'
  rw [← slowestSpeed_eq_best hspeeds hmilitary h] at hbest
  obtain ⟨t, ht, heq⟩ := List.mem_map.1 hbest.1
  obtain ⟨m, hm⟩ := hmilitary t ht
  refine ⟨unitSpeed t.type, heq.symm, ⟨m, ?_, hunit t m hm⟩, ?_⟩
  · exact hm ▸ List.mem_map_of_mem ht
  · rintro _ ⟨m', hm', rfl⟩
    obtain ⟨t', ht', hname⟩ := List.mem_map.1 hm'
    have hle : speed ≤ (unitSpeed t'.type : ℚ) := hbest.2 _ (List.mem_map_of_mem ht')
    rw [hunit t' m' hname.symm]
    rw [← heq] at hle
    exact_mod_cast hle

/-- The types of an exchange without a forbidden one are those of units. -/
theorem formatMilitary_military {sent : List Exchanges.Sent} {acc formatted : List Exchanges.SentMilitary}
    {forbidden : Bool} (h : Exchanges.formatMilitary C acc forbidden sent = .ok (formatted, false)) :
    forbidden = false ∧ ∀ res ∈ sent, ∃ m : MilitaryResource, m.name = res.type := by
  induction sent generalizing acc forbidden with
  | nil =>
    cases h
    exact ⟨rfl, fun res hres => by cases hres⟩
  | cons res rest ih =>
    unfold Exchanges.formatMilitary at h
    split at h
    · cases h
    split at h
    · cases h
    obtain ⟨hor, hrest⟩ := ih h
    obtain ⟨hforbidden, hres⟩ := Bool.or_eq_false_iff.1 hor
    obtain ⟨m, hm⟩ := Option.isSome_iff_exists.1 (Option.isNone_eq_false_iff.1 hres)
    exact ⟨hforbidden, List.forall_mem_cons.2 ⟨⟨m, MilitaryResource.ofName?_eq_some.1 hm⟩, hrest⟩⟩

/-- The speed that an exchange computes its travel time from. -/
theorem formatMilitaryExchange_speed {M : Math} {sender receiver : LoadedVillage C}
    {sent : List Exchanges.Sent} {e : Exchanges.CheckedMilitary C} (hspeeds : SameSpeeds speedOf)
    (h : Exchanges.formatMilitaryExchange M speedOf sender receiver sent = .ok e) :
    ∃ n : ℕ, IsLeast (speedsOf (sent.map Exchanges.Sent.type)) n ∧ e.travelTime =
      Exchanges.computeTravelTime (Exchanges.distance M sender.village receiver.village) n := by
  obtain ⟨⟨formatted, forbidden⟩, hformat, h⟩ := bind_eq_ok.1 h
  simp only at h
  split at h
  · cases h
  next hallowed =>
  obtain rfl := Bool.eq_false_of_not_eq_true hallowed
  split at h
  · cases h
  next hsome =>
  obtain ⟨enough, -, h⟩ := bind_eq_ok.1 h
  split at h
  · cases h
  obtain ⟨slowest, hslowest, h⟩ := bind_eq_ok.1 h
  obtain rfl := Except.ok.inj h
  obtain ⟨-, hmilitary⟩ := formatMilitary_military hformat
  obtain ⟨list, hnil, hlist⟩ := Exchanges.formatMilitary_eq_ok hformat
  obtain rfl : formatted = list := hnil
  have hnames := findByIds_types hlist
  have hrefs : ∀ t ∈ Exchanges.findByIds C (formatted.map (·.id)), ∃ m : MilitaryResource,
      m.name = t.type := by
    intro t ht
    obtain ⟨res, hres, htype⟩ := List.mem_map.1 ((hnames t.type).1 (List.mem_map_of_mem ht))
    exact htype ▸ hmilitary res hres
  have hne : Exchanges.findByIds C (formatted.map (·.id)) ≠ [] := by
    intro hnil
    rw [hnil] at hnames
    cases hlist with
    | nil => exact hsome rfl
    | cons _ _ => exact List.not_mem_nil ((hnames _).2 List.mem_cons_self)
  obtain ⟨n, rfl, hn⟩ := slowestSpeed_isLeast hspeeds hrefs hne hslowest
  refine ⟨n, ?_, rfl⟩
  rwa [speedsOf_congr hnames] at hn

end Exchange

/-! ## The two paths -/

/-- The speed that `create` computes the travel time from. -/
theorem create_speed {M : Math} {dev : Bool} {clock : Clock} {d : Db C} {dto : CreateAttackDto}
    {dep : Departure C} {attackerVillage defenderVillage : Village}
    (hattacker : d.villages.get? dto.attackerVillageId = some attackerVillage)
    (hdefender : d.villages.get? dto.defenderVillageId = some defenderVillage)
    (h : create M dev clock d dto = .ok dep) :
    ∃ slowest, checkUnits (d.rowsOf dto.attackerVillageId) 0 dto.keptUnits = .ok slowest ∧
      IsGreatest (speedsOf (dto.keptUnits.map Prod.fst)) slowest ∧
      dep.token.travelTime = computeAttackTime (distance M attackerVillage defenderVillage)
        slowest dev dto.attackTimeMode := by
  obtain ⟨village, village', slowest, hchecked, rfl⟩ := checked_of_create h
  obtain rfl := Option.some.inj (hchecked.attacker.symm.trans hattacker)
  obtain rfl := Option.some.inj (hchecked.defender.symm.trans hdefender)
  have hid : village.id = dto.attackerVillageId := (Table.get?_eq_some.1 hattacker).2
  have hslowest := hchecked.units
  rw [hid] at hslowest
  exact ⟨slowest, hslowest, slowestSpeed_isGreatest hslowest hchecked.sent, rfl⟩

theorem isLeast_isGreatest_iff {names : List String} {slowest : ℕ}
    (h : IsGreatest (speedsOf names) slowest) :
    IsLeast (speedsOf names) slowest ↔ OneSpeed names := by
  constructor
  · intro hleast speed hspeed speed' hspeed'
    have hconst : ∀ speed ∈ speedsOf names, speed = slowest := fun speed hspeed =>
      le_antisymm (h.2 hspeed) (hleast.2 hspeed)
    rw [hconst speed hspeed, hconst speed' hspeed']
  · exact fun hone => ⟨h.1, fun speed hspeed => (hone slowest h.1 speed hspeed).le⟩

/-- The time of an attack in the default mode. -/
theorem computeAttackTime_default {length : Number} {slowest : ℕ} {dev : Bool}
    {mode : Option DevTravelTimeMode} (hmode : mode.getD .default = .default) :
    computeAttackTime length slowest dev mode = Exchanges.computeTravelTime length slowest := by
  unfold computeAttackTime
  rw [hmode]
  exact if_neg fun h => by cases h.2

/-- Two pairs of villages are equally far from each other. -/
def SameDistance (attackerVillage defenderVillage sender receiver : Village) : Prop :=
  (defenderVillage.x - attackerVillage.x) ^ 2 + (defenderVillage.y - attackerVillage.y) ^ 2 =
    (sender.x - receiver.x) ^ 2 + (sender.y - receiver.y) ^ 2

instance (attackerVillage defenderVillage sender receiver : Village) :
    Decidable (SameDistance attackerVillage defenderVillage sender receiver) :=
  inferInstanceAs (Decidable (_ = _))

/-- An attack in the default mode is computed from the least speed of its units, and takes as long
as an exchange of the same units over the same distance, exactly if all of them have one speed. -/
theorem travel_times_agree_iff {M : Math} {dev : Bool} {clock : Clock} {d : Db C}
    {dto : CreateAttackDto} {dep : Departure C} {attackerVillage defenderVillage : Village}
    {speedOf : C.Ref → Option ℚ} {sender receiver : LoadedVillage C} {sent : List Exchanges.Sent}
    {e : Exchanges.CheckedMilitary C}
    (hattacker : d.villages.get? dto.attackerVillageId = some attackerVillage)
    (hdefender : d.villages.get? dto.defenderVillageId = some defenderVillage)
    (hattack : create M dev clock d dto = .ok dep)
    (hmode : dto.attackTimeMode.getD .default = .default)
    (hspeeds : SameSpeeds speedOf)
    (hexchange : Exchanges.formatMilitaryExchange M speedOf sender receiver sent = .ok e)
    (hunits : ∀ name, name ∈ dto.keptUnits.map Prod.fst ↔ name ∈ sent.map Exchanges.Sent.type)
    (hdistance : SameDistance attackerVillage defenderVillage sender.village receiver.village) :
    (∃ slowest, checkUnits (d.rowsOf dto.attackerVillageId) 0 dto.keptUnits = .ok slowest ∧
        IsLeast (speedsOf (dto.keptUnits.map Prod.fst)) slowest ∧
        dep.token.travelTime = e.travelTime) ↔
      OneSpeed (dto.keptUnits.map Prod.fst) := by
  obtain ⟨slowest, hslowest, hgreatest, htime⟩ := create_speed hattacker hdefender hattack
  obtain ⟨n, hleast, htime'⟩ := formatMilitaryExchange_speed hspeeds hexchange
  rw [← speedsOf_congr hunits] at hleast
  constructor
  · rintro ⟨slowest', hslowest', hleast', -⟩
    obtain rfl := Except.ok.inj (hslowest.symm.trans hslowest')
    exact (isLeast_isGreatest_iff hgreatest).1 hleast'
  · intro hone
    obtain rfl : slowest = n := hone slowest hgreatest.1 n hleast.1
    refine ⟨slowest, hslowest, hleast, ?_⟩
    have hlength : distance M attackerVillage defenderVillage =
        Exchanges.distance M sender.village receiver.village := by
      unfold distance Exchanges.distance
      congr 2
      exact_mod_cast hdistance
    rw [htime, htime', computeAttackTime_default hmode, hlength]

/-! ## A hunter and a slinger -/

/-- Village 1 has 30 stone hunters and 20 stone slingers. -/
def sampleArmy : Db sampleCatalog :=
  { sampleDb with
    villagesResourceTypes :=
      { rows := [⟨1, some 1, stoneHunter, 30⟩, ⟨2, some 1, stoneSlinger, 20⟩,
          ⟨3, some 2, stoneHunter, 12⟩]
        next := 4
        nodup := by decide
        lt_next := by decide } }

/-- Village 1 attacks village 2 with 2 stone hunters and 3 stone slingers. -/
def sampleMixed : CreateAttackDto where
  attackerVillageId := 1
  defenderVillageId := 2
  unitSent :=
    ⟨[("stone_hunter", .obj [("unitTypeId", .num (.fin 5)), ("count", .num (.fin 2))]),
      ("stone_slinger", .obj [("unitTypeId", .num (.fin 6)), ("count", .num (.fin 3))])],
      by decide⟩
  attackTimeMode := none

/-- The same units. -/
def sampleMoved : List Exchanges.Sent := [⟨"stone_hunter", 2⟩, ⟨"stone_slinger", 3⟩]

/-- The speeds of the descriptors. -/
def sampleSpeeds (t : sampleCatalog.Ref) : Option ℚ :=
  (MilitaryResource.ofName? t.type).map fun m => ((relatedUnitDescriptors m).speed : ℚ)

theorem sameSpeeds_sampleSpeeds : SameSpeeds sampleSpeeds := by
  intro t m hm
  rw [sampleSpeeds, MilitaryResource.ofName?_eq_some.2 hm]
  rfl

/-- They move to another village of user 1, which is as far as village 2. -/
def sampleMove : Except Exchanges.ExchangeEnd (Exchanges.CheckedMilitary sampleCatalog) :=
  Exchanges.formatMilitaryExchange sampleMath sampleSpeeds
    ⟨⟨1, some 1, 0, 0, 0, 0⟩, sampleArmy.rowsOf 1⟩ ⟨⟨3, some 1, 0, 5, 0, 0⟩, []⟩ sampleMoved

theorem travel_times_agree_iff_sample :
    ∃ dep e, create sampleMath false sampleClock sampleArmy sampleMixed = .ok dep ∧
      sampleMove = .ok e ∧
      ((∃ slowest, checkUnits (sampleArmy.rowsOf 1) 0 sampleMixed.keptUnits = .ok slowest ∧
          IsLeast (speedsOf (sampleMixed.keptUnits.map Prod.fst)) slowest ∧
          dep.token.travelTime = e.travelTime) ↔
        OneSpeed (sampleMixed.keptUnits.map Prod.fst)) := by
  obtain ⟨dep, hdep⟩ : ∃ dep, create sampleMath false sampleClock sampleArmy sampleMixed = .ok dep :=
    exists_of_isOk (by decide +kernel)
  obtain ⟨e, he⟩ : ∃ e, sampleMove = .ok e := exists_of_isOk (by decide +kernel)
  have hkept : sampleMixed.keptUnits.map Prod.fst = sampleMoved.map Exchanges.Sent.type := by
    decide +kernel
  have hunits : ∀ name, name ∈ sampleMixed.keptUnits.map Prod.fst ↔
      name ∈ sampleMoved.map Exchanges.Sent.type := fun name => by rw [hkept]
  exact ⟨dep, e, hdep, he, @travel_times_agree_iff sampleCatalog sampleMath false sampleClock
    sampleArmy sampleMixed dep ⟨1, some 1, 0, 0, 0, 0⟩ ⟨2, some 2, 3, 4, 0, 0⟩ sampleSpeeds _ _
    sampleMoved e rfl rfl hdep rfl sameSpeeds_sampleSpeeds he hunits (by decide)⟩

/-- The hunters have speed 6 and the slingers 12. The attack takes 25 seconds and the move 50. -/
theorem fastest_unit_leads :
    ∃ dep e, create sampleMath false sampleClock sampleArmy sampleMixed = .ok dep ∧
      sampleMove = .ok e ∧
      checkUnits (sampleArmy.rowsOf 1) 0 sampleMixed.keptUnits = .ok 12 ∧
      ¬IsLeast (speedsOf (sampleMixed.keptUnits.map Prod.fst)) 12 ∧
      dep.token.travelTime = .fin 25000 ∧ e.travelTime = .fin 50000 := by
  obtain ⟨dep, hdep⟩ : ∃ dep, create sampleMath false sampleClock sampleArmy sampleMixed = .ok dep :=
    exists_of_isOk (by decide +kernel)
  obtain ⟨e, he⟩ : ∃ e, sampleMove = .ok e := exists_of_isOk (by decide +kernel)
  have hattack : (create sampleMath false sampleClock sampleArmy sampleMixed).map
      (fun dep => dep.token.travelTime) = .ok (.fin 25000) := by decide +kernel
  have hmove : sampleMove.map (fun e => e.travelTime) = .ok (.fin 50000) := by decide +kernel
  rw [hdep] at hattack
  rw [he] at hmove
  have hhunter : 6 ∈ speedsOf (sampleMixed.keptUnits.map Prod.fst) :=
    ⟨.stoneHunter, by decide +kernel, rfl⟩
  refine ⟨dep, e, hdep, he, by decide +kernel, fun hleast => ?_, Except.ok.inj hattack,
    Except.ok.inj hmove⟩
  have hle : 12 ≤ 6 := hleast.2 hhunter
  omega

end Cme.Attacks
