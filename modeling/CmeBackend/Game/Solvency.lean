import CmeBackend.Battles.Capacity
import CmeBackend.Exchanges.Availability
import CmeBackend.Game.Armies
import CmeBackend.Villages.Solvency

/-!
# No village goes into debt

The counts of all villages and of all vaults, over all steps of the game in any order. What a step
takes has been checked against the row that it is taken from, and nothing comes in between, or no step
checks it (`Affordable`).

* `nonNegative_create`, `nonNegative_resolve`, `nonNegative_comeHome` and so on: one step each.
* `Solvent`: the invariant, with what is under way.
* `counts_nonneg`: in every run of affordable requests, no count is below zero.
-/

namespace Cme.Game

open Js GameRules Attacks Battles Production Production.Lifecycle Runs
open Solvency (NonNegative Withdrawal nonNegative_subtract_iff)

variable {C : Catalog} {e : Env C} {w w' : World C} {d d' d₁ : Db C} {v k : ℕ} {t : C.Ref}
  {values : List (ℕ × ℚ)}

/-! ## Statements -/

theorem nonNegative_of_eq (h : d'.villagesResourceTypes = d.villagesResourceTypes)
    (hnn : NonNegative d) : NonNegative d' := by
  unfold NonNegative
  rw [h]
  exact hnn

theorem nonNegative_setCounts {f : VillageResourceType C → ℤ}
    (h : ∀ r ∈ d.villagesResourceTypes.rows, 0 ≤ f r) : NonNegative (d.setCounts f) := by
  intro r hr
  obtain ⟨r₀, hr₀, rfl⟩ := List.mem_map.1 hr
  exact h r₀ hr₀

theorem nonNegative_addToCounts (h : NonNegative d) (hvalues : ∀ p ∈ values, 0 ≤ p.2) :
    NonNegative (d.addToCounts v values) := by
  refine nonNegative_setCounts fun r hr => ?_
  have hcount := h r hr
  split
  · split
    next x hx =>
      have hx : 0 ≤ x := hvalues _ (mem_of_lookup hx)
      have hcast : (0 : ℚ) ≤ r.count := by exact_mod_cast hcount
      exact Sql.toInteger_nonneg_iff.2 (by linarith)
    · exact hcount
  · exact hcount

theorem nonNegative_saveEntities {entities : List (Entity C)} (h : NonNegative d)
    (hentities : ∀ e ∈ entities, 0 ≤ e.count) : NonNegative (d.saveEntities entities) := by
  refine nonNegative_setCounts fun r hr => ?_
  split
  next e he => exact hentities e (List.mem_of_find?_eq_some he)
  next => exact h r hr

theorem nonNegative_insertCount {n : ℤ} (h : NonNegative d) (hn : 0 ≤ n) :
    NonNegative (d.insertCount v t n) := by
  intro r hr
  rcases Table.mem_insert.1 hr with hr | rfl
  · exact h r hr
  · exact hn

/-- The one row of a type in a village. -/
theorem row_unique (hone : d.OneRowPerType) {r r' : VillageResourceType C} (hr : r ∈ d.rowsOf v)
    (hr' : r' ∈ d.rowsOf v) (ht : r'.resourceType = r.resourceType) : r' = r := by
  have hle := hone.length_le v r.resourceType
  have hmem : r ∈ d.rowsOfType v r.resourceType := List.mem_filter.2 ⟨hr, decide_eq_true rfl⟩
  have hmem' : r' ∈ d.rowsOfType v r.resourceType := List.mem_filter.2 ⟨hr', decide_eq_true ht⟩
  match hrows : d.rowsOfType v r.resourceType, hle with
  | [], _ => rw [hrows] at hmem; cases hmem
  | [r₀], _ =>
    rw [hrows, List.mem_singleton] at hmem hmem'
    rw [hmem, hmem']

/-- A statement takes amounts that rows of the village hold. -/
theorem nonNegative_subtract (h : NonNegative d) (hone : d.OneRowPerType)
    (hvalues : ∀ p ∈ values, ∃ r ∈ d.rowsOf v, r.resourceType.id = p.1 ∧ p.2 ≤ r.count) :
    NonNegative (d.subtractFromCounts v values) := by
  have hbacked : Withdrawal.Backed ⟨v, values, d.rowsOf v⟩ := hvalues
  refine (nonNegative_subtract_iff h).2 (hbacked.covered fun r hr _ r' hr' ht => ?_)
  rw [row_unique hone hr hr' ht]

/-! ## Attacks -/

section Attack

variable {M : Math} {dev : Bool} {c : Clock} {dto : CreateAttackDto} {dep : Departure C}

/-- An army is one that its village has. -/
theorem nonNegative_create (h : create M dev c d dto = .ok dep) (hone : d.OneRowPerType)
    (hformat : ∀ u ∈ dto.keptUnits, WellFormatted C u.1 u.2) (hnn : NonNegative d) :
    NonNegative dep.db := by
  obtain ⟨attackerVillage, defenderVillage, travelTime, ha, -, -, havailable, rfl⟩ :=
    create_eq_ok h
  have hrows : (depart c d attackerVillage defenderVillage dto.keptUnits
      travelTime).db.villagesResourceTypes =
        (saveCounts d attackerVillage.id (leftDuringAttack dto.keptUnits)).villagesResourceTypes := by
    have hinsert : ∀ time, (insertAttack d attackerVillage defenderVillage dto.keptUnits time).rowsOf
        attackerVillage.id = d.rowsOf attackerVillage.id := fun _ => rfl
    simp only [depart, saveCounts, hinsert]
    split <;> rfl
  refine nonNegative_of_eq hrows ?_
  rw [saveCounts_eq hformat]
  refine nonNegative_setCounts fun r hr => ?_
  have hcount := hnn r hr
  split
  next hv =>
    rw [unitsLeft_eq hformat, sub_nonneg]
    unfold Battles.countIn
    cases hl : dto.keptUnits.lookup r.resourceType.type with
    | none => exact hcount
    | some unit =>
      obtain ⟨t, n, hdoc⟩ := hformat _ (mem_of_lookup hl)
      obtain ⟨t', x, m, hav⟩ := havailable _ (mem_of_lookup hl)
      obtain ⟨rfl, rfl⟩ := hav.eq_of_documented hdoc
      obtain ⟨r', hr', hle⟩ := hav.le_countOf
      obtain ⟨hmem, ht⟩ := Db.rowOf_eq_some hr'
      have ht : r'.resourceType = r.resourceType := ht.trans (Catalog.Ref.eq_of_type hdoc.type)
      rw [Db.countOf_of_rowOf hr',
        row_unique hone (Db.mem_rowsOf.2 ⟨hr, ha ▸ hv⟩) hmem ht] at hle
      simpa [hdoc.count] using hle
  next => exact hcount

end Attack

/-! ## Battles and returns -/

section Battle

variable {M : Math} {token : AttackToken} {back : ReturnToken} {report : AttackReport} {a : Attack}
  {A : Army C} {f : ℤ → ℤ} {stolen : List StolenResource} {attackId : ℕ} {units : Fields}

/-- Of the defender's units no more fall than there are. -/
theorem nonNegative_execReportQuery (hreport : battleReport M d token = some report)
    (h : execReportQuery d report = some d') (hone : d.OneRowPerType) (hnn : NonNegative d) :
    NonNegative d' := by
  obtain ⟨-, casualties, hvalues, rfl⟩ := execReportQuery_eq_some h
  have htaken : NonNegative (d.subtractFromCounts report.defenderVillageId casualties) := by
    refine nonNegative_subtract hnn hone fun p hp => ?_
    obtain ⟨r, hr, -, hle⟩ := casualty_le hreport hvalues hp
    exact ⟨r, hr, hle⟩
  exact nonNegative_of_eq rfl htaken

/-- No more is looted than there is. -/
theorem nonNegative_updateDefenderStolenResources (hone : d.OneRowPerType) (hnn : NonNegative d)
    (h : updateDefenderStolenResources d attackId v units = some (d', stolen)) :
    NonNegative d' := by
  rw [updateDefenderStolenResources_eq] at h
  obtain ⟨stolen', hstolen, h⟩ := Option.bind_eq_some_iff.1 h
  obtain ⟨d₁, htake, h⟩ := Option.map_eq_some_iff.1 h
  obtain ⟨values, hvalues, rfl⟩ := Option.map_eq_some_iff.1 htake
  obtain ⟨rfl, rfl⟩ := Prod.mk.inj h
  exact nonNegative_of_eq rfl
    (nonNegative_subtract hnn hone fun p hp => stolen_le hstolen hvalues hp)

theorem counted_of_represents (h : Represents units A.units) (hpos : ∀ u ∈ A.units, 0 < u.2) :
    Counted units := by
  revert hpos
  unfold Represents at h
  generalize A.units = army at h
  intro hpos
  induction h with
  | nil => exact fun u hu => by cases hu
  | @cons u a units army hdoc _ ih =>
    obtain ⟨ha, hrest⟩ := List.forall_mem_cons.1 hpos
    refine List.forall_mem_cons.2 ⟨⟨a.2, ?_, unitCount?_of_documented hdoc⟩, ih hrest⟩
    exact_mod_cast ha.le

theorem shareOf_nonneg {x : ℚ} (hx : 0 ≤ x) (r : VillageResourceType C) : 0 ≤ shareOf x r := by
  have hload : (0 : ℚ) ≤ genericLoadCapacity := by norm_num [genericLoadCapacity]
  have haverage : 0 ≤ ⌊genericLoadCapacity * x / 4⌋ := Int.floor_nonneg.2 (by positivity)
  unfold shareOf
  dsimp only
  split
  · exact Int.floor_nonneg.2 (div_nonneg (by exact_mod_cast haverage) (by norm_num))
  · exact haverage

/-- The loot of a token is not below zero. -/
def Loots (token : ReturnToken) : Prop :=
  ∀ stolen values, token.stolenResources = some stolen → stolenValues? stolen = some values →
    ∀ p ∈ values, 0 ≤ p.2

theorem loots_returnToken (hunits : Counted report.attackerUnits) (hnn : NonNegative d)
    (h : stolenResources d v report.attackerUnits = some stolen) :
    Loots (report.returnToken stolen) := by
  rintro _ values ⟨⟩ hvalues p hp
  rw [stolenResources_eq hunits] at h
  obtain ⟨s, hs, hcount, -⟩ := mem_stolenValues? hvalues hp
  obtain rfl := Option.some.inj h
  obtain ⟨r, hr, rfl⟩ := List.mem_map.1 hs
  have hunits : 0 ≤ unitsIn report.attackerUnits := by
    refine List.sum_nonneg fun x hx => ?_
    obtain ⟨u, hu, rfl⟩ := List.mem_map.1 hx
    obtain ⟨x, hx, hunit⟩ := hunits u hu
    rwa [finiteCount_of_unitCount? hunit]
  have hstock := hnn r (Db.mem_rowsOf.1 (List.mem_filter.1 hr).1).1
  rw [← Number.fin.inj hcount]
  exact_mod_cast le_min (shareOf_nonneg hunits r) hstock

theorem nonNegative_resolve (M : Math) (h : Marching d token a A) (hone : d.OneRowPerType)
    (hhoused : Housed d) (hnn : NonNegative d) :
    NonNegative (resolve M d token).1 ∧ ∀ token' ∈ (resolve M d token).2, Loots token' := by
  rcases resolve_cases M d token with heq | ⟨report, d₁, hreport, hexec, heq | hwon⟩
  · rw [heq]
    exact ⟨hnn, fun token' htoken => by cases htoken⟩
  · rw [heq]
    exact ⟨nonNegative_execReportQuery hreport hexec hone hnn, fun token' htoken => by cases htoken⟩
  · obtain ⟨d₂, stolen, -, hloot, heq⟩ := hwon
    rw [heq]
    have hnn₁ := nonNegative_execReportQuery hreport hexec hone hnn
    have hone₁ := ((keeps_execReportQuery hexec).oneRow hone hhoused).1
    refine ⟨nonNegative_updateDefenderStolenResources hone₁ hnn₁ hloot, ?_⟩
    rintro token' ⟨⟩
    obtain ⟨f, -, -, harmy, -⟩ := fought h hreport
    rw [updateDefenderStolenResources_eq] at hloot
    obtain ⟨stolen', hstolen, hloot⟩ := Option.bind_eq_some_iff.1 hloot
    obtain ⟨d₃, -, hloot⟩ := Option.map_eq_some_iff.1 hloot
    obtain ⟨rfl, rfl⟩ := Prod.mk.inj hloot
    exact loots_returnToken (counted_of_represents harmy h.pos) hnn₁ hstolen

/-- What comes home is an army without its casualties, and loot. -/
theorem nonNegative_comeHome (h : Returning d back a A f) (hloots : Loots back)
    (hnn : NonNegative d) : NonNegative (comeHome d back) := by
  obtain ⟨stolen, hstolen, -⟩ := h.loot
  have hgive : NonNegative (giveResourcesToAttacker d stolen back.attackerVillageId) := by
    unfold giveResourcesToAttacker
    split
    next values hvalues =>
      exact nonNegative_addToCounts hnn fun p hp => hloots stolen values hstolen hvalues p hp
    next => exact hnn
  rcases comeHome_cases (d := d) hstolen with hback | heq | heq
  · obtain ⟨left, values, hleft, hvalues, heq⟩ := comeBack_eq_some hback hstolen
    have hsurvivors := h.army.roundTrip.subtract h.casualties.roundTrip hleft
    rw [heq]
    refine nonNegative_of_eq rfl (nonNegative_addToCounts hgive fun p hp => ?_)
    rw [hsurvivors.sqlValues?] at hvalues
    obtain rfl := Option.some.inj hvalues
    obtain ⟨_, hb, rfl⟩ := List.mem_map.1 hp
    obtain ⟨u, -, rfl⟩ := List.mem_map.1 hb
    have hleft : (0 : ℤ) ≤ u.2 - f u.2 := sub_nonneg.2 (h.le u.2)
    exact Int.cast_nonneg hleft
  · rw [heq]
    exact hnn
  · rw [heq]
    exact hgive

end Battle

/-! ## Exchanges -/

section Exchange

open Exchanges

variable {req : Exchanges.Request} {c : CheckedMilitary C} {item : QueueItem}
  {rows : List (VillageResourceType C)} {found : List (Entity C)} {resources : List SentMilitary}

theorem exists_sent {sent : List Sent} {list : List SentMilitary}
    (h : List.Forall₂ (Formats C) sent list) :
    ∀ resource ∈ list, ∃ res ∈ sent, Formats C res resource := by
  induction h with
  | nil => exact fun resource hresource => by cases hresource
  | @cons res resource _ _ hres _ ih =>
    refine List.forall_mem_cons.2 ⟨⟨res, List.mem_cons_self, hres⟩, fun resource' h => ?_⟩
    obtain ⟨res', hres', hformats⟩ := ih resource' h
    exact ⟨res', List.mem_cons_of_mem _ hres', hformats⟩

theorem nonNegative_send (h : Sends d req c) (hnn : NonNegative d)
    (henough : ∀ res ∈ req.sentResources, ∀ r ∈ d.rowsOf req.senderVillageId,
      r.resourceType.type = res.type → res.count ≤ r.count) :
    NonNegative (d.saveEntities c.senderLeft) := by
  have hall : Enough (d.rowsOf c.sender.village.id) c.formatted := by
    intro resource hresource r hr hid
    obtain ⟨res, hres, t, ht, rfl⟩ := exists_sent h.accepted.formatted resource hresource
    refine henough res hres r (h.senderId ▸ hr) ?_
    rw [Catalog.Ref.eq_of_id hid]
    exact Catalog.find?_eq_some.1 ht
  refine nonNegative_saveEntities hnn fun e he => ?_
  unfold CheckedMilitary.senderLeft at he
  rw [h.accepted.rows] at he
  obtain ⟨r, hr, rfl⟩ := List.mem_map.1 he
  show 0 ≤ removeMiliteryResourcesToVillage c.formatted r
  rw [removeMiliteryResourcesToVillage_eq]
  exact sub_nonneg.2 (firstOf_le hall hr (hnn r (Db.mem_rowsOf.1 hr).1))

theorem push_nonneg {r : VillageResourceType C} {n : ℤ} (h : ∀ e ∈ found, 0 ≤ e.count)
    (hr : 0 ≤ r.count) (hn : 0 ≤ n) : ∀ e ∈ push found r n, 0 ≤ e.count := by
  unfold push
  split
  · intro e he
    obtain ⟨e', he', rfl⟩ := List.mem_map.1 he
    have hcount := h e' he'
    unfold Table.patch
    split
    · exact add_nonneg hcount hn
    · exact hcount
  · intro e he
    rcases List.mem_append.1 he with he | he
    · exact h e he
    · rw [List.mem_singleton.1 he]
      exact add_nonneg hr hn

theorem found_nonneg (hrows : ∀ r ∈ rows, 0 ≤ r.count)
    (h : ∀ resource ∈ resources, 0 ≤ resource.count) :
    ∀ e ∈ (Exchanges.deliver rows resources).found, 0 ≤ e.count := by
  suffices hfold : ∀ data : Delivery C, (∀ e ∈ data.found, 0 ≤ e.count) →
      ∀ e ∈ (resources.foldl (addResource rows) data).found, 0 ≤ e.count from
    hfold _ fun e he => by cases he
  induction resources with
  | nil => exact fun data hdata => hdata
  | cons resource rest ih =>
    intro data hdata
    obtain ⟨hresource, hrest⟩ := List.forall_mem_cons.1 h
    refine ih hrest _ ?_
    unfold addResource
    split
    next r hr => exact push_nonneg hdata (hrows r (findResource_eq_some hr).1) hresource
    next => exact hdata

theorem nonNegative_insertResources {created : List SentMilitary}
    (h : created.foldlM (insertResource v) d = some d') (hnn : NonNegative d)
    (hcreated : ∀ resource ∈ created, 0 ≤ resource.count) : NonNegative d' := by
  induction created generalizing d with
  | nil =>
    cases h
    exact hnn
  | cons resource rest ih =>
    obtain ⟨hresource, hrest⟩ := List.forall_mem_cons.1 hcreated
    obtain ⟨d₁, h₁, h⟩ := Option.bind_eq_some_iff.1 h
    obtain ⟨t, -, h₁⟩ := Option.bind_eq_some_iff.1 h₁
    obtain ⟨village, -, h₁⟩ := Option.bind_eq_some_iff.1 h₁
    cases h₁
    exact ih h (nonNegative_insertCount hnn hresource) hrest

/-- An item adds what it has to the village of the receiver, or to that of the sender. -/
theorem nonNegative_deliver (hnn : NonNegative d)
    (h : ∀ resource ∈ item.resources, 0 ≤ resource.count) : NonNegative (deliver d item) := by
  have hrows : ∀ v, ∀ r ∈ d.rowsOf v, 0 ≤ r.count := fun v r hr => hnn r (Db.mem_rowsOf.1 hr).1
  unfold deliver
  cases hreceive : receive d item with
  | some d' =>
    refine nonNegative_insertResources hreceive
      (nonNegative_saveEntities hnn (found_nonneg (hrows _) h)) fun resource hr => ?_
    rw [created_sublist] at hr
    exact h resource (List.mem_filter.1 hr).1
  | none =>
    show NonNegative (giveBack d item)
    unfold giveBack
    rw [revert_eq]
    exact nonNegative_saveEntities hnn (found_nonneg (hrows _) h)

/-- The sender has what is checked of it, and the receiver loses nothing. -/
theorem nonNegative_exchange (hone : d.OneRowPerType) (hnn : NonNegative d)
    (hcounts : ∀ res ∈ req.sentResources, 0 ≤ res.count) :
    NonNegative (exchangeResourcesBetweenSameUserVillages d req).1 := by
  by_cases h : Passes d req
  · obtain ⟨c, hc⟩ := h.exists_checked
    obtain ⟨-, hs, hr, hformatted⟩ := passes_of_checked hc
    have hexchange : exchangeResourcesBetweenSameUserVillages d req =
        ((d.saveEntities c.senderLeft).saveEntities c.receiverTotal, .ok ()) := by
      unfold exchangeResourcesBetweenSameUserVillages Rejections.exchange
      rw [hc]
      rfl
    rw [hexchange]
    refine nonNegative_saveEntities (nonNegative_saveEntities hnn fun e he => ?_) fun e he => ?_
    · unfold CheckedExchange.senderLeft at he
      rw [hs] at he
      obtain ⟨r, hr, rfl⟩ := List.mem_map.1 he
      show 0 ≤ addOrRemoveResourcesToVillage _ true r
      rw [addOrRemove_eq hformatted, if_pos rfl]
      cases hn : lastCount req.sentResources r.resourceType.type with
      | none => simpa using hnn r (Db.mem_rowsOf.1 hr).1
      | some n =>
        obtain ⟨r', hr', hle⟩ := h.enough _ n hn
        rw [find?_type] at hr'
        obtain ⟨hmem, ht⟩ := Db.rowOf_eq_some hr'
        rw [row_unique hone hr hmem ht] at hle
        simpa using hle
    · unfold CheckedExchange.receiverTotal at he
      rw [hr] at he
      obtain ⟨r, hr, rfl⟩ := List.mem_map.1 he
      have hcount := hnn r (Db.mem_rowsOf.1 hr).1
      show 0 ≤ addOrRemoveResourcesToVillage _ false r
      rw [addOrRemove_eq hformatted, if_neg (by simp)]
      refine add_nonneg hcount ?_
      cases hn : lastCount req.sentResources r.resourceType.type with
      | none => exact le_rfl
      | some n =>
        obtain ⟨res, hres, rfl⟩ := Option.map_eq_some_iff.1 hn
        exact hcounts res (List.mem_reverse.1 (List.mem_of_find?_eq_some hres))
  · rw [(exchange_of_not_passes h).1]
    exact hnn

end Exchange

/-! ## Vaults -/

section Transfer

open Storage

variable {f : ℕ} {req : Storage.Request} {facility : Facility} {u : C.Ref} {m n : ℤ}
  {s : Option (VillageStorageResourceType C)} {type : TransferType}

/-- No vault has a count below zero. -/
def VaultsNonNegative (d : Db C) : Prop := ∀ s ∈ d.villagesStorageResourceTypes.rows, 0 ≤ s.count

instance (d : Db C) : Decidable (VaultsNonNegative d) := inferInstanceAs (Decidable (∀ s ∈ _, _))

theorem vaultsNonNegative_of_eq
    (h : d'.villagesStorageResourceTypes = d.villagesStorageResourceTypes)
    (hvaults : VaultsNonNegative d) : VaultsNonNegative d' := by
  unfold VaultsNonNegative
  rw [h]
  exact hvaults

/-- Of a count that is not below zero no more goes through. -/
theorem Storage.Allowed.bounds (h : Allowed facility s type n m) (hn : 0 ≤ n) :
    0 ≤ m ∧ m ≤ n := by
  cases h with
  | deposit _ _ hlt => exact ⟨le_min hn (sub_nonneg.2 hlt.le), min_le_left _ _⟩
  | _ => exact ⟨hn, le_rfl⟩

/-- A deposit takes what the village has. -/
theorem nonNegative_transfer (hone : d.OneRowPerType) (hnn : NonNegative d)
    (hcount : 0 ≤ req.resource.count) : NonNegative (Storage.step v f d req) := by
  rcases step_cases d v f req with heq | ⟨facility, u, n, hp⟩
  · rw [heq]
    exact hnn
  · obtain ⟨hn, hle⟩ := Storage.Allowed.bounds hp.allowed hcount
    have hrows : (Storage.step v f d req).villagesResourceTypes =
        (d.saveResources v [(req.resource.type, ⟨u.id, n⟩)]
          (req.transferType = .deposit)).villagesResourceTypes := by
      rw [step_of_passes hp]
      show ((openStorage d facility.id u).1.saveResources v _ _).villagesResourceTypes = _
      unfold openStorage
      split <;> rfl
    refine nonNegative_of_eq hrows (nonNegative_setCounts fun r hr => ?_)
    have hstock := hnn r hr
    split
    next hv =>
      unfold addOrRemoveResourcesToVillage
      by_cases ht : r.resourceType.type = req.resource.type
      · simp only [ht, List.lookup_cons, beq_self_eq_true]
        split
        · obtain ⟨r', hr', henough⟩ := hp.enough
          obtain ⟨hmem, hu⟩ := Db.rowOf_eq_some hr'
          have hu : r'.resourceType = r.resourceType :=
            hu.trans (Catalog.Ref.eq_of_type (hp.type_eq.trans ht.symm))
          rw [row_unique hone (Db.mem_rowsOf.2 ⟨hr, hv⟩) hmem hu] at henough
          omega
        · omega
      · simpa [List.lookup_cons, beq_false_of_ne ht] using hstock
    next => exact hstock

theorem vaultsNonNegative_saveStorage {row : VillageStorageResourceType C}
    (hvaults : VaultsNonNegative d) (hrow : 0 ≤ row.count) :
    VaultsNonNegative (saveStorage d row) := by
  intro s hs
  obtain ⟨s₀, hs₀, rfl⟩ := List.mem_map.1 hs
  unfold Table.patch
  split
  · exact hrow
  · exact hvaults s₀ hs₀

/-- A withdrawal takes what the vault has. -/
theorem vaultsNonNegative_transfer (hvaults : VaultsNonNegative d)
    (hcount : 0 ≤ req.resource.count) : VaultsNonNegative (Storage.step v f d req) := by
  rcases step_cases d v f req with heq | ⟨facility, u, n, hp⟩
  · rw [heq]
    exact hvaults
  · obtain ⟨hn, -⟩ := Storage.Allowed.bounds hp.allowed hcount
    obtain rfl := hp.facility_id
    have hopened : VaultsNonNegative (openStorage d facility.id u).1 := by
      unfold openStorage
      split
      · exact hvaults
      · intro s hs
        rcases Table.mem_insert.1 hs with hs | rfl
        · exact hvaults s hs
        · exact le_rfl
    have hstored : 0 ≤ (openStorage d facility.id u).2.count := by
      rw [openStorage_count]
      unfold storedCount
      cases hs : storageOf d facility.id with
      | none => exact le_rfl
      | some s => exact hvaults s (List.mem_of_find?_eq_some hs)
    rw [step_of_passes hp]
    refine vaultsNonNegative_saveStorage (d := (openStorage d facility.id u).1.saveResources v _ _)
      hopened ?_
    dsimp only
    split
    next hw =>
      -- There is no withdrawal without a row of the vault.
      have hallowed := hp.allowed
      rw [hw] at hallowed
      generalize hstorage : storageOf d facility.id = storage at hallowed
      cases hallowed with
      | withdraw hpos hle =>
        rw [openStorage_count, storedCount_of_some hstorage]
        exact sub_nonneg.2 hle
    next => exact add_nonneg hstored hn

end Transfer

/-! ## Orders, facilities and new villages -/

section Growth

variable {g g' : GameDb C}

theorem nonNegative_placeOrder {withVillage : Bool} {order : CreateOrder} {c : CheckedOrder C}
    (h : placeOrder g c = some g') (hc : Payable withVillage g order c) (hone : g.OneRowPerType)
    (hnn : NonNegative g.toDb) : NonNegative g'.toDb := by
  obtain ⟨amounts, hamounts, -, rfl⟩ := placeOrder_eq_some.1 h
  exact nonNegative_of_eq rfl
    (nonNegative_subtract hnn hone fun p hp => hc.exists_row hamounts hp)

theorem nonNegative_pay {village : LoadedVillage C} {costs : List FacilityTypeResPrice}
    (hpay : Facilities.CanPay g village costs) (hone : g.OneRowPerType)
    (hnn : NonNegative g.toDb) : NonNegative (Facilities.pay g.toDb village costs) := by
  rw [hpay.pay_eq]
  exact nonNegative_subtract hnn hone fun p hp => hpay.exists_row hp

theorem nonNegative_produce {now : ℤ} {token : OrderToken} (hnn : NonNegative g.toDb) :
    NonNegative (produce now g token).1.toDb := by
  rcases produce_cases now g token with heq | ⟨sel, -, hdeliver⟩
  · rw [heq]
    exact hnn
  · obtain ⟨stored, hstored, h⟩ := Option.bind_eq_some_iff.1 hdeliver
    obtain ⟨facility, -, h⟩ := Option.bind_eq_some_iff.1 h
    rw [← Option.some.inj h]
    refine nonNegative_of_eq (d := stored) rfl ?_
    unfold storeUnit at hstored
    split at hstored
    · obtain ⟨u, -, hstored⟩ := Option.bind_eq_some_iff.1 hstored
      obtain ⟨village, -, hstored⟩ := Option.bind_eq_some_iff.1 hstored
      cases hstored
      exact nonNegative_insertCount hnn (by norm_num)
    · cases hstored
      exact nonNegative_addToCounts hnn fun p hp => by
        rw [List.mem_singleton.1 hp]
        norm_num

theorem nonNegative_insertCounts {counts : List (C.Ref × ℤ)} (hnn : NonNegative d)
    (h : ∀ p ∈ counts, 0 ≤ p.2) : NonNegative (d.insertCounts v counts) := by
  induction counts generalizing d with
  | nil => exact hnn
  | cons p rest ih =>
    obtain ⟨hp, hrest⟩ := List.forall_mem_cons.1 h
    exact ih (nonNegative_insertCount hnn hp) hrest

theorem startingCount_nonneg (isNew : Bool) (type : String) : 0 ≤ startingCount isNew type := by
  unfold startingCount
  split_ifs <;> decide

theorem automatedVillageInitialResources_nonneg (type : String) :
    0 ≤ automatedVillageInitialResources type := by
  unfold automatedVillageInitialResources
  split <;> decide

theorem nonNegative_newVillage {village : NewVillage} {count : C.Ref → ℤ} (hnn : NonNegative d)
    (hcount : ∀ t, 0 ≤ count t) : NonNegative ((d.insertVillage village).insertCounts
      d.villages.next ((baseTypes C).map fun t => (t, count t))) := by
  refine nonNegative_insertCounts (nonNegative_of_eq (d := d) rfl hnn) fun p hp => ?_
  obtain ⟨t, -, rfl⟩ := List.mem_map.1 hp
  exact hcount t

theorem nonNegative_createVillage {village : NewVillage} (isNew : Bool) (hnn : NonNegative d) :
    NonNegative (d.createVillage village isNew) :=
  nonNegative_newVillage hnn fun t => startingCount_nonneg isNew t.type

theorem nonNegative_generateVillage {village : NewVillage} (hnn : NonNegative d) :
    NonNegative (d.generateVillage village) := by
  have hcreated := @nonNegative_newVillage _ _ { village with userId := none }
    (fun t => automatedVillageInitialResources t.type) hnn
    fun t => automatedVillageInitialResources_nonneg t.type
  unfold Db.generateVillage
  revert hcreated
  generalize (Db.insertVillage d _).insertCounts _ _ = created
  induction baseTypes C generalizing created with
  | nil => exact id
  | cons u rest ih =>
    refine fun hcreated => ih _ fun r hr => ?_
    rcases Table.mem_insert.1 hr with hr | rfl
    · exact hcreated r hr
    · exact automatedVillageInitialResources_nonneg u.type

end Growth

/-! ## Steps -/

/-- What the requests leave to the client: the counts of an attack are numbers under the names of
units, a military exchange names no type twice and no more than the sender has, and no exchange and
no transfer to a vault or from it is of a count below zero. -/
def Affordable (w : World C) : Action → Prop
  | .attack _ dto => ∀ u ∈ dto.keptUnits, WellFormatted C u.1 u.2
  | .send req _ => (req.sentResources.map Exchanges.Sent.type).Nodup ∧
      ∀ res ∈ req.sentResources, 0 ≤ res.count ∧ ∀ r ∈ w.db.rowsOf req.senderVillageId,
        r.resourceType.type = res.type → res.count ≤ r.count
  | .exchange req => ∀ res ∈ req.sentResources, 0 ≤ res.count
  | .transfer _ _ req => 0 ≤ req.resource.count
  | _ => True

/-- No count is below zero, in the tables or under way. -/
structure Solvent (w : World C) : Prop where
  sound : Sound w
  counts : NonNegative w.db.toDb
  vaults : VaultsNonNegative w.db.toDb
  loots : ∀ token ∈ w.returns, Loots token
  shipped : ∀ item ∈ w.transfers, ∀ resource ∈ item.resources, 0 ≤ resource.count

/-- A step that queues nothing, and writes no vault. -/
theorem Solvent.of_counts (h : Solvent w) (hsound : Sound w')
    (hcounts : NonNegative w'.db.toDb)
    (hvaults : w'.db.villagesStorageResourceTypes = w.db.villagesStorageResourceTypes)
    (hreturns : w'.returns ⊆ w.returns) (htransfers : w'.transfers ⊆ w.transfers) : Solvent w' where
  sound := hsound
  counts := hcounts
  vaults := vaultsNonNegative_of_eq hvaults h.vaults
  loots token htoken := h.loots token (hreturns htoken)
  shipped item hitem := h.shipped item (htransfers hitem)

section Attack

theorem solvent_attack {c : Clock} {dto : CreateAttackDto} (h : Solvent w)
    (hok : ∀ u ∈ dto.keptUnits, WellFormatted C u.1 u.2) : Solvent (step e w (.attack c dto)) := by
  have hsound : Sound (step e w (.attack c dto)) := (balanced_attack h.sound hok).1
  revert hsound
  simp only [step]
  split
  next dep hcreate =>
    intro hsound
    exact h.of_counts hsound (nonNegative_create hcreate h.sound.oneRow hok h.counts)
      (vaults_create hcreate) (List.Subset.refl _) (List.Subset.refl _)
  next => exact fun _ => h

/-- A battle queues what it has stolen. -/
theorem solvent_fight (h : Solvent w) : Solvent (step e w (.fight k)) := by
  have hsound : Sound (step e w (.fight k)) := (balanced_fight h.sound).1
  revert hsound
  simp only [step]
  split
  next token hk =>
    intro hsound
    obtain ⟨a, A, hmarching⟩ := h.sound.marching token (List.mem_of_getElem? hk)
    obtain ⟨hcounts, hloots⟩ :=
      nonNegative_resolve e.math hmarching h.sound.oneRow h.sound.housed h.counts
    have hvaults := (resolved e.math hmarching h.sound.oneRow).vaults
    refine ⟨hsound, hcounts, vaultsNonNegative_of_eq hvaults h.vaults, fun token' htoken => ?_,
      h.shipped⟩
    rcases List.mem_append.1 htoken with htoken | htoken
    · exact h.loots token' htoken
    · exact hloots token' (Option.mem_toList.1 htoken)
  next => exact fun _ => h

theorem solvent_comeHome (h : Solvent w) : Solvent (step e w (.comeHome k)) := by
  have hsound : Sound (step e w (.comeHome k)) := (balanced_comeHome h.sound).1
  revert hsound
  simp only [step]
  split
  next token hk =>
    intro hsound
    have hmem := List.mem_of_getElem? hk
    obtain ⟨a, A, f, hreturning⟩ := h.sound.returning token hmem
    exact h.of_counts hsound (nonNegative_comeHome hreturning (h.loots token hmem) h.counts)
      (returned hreturning h.sound.oneRow h.sound.housed).vaults (fun _ => List.mem_of_mem_eraseIdx)
      (List.Subset.refl _)
  next => exact fun _ => h

end Attack

section Exchange

variable {req : Exchanges.Request}

/-- What is sent is checked by nobody. -/
theorem solvent_send {unique : ℚ} (h : Solvent w)
    (hnodup : (req.sentResources.map Exchanges.Sent.type).Nodup)
    (hsent : ∀ res ∈ req.sentResources, 0 ≤ res.count ∧ ∀ r ∈ w.db.rowsOf req.senderVillageId,
      r.resourceType.type = res.type → res.count ≤ r.count) :
    Solvent (step e w (.send req unique)) := by
  have hsound : Sound (step e w (.send req unique)) := (balanced_send h.sound hnodup).1
  revert hsound
  simp only [step]
  split
  next c hcheck =>
    intro hsound
    have hsends := sends_of_checkSend hcheck
    refine ⟨hsound, ?_, h.vaults, h.loots, fun item hitem => ?_⟩
    · exact nonNegative_send hsends h.counts fun res hres => (hsent res hres).2
    · rcases List.mem_append.1 hitem with hitem | hitem
      · exact h.shipped item hitem
      · rw [List.mem_singleton.1 hitem]
        intro resource hresource
        obtain ⟨res, hres, t, -, rfl⟩ := exists_sent hsends.accepted.formatted resource hresource
        exact (hsent res hres).1
  next => exact fun _ => h

theorem solvent_deliver (h : Solvent w) : Solvent (step e w (.deliver k)) := by
  have hsound : Sound (step e w (.deliver k)) := (balanced_deliver h.sound).1
  revert hsound
  simp only [step]
  split
  next item hk =>
    intro hsound
    exact h.of_counts hsound
      (nonNegative_deliver h.counts (h.shipped item (List.mem_of_getElem? hk)))
      frame_deliver.2.2 (List.Subset.refl _) fun _ => List.mem_of_mem_eraseIdx
  next => exact fun _ => h

theorem solvent_exchange (h : Solvent w) (hok : ∀ res ∈ req.sentResources, 0 ≤ res.count) :
    Solvent (step e w (.exchange req)) := by
  obtain ⟨f, hf⟩ := @exchange_eq _ w.db.toDb req
  have hvaults : (Exchanges.exchangeResourcesBetweenSameUserVillages w.db.toDb
      req).1.villagesStorageResourceTypes = w.db.villagesStorageResourceTypes := by
    rw [hf]
    rfl
  exact h.of_counts (balanced_exchange h.sound).1 (nonNegative_exchange h.sound.oneRow h.counts hok)
    hvaults (List.Subset.refl _) (List.Subset.refl _)

theorem solvent_transfer {f : ℕ} {req : Storage.Request} (h : Solvent w)
    (hok : 0 ≤ req.resource.count) : Solvent (step e w (.transfer v f req)) where
  sound := sound_transfer h.sound
  counts := nonNegative_transfer h.sound.oneRow h.counts hok
  vaults := vaultsNonNegative_transfer h.vaults hok
  loots := h.loots
  shipped := h.shipped

end Exchange

section Growth

theorem solvent_order {order : CreateOrder} (h : Solvent w) : Solvent (step e w (.order order)) := by
  have hsound : Sound (step e w (.order order)) := (balanced_order h.sound).1
  revert hsound
  simp only [step]
  split
  next c hcheck =>
    split
    next d' hplace =>
      intro hsound
      have hcounts :=
        nonNegative_placeOrder hplace (checkOrder_eq_ok hcheck) h.sound.oneRow h.counts
      exact h.of_counts hsound hcounts (frame_placeOrder hplace).2.2 (List.Subset.refl _)
        (List.Subset.refl _)
    next => exact fun _ => h
  next => exact fun _ => h

theorem solvent_produce {now : ℤ} (h : Solvent w) : Solvent (step e w (.produce k now)) := by
  have hsound : Sound (step e w (.produce k now)) := (balanced_produce h.sound).1
  revert hsound
  simp only [step]
  split
  next token hk =>
    intro hsound
    have hvaults : (produce now w.db token).1.villagesStorageResourceTypes =
        w.db.villagesStorageResourceTypes := by
      rcases produce_cases now w.db token with heq | ⟨sel, -, hdeliver⟩
      · rw [heq]
      · exact (frame_deliverUnit hdeliver).2.2.1
    exact h.of_counts hsound (nonNegative_produce h.counts) hvaults (List.Subset.refl _)
      (List.Subset.refl _)
  next => exact fun _ => h

theorem solvent_upgrade {facilityId userId : ℕ} (h : Solvent w) :
    Solvent (step e w (.upgrade facilityId userId)) := by
  have hsound : Sound (step e w (.upgrade facilityId userId)) := (balanced_upgrade h.sound).1
  revert hsound
  simp only [step]
  split
  next c hcheck =>
    intro hsound
    have hpaid :=
      nonNegative_pay (Facilities.checkUpgrade_eq_ok hcheck).canPay h.sound.oneRow h.counts
    exact h.of_counts hsound (nonNegative_of_eq rfl hpaid) frame_pay.2.2 (List.Subset.refl _)
      (List.Subset.refl _)
  next => exact fun _ => h

theorem solvent_build {facility : Facilities.CreateFacility} {userId : ℕ} (h : Solvent w) :
    Solvent (step e w (.build facility userId)) := by
  have hsound : Sound (step e w (.build facility userId)) := (balanced_build h.sound).1
  revert hsound
  simp only [step]
  split
  next c hcheck =>
    intro hsound
    have hpaid :=
      nonNegative_pay (Facilities.checkCreateWith_eq_ok hcheck) h.sound.oneRow h.counts
    exact h.of_counts hsound (nonNegative_of_eq rfl hpaid) frame_pay.2.2 (List.Subset.refl _)
      (List.Subset.refl _)
  next => exact fun _ => h

theorem solvent_settle {village : NewVillage} {isNew : Bool} (h : Solvent w) :
    Solvent (step e w (.settle village isNew)) :=
  h.of_counts (balanced_settle h.sound).1 (nonNegative_createVillage isNew h.counts)
    (frame_createVillage isNew).2 (List.Subset.refl _) (List.Subset.refl _)

theorem solvent_generate {village : NewVillage} (h : Solvent w) :
    Solvent (step e w (.generate village)) :=
  h.of_counts (balanced_generate h.sound).1 (nonNegative_generateVillage h.counts)
    frame_generateVillage.2 (List.Subset.refl _) (List.Subset.refl _)

end Growth

/-- Every step. -/
theorem solvent_step (h : Solvent w) {a : Action} (hok : Affordable w a) :
    Solvent (step e w a) := by
  cases a with
  | attack c dto => exact solvent_attack h hok
  | fight k => exact solvent_fight h
  | comeHome k => exact solvent_comeHome h
  | send req unique => exact solvent_send h hok.1 hok.2
  | deliver k => exact solvent_deliver h
  | exchange req => exact solvent_exchange h hok
  | transfer v f req => exact solvent_transfer h hok
  | order order => exact solvent_order h
  | produce k now => exact solvent_produce h
  | upgrade facilityId userId => exact solvent_upgrade h
  | build facility userId => exact solvent_build h
  | settle village isNew => exact solvent_settle h
  | generate village => exact solvent_generate h

/-! ## Runs -/

/-- **No debts.** In every run of affordable requests, from a state that is sound and where no count is
below zero, no village and no vault has a count below zero, and nothing below zero is under way. -/
theorem counts_nonneg {w₀ : World C} (h : Reach (graph (step e)) Affordable w₀ w)
    (hsound : Sound w₀) (hcounts : NonNegative w₀.db.toDb) (hvaults : VaultsNonNegative w₀.db.toDb)
    (hloots : ∀ token ∈ w₀.returns, Loots token)
    (hshipped : ∀ item ∈ w₀.transfers, ∀ resource ∈ item.resources, 0 ≤ resource.count) :
    NonNegative w.db.toDb ∧ VaultsNonNegative w.db.toDb ∧
      (∀ token ∈ w.returns, Loots token) ∧
      ∀ item ∈ w.transfers, ∀ resource ∈ item.resources, 0 ≤ resource.count := by
  have hsolvent : Solvent w :=
    h.inv ⟨hsound, hcounts, hvaults, hloots, hshipped⟩ fun w a w' hw hok hstep => by
      rw [show w' = step e w a from hstep]
      exact solvent_step hw hok
  exact ⟨hsolvent.counts, hsolvent.vaults, hsolvent.loots, hsolvent.shipped⟩

theorem affordable_sampleAttack : Affordable (start sampleGame) sampleAttack :=
  regular_sampleAttack

/-- The battle that is won. -/
theorem counts_nonneg_sample : NonNegative sampleWorld.db.toDb ∧
    VaultsNonNegative sampleWorld.db.toDb ∧ (∀ token ∈ sampleWorld.returns, Loots token) ∧
    ∀ item ∈ sampleWorld.transfers, ∀ resource ∈ item.resources, 0 ≤ resource.count :=
  counts_nonneg (e := sampleEnv) (((Reach.refl.next sampleAttack
    affordable_sampleAttack).next (.fight 0) trivial).next (.comeHome 0) trivial)
    (.start (by decide) (by decide)) (by decide) (by decide) (fun _ h => by cases h)
    fun _ h => by cases h

end Cme.Game
