import CmeBackend.Exchanges.Base
import CmeBackend.Storage.Steps
import CmeBackend.Villages.Totals

/-!
# Moves whose saves are rejected

`exchangeResourcesBetweenVillages` (`resources-ms-exchanges.service.ts`) and
`transferResourcesToStorage` (`resources-ms-storage.service.ts`) save the two sides of a move by
calls of their own. A choice of the calls that are rejected is `Settled` for each of them.

* `exchange`, `transfer`: the tables after a request, and its result. The exception that a callback
  of `catch` returns is the value of a promise that nobody reads, so the request goes on as if the
  rows were saved.
* `ExchangeAtomic`, `TransferAtomic`: both sides are saved and the request succeeds, or none is and
  it reports an error. A request that returns `undefined` reports nothing.
* `moves_atomic_iff`: when this is so.
-/

namespace Cme.Rejections

open Exchanges Storage

variable {C : Catalog}

/-- How the promise of a `save` is settled. -/
inductive Settled where
  | fulfilled
  | rejected
  deriving DecidableEq

/-- A `save` whose rejection is caught. -/
def Settled.caught (settled : Settled) (save : Db C → Db C) (d : Db C) : Db C :=
  match settled with
  | .fulfilled => save d
  | .rejected => d

/-! ## The code -/

/-- The checks of an exchange. -/
def checked (d : Db C) (req : Exchanges.Request) : Except ExchangeEnd (CheckedExchange C) := do
  checkDifferent req
  checkExchange req (d.findVillage req.senderVillageId) (d.findVillage req.receiverVillageId)

/-- `exchangeResourcesBetweenSameUserVillages` -/
def exchange (d : Db C) (req : Exchanges.Request) (sender receiver : Settled) :
    Db C × Except ExchangeEnd Unit :=
  match checked d req with
  | .error e => (d, .error e)
  | .ok c =>
    let d := sender.caught (·.saveEntities c.senderLeft) d
    (receiver.caught (·.saveEntities c.receiverTotal) d, .ok ())

/-- The saves of a transfer. The first one is made for a facility without a vault row only. -/
structure TransferSaves where
  opening : Settled
  village : Settled
  vault : Settled

inductive TransferEnd where
  | checks (e : ResourcesError)
  /-- The error of a `save` that is not caught. -/
  | rejected

/-- `transferResourcesToStorageOwnVillages` -/
def transfer (d : Db C) (villageId facilityId : ℕ) (req : Storage.Request)
    (saves : TransferSaves) : Db C × Except TransferEnd (VillageStorageResourceType C) :=
  match check d villageId facilityId req with
  | .error e => (d, .error (.checks e))
  | .ok c =>
    if (storageOf d c.facility.id).isNone ∧ saves.opening = .rejected then (d, .error .rejected) else
      let (d, storage) := openStorage d c.facility.id c.resourceType
      let d := saves.village.caught (·.saveEntities c.left) d
      match saves.vault with
      | .fulfilled => (saveStorage d (c.stored storage), .ok (c.stored storage))
      | .rejected => (d, .error .rejected)

/-! ## Atomicity -/

/-- The counts of a village. -/
def counts (d : Db C) (v : ℕ) : List ℤ := (d.rowsOf v).map VillageResourceType.count

/-- Both sides of an exchange are saved, or none. -/
def ExchangeAtomic (d : Db C) (req : Exchanges.Request) (sender receiver : Settled) : Prop :=
  let (d', result) := exchange d req sender receiver
  (result = .ok () ∧ ∃ c, checked d req = .ok c ∧
    counts d' req.senderVillageId = c.senderLeft.map Entity.count ∧
    counts d' req.receiverVillageId = c.receiverTotal.map Entity.count) ∨
  ((∃ e, result = .error e ∧ e ≠ .undefined) ∧
    counts d' req.senderVillageId = counts d req.senderVillageId ∧
    counts d' req.receiverVillageId = counts d req.receiverVillageId)

/-- Both sides of a transfer are saved, or none. -/
def TransferAtomic (d : Db C) (villageId facilityId : ℕ) (req : Storage.Request)
    (saves : TransferSaves) : Prop :=
  let (d', result) := transfer d villageId facilityId req saves
  (∃ c storage, result = .ok storage ∧ check d villageId facilityId req = .ok c ∧
    counts d' villageId = c.left.map Entity.count ∧
    storedCount d' facilityId =
      (c.stored (openStorage d c.facility.id c.resourceType).2).count) ∨
  ((∃ e, result = .error e) ∧ counts d' villageId = counts d villageId ∧
    storedCount d' facilityId = storedCount d facilityId)

/-! ## When a move is atomic -/

/-- The villages of an exchange, if they are different villages of the user. -/
def villagesOf (d : Db C) (req : Exchanges.Request) :
    Except ExchangeEnd (LoadedVillage C × LoadedVillage C) := do
  checkDifferent req
  checkOwners req.userId (d.findVillage req.senderVillageId) (d.findVillage req.receiverVillageId)

/-- Every entry of a request has a resource type. -/
def KnownTypes (C : Catalog) (sentResources : List Sent) : Prop :=
  ∀ res ∈ sentResources, res.type ≠ "" ∧ (C.find? res.type).isSome

/-- A request sends nothing of the types of the rows. -/
def SendsNone (formatted : SentResources) (rows : List (VillageResourceType C)) : Prop :=
  ∀ r ∈ rows, ∀ sent, formatted.lookup r.resourceType.type = some sent → sent.count = 0

/-- Between two villages of the user, every entry has a type, and a `save` is rejected only if the
request sends nothing of what the village has. -/
def ExchangeSafe (d : Db C) (req : Exchanges.Request) (sender receiver : Settled) : Prop :=
  ∀ villages, villagesOf d req = .ok villages →
    KnownTypes C req.sentResources ∧
    ∀ formatted, formatExchange villages.1 req.sentResources = .ok formatted →
      (sender = .rejected → SendsNone formatted villages.1.villagesResourceTypes) ∧
      (receiver = .rejected → SendsNone formatted villages.2.villagesResourceTypes)

/-- The vault row is not opened, or the saves of the two sides end alike, or nothing is sent. -/
def TransferSafe (d : Db C) (villageId facilityId : ℕ) (req : Storage.Request)
    (saves : TransferSaves) : Prop :=
  (check d villageId facilityId req).isOk →
    ((storageOf d facilityId).isNone ∧ saves.opening = .rejected) ∨
      saves.village = saves.vault ∨ req.resource.count = 0

/-! ## Exchanges -/

section Exchange

variable {d : Db C} {req : Exchanges.Request} {sender receiver : Settled}
  {senderVillage receiverVillage : LoadedVillage C}

theorem checked_eq : checked d req = villagesOf d req >>= fun villages =>
    (formatExchange villages.1 req.sentResources).map fun formatted =>
      { sender := villages.1, receiver := villages.2, formatted } := by
  unfold checked villagesOf checkExchange
  cases checkDifferent req <;> rfl

/-- A request for villages that are not two of the user reports an error. -/
theorem villagesOf_error {e : ExchangeEnd} (h : villagesOf d req = .error e) : e ≠ .undefined := by
  rintro rfl
  unfold villagesOf checkDifferent checkOwners at h
  split at h
  · cases h
  · split at h
    · split at h <;> cases h
    · cases h

theorem villagesOf_eq_ok (h : villagesOf d req = .ok (senderVillage, receiverVillage)) :
    req.senderVillageId ≠ req.receiverVillageId ∧
      senderVillage.villagesResourceTypes = d.rowsOf req.senderVillageId ∧
      receiverVillage.villagesResourceTypes = d.rowsOf req.receiverVillageId := by
  unfold villagesOf checkDifferent at h
  split at h
  · cases h
  next hne =>
    obtain ⟨hs, hr, -⟩ := checkOwners_eq_ok.1 h
    exact ⟨hne, (Db.findVillage_eq_some.1 hs).2, (Db.findVillage_eq_some.1 hr).2⟩

/-- The loop over the entries ends early at an entry without a type. -/
theorem formatSent_error {acc : SentResources} {forbidden : Bool} {sent : List Sent}
    {e : ExchangeEnd} (h : formatSent C acc forbidden sent = .error e) :
    e = .undefined ∧ ¬KnownTypes C sent := by
  induction sent generalizing acc forbidden with
  | nil => cases h
  | cons res rest ih =>
    unfold formatSent at h
    split at h
    next hempty =>
      cases h
      exact ⟨rfl, fun hknown => (hknown res List.mem_cons_self).1 hempty⟩
    · split at h
      next hnone =>
        cases h
        refine ⟨rfl, fun hknown => ?_⟩
        have hsome := (hknown res List.mem_cons_self).2
        rw [hnone] at hsome
        cases hsome
      · obtain ⟨rfl, hrest⟩ := ih h
        exact ⟨rfl, fun hknown => hrest fun r hr => hknown r (List.mem_cons_of_mem _ hr)⟩

theorem formatSent_ok {acc : SentResources} {forbidden : Bool} {sent : List Sent}
    {p : SentResources × Bool} (h : formatSent C acc forbidden sent = .ok p) :
    KnownTypes C sent := by
  induction sent generalizing acc forbidden with
  | nil => exact fun res hres => absurd hres List.not_mem_nil
  | cons res rest ih =>
    unfold formatSent at h
    split at h
    · cases h
    next hne =>
      split at h
      · cases h
      next t ht =>
        refine List.forall_mem_cons.2 ⟨⟨hne, ?_⟩, ih h⟩
        rw [ht]
        rfl

/-- A request returns `undefined` exactly if an entry has no type. -/
theorem formatExchange_error {e : ExchangeEnd}
    (h : formatExchange senderVillage req.sentResources = .error e) :
    e = .undefined ↔ ¬KnownTypes C req.sentResources := by
  unfold formatExchange at h
  cases hsent : formatSent C [] false req.sentResources with
  | error e' =>
    rw [hsent] at h
    cases h
    obtain ⟨rfl, hunknown⟩ := formatSent_error hsent
    exact iff_of_true rfl hunknown
  | ok p =>
    refine iff_of_false ?_ (not_not.2 (formatSent_ok hsent))
    rintro rfl
    rw [hsent] at h
    change (if p.2 then _ else _) = _ at h
    split at h
    · cases h
    split at h
    · cases h
    unfold enoughToExchange at h
    cases henough : villageHasEnoughResources senderVillage.villagesResourceTypes p.1 with
    | error e =>
      rw [henough] at h
      cases h
    | ok enough =>
      rw [henough] at h
      cases enough <;> cases h

theorem formatExchange_ok {formatted : SentResources}
    (h : formatExchange senderVillage req.sentResources = .ok formatted) :
    KnownTypes C req.sentResources := by
  obtain ⟨p, hp, -⟩ := bind_eq_ok.1 h
  exact formatSent_ok hp

/-- The counts of the rows stay exactly if nothing of their types is sent. -/
theorem map_count_eq_iff {formatted : SentResources} (shouldRemove : Bool)
    {rows : List (VillageResourceType C)} :
    rows.map VillageResourceType.count =
        rows.map (addOrRemoveResourcesToVillage formatted shouldRemove) ↔
      SendsNone formatted rows := by
  rw [List.map_inj_left]
  refine forall₂_congr fun r _ => ?_
  unfold addOrRemoveResourcesToVillage
  cases formatted.lookup r.resourceType.type with
  | none => simp
  | some sent =>
    simp only [Option.some.injEq, forall_eq']
    cases shouldRemove
    · show r.count = r.count + sent.count ↔ _
      omega
    · show r.count = r.count - sent.count ↔ _
      omega

/-- The counts after the two saves of an exchange. -/
theorem counts_exchange (sender receiver : Settled) {c : CheckedExchange C}
    (hc : checked d req = .ok c)
    (hne : req.senderVillageId ≠ req.receiverVillageId)
    (hs : c.sender.villagesResourceTypes = d.rowsOf req.senderVillageId)
    (hr : c.receiver.villagesResourceTypes = d.rowsOf req.receiverVillageId) :
    counts (exchange d req sender receiver).1 req.senderVillageId =
        (if sender = .rejected then c.sender.villagesResourceTypes.map VillageResourceType.count
          else c.senderLeft.map Entity.count) ∧
      counts (exchange d req sender receiver).1 req.receiverVillageId =
        (if receiver = .rejected then c.receiver.villagesResourceTypes.map VillageResourceType.count
          else c.receiverTotal.map Entity.count) := by
  unfold exchange counts
  simp only [hc]
  unfold CheckedExchange.senderLeft CheckedExchange.receiverTotal
  rw [hs, hr]
  -- The rows of one side are not those of the other.
  have hreceiver : (sender.caught (·.saveEntities ((d.rowsOf req.senderVillageId).map fun r =>
      ⟨r, addOrRemoveResourcesToVillage c.formatted true r⟩)) d).rowsOf req.receiverVillageId =
      d.rowsOf req.receiverVillageId := by
    cases sender with
    | rejected => rfl
    | fulfilled => exact Db.rowsOf_saveEntities_of_ne hne.symm
  rw [← hreceiver]
  constructor
  · have hsender : ∀ d' : Db C, (receiver.caught (·.saveEntities
        ((d'.rowsOf req.receiverVillageId).map fun r =>
          ⟨r, addOrRemoveResourcesToVillage c.formatted false r⟩)) d').rowsOf req.senderVillageId =
        d'.rowsOf req.senderVillageId := by
      intro d'
      cases receiver with
      | rejected => rfl
      | fulfilled => exact Db.rowsOf_saveEntities_of_ne hne
    rw [hsender]
    cases sender with
    | rejected => rfl
    | fulfilled =>
      show ((Db.saveEntities _ _).rowsOf _).map _ = _
      rw [Db.rowsOf_saveEntities_self]
      simp [Function.comp_def]
  · cases receiver with
    | rejected => rfl
    | fulfilled =>
      show ((Db.saveEntities _ _).rowsOf _).map _ = _
      rw [Db.rowsOf_saveEntities_self]
      simp [Function.comp_def]

/-- The counts after a `save` are those that it was to store. -/
theorem ite_rejected_iff {settled : Settled} {stored saved : List ℤ} :
    (if settled = .rejected then stored else saved) = saved ↔
      (settled = .rejected → stored = saved) := by
  by_cases h : settled = .rejected <;> simp [h]

/-- An exchange that has passed its checks always succeeds. -/
theorem exchangeAtomic_of_checked {c : CheckedExchange C} (hc : checked d req = .ok c)
    (hne : req.senderVillageId ≠ req.receiverVillageId)
    (hs : c.sender.villagesResourceTypes = d.rowsOf req.senderVillageId)
    (hr : c.receiver.villagesResourceTypes = d.rowsOf req.receiverVillageId) :
    ExchangeAtomic d req sender receiver ↔
      (sender = .rejected → SendsNone c.formatted c.sender.villagesResourceTypes) ∧
      (receiver = .rejected → SendsNone c.formatted c.receiver.villagesResourceTypes) := by
  have hresult : (exchange d req sender receiver).2 = .ok () := by
    rw [exchange, hc]
  have hleft : c.senderLeft.map Entity.count = c.sender.villagesResourceTypes.map
      (addOrRemoveResourcesToVillage c.formatted true) := List.map_map
  have htotal : c.receiverTotal.map Entity.count = c.receiver.villagesResourceTypes.map
      (addOrRemoveResourcesToVillage c.formatted false) := List.map_map
  obtain ⟨hcs, hcr⟩ := counts_exchange sender receiver hc hne hs hr
  rw [← map_count_eq_iff true, ← map_count_eq_iff false,
    ← hleft, ← htotal, ← ite_rejected_iff, ← ite_rejected_iff, ← hcs, ← hcr]
  constructor
  · rintro (⟨-, c', hc', hs', hr'⟩ | ⟨⟨e, he, -⟩, -⟩)
    · cases hc.symm.trans hc'
      exact ⟨hs', hr'⟩
    · cases hresult.symm.trans he
  · rintro ⟨hs', hr'⟩
    exact .inl ⟨hresult, c, hc, hs', hr'⟩

/-- An exchange is atomic exactly if it is safe. -/
theorem exchangeAtomic_iff : ExchangeAtomic d req sender receiver ↔
    ExchangeSafe d req sender receiver := by
  unfold ExchangeSafe
  -- A request that is refused is atomic if it reports an error.
  have hrefused : ∀ e, checked d req = .error e →
      (ExchangeAtomic d req sender receiver ↔ e ≠ .undefined) := by
    intro e he
    have hexchange : exchange d req sender receiver = (d, .error e) := by rw [exchange, he]
    unfold ExchangeAtomic
    rw [hexchange]
    constructor
    · rintro (⟨h, -⟩ | ⟨⟨e', h, hdefined⟩, -⟩)
      · cases h
      · cases h
        exact hdefined
    · exact fun hdefined => .inr ⟨⟨e, rfl, hdefined⟩, rfl, rfl⟩
  have hchecked := @checked_eq C d req
  cases hvillages : villagesOf d req with
  | error e =>
    rw [hvillages] at hchecked
    rw [hrefused e hchecked]
    exact iff_of_true (villagesOf_error hvillages) fun _ h => by cases h
  | ok villages =>
    obtain ⟨s, r⟩ := villages
    obtain ⟨hne, hs, hr⟩ := villagesOf_eq_ok hvillages
    rw [hvillages] at hchecked
    change checked d req = (formatExchange s req.sentResources).map _ at hchecked
    simp only [Except.ok.injEq, forall_eq']
    cases hformat : formatExchange s req.sentResources with
    | error e =>
      rw [hformat] at hchecked
      rw [hrefused e hchecked, Ne, formatExchange_error hformat, not_not]
      exact (and_iff_left fun _ h => by cases h).symm
    | ok formatted =>
      rw [hformat] at hchecked
      rw [exchangeAtomic_of_checked hchecked hne hs hr]
      simp only [Except.ok.injEq, forall_eq']
      exact (and_iff_right (formatExchange_ok hformat)).symm

end Exchange

/-! ## Transfers -/

section Transfer

variable {d : Db C} {v f : ℕ} {req : Storage.Request} {saves : TransferSaves}
  {c : CheckedTransfer C} {n m : ℤ}

theorem check_eq_ok (h : check d v f req = .ok c) :
    ∃ n, Passes d v f req c.facility c.resourceType n ∧ c.rows = d.rowsOf v ∧
      c.resource = { req.resource with count := n } := by
  obtain ⟨village, hv, h⟩ := bind_eq_ok.1 h
  obtain ⟨facility, hf, h⟩ := bind_eq_ok.1 h
  obtain ⟨t, ht, h⟩ := bind_eq_ok.1 h
  obtain ⟨enough, he, h⟩ := bind_eq_ok.1 h
  cases enough with
  | false => cases h
  | true =>
    obtain ⟨n, hn, h⟩ := bind_eq_ok.1 h
    obtain ⟨hvid, hpasses⟩ := passes_of_checks hv hf ht he hn
    cases h
    exact ⟨n, hpasses, by rw [hvid], rfl⟩

/-- A transfer leaves the counts of the village exactly if nothing is requested. -/
theorem counts_eq_left_iff (h : check d v f req = .ok c) :
    counts d v = c.left.map Entity.count ↔ req.resource.count = 0 := by
  obtain ⟨n, hpasses, hrows, hresource⟩ := check_eq_ok h
  have hleft : c.left.map Entity.count = (d.rowsOf v).map (addOrRemoveResourcesToVillage
      [(req.resource.type, ⟨c.resourceType.id, n⟩)] (c.transferType = .deposit)) := by
    unfold CheckedTransfer.left
    rw [hrows, hresource]
    exact List.map_map
  rw [hleft, counts, map_count_eq_iff, ← hpasses.allowed.eq_zero_iff]
  constructor
  · intro hnone
    obtain ⟨r, hr, -⟩ := hpasses.enough
    obtain ⟨hmem, ht⟩ := Db.rowOf_eq_some hr
    refine hnone r hmem ⟨c.resourceType.id, n⟩ ?_
    rw [ht, hpasses.type_eq]
    simp
  · intro hzero r _ sent hsent
    rw [List.lookup_cons] at hsent
    split at hsent
    · cases hsent
      exact hzero
    · cases hsent

/-- The tables after a transfer whose vault row is there or is opened. -/
theorem counts_transfer (h : check d v f req = .ok c)
    (hopened : ¬((storageOf d f).isNone ∧ saves.opening = .rejected)) :
    counts (transfer d v f req saves).1 v =
        (if saves.village = .rejected then counts d v else c.left.map Entity.count) ∧
      storedCount (transfer d v f req saves).1 f =
        (if saves.vault = .rejected then storedCount d f
          else (c.stored (openStorage d c.facility.id c.resourceType).2).count) := by
  obtain ⟨n, hpasses, hrows, -⟩ := check_eq_ok h
  have hf := hpasses.facility_id
  unfold transfer
  simp only [h, hf, if_neg hopened]
  set opened := openStorage d f c.resourceType with hopen
  have hrowsOf : opened.1.rowsOf v = d.rowsOf v := rowsOf_openStorage
  have hleft : c.left = (opened.1.rowsOf v).map fun r => ⟨r, addOrRemoveResourcesToVillage
      [(c.resource.type, ⟨c.resourceType.id, c.resource.count⟩)] (c.transferType = .deposit) r⟩ := by
    rw [hrowsOf, ← hrows]
    rfl
  have hvillage : counts (saves.village.caught (·.saveEntities c.left) opened.1) v =
      if saves.village = .rejected then counts d v else c.left.map Entity.count := by
    cases saves.village with
    | rejected => exact congrArg _ hrowsOf
    | fulfilled =>
      show ((opened.1.saveEntities c.left).rowsOf v).map _ = c.left.map _
      rw [hleft, Db.rowsOf_saveEntities_self]
      simp [Function.comp_def]
  have hstorage : storageOf (saves.village.caught (·.saveEntities c.left) opened.1) f =
      some opened.2 := by
    cases saves.village <;> exact storageOf_openStorage
  cases saves.vault with
  | rejected =>
    refine ⟨hvillage, ?_⟩
    rw [if_pos rfl, storedCount_of_some hstorage]
    exact openStorage_count
  | fulfilled =>
    refine ⟨hvillage, ?_⟩
    exact storedCount_of_some (storageOf_saveStorage hstorage rfl)

/-- The two saves of a transfer have to end alike. -/
theorem transferAtomic_of_opened (h : check d v f req = .ok c)
    (hopened : ¬((storageOf d f).isNone ∧ saves.opening = .rejected)) :
    TransferAtomic d v f req saves ↔ saves.village = saves.vault ∨ req.resource.count = 0 := by
  have hf : c.facility.id = f := by
    obtain ⟨n, hpasses, -⟩ := check_eq_ok h
    exact hpasses.facility_id
  obtain ⟨hcounts, hstored⟩ := counts_transfer h hopened
  have hresult : (transfer d v f req saves).2 = match saves.vault with
      | .fulfilled => .ok (c.stored (openStorage d c.facility.id c.resourceType).2)
      | .rejected => .error .rejected := by
    unfold transfer
    simp only [h, hf, if_neg hopened]
    cases saves.vault <;> rfl
  have hleft := counts_eq_left_iff h
  unfold TransferAtomic
  cases hvault : saves.vault with
  | fulfilled =>
    rw [hvault] at hresult hstored
    rw [if_neg (by decide)] at hstored
    have hiff : counts (transfer d v f req saves).1 v = c.left.map Entity.count ↔
        saves.village = .fulfilled ∨ req.resource.count = 0 := by
      rw [hcounts, ite_rejected_iff, hleft]
      cases saves.village <;> simp
    rw [← hiff]
    constructor
    · rintro (⟨c', _, -, hc', hcounts', -⟩ | ⟨⟨e, he⟩, -⟩)
      · cases h.symm.trans hc'
        exact hcounts'
      · cases hresult.symm.trans he
    · exact fun hcounts' => .inl ⟨c, _, hresult, h, hcounts', hstored⟩
  | rejected =>
    rw [hvault] at hresult hstored
    rw [if_pos rfl] at hstored
    have hiff : counts (transfer d v f req saves).1 v = counts d v ↔
        saves.village = .rejected ∨ req.resource.count = 0 := by
      rw [hcounts, ← hleft]
      cases saves.village <;> simp [eq_comm]
    rw [← hiff]
    constructor
    · rintro (⟨_, _, hok, -⟩ | ⟨-, hcounts', -⟩)
      · cases hresult.symm.trans hok
      · exact hcounts'
    · exact fun hcounts' => .inr ⟨⟨_, hresult⟩, hcounts', hstored⟩

/-- A transfer is atomic exactly if it is safe. -/
theorem transferAtomic_iff : TransferAtomic d v f req saves ↔ TransferSafe d v f req saves := by
  unfold TransferSafe
  cases h : check d v f req with
  | error e =>
    refine iff_of_true ?_ fun hok => by cases hok
    have htransfer : transfer d v f req saves = (d, .error (.checks e)) := by rw [transfer, h]
    unfold TransferAtomic
    rw [htransfer]
    exact .inr ⟨⟨_, rfl⟩, rfl, rfl⟩
  | ok c =>
    have hf : c.facility.id = f := by
      obtain ⟨n, hpasses, -⟩ := check_eq_ok h
      exact hpasses.facility_id
    have hok : (Except.ok c : Except ResourcesError (CheckedTransfer C)).isOk = true := rfl
    rw [imp_iff_right hok]
    by_cases hopened : (storageOf d f).isNone ∧ saves.opening = .rejected
    · refine iff_of_true ?_ (.inl hopened)
      have htransfer : transfer d v f req saves = (d, .error .rejected) := by
        unfold transfer
        simp only [h, hf, if_pos hopened]
      unfold TransferAtomic
      rw [htransfer]
      exact .inr ⟨⟨_, rfl⟩, rfl, rfl⟩
    · rw [or_iff_right hopened]
      exact transferAtomic_of_opened h hopened

end Transfer

/-! ## Both moves -/

/-- A move is atomic exactly if no `save` is rejected that would change a count, except that a
transfer may lose the row that it opens, or both of its sides, and if every entry of an exchange has
a resource type. -/
theorem moves_atomic_iff :
    (∀ (d : Db C) (req : Exchanges.Request) (sender receiver : Settled),
      ExchangeAtomic d req sender receiver ↔ ExchangeSafe d req sender receiver) ∧
    ∀ (d : Db C) (v f : ℕ) (req : Storage.Request) (saves : TransferSaves),
      TransferAtomic d v f req saves ↔ TransferSafe d v f req saves :=
  ⟨fun _ _ _ _ => exchangeAtomic_iff, fun _ _ _ _ _ => transferAtomic_iff⟩

/-- Villages 1 and 2 are of one user. Village 1 has 1000 food and 20000 mkc, and an empty storage
vault, and village 2 has 5 food. -/
def sampleDb : Db sampleCatalog :=
  { Storage.sampleDb with
    villages :=
      { rows := [⟨1, some 1, 0, 0, 0, 0⟩, ⟨2, some 1, 0, 7, 0, 0⟩]
        next := 3
        nodup := by decide
        lt_next := by decide }
    villagesResourceTypes :=
      { rows := [⟨1, some 1, food, 1000⟩, ⟨2, some 1, mkc, 20000⟩, ⟨3, some 2, food, 5⟩]
        next := 4
        nodup := by decide
        lt_next := by decide } }

/-- 100 food for village 2. -/
def sampleExchange : Exchanges.Request := ⟨1, 2, [⟨"food", 100⟩], 1⟩

/-- The tables after the exchange. -/
def afterExchange (sender receiver : Settled) : Db sampleCatalog :=
  (exchange sampleDb sampleExchange sender receiver).1

/-- The tables after a deposit of 5000 mkc. -/
def afterDeposit (saves : TransferSaves) : Db sampleCatalog :=
  (transfer sampleDb 1 1 (sampleDeposit 5000) saves).1

/-- Where the second `save` of an exchange is rejected, 100 food are gone. Where the first `save` of
a deposit is rejected, 5000 mkc are in the village and in the vault. -/
theorem moved_by_half :
    ((counts (afterExchange .fulfilled .rejected) 1, counts (afterExchange .fulfilled .rejected) 2) =
        ([900, 20000], [5]) ∧ ¬ExchangeAtomic sampleDb sampleExchange .fulfilled .rejected) ∧
    ((counts (afterDeposit ⟨.fulfilled, .rejected, .fulfilled⟩) 1,
        storedCount (afterDeposit ⟨.fulfilled, .rejected, .fulfilled⟩) 1) = ([1000, 20000], 5000) ∧
      ¬TransferAtomic sampleDb 1 1 (sampleDeposit 5000) ⟨.fulfilled, .rejected, .fulfilled⟩) := by
  refine ⟨⟨by decide +kernel, fun hatomic => ?_⟩, by decide +kernel, fun hatomic => ?_⟩
  · rcases hatomic with ⟨-, c, hc, -, hcounts⟩ | ⟨⟨e, he, -⟩, -⟩
    · have hne : ∀ c ∈ (checked sampleDb sampleExchange).toOption,
          counts (afterExchange .fulfilled .rejected) 2 ≠ c.receiverTotal.map Entity.count := by
        decide +kernel
      exact hne c (by rw [hc]; rfl) hcounts
    · cases he
  · rcases transferAtomic_iff.1 hatomic (by decide +kernel) with ⟨-, h⟩ | h | h <;> cases h

end Cme.Rejections
