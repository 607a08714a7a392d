import CmeBackend.Game.Flows

/-!
# What the requests do to the units in the villages

For each request that moves resources, and for the deliveries: what it keeps (`Keeps`), and what it
adds to the number of units that the villages hold (`held`).

* `held_send`, `held_deliver`: a military exchange takes its units from one village and gives them to
  another, or back.
* `held_exchange`: an exchange of base resources does not touch the units.
* `held_transfer`: what leaves the villages is stored in a vault, and the other way round.
-/

namespace Cme.Game

open Js GameRules Production.Lifecycle

variable {C : Catalog} {d d' d₁ : Db C} {v w : ℕ} {t : C.Ref}

/-! ## Military exchanges -/

section Send

open Exchanges

variable {e : Env C} {req : Exchanges.Request} {c : CheckedMilitary C} {unique : ℚ}
  {item : QueueItem}

/-- The villages of an exchange, and what its checks have found. -/
structure Sends (d : Db C) (req : Exchanges.Request) (c : CheckedMilitary C) : Prop where
  accepted : Accepted d req c
  senderId : c.sender.village.id = req.senderVillageId
  sender : (d.villages.get? c.sender.village.id).isSome
  receiver : (d.villages.get? c.receiver.village.id).isSome

theorem sends_of_checkSend (h : checkSend e d req = .ok c) : Sends d req c := by
  obtain ⟨⟨⟩, -, h⟩ := bind_eq_ok.1 h
  have haccepted := checkMilitary_eq_ok h
  obtain ⟨⟨sender, receiver⟩, howners, h⟩ := bind_eq_ok.1 h
  obtain ⟨⟨formatted, forbidden⟩, -, h⟩ := bind_eq_ok.1 h
  simp only at h
  split at h
  · cases h
  split at h
  · cases h
  obtain ⟨enough, -, h⟩ := bind_eq_ok.1 h
  split at h
  · cases h
  obtain ⟨slowest, -, h⟩ := bind_eq_ok.1 h
  cases h
  obtain ⟨hsender, hreceiver, -⟩ := checkOwners_eq_ok.1 howners
  have hloaded : ∀ {id : ℕ} {village : LoadedVillage C}, d.findVillage id = some village →
      (d.villages.get? village.village.id).isSome := by
    intro id village hfind
    rw [Db.id_of_findVillage hfind, (Db.findVillage_eq_some.1 hfind).1]
    rfl
  exact ⟨haccepted, Db.id_of_findVillage hsender, hloaded hsender, hloaded hreceiver⟩

/-- The entries of a request whose types differ have different ids. -/
theorem nodup_formatted {sent : List Sent} {list : List SentMilitary}
    (h : List.Forall₂ (Formats C) sent list) (hn : (sent.map Sent.type).Nodup) :
    (list.map SentMilitary.id).Nodup := by
  induction h with
  | nil => exact List.nodup_nil
  | @cons res resource sent list hres hrest ih =>
    obtain ⟨hnot, hn'⟩ := List.nodup_cons.1 hn
    refine List.nodup_cons.2 ⟨fun hmem => hnot ?_, ih hn'⟩
    obtain ⟨t, ht, rfl⟩ := hres
    obtain ⟨resource', hresource', hid⟩ := List.mem_map.1 hmem
    clear ih hn hn' hmem hnot
    induction hrest with
    | nil => cases hresource'
    | @cons res' resource'' sent list hres' _ ih =>
      rcases List.mem_cons.1 hresource' with rfl | hresource'
      · obtain ⟨t', ht', rfl⟩ := hres'
        have heq : t' = t := Catalog.Ref.eq_of_id hid
        rw [← Catalog.find?_eq_some.1 ht, ← heq, Catalog.find?_eq_some.1 ht']
        exact List.mem_cons_self
      · exact List.mem_cons_of_mem _ (ih hresource')

/-- The first entry of a type is all that is queued of it. -/
theorem firstOf_eq_queued {resources : List SentMilitary}
    (hn : (resources.map SentMilitary.id).Nodup) : firstOf resources t = queued resources t := by
  refine first_eq_queued_iff.2 ?_
  have hle : (countsOf resources t).length ≤ 1 := by
    unfold countsOf
    rw [List.length_map]
    have hcount := List.nodup_iff_count_le_one.1 hn t.id
    rw [List.count_eq_countP, List.countP_map, List.countP_eq_length_filter] at hcount
    convert hcount using 3
    funext resource
    rfl
  match h : countsOf resources t, hle with
  | [], _ => rfl
  | [n], _ => rfl

theorem keeps_saveEntities (entities : List (Entity C)) : Keeps d (d.saveEntities entities) :=
  Keeps.setCounts d _

/-- The units of an exchange leave their village. -/
theorem held_send (h : Sends d req c) (hn : (req.sentResources.map Sent.type).Nodup)
    (hone : d.OneRowPerType) :
    held (d.saveEntities c.senderLeft) t = held d t + -queued c.formatted t := by
  have hdebited := debited_eq_firstOf (t := t) h.accepted hone
  rw [firstOf_eq_queued (nodup_formatted h.accepted.formatted hn), debited] at hdebited
  refine held_of_one (v := c.sender.village.id) rfl h.sender (by omega) fun w hw => ?_
  refine totalOf_congr ?_
  unfold CheckedMilitary.senderLeft
  rw [h.accepted.rows]
  exact Db.rowsOf_saveEntities_of_ne hw

/-! ### Deliveries -/

/-- An item whose types differ, of villages that exist and of which the sender has rows. -/
structure Shipped (d : Db C) (item : QueueItem) : Prop where
  sender : (d.villages.get? item.senderVillageId).isSome
  receiver : (d.villages.get? item.receiverVillageId).isSome
  nodup : (item.resources.map SentMilitary.id).Nodup
  rows : ∀ resource ∈ item.resources, ∃ t : C.Ref, t.id = resource.id ∧
    (d.rowOf item.senderVillageId t).isSome

theorem Shipped.keeps (h : Shipped d item) (hkeeps : Keeps d d') : Shipped d' item where
  sender := hkeeps.villages _ h.sender
  receiver := hkeeps.villages _ h.receiver
  nodup := h.nodup
  rows resource hr :=
    let ⟨t, ht, hrow⟩ := h.rows resource hr
    ⟨t, ht, hkeeps.rows _ t hrow⟩

theorem isSome_findResource {resource : SentMilitary} (ht : t.id = resource.id) :
    (findResource (d.rowsOf v) resource).isSome = (d.rowOf v t).isSome := by
  unfold findResource Db.rowOf
  rw [ht]

/-- The item of an exchange. -/
theorem shipped_item (h : Sends d req c) (hn : (req.sentResources.map Sent.type).Nodup) :
    Shipped d (c.item unique) where
  sender := h.sender
  receiver := h.receiver
  nodup := nodup_formatted h.accepted.formatted hn
  rows resource hr := by
    have hfound := h.accepted.found resource hr
    obtain ⟨r, hr'⟩ := Option.isSome_iff_exists.1 hfound
    obtain ⟨-, hid⟩ := findResource_eq_some hr'
    exact ⟨r.resourceType, hid, isSome_findResource hid ▸ hfound⟩

/-- What a delivery inserts has no row, and is of different types. -/
theorem created_sublist {rows : List (VillageResourceType C)} (resources : List SentMilitary) :
    (Exchanges.deliver rows resources).created =
      resources.filter fun resource => (findResource rows resource).isNone := by
  suffices h : ∀ data : Delivery C, (resources.foldl (addResource rows) data).created =
      data.created ++ resources.filter fun resource => (findResource rows resource).isNone from
    (h ⟨[], []⟩).trans (List.nil_append _)
  induction resources with
  | nil => exact fun data => (List.append_nil _).symm
  | cons resource rest ih =>
    intro data
    rw [List.foldl_cons, ih]
    unfold addResource
    cases hfind : findResource rows resource with
    | some r => simp [hfind]
    | none => simp [hfind]

theorem keeps_insertResources {created : List SentMilitary}
    (h : created.foldlM (insertResource v) d = some d')
    (hn : (created.map SentMilitary.id).Nodup)
    (hno : ∀ resource ∈ created, d.NoRow v resource.id) : Keeps d d' := by
  induction created generalizing d with
  | nil =>
    cases h
    exact Keeps.refl _
  | cons resource rest ih =>
    obtain ⟨hnot, hn'⟩ := List.nodup_cons.1 hn
    obtain ⟨hresource, hrest⟩ := List.forall_mem_cons.1 hno
    obtain ⟨d₁, h₁, h⟩ := Option.bind_eq_some_iff.1 h
    obtain ⟨t, ht, h₁⟩ := Option.bind_eq_some_iff.1 h₁
    obtain ⟨village, hvillage, h₁⟩ := Option.bind_eq_some_iff.1 h₁
    cases h₁
    have hid := Catalog.ofId?_eq_some.1 ht
    have hv : (d.villages.get? v).isSome := by rw [hvillage]; rfl
    refine (Keeps.insertCount hv (hid ▸ hresource) _).trans (ih h hn' fun r hr => ?_)
    refine (hrest r hr).insertCount (fun heq => hnot ?_) _
    exact hid ▸ heq ▸ List.mem_map_of_mem hr

theorem keeps_receive (h : receive d item = some d')
    (hn : (item.resources.map SentMilitary.id).Nodup) : Keeps d d' := by
  refine (keeps_saveEntities _).trans (keeps_insertResources h ?_ fun resource hr => ?_)
  · rw [created_sublist]
    exact hn.sublist (List.filter_sublist.map _)
  · rw [created_sublist] at hr
    have hnone := (List.mem_filter.1 hr).2
    intro r hrow hid
    rw [Db.saveEntities, Db.rowsOf_setCounts] at hrow
    obtain ⟨r₀, hr₀, rfl⟩ := List.mem_map.1 hrow
    rw [Option.isNone_iff_eq_none] at hnone
    exact List.find?_eq_none.1 hnone r₀ hr₀ (decide_eq_true hid)

/-- Giving back touches the sender only. -/
theorem totalOf_giveBack_of_ne (hv : v ≠ item.senderVillageId) :
    (giveBack d item).totalOf v t = d.totalOf v t := by
  obtain ⟨hloaded, -⟩ := amount_deliver (t := t) item.resources
    (nodup_rowsOf d item.senderVillageId) fun r hr => (Db.mem_rowsOf.1 hr).2
  have hgain : ∀ e ∈ (Exchanges.deliver (d.rowsOf item.senderVillageId) item.resources).found,
      Entity.gain v t e = 0 := by
    intro e he
    have hvillage := (Db.mem_rowsOf.1 (hloaded.mem e he)).2
    exact if_neg fun h => hv (Option.some.inj (h.1.symm.trans hvillage))
  unfold giveBack
  rw [revert_eq, Db.totalOf_saveEntities hloaded.nodup fun e he =>
    (Db.mem_rowsOf.1 (hloaded.mem e he)).1, List.map_congr_left hgain]
  simp

theorem keeps_deliver (h : Shipped d item) : Keeps d (deliver d item) := by
  unfold deliver
  cases hreceive : receive d item with
  | some d' => exact keeps_receive hreceive h.nodup
  | none => exact keeps_saveEntities _

theorem frame_insertResources {created : List SentMilitary}
    (h : created.foldlM (insertResource v) d = some d') : d'.villages = d.villages ∧
      d'.attacks = d.attacks ∧
      d'.villagesStorageResourceTypes = d.villagesStorageResourceTypes := by
  induction created generalizing d with
  | nil =>
    cases h
    exact ⟨rfl, rfl, rfl⟩
  | cons resource rest ih =>
    obtain ⟨d₁, h₁, h⟩ := Option.bind_eq_some_iff.1 h
    obtain ⟨t, -, h₁⟩ := Option.bind_eq_some_iff.1 h₁
    obtain ⟨village, -, h₁⟩ := Option.bind_eq_some_iff.1 h₁
    cases h₁
    have hrest := ih h
    exact hrest

/-- What a callback of the deliveries leaves as it is. -/
theorem frame_deliver : (deliver d item).villages = d.villages ∧
    (deliver d item).attacks = d.attacks ∧
    (deliver d item).villagesStorageResourceTypes = d.villagesStorageResourceTypes := by
  unfold deliver
  cases hreceive : receive d item with
  | none => exact ⟨rfl, rfl, rfl⟩
  | some d' =>
    have hframe := frame_insertResources hreceive
    exact hframe

/-- The units of an item come into the village of the receiver, or back into that of the sender. -/
theorem held_deliver (h : Shipped d item) :
    held (deliver d item) t = held d t + queued item.resources t := by
  have hids := congrArg (fun t : Table Village => t.rows.map key)
    (@frame_deliver _ d item).1
  cases hreceive : receive d item with
  | some d' =>
    have hdeliver : deliver d item = d' := by rw [deliver, hreceive]; rfl
    rw [hdeliver] at hids ⊢
    exact held_of_one hids h.receiver (totalOf_receive hreceive)
      fun w hw => totalOf_receive_of_ne hreceive hw
  | none =>
    have hdeliver : deliver d item = giveBack d item := by rw [deliver, hreceive]; rfl
    rw [hdeliver] at hids ⊢
    refine held_of_one hids h.sender (totalOf_giveBack fun resource hr => ?_)
      fun w hw => totalOf_giveBack_of_ne hw
    obtain ⟨u, hu, hrow⟩ := h.rows resource hr
    exact (isSome_findResource hu).trans hrow

end Send

/-! ## Exchanges of base resources -/

section Exchange

open Exchanges

variable {req : Exchanges.Request}

/-- No military unit is a base resource. -/
theorem name_not_mem_exchangeableResources (u : MilitaryResource) :
    u.name ∉ exchangeableResources := by
  cases u <;> decide

/-- Two statements on counts are one. -/
theorem setCounts_setCounts (f g : VillageResourceType C → ℤ) :
    (d.setCounts f).setCounts g = d.setCounts fun r => g { r with count := f r } := by
  simp only [Db.setCounts, Table.map, List.map_map]
  rfl

/-- An exchange saves counts of rows that exist. -/
theorem exchange_eq : ∃ f, (exchangeResourcesBetweenSameUserVillages d req).1 = d.setCounts f := by
  unfold exchangeResourcesBetweenSameUserVillages Rejections.exchange
  cases Rejections.checked d req with
  | error e => exact ⟨_, Db.setCounts_count.symm⟩
  | ok c =>
    exact ⟨_, setCounts_setCounts _ _⟩

theorem keeps_exchange : Keeps d (exchangeResourcesBetweenSameUserVillages d req).1 := by
  obtain ⟨f, hf⟩ := @exchange_eq _ d req
  exact hf ▸ Keeps.setCounts d f

theorem held_exchange (ht : IsUnit t) :
    held (exchangeResourcesBetweenSameUserVillages d req).1 t = held d t := by
  by_cases h : Passes d req
  · obtain ⟨u, hu⟩ := ht
    have hnone : lastCount req.sentResources t.type = none := by
      rw [← Option.not_isSome_iff_eq_none, isSome_lastCount]
      rintro ⟨res, hres, hres'⟩
      exact name_not_mem_exchangeableResources u (hu ▸ hres' ▸ h.base res hres)
    have hids : (exchangeResourcesBetweenSameUserVillages d req).1.villages = d.villages := by
      obtain ⟨f, hf⟩ := @exchange_eq _ d req
      rw [hf]
      rfl
    refine held_congr (congrArg (fun t : Table Village => t.rows.map key) hids) fun v => ?_
    rw [totalOf_exchanged h, added_of_none (.inl hnone), mul_zero, add_zero]
  · rw [(exchange_of_not_passes h).1]

end Exchange

/-! ## Vaults -/

section Transfer

open Storage

variable {f : ℕ} {req : Storage.Request} {facility : Facility} {u : C.Ref} {n : ℤ}

theorem stored_saveStorage {s s' : VillageStorageResourceType C}
    (hs : s ∈ d.villagesStorageResourceTypes.rows) (hid : key s = s'.id) :
    stored (saveStorage d s') t =
      stored d t + if s.resourceType = t then s'.count - s.count else 0 := by
  unfold stored saveStorage
  rw [Table.total_update hs hid]
  dsimp only
  split_ifs <;> ring

/-- A transfer writes the vault row of its facility, which it may have inserted. -/
theorem stored_move {resource : TransferableResource} {k : TransferType} :
    stored (move d v facility u resource k).db t =
      stored d t + if vaultType d facility.id u = t then k.intoVault resource.count else 0 := by
  have hopened : stored (openStorage d facility.id u).1 t = stored d t ∧
      (openStorage d facility.id u).2 ∈
        (openStorage d facility.id u).1.villagesStorageResourceTypes.rows := by
    unfold openStorage
    split
    next storage hstorage => exact ⟨rfl, List.mem_of_find?_eq_some hstorage⟩
    · refine ⟨?_, Table.mem_insert.2 (.inr rfl)⟩
      unfold stored
      rw [Table.total_insert]
      simp
  refine (stored_saveStorage (d := (openStorage d facility.id u).1.saveResources v _ _)
    hopened.2 ?_).trans ?_
  · rfl
  · rw [openStorage_resourceType, ← hopened.1]
    refine congrArg (stored (openStorage d facility.id u).1 t + ·) ?_
    unfold TransferType.intoVault
    dsimp only
    split_ifs <;> ring

theorem keeps_move {resource : TransferableResource} {k : TransferType} :
    Keeps d (move d v facility u resource k).db := by
  have hopened : Keeps d (openStorage d facility.id u).1 := by
    unfold openStorage
    split <;> exact Keeps.of_eq rfl fun _ hv => hv
  exact (hopened.trans (Keeps.setCounts _ _)).trans (Keeps.of_eq rfl fun _ hv => hv)

theorem keeps_transfer : Keeps d (Storage.step v f d req) := by
  rcases step_cases d v f req with heq | ⟨facility, u, n, hp⟩
  · rw [heq]
    exact Keeps.refl d
  · rw [step_of_passes hp]
    exact keeps_move

/-- What a transfer leaves as it is. -/
theorem frame_transfer : (Storage.step v f d req).villages = d.villages ∧
    (Storage.step v f d req).attacks = d.attacks := by
  rcases step_cases d v f req with heq | ⟨facility, u, n, hp⟩
  · rw [heq]
    exact ⟨rfl, rfl⟩
  · rw [step_of_passes hp]
    show (openStorage d facility.id u).1.villages = _ ∧ (openStorage d facility.id u).1.attacks = _
    unfold openStorage
    split <;> exact ⟨rfl, rfl⟩

/-- What a transfer takes from the villages is stored. -/
theorem held_transfer (h : Conserving v f d req) (t : C.Ref) :
    ∃ n, held (Storage.step v f d req) t = held d t + -n ∧
      stored (Storage.step v f d req) t = stored d t + n := by
  rcases step_cases d v f req with heq | ⟨facility, u, n, hp⟩
  · rw [heq]
    exact ⟨0, by simp, by simp⟩
  · have hids : (Storage.step v f d req).villages.rows.map key = d.villages.rows.map key := by
      rw [frame_transfer.1]
    have hother : ∀ w, w ≠ v →
        (Storage.step v f d req).totalOf w t = d.totalOf w t := by
      intro w hw
      refine totalOf_congr ?_
      rw [step_of_passes hp]
      show ((openStorage d facility.id u).1.saveResources v _ _).rowsOf w = _
      rw [Db.saveResources, Db.rowsOf_setCounts, rowsOf_openStorage]
      refine (List.map_congr_left fun r hr => ?_).trans (List.map_id _)
      have hne : r.villageId ≠ some v := by
        rw [(Db.mem_rowsOf.1 hr).2]
        exact fun heq => hw (Option.some.inj heq)
      rw [if_neg hne]
      rfl
    have hself : (Storage.step v f d req).totalOf v t = d.totalOf v t +
        (Pi.single u (-req.transferType.intoVault n) : C.Ref → ℤ) t :=
      congrFun (congrArg Holdings.village (hp.refines h)) t
    have hvault : stored (Storage.step v f d req) t = stored d t +
        (Pi.single u (req.transferType.intoVault n) : C.Ref → ℤ) t := by
      rw [step_of_passes hp, stored_move, hp.facility_id, Pi.single_apply]
      dsimp only
      rcases h facility u n hp with hzero | ⟨-, -, hvault⟩
      · rw [hp.allowed.eq_zero_iff.2 hzero]
        simp [TransferType.intoVault]
      · rw [vaultType_eq_self_iff.2 hvault]
        simp only [eq_comm]
    obtain ⟨village, hvillage⟩ := hp.village_exists
    refine ⟨_, ?_, hvault⟩
    refine held_of_one hids (by rw [hvillage]; rfl) ?_ hother
    rw [hself, Pi.single_neg]
    rfl

end Transfer

end Cme.Game
