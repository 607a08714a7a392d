import CmeBackend.Attacks.Create
import CmeBackend.Exchanges.Delivery

/-!
# Units sent, received and given back

A military exchange debits the sender by the first entry of each type, and queues the whole list.
The delivery and the way back go through the list.

* `conserved_iff`: what is debited is what is delivered, and what would be given back, exactly if
  the further entries of each type cancel out.
-/

namespace Cme.Exchanges

open Js

variable {C : Catalog}

/-- What the save of the sender takes from the total of a type. -/
def debited (d : Db C) (c : CheckedMilitary C) (t : C.Ref) : ℤ :=
  d.totalOf c.sender.village.id t - (d.saveEntities c.senderLeft).totalOf c.sender.village.id t

/-- What the delivery of an item has added to the total of a type. -/
def credited (d d' : Db C) (item : QueueItem) (t : C.Ref) : ℤ :=
  d'.totalOf item.receiverVillageId t - d.totalOf item.receiverVillageId t

/-- What the way back of an item adds to the total of a type. -/
def returned (d : Db C) (item : QueueItem) (t : C.Ref) : ℤ :=
  (giveBack d item).totalOf item.senderVillageId t - d.totalOf item.senderVillageId t

/-- The entries of a type after the first one cancel out. -/
def RepeatsCancel (sentResources : List Sent) (type : String) : Prop :=
  ((sentResources.filter (·.type = type)).tail.map Sent.count).sum = 0

/-! ## The list of a request -/

/-- An element of the queue stands for an entry of the request. -/
def Formats (C : Catalog) (res : Sent) (resource : SentMilitary) : Prop :=
  ∃ t, C.find? res.type = some t ∧ resource = ⟨t.id, res.count⟩

theorem formatMilitary_eq_ok {sent : List Sent} {acc formatted : List SentMilitary}
    {forbidden forbidden' : Bool}
    (h : formatMilitary C acc forbidden sent = .ok (formatted, forbidden')) :
    ∃ list, formatted = acc ++ list ∧ List.Forall₂ (Formats C) sent list := by
  induction sent generalizing acc forbidden with
  | nil =>
    cases h
    exact ⟨[], (List.append_nil _).symm, .nil⟩
  | cons res rest ih =>
    unfold formatMilitary at h
    split at h
    · cases h
    split at h
    · cases h
    next t ht =>
      obtain ⟨list, rfl, hlist⟩ := ih h
      exact ⟨_ :: list, by simp, .cons ⟨t, ht, rfl⟩ hlist⟩

/-- Every entry that is queued has a type of the catalog. -/
theorem exists_type {sent : List Sent} {list : List SentMilitary}
    (h : List.Forall₂ (Formats C) sent list) : ∀ res ∈ sent, ∃ t, C.find? res.type = some t := by
  induction h with
  | nil => exact fun res hres => by cases hres
  | cons hres _ ih =>
    obtain ⟨t, ht, -⟩ := hres
    exact List.forall_mem_cons.2 ⟨⟨t, ht⟩, ih⟩

/-- The entries of a type, in the request and in the queue. -/
theorem countsOf_eq {sent : List Sent} {list : List SentMilitary}
    (h : List.Forall₂ (Formats C) sent list) (t : C.Ref) :
    countsOf list t = (sent.filter (·.type = t.type)).map Sent.count := by
  induction h with
  | nil => rfl
  | @cons res resource sent list hres _ ih =>
    obtain ⟨u, hu, rfl⟩ := hres
    have htype := Catalog.find?_eq_some.1 hu
    have hiff : u.id = t.id ↔ res.type = t.type := by
      rw [← htype]
      exact ⟨fun heq => congrArg _ (Catalog.Ref.eq_of_id heq),
        fun heq => congrArg _ (Catalog.Ref.eq_of_type heq)⟩
    unfold countsOf at ih ⊢
    by_cases heq : u.id = t.id
    · have htt := hiff.1 heq
      simp [heq, htt, ih]
    · have htt : res.type ≠ t.type := fun h => heq (hiff.2 h)
      simp [heq, htt, ih]

/-! ## What is debited -/

variable {d : Db C} {c : CheckedMilitary C} {t : C.Ref}

theorem villageHasEnoughMilitaryResources_eq_ok {rows : List (VillageResourceType C)}
    {formatted : List SentMilitary} {b : Bool}
    (h : villageHasEnoughMilitaryResources rows formatted = .ok b) :
    ∀ resource ∈ formatted, (findResource rows resource).isSome := by
  induction formatted with
  | nil => exact fun resource hr => by cases hr
  | cons resource rest ih =>
    unfold villageHasEnoughMilitaryResources at h
    split at h
    · cases h
    next r hr =>
      refine List.forall_mem_cons.2 ⟨?_, ih h⟩
      rw [findResource, hr]
      rfl

/-- What the checks of a military exchange have found. -/
structure Accepted (d : Db C) (req : Request) (c : CheckedMilitary C) : Prop where
  rows : c.sender.villagesResourceTypes = d.rowsOf c.sender.village.id
  formatted : List.Forall₂ (Formats C) req.sentResources c.formatted
  found : ∀ resource ∈ c.formatted,
    (findResource (d.rowsOf c.sender.village.id) resource).isSome

theorem checkMilitary_eq_ok {M : Math} {speedOf : C.Ref → Option ℚ} {req : Request}
    (h : checkMilitary M speedOf req (d.findVillage req.senderVillageId)
      (d.findVillage req.receiverVillageId) = .ok c) : Accepted d req c := by
  obtain ⟨⟨sender, receiver⟩, howners, h⟩ := bind_eq_ok.1 h
  obtain ⟨⟨formatted, forbidden⟩, hformat, h⟩ := bind_eq_ok.1 h
  simp only at h
  split at h
  · cases h
  split at h
  · cases h
  obtain ⟨enough, henough, h⟩ := bind_eq_ok.1 h
  split at h
  · cases h
  obtain ⟨slowest, -, h⟩ := bind_eq_ok.1 h
  cases h
  obtain ⟨list, rfl, hlist⟩ := formatMilitary_eq_ok hformat
  have hrows := Db.rows_of_findVillage (checkOwners_eq_ok.1 howners).1
  exact ⟨hrows, hlist, hrows ▸ villageHasEnoughMilitaryResources_eq_ok henough⟩

/-- The first entry of a type. -/
def firstOf (resources : List SentMilitary) (t : C.Ref) : ℤ :=
  (countsOf resources t).head?.getD 0

theorem removeMiliteryResourcesToVillage_eq (formatted : List SentMilitary)
    (r : VillageResourceType C) :
    removeMiliteryResourcesToVillage formatted r = r.count - firstOf formatted r.resourceType := by
  unfold removeMiliteryResourcesToVillage firstOf countsOf
  rw [List.head?_map, List.head?_filter]
  cases formatted.find? (·.id = r.resourceType.id) with
  | none => simp
  | some resource => rfl

/-- A row of the sender loses the first entry of its type. -/
theorem gain_senderLeft {formatted : List SentMilitary} {r : VillageResourceType C} {v : ℕ}
    (hv : r.villageId = some v) :
    Entity.gain v t ⟨r, removeMiliteryResourcesToVillage formatted r⟩ =
      if r.resourceType = t then -firstOf formatted t else 0 := by
  unfold Entity.gain
  by_cases ht : r.resourceType = t
  · subst ht
    simp only [hv, true_and, if_true, removeMiliteryResourcesToVillage_eq]
    ring
  · simp [ht]

/-- Every row of a type is debited by its first entry. -/
theorem debited_eq {req : Request} (h : Accepted d req c) :
    debited d c t = (d.rowsOfType c.sender.village.id t).length * firstOf c.formatted t := by
  have hsave : (d.saveEntities c.senderLeft).totalOf c.sender.village.id t =
      d.totalOf c.sender.village.id t +
        (c.senderLeft.map (Entity.gain c.sender.village.id t)).sum := by
    apply Db.totalOf_saveEntities
    · rw [CheckedMilitary.senderLeft, List.map_map, h.rows]
      exact nodup_rowsOf d _
    · intro e he
      obtain ⟨r, hr, rfl⟩ := List.mem_map.1 he
      rw [h.rows] at hr
      exact (Db.mem_rowsOf.1 hr).1
  have hgains : (c.senderLeft.map (Entity.gain c.sender.village.id t)).sum =
      (d.rowsOfType c.sender.village.id t).length * -firstOf c.formatted t := by
    rw [CheckedMilitary.senderLeft, List.map_map, h.rows]
    have hgain : ∀ r ∈ d.rowsOf c.sender.village.id,
        (Entity.gain c.sender.village.id t ∘
          fun r => ⟨r, removeMiliteryResourcesToVillage c.formatted r⟩) r =
          if r.resourceType = t then -firstOf c.formatted t else 0 :=
      fun r hr => gain_senderLeft (Db.mem_rowsOf.1 hr).2
    rw [List.map_congr_left hgain, List.sum_map_ite]
    simp [Db.rowsOfType]
  unfold debited
  rw [hsave, hgains]
  ring

/-- A sender with one row of each type loses the first entry of each type. -/
theorem debited_eq_firstOf {req : Request} (h : Accepted d req c) (hone : d.OneRowPerType) :
    debited d c t = firstOf c.formatted t := by
  rw [debited_eq h]
  cases hcounts : countsOf c.formatted t with
  | nil => simp [firstOf, hcounts]
  | cons n rest =>
    obtain ⟨resource, hmem⟩ : ∃ resource, resource ∈ c.formatted.filter (·.id = t.id) := by
      refine List.exists_mem_of_ne_nil _ fun hnil => ?_
      rw [countsOf, hnil] at hcounts
      cases hcounts
    obtain ⟨hres, hid⟩ := List.mem_filter.1 hmem
    obtain ⟨r, hr⟩ := Option.isSome_iff_exists.1 (h.found resource hres)
    obtain ⟨hrow, hrid⟩ := findResource_eq_some hr
    have ht : r.resourceType = t := Catalog.Ref.eq_of_id (hrid.trans (of_decide_eq_true hid))
    have hpos : 0 < (d.rowsOfType c.sender.village.id t).length :=
      List.length_pos_of_mem (List.mem_filter.2 ⟨hrow, decide_eq_true ht⟩)
    have hle := hone.length_le c.sender.village.id t
    have hlen : (d.rowsOfType c.sender.village.id t).length = 1 := by omega
    rw [hlen, Nat.cast_one, one_mul]

/-- The first of the entries of a type is all of them exactly if the others cancel out. -/
theorem first_eq_queued_iff {resources : List SentMilitary} :
    firstOf resources t = queued resources t ↔ (countsOf resources t).tail.sum = 0 := by
  unfold firstOf queued
  cases countsOf resources t with
  | nil => simp
  | cons n rest => simp

/-! ## Requests -/

/-- What is debited is what is delivered and what would be given back, for every type, exactly if
the further entries of each type cancel out. The sender's rows are still there when the item comes
back. -/
theorem conserved_iff {M : Math} {speedOf : C.Ref → Option ℚ} {req : Request}
    {d d₁ d₂ d₃ : Db C} {c : CheckedMilitary C} {unique : ℚ}
    (hcheck : checkMilitary M speedOf req (d.findVillage req.senderVillageId)
      (d.findVillage req.receiverVillageId) = .ok c)
    (hone : d.OneRowPerType) (hreceive : receive d₁ (c.item unique) = some d₂)
    (hrows : ∀ resource ∈ c.formatted,
      (findResource (d₃.rowsOf c.sender.village.id) resource).isSome) :
    (∀ t, debited d c t = credited d₁ d₂ (c.item unique) t ∧
        debited d c t = returned d₃ (c.item unique) t) ↔
      ∀ type, RepeatsCancel req.sentResources type := by
  have haccepted := checkMilitary_eq_ok hcheck
  have hcredited : ∀ t, credited d₁ d₂ (c.item unique) t = queued c.formatted t := by
    intro t
    rw [credited, totalOf_receive hreceive, add_sub_cancel_left]
    rfl
  have hreturned : ∀ t, returned d₃ (c.item unique) t = queued c.formatted t := by
    intro t
    rw [returned, totalOf_giveBack hrows, add_sub_cancel_left]
    rfl
  have hcancel : ∀ t : C.Ref, RepeatsCancel req.sentResources t.type ↔
      (countsOf c.formatted t).tail.sum = 0 := by
    intro t
    rw [countsOf_eq haccepted.formatted, ← List.map_tail]
    rfl
  simp only [hcredited, hreturned, debited_eq_firstOf haccepted hone, and_self,
    first_eq_queued_iff, ← hcancel]
  constructor
  · intro h type
    cases hfind : C.find? type with
    | some t => exact Catalog.find?_eq_some.1 hfind ▸ h t
    | none =>
      -- No entry of an accepted request has a type that does not exist.
      have hnone : req.sentResources.filter (·.type = type) = [] := by
        refine List.filter_eq_nil_iff.2 fun res hres htype => ?_
        obtain ⟨t, ht⟩ := exists_type haccepted.formatted res hres
        rw [of_decide_eq_true htype, hfind] at ht
        cases ht
      rw [RepeatsCancel, hnone]
      rfl
  · exact fun h t => h t.type

/-! ## A type sent twice -/

/-- Villages 1 and 3 are of one user. Village 1 has 30 stone hunters. -/
def sampleDb : Db sampleCatalog :=
  { Attacks.sampleDb with
    villages :=
      { rows := [⟨1, some 1, 0, 0, 0, 0⟩, ⟨2, some 2, 3, 4, 0, 0⟩, ⟨3, some 1, 6, 8, 0, 0⟩]
        next := 4
        nodup := by decide
        lt_next := by decide } }

def sampleRequest (sent : List Sent) : Request := ⟨1, 3, sent, 1⟩

/-- The checks of a request from village 1 to village 3. -/
def sampleCheck (sent : List Sent) : Except ExchangeEnd (CheckedMilitary sampleCatalog) :=
  checkMilitary Attacks.sampleMath (fun _ => some 10) (sampleRequest sent)
    (sampleDb.findVillage 1) (sampleDb.findVillage 3)

def sampleOnce : List Sent := [⟨"stone_hunter", 5⟩]

def sampleTwice : List Sent := [⟨"stone_hunter", 5⟩, ⟨"stone_hunter", 7⟩]

/-- A type that is sent once. -/
theorem conserved_iff_sample : ∃ c d, sampleCheck sampleOnce = .ok c ∧
    ((∀ t, debited sampleDb c t = credited sampleDb d (c.item 0) t ∧
        debited sampleDb c t = returned sampleDb (c.item 0) t) ↔
      ∀ type, RepeatsCancel sampleOnce type) := by
  obtain ⟨c, hc⟩ : ∃ c, sampleCheck sampleOnce = .ok c := exists_of_isOk (by decide +kernel)
  have hmem : c ∈ (sampleCheck sampleOnce).toOption := by rw [hc]; rfl
  have hreceive : ∀ c ∈ (sampleCheck sampleOnce).toOption,
      (receive sampleDb (c.item 0)).isSome := by decide +kernel
  have hrows : ∀ c ∈ (sampleCheck sampleOnce).toOption, ∀ resource ∈ c.formatted,
      (findResource (sampleDb.rowsOf c.sender.village.id) resource).isSome := by decide +kernel
  obtain ⟨d, hd⟩ := Option.isSome_iff_exists.1 (hreceive c hmem)
  exact ⟨c, d, hc, conserved_iff hc (by decide) hd (hrows c hmem)⟩

/-- Of 5 and 7 stone hunters, the sender loses 5 and the receiver gets 12. -/
theorem sent_twice : ∃ c ∈ (sampleCheck sampleTwice).toOption,
    ∃ d ∈ receive sampleDb (c.item 0),
      debited sampleDb c stoneHunter = 5 ∧ credited sampleDb d (c.item 0) stoneHunter = 12 := by
  decide +kernel

end Cme.Exchanges
