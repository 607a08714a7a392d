import CmeBackend.Exchanges.Rejections

/-!
# The balances of an exchange of base resources

`exchangeResourcesBetweenSameUserVillages` (`resources-ms-exchanges.service.ts`) where both saves go
through. The loop over the entries writes an object by the names of the types, so of several entries
of one type the last one counts (`lastCount`). The counts of a request are any integers.

* `Passes`: what the checks let through, in terms of the request and the rows of the villages.
* `rowsOf_exchanged`: what an exchange makes of the rows of both villages.
* `exchange_conserves`: what the sender loses, the receiver gains, and a refused request changes
  nothing.
* `exchange_nonneg_iff`: the checks compare the counts with what the sender has, and not with what
  the receiver has, from whom a negative count is taken.
-/

namespace Cme.Exchanges

open Rejections

variable {C : Catalog}

/-- `exchangeResourcesBetweenSameUserVillages` -/
def exchangeResourcesBetweenSameUserVillages (d : Db C) (req : Request) :
    Db C × Except ExchangeEnd Unit :=
  exchange d req .fulfilled .fulfilled

/-- The count of the last entry of a type. -/
def lastCount (sentResources : List Sent) (type : String) : Option ℤ :=
  (sentResources.reverse.find? (·.type = type)).map Sent.count

/-- A village of the user. -/
def OwnedBy (d : Db C) (userId v : ℕ) : Prop :=
  ∃ village, d.villages.get? v = some village ∧ village.userId = some userId

/-- The request passes the checks. -/
structure Passes (d : Db C) (req : Request) : Prop where
  different : req.senderVillageId ≠ req.receiverVillageId
  sender : OwnedBy d req.userId req.senderVillageId
  receiver : OwnedBy d req.userId req.receiverVillageId
  nonempty : req.sentResources ≠ []
  known : ∀ res ∈ req.sentResources, (C.find? res.type).isSome
  base : ∀ res ∈ req.sentResources, res.type ∈ exchangeableResources
  enough : ∀ type n, lastCount req.sentResources type = some n →
    ∃ r, (d.rowsOf req.senderVillageId).find? (·.resourceType.type = type) = some r ∧ n ≤ r.count

/-- What a request adds to the rows of a type in a village. -/
def added (req : Request) (v : ℕ) (type : String) : ℤ :=
  let n := (lastCount req.sentResources type).getD 0
  if v = req.senderVillageId then -n else if v = req.receiverVillageId then n else 0

/-! ## The loop over the entries -/

section Format

variable {acc formatted : SentResources} {forbidden : Bool} {sent : List Sent} {type key : String}
  {s : SentResource}

theorem lastCount_append (sent : List Sent) (res : Sent) (type : String) :
    lastCount (sent ++ [res]) type =
      if res.type = type then some res.count else lastCount sent type := by
  unfold lastCount
  rw [List.reverse_append, List.reverse_singleton, List.singleton_append, List.find?_cons]
  by_cases h : res.type = type <;> simp [h]

/-- An entry of a type is there exactly if the type has a last one. -/
theorem isSome_lastCount : (lastCount sent type).isSome ↔ ∃ res ∈ sent, res.type = type := by
  unfold lastCount
  rw [Option.isSome_map, List.find?_isSome]
  simp

theorem lookup_setSent (l : SentResources) :
    (setSent type s l).lookup key = if key = type then some s else l.lookup key := by
  induction l with
  | nil =>
    unfold setSent
    by_cases h : key = type
    · simp [h]
    · simp [List.lookup_cons, beq_false_of_ne h, h]
  | cons p rest ih =>
    obtain ⟨k, old⟩ := p
    unfold setSent
    by_cases hk : k = type
    · subst hk
      by_cases h : key = k
      · simp [h]
      · simp [List.lookup_cons, beq_false_of_ne h, h]
    · rw [if_neg hk]
      by_cases h : key = k
      · subst h
        simp [hk]
      · simp only [List.lookup_cons, beq_false_of_ne h, ih]

theorem mem_keys_setSent (l : SentResources) :
    key ∈ (setSent type s l).map Prod.fst ↔ key = type ∨ key ∈ l.map Prod.fst := by
  induction l with
  | nil => simp [setSent]
  | cons p rest ih =>
    obtain ⟨k, old⟩ := p
    unfold setSent
    by_cases hk : k = type
    · simp [hk]
    · rw [if_neg hk]
      simp only [List.map_cons, List.mem_cons, ih]
      tauto

/-- The object has one property for a name. -/
theorem nodup_setSent {l : SentResources} (h : (l.map Prod.fst).Nodup) :
    ((setSent type s l).map Prod.fst).Nodup := by
  induction l with
  | nil => exact List.nodup_singleton _
  | cons p rest ih =>
    obtain ⟨k, old⟩ := p
    obtain ⟨hnot, hrest⟩ := List.nodup_cons.1 h
    unfold setSent
    by_cases hk : k = type
    · rw [if_pos hk]
      exact List.nodup_cons.2 ⟨hnot, hrest⟩
    · rw [if_neg hk]
      refine List.nodup_cons.2 ⟨fun hmem => ?_, ih hrest⟩
      rcases (mem_keys_setSent rest).1 hmem with heq | hmem
      · exact hk heq
      · exact hnot hmem

/-- What the loop has after the entries `done`. -/
structure Formatted (C : Catalog) (done : List Sent) (formatted : SentResources)
    (forbidden : Bool) : Prop where
  nodup : (formatted.map Prod.fst).Nodup
  counts : ∀ type, (formatted.lookup type).map SentResource.count = lastCount done type
  forbidden : forbidden = true ↔ ∃ res ∈ done, res.type ∉ exchangeableResources
  known : ∀ res ∈ done, (C.find? res.type).isSome

theorem Formatted.nil : Formatted C [] [] false :=
  ⟨List.nodup_nil, fun _ => rfl, by simp, by simp⟩

/-- One round of the loop. -/
theorem Formatted.append {done : List Sent} (h : Formatted C done formatted forbidden) {res : Sent}
    {resType : C.Ref} (hfind : C.find? res.type = some resType) :
    Formatted C (done ++ [res]) (setSent res.type ⟨resType.id, res.count⟩ formatted)
      (forbidden || res.type ∉ exchangeableResources) where
  nodup := nodup_setSent h.nodup
  counts type := by
    rw [lookup_setSent, lastCount_append]
    by_cases heq : type = res.type
    · simp [heq]
    · rw [if_neg heq, if_neg (Ne.symm heq), h.counts]
  forbidden := by
    rw [Bool.or_eq_true, h.forbidden, decide_eq_true_iff]
    simp only [List.mem_append, List.mem_singleton]
    constructor
    · rintro (⟨r, hr, hnot⟩ | hnot)
      · exact ⟨r, .inl hr, hnot⟩
      · exact ⟨res, .inr rfl, hnot⟩
    · rintro ⟨r, hr | rfl, hnot⟩
      · exact .inl ⟨r, hr, hnot⟩
      · exact .inr hnot
  known r hr := by
    rcases List.mem_append.1 hr with hr | hr
    · exact h.known r hr
    · rw [List.mem_singleton.1 hr, hfind]
      rfl

/-- The loop after all entries. -/
theorem Formatted.of_formatSent {done : List Sent} (h : Formatted C done acc forbidden)
    {p : SentResources × Bool} (hok : formatSent C acc forbidden sent = .ok p) :
    Formatted C (done ++ sent) p.1 p.2 := by
  induction sent generalizing done acc forbidden with
  | nil =>
    cases hok
    rw [List.append_nil]
    exact h
  | cons res rest ih =>
    unfold formatSent at hok
    split at hok
    · cases hok
    split at hok
    · cases hok
    next resType hfind =>
      rw [List.append_cons]
      exact ih (h.append hfind) hok

/-- The loop ends regularly if every entry has a type of the catalog. -/
theorem isOk_formatSent (h : ∀ res ∈ sent, res.type ≠ "" ∧ (C.find? res.type).isSome) :
    ∃ p, formatSent C acc forbidden sent = .ok p := by
  induction sent generalizing acc forbidden with
  | nil => exact ⟨_, rfl⟩
  | cons res rest ih =>
    obtain ⟨⟨hne, hsome⟩, hrest⟩ := List.forall_mem_cons.1 h
    obtain ⟨resType, hfind⟩ := Option.isSome_iff_exists.1 hsome
    unfold formatSent
    rw [if_neg hne, hfind]
    exact ih hrest

/-- Nothing is formatted exactly if nothing is sent. -/
theorem Formatted.isEmpty_iff (h : Formatted C sent formatted forbidden) :
    formatted.isEmpty = true ↔ sent = [] := by
  rw [List.isEmpty_iff]
  constructor
  · rintro rfl
    refine List.eq_nil_iff_forall_not_mem.2 fun res hres => ?_
    have hsome := isSome_lastCount.2 ⟨res, hres, rfl⟩
    rw [← h.counts] at hsome
    cases hsome
  · rintro rfl
    match formatted, h with
    | [], _ => rfl
    | p :: rest, h =>
      have hlast := h.counts p.1
      simp [lastCount] at hlast

end Format

/-! ## The checks -/

section Check

variable {d : Db C} {req : Request} {v : ℕ} {rows : List (VillageResourceType C)}
  {formatted : SentResources}

/-- `villageHasEnoughResources`, for every property of the object. -/
theorem villageHasEnoughResources_eq_true_iff :
    villageHasEnoughResources rows formatted = .ok true ↔
      ∀ p ∈ formatted, ∃ r, rows.find? (·.resourceType.type = p.1) = some r ∧ p.2.count ≤ r.count := by
  induction formatted with
  | nil => simp [villageHasEnoughResources]
  | cons p rest ih =>
    obtain ⟨key, sent⟩ := p
    rw [List.forall_mem_cons, ← ih, villageHasEnoughResources]
    cases hfind : rows.find? (·.resourceType.type = key) with
    | none => simp
    | some r =>
      by_cases h : r.count < sent.count
      · simp [h]
      · simp [h, not_lt.1 h]

/-- The properties of the object are the last counts of the types. -/
theorem Formatted.forall_iff {sent : List Sent} {forbidden : Bool}
    (h : Formatted C sent formatted forbidden) {P : String → ℤ → Prop} :
    (∀ p ∈ formatted, P p.1 p.2.count) ↔ ∀ type n, lastCount sent type = some n → P type n := by
  constructor
  · intro hall type n hn
    rw [← h.counts] at hn
    obtain ⟨s, hs, rfl⟩ := Option.map_eq_some_iff.1 hn
    exact hall _ (mem_of_lookup hs)
  · intro hall p hp
    refine hall _ _ ?_
    rw [← h.counts, lookup_of_mem h.nodup hp]
    rfl

/-- What the part of the code after the check of the owners lets through. -/
theorem formatExchange_eq_ok {senderVillage : LoadedVillage C} {sent : List Sent}
    (h : formatExchange senderVillage sent = .ok formatted) :
    Formatted C sent formatted false ∧ sent ≠ [] ∧
      villageHasEnoughResources senderVillage.villagesResourceTypes formatted = .ok true := by
  obtain ⟨⟨formatted', forbidden⟩, hformat, h⟩ := bind_eq_ok.1 h
  have hformatted := Formatted.nil.of_formatSent hformat
  rw [List.nil_append] at hformatted
  dsimp only at h
  split at h
  · cases h
  next hallowed =>
    split at h
    · cases h
    next hsome =>
      obtain ⟨enough, henough, h⟩ := bind_eq_ok.1 h
      cases enough with
      | false => cases h
      | true =>
        cases h
        obtain rfl : forbidden = false := Bool.not_eq_true _ ▸ hallowed
        refine ⟨hformatted, fun hnil => hsome (hformatted.isEmpty_iff.2 hnil), ?_⟩
        unfold enoughToExchange at henough
        split at henough
        next hok => rw [hok, Except.ok.inj henough]
        · cases henough

/-- An exchange that is checked passes, and is about the rows of the two villages. -/
theorem passes_of_checked {c : CheckedExchange C} (h : checked d req = .ok c) :
    Passes d req ∧ c.sender.villagesResourceTypes = d.rowsOf req.senderVillageId ∧
      c.receiver.villagesResourceTypes = d.rowsOf req.receiverVillageId ∧
      Formatted C req.sentResources c.formatted false := by
  obtain ⟨⟨⟩, hdifferent, h⟩ := bind_eq_ok.1 h
  obtain ⟨⟨s, r⟩, howners, h⟩ := bind_eq_ok.1 h
  obtain ⟨formatted, hformat, h⟩ := bind_eq_ok.1 h
  cases h
  obtain ⟨hs, hr, hsu, hru⟩ := checkOwners_eq_ok.1 howners
  obtain ⟨hsv, hsrows⟩ := Db.findVillage_eq_some.1 hs
  obtain ⟨hrv, hrrows⟩ := Db.findVillage_eq_some.1 hr
  obtain ⟨hformatted, hnonempty, henough⟩ := formatExchange_eq_ok hformat
  refine ⟨?_, hsrows, hrrows, hformatted⟩
  exact {
    different := fun heq => by
      rw [checkDifferent, if_pos heq] at hdifferent
      cases hdifferent
    sender := ⟨_, hsv, hsu⟩
    receiver := ⟨_, hrv, hru⟩
    nonempty := hnonempty
    known := hformatted.known
    base := by simpa using hformatted.forbidden
    enough := by
      rw [hsrows, villageHasEnoughResources_eq_true_iff] at henough
      exact hformatted.forall_iff.1 henough }

/-- A request that passes is checked. -/
theorem Passes.exists_checked (h : Passes d req) : ∃ c, checked d req = .ok c := by
  obtain ⟨s, hs, hsu⟩ := h.sender
  obtain ⟨r, hr, hru⟩ := h.receiver
  have howners : checkOwners req.userId (d.findVillage req.senderVillageId)
      (d.findVillage req.receiverVillageId) =
      .ok (⟨s, d.rowsOf req.senderVillageId⟩, ⟨r, d.rowsOf req.receiverVillageId⟩) :=
    checkOwners_eq_ok.2 ⟨Db.findVillage_eq_some.2 ⟨hs, rfl⟩, Db.findVillage_eq_some.2 ⟨hr, rfl⟩, hsu, hru⟩
  have hnamed : ∀ res ∈ req.sentResources, res.type ≠ "" ∧ (C.find? res.type).isSome := by
    refine fun res hres => ⟨fun hempty => ?_, h.known res hres⟩
    have hbase := h.base res hres
    rw [hempty] at hbase
    exact absurd hbase (by decide)
  obtain ⟨⟨formatted, forbidden⟩, hformat⟩ : ∃ p, formatSent C [] false req.sentResources = .ok p :=
    isOk_formatSent hnamed
  have hformatted := Formatted.nil.of_formatSent hformat
  rw [List.nil_append] at hformatted
  have hallowed : forbidden = false := by
    rw [← Bool.not_eq_true, hformatted.forbidden]
    rintro ⟨res, hres, hnot⟩
    exact hnot (h.base res hres)
  have hsome : ¬formatted.isEmpty = true := fun hempty => h.nonempty (hformatted.isEmpty_iff.1 hempty)
  have henough : villageHasEnoughResources (d.rowsOf req.senderVillageId) formatted = .ok true := by
    rw [villageHasEnoughResources_eq_true_iff]
    exact hformatted.forall_iff.2 h.enough
  have hexchange : formatExchange ⟨s, d.rowsOf req.senderVillageId⟩ req.sentResources =
      .ok formatted := by
    refine bind_eq_ok.2 ⟨_, hformat, ?_⟩
    dsimp only
    rw [hallowed, if_neg Bool.false_ne_true, if_neg hsome]
    refine bind_eq_ok.2 ⟨true, ?_, rfl⟩
    rw [enoughToExchange, henough]
  have hcheck : checkExchange req (d.findVillage req.senderVillageId)
      (d.findVillage req.receiverVillageId) = .ok ⟨_, _, formatted⟩ :=
    bind_eq_ok.2 ⟨_, howners, bind_eq_ok.2 ⟨_, hexchange, rfl⟩⟩
  exact ⟨_, bind_eq_ok.2 ⟨(), if_neg h.different, hcheck⟩⟩

end Check

/-! ## What an exchange changes -/

section Exchange

variable {d : Db C} {req : Request} {v : ℕ} {t : C.Ref}

/-- A request that does not pass changes nothing, and does not succeed. -/
theorem exchange_of_not_passes (h : ¬Passes d req) :
    (exchangeResourcesBetweenSameUserVillages d req).1 = d ∧
      (exchangeResourcesBetweenSameUserVillages d req).2 ≠ .ok () := by
  unfold exchangeResourcesBetweenSameUserVillages exchange
  cases hc : checked d req with
  | ok c => exact absurd (passes_of_checked hc).1 h
  | error e => exact ⟨rfl, fun hok => by cases hok⟩

/-- The count of a row after the move of the object of a request. -/
theorem addOrRemove_eq {sent : List Sent} {formatted : SentResources} {forbidden : Bool}
    (h : Formatted C sent formatted forbidden) (shouldRemove : Bool) (r : VillageResourceType C) :
    addOrRemoveResourcesToVillage formatted shouldRemove r =
      r.count + if shouldRemove then -(lastCount sent r.resourceType.type).getD 0
        else (lastCount sent r.resourceType.type).getD 0 := by
  unfold addOrRemoveResourcesToVillage
  rw [← h.counts]
  cases formatted.lookup r.resourceType.type with
  | none => simp
  | some s => cases shouldRemove <;> simp [sub_eq_add_neg]

/-- What an exchange makes of the rows of a village. -/
theorem rowsOf_exchanged (h : Passes d req) :
    (exchangeResourcesBetweenSameUserVillages d req).2 = .ok () ∧
      ∀ v, (exchangeResourcesBetweenSameUserVillages d req).1.rowsOf v =
        (d.rowsOf v).map fun r => { r with count := r.count + added req v r.resourceType.type } := by
  obtain ⟨c, hc⟩ := h.exists_checked
  obtain ⟨-, hs, hr, hformatted⟩ := passes_of_checked hc
  have hexchange : exchangeResourcesBetweenSameUserVillages d req =
      ((d.saveEntities c.senderLeft).saveEntities c.receiverTotal, .ok ()) := by
    unfold exchangeResourcesBetweenSameUserVillages exchange
    rw [hc]
    rfl
  rw [hexchange]
  refine ⟨rfl, fun v => ?_⟩
  have hreceiver : c.receiver.villagesResourceTypes =
      (d.saveEntities c.senderLeft).rowsOf req.receiverVillageId := by
    rw [CheckedExchange.senderLeft, hs, Db.rowsOf_saveEntities_of_ne h.different.symm, hr]
  show ((d.saveEntities c.senderLeft).saveEntities c.receiverTotal).rowsOf v = _
  rw [CheckedExchange.receiverTotal, hreceiver]
  by_cases hv : v = req.receiverVillageId
  · subst hv
    rw [Db.rowsOf_saveEntities_self, ← hreceiver, hr]
    simp only [addOrRemove_eq hformatted, added, if_neg h.different.symm]
    simp
  · rw [Db.rowsOf_saveEntities_of_ne hv, CheckedExchange.senderLeft, hs]
    by_cases hv' : v = req.senderVillageId
    · subst hv'
      rw [Db.rowsOf_saveEntities_self]
      simp only [addOrRemove_eq hformatted, added, if_true]
    · rw [Db.rowsOf_saveEntities_of_ne hv']
      simp [added, hv, hv']

/-- A request succeeds exactly if it passes. -/
theorem exchange_eq_ok_iff :
    (exchangeResourcesBetweenSameUserVillages d req).2 = .ok () ↔ Passes d req := by
  by_cases h : Passes d req
  · exact iff_of_true (rowsOf_exchanged h).1 h
  · exact iff_of_false (exchange_of_not_passes h).2 h

theorem rowsOfType_exchanged (h : Passes d req) :
    (exchangeResourcesBetweenSameUserVillages d req).1.rowsOfType v t =
      (d.rowsOfType v t).map fun r => { r with count := r.count + added req v t.type } := by
  unfold Db.rowsOfType
  rw [(rowsOf_exchanged h).2, List.filter_map]
  refine List.map_congr_left fun r hr => ?_
  obtain rfl : r.resourceType = t := of_decide_eq_true (List.mem_filter.1 hr).2
  rfl

theorem totalOf_exchanged (h : Passes d req) :
    (exchangeResourcesBetweenSameUserVillages d req).1.totalOf v t =
      d.totalOf v t + (d.rowsOfType v t).length * added req v t.type := by
  unfold Db.totalOf
  rw [rowsOfType_exchanged h, List.map_map]
  show ((d.rowsOfType v t).map fun r => r.count + _).sum = _
  rw [List.sum_map_add, List.map_const', List.sum_replicate, nsmul_eq_mul]

end Exchange

/-! ## Conservation -/

/-- A village has exactly one row of each base resource. -/
def OneRowOfBase (d : Db C) (v : ℕ) : Prop :=
  ∀ t : C.Ref, t.type ∈ exchangeableResources → (d.rowsOfType v t).length = 1

/-- The sender loses what the receiver gets: of each listed type the count of its last entry. -/
structure Conserved (d d' : Db C) (req : Request) : Prop where
  base : ∀ res ∈ req.sentResources, res.type ∈ exchangeableResources
  sender : ∀ (t : C.Ref) n, lastCount req.sentResources t.type = some n →
    d'.totalOf req.senderVillageId t = d.totalOf req.senderVillageId t - n
  receiver : ∀ (t : C.Ref) n, lastCount req.sentResources t.type = some n →
    d'.totalOf req.receiverVillageId t = d.totalOf req.receiverVillageId t + n
  sum : ∀ t, d'.totalOf req.senderVillageId t + d'.totalOf req.receiverVillageId t =
    d.totalOf req.senderVillageId t + d.totalOf req.receiverVillageId t
  /-- The rows of the types that are not listed, and of all other villages. -/
  unchanged : ∀ v (t : C.Ref), lastCount req.sentResources t.type = none ∨
    v ∉ [req.senderVillageId, req.receiverVillageId] → d'.rowsOfType v t = d.rowsOfType v t

section Claims

variable {d : Db C} {req : Request}

theorem added_of_none {v : ℕ} {type : String} (h : lastCount req.sentResources type = none ∨
    v ∉ [req.senderVillageId, req.receiverVillageId]) : added req v type = 0 := by
  unfold added
  rcases h with h | h
  · simp [h]
  · simp only [List.mem_cons, List.not_mem_nil, or_false, not_or] at h
    simp [h]

/-- A type that is listed is a base resource, of which each village has one row. -/
theorem Passes.length_of_listed (h : Passes d req) {v : ℕ} (hv : OneRowOfBase d v) {t : C.Ref}
    {n : ℤ} (hn : lastCount req.sentResources t.type = some n) : (d.rowsOfType v t).length = 1 := by
  obtain ⟨res, hres, hres'⟩ := isSome_lastCount.1 (Option.isSome_iff_exists.2 ⟨n, hn⟩)
  exact hv t (hres' ▸ h.base res hres)

/-- **Conservation.** An exchange between two villages with one row of each base resource moves the
counts of the request from the one to the other, and a request that does not succeed changes
nothing. -/
theorem exchange_conserves (hs : OneRowOfBase d req.senderVillageId)
    (hr : OneRowOfBase d req.receiverVillageId) :
    ((exchangeResourcesBetweenSameUserVillages d req).2 = .ok () →
      Conserved d (exchangeResourcesBetweenSameUserVillages d req).1 req) ∧
    ((exchangeResourcesBetweenSameUserVillages d req).2 ≠ .ok () →
      (exchangeResourcesBetweenSameUserVillages d req).1 = d) := by
  constructor
  · intro hok
    have h := exchange_eq_ok_iff.1 hok
    have hsender : ∀ (t : C.Ref) n, lastCount req.sentResources t.type = some n →
        (exchangeResourcesBetweenSameUserVillages d req).1.totalOf req.senderVillageId t =
          d.totalOf req.senderVillageId t - n := by
      intro t n hn
      rw [totalOf_exchanged h, h.length_of_listed hs hn]
      simp [added, hn, sub_eq_add_neg]
    have hreceiver : ∀ (t : C.Ref) n, lastCount req.sentResources t.type = some n →
        (exchangeResourcesBetweenSameUserVillages d req).1.totalOf req.receiverVillageId t =
          d.totalOf req.receiverVillageId t + n := by
      intro t n hn
      rw [totalOf_exchanged h, h.length_of_listed hr hn]
      simp [added, hn, h.different.symm]
    refine ⟨h.base, hsender, hreceiver, fun t => ?_, fun v t hnone => ?_⟩
    · cases hn : lastCount req.sentResources t.type with
      | some n =>
        rw [hsender t n hn, hreceiver t n hn]
        ring
      | none =>
        rw [totalOf_exchanged h, totalOf_exchanged h, added_of_none (.inl hn),
          added_of_none (.inl hn)]
        ring
    · rw [rowsOfType_exchanged h, added_of_none hnone]
      simp
  · intro hok
    exact (exchange_of_not_passes fun h => hok (exchange_eq_ok_iff.2 h)).1

end Claims

/-! ## Two villages of a user -/

/-- Village 1 has 1000 food, and village 2 has 5; both have one row of each base resource. -/
def sampleStocks : Db sampleCatalog :=
  { Rejections.sampleDb with
    villagesResourceTypes :=
      { rows := [⟨1, some 1, food, 1000⟩, ⟨2, some 1, wood, 40⟩, ⟨3, some 1, iron, 0⟩,
          ⟨4, some 2, food, 5⟩, ⟨5, some 2, wood, 8⟩, ⟨6, some 2, iron, 9⟩]
        next := 7
        nodup := by decide
        lt_next := by decide } }

/-- A request of their user. -/
def sampleStocksRequest (sentResources : List Sent) : Request := ⟨1, 2, sentResources, 1⟩

theorem oneRowOfBase_sampleStocks :
    OneRowOfBase sampleStocks 1 ∧ OneRowOfBase sampleStocks 2 := by
  have hrows : ∀ t ∈ sampleCatalog.types.rows.attach, t.val.type ∈ exchangeableResources →
      (sampleStocks.rowsOfType 1 t).length = 1 ∧ (sampleStocks.rowsOfType 2 t).length = 1 := by
    decide +kernel
  exact ⟨fun t ht => (hrows t (List.mem_attach _ t) ht).1,
    fun t ht => (hrows t (List.mem_attach _ t) ht).2⟩

/-- Food is listed twice: the last count is moved. -/
theorem exchange_conserves_sample :
    Conserved sampleStocks (exchangeResourcesBetweenSameUserVillages sampleStocks
      (sampleStocksRequest [⟨"food", 600⟩, ⟨"wood", 7⟩, ⟨"food", 100⟩])).1
      (sampleStocksRequest [⟨"food", 600⟩, ⟨"wood", 7⟩, ⟨"food", 100⟩]) :=
  (exchange_conserves oneRowOfBase_sampleStocks.1 oneRowOfBase_sampleStocks.2).1
    (by decide +kernel)

/-! ## Negative counts -/

/-- For each type that is listed, a count below zero is no more than the receiver has. -/
def CoveredByReceiver (d : Db C) (req : Request) : Prop :=
  ∀ type n, lastCount req.sentResources type = some n →
    ∀ r ∈ d.rowsOf req.receiverVillageId, r.resourceType.type = type → -n ≤ r.count

/-- No count of the two villages of a request is negative. -/
def NonNegative (d : Db C) (req : Request) : Prop :=
  ∀ v ∈ [req.senderVillageId, req.receiverVillageId], ∀ r ∈ d.rowsOf v, 0 ≤ r.count

section Overdraft

variable {d : Db C} {req : Request}

/-- The check of an exchange is about every row of a type, where a village has one of it. -/
theorem Passes.le_count (h : Passes d req) (hs : OneRowOfBase d req.senderVillageId)
    {r : VillageResourceType C} (hr : r ∈ d.rowsOf req.senderVillageId) {n : ℤ}
    (hn : lastCount req.sentResources r.resourceType.type = some n) : n ≤ r.count := by
  obtain ⟨r', hr', hle⟩ := h.enough _ n hn
  rw [find?_type] at hr'
  obtain ⟨hmem, ht⟩ := Db.rowOf_eq_some hr'
  have hone := h.length_of_listed hs hn
  obtain ⟨r₀, hr₀⟩ := List.length_eq_one_iff.1 hone
  have hr₁ : r ∈ d.rowsOfType req.senderVillageId r.resourceType :=
    List.mem_filter.2 ⟨hr, by simp⟩
  have hr₂ : r' ∈ d.rowsOfType req.senderVillageId r.resourceType :=
    List.mem_filter.2 ⟨hmem, by simp [ht]⟩
  rw [hr₀, List.mem_singleton] at hr₁ hr₂
  rwa [hr₁, ← hr₂]

/-- An exchange leaves no count of the two villages negative exactly if it is refused, or the
receiver has what a negative count takes from it. -/
theorem exchange_nonneg_iff (hs : OneRowOfBase d req.senderVillageId) (hstart : NonNegative d req) :
    NonNegative (exchangeResourcesBetweenSameUserVillages d req).1 req ↔
      (Passes d req → CoveredByReceiver d req) := by
  constructor
  · intro hend h type n hn r hr ht
    have hmem : { r with count := r.count + added req req.receiverVillageId r.resourceType.type } ∈
        (exchangeResourcesBetweenSameUserVillages d req).1.rowsOf req.receiverVillageId := by
      rw [(rowsOf_exchanged h).2]
      exact List.mem_map_of_mem hr
    have hle := hend _ (List.mem_cons_of_mem _ List.mem_cons_self) _ hmem
    simp only [added, ht, hn, if_neg h.different.symm, if_true, Option.getD_some] at hle
    omega
  · intro hcovered v hv r hr
    by_cases h : Passes d req
    · rw [(rowsOf_exchanged h).2] at hr
      obtain ⟨r₀, hr₀, rfl⟩ := List.mem_map.1 hr
      have hcount := hstart v hv r₀ hr₀
      show 0 ≤ r₀.count + added req v r₀.resourceType.type
      cases hn : lastCount req.sentResources r₀.resourceType.type with
      | none =>
        rw [added_of_none (.inl hn)]
        omega
      | some n =>
        rcases List.mem_cons.1 hv with rfl | hv
        · have hle := h.le_count hs hr₀ hn
          simp only [added, hn, if_true, Option.getD_some]
          omega
        · obtain rfl := List.mem_singleton.1 hv
          have hle := hcovered h _ n hn r₀ hr₀ rfl
          simp only [added, hn, if_neg h.different.symm, if_true, Option.getD_some]
          omega
    · rw [(exchange_of_not_passes h).1] at hr
      exact hstart v hv r hr

/-- A request that takes all the food that the receiver has. -/
theorem exchange_nonneg_iff_sample :
    NonNegative (exchangeResourcesBetweenSameUserVillages sampleStocks
      (sampleStocksRequest [⟨"food", -5⟩])).1 (sampleStocksRequest [⟨"food", -5⟩]) := by
  refine (exchange_nonneg_iff oneRowOfBase_sampleStocks.1 ?_).2 fun _ type n hn r hr ht => ?_
  · unfold NonNegative
    decide +kernel
  · obtain ⟨res, hres, rfl⟩ := Option.map_eq_some_iff.1 hn
    obtain rfl := List.mem_singleton.1 (List.mem_of_find?_eq_some hres)
    have htype : "food" = type := by simpa using List.find?_some hres
    have hfood : ∀ r ∈ sampleStocks.rowsOf 2, r.resourceType.type = "food" → 5 ≤ r.count := by
      decide +kernel
    exact hfood r hr (ht.trans htype.symm)

/-- 100 food are taken from a village that has 5. -/
theorem receiver_overdrawn :
    OneRowOfBase sampleStocks 1 ∧ OneRowOfBase sampleStocks 2 ∧
      NonNegative sampleStocks (sampleStocksRequest [⟨"food", -100⟩]) ∧
      (exchangeResourcesBetweenSameUserVillages sampleStocks
        (sampleStocksRequest [⟨"food", -100⟩])).2 = .ok () ∧
      ¬NonNegative (exchangeResourcesBetweenSameUserVillages sampleStocks
        (sampleStocksRequest [⟨"food", -100⟩])).1 (sampleStocksRequest [⟨"food", -100⟩]) := by
  refine ⟨oneRowOfBase_sampleStocks.1, oneRowOfBase_sampleStocks.2, ?_, ?_, ?_⟩
  · unfold NonNegative
    decide +kernel
  · decide +kernel
  · unfold NonNegative
    decide +kernel

end Overdraft

end Cme.Exchanges
