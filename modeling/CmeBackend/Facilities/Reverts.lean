import CmeBackend.Facilities.Saves

/-!
# Fields of facilities that others save

A save of a facility that was loaded earlier writes the columns it does not mean to change as they
were then. A run reverts no field exactly if every save finds the columns that it only repeats as
it has loaded them (`not_reverted_iff`).

* `Kept`: the level counts the upgrades, and `is_in_production` is as the last creation or
  completion of an order has left it.
* `Forward`: `last_production_at` does not move backwards.
* `Worker.Fresh`: what a worker repeats is what it overwrites.
-/

namespace Cme.Facilities.Saves

open GameRules Production Redis Runs

variable {C : Catalog}

/-! ## The property and its condition -/

/-- The upgrades of a facility that have gone through. -/
def upgrades (events : List Event) (id : ℕ) : ℕ := events.count (.upgraded id)

/-- What an event means for `is_in_production` of a facility. -/
def Event.busy? (id : ℕ) : Event → Option Bool
  | .ordered f => if f = id then some true else none
  | .completed f => if f = id then some false else none
  | .upgraded _ => none

/-- What the last order of a facility that was created or completed means for it. -/
def lastBusy (events : List Event) (id : ℕ) : Option Bool :=
  (events.filterMap (Event.busy? id)).getLast?

/-- The columns of a facility at the start, or when it is built. -/
def initial (d₀ : GameDb C) (id : ℕ) : Columns := (columns d₀ id).getD .new

/-- The level of a facility counts its upgrades, and its flag is that of its last order. -/
def Kept (d₀ : GameDb C) (s : State C) : Prop :=
  ∀ id, ∀ c ∈ columns s.db id,
    c.level = (initial d₀ id).level + upgrades s.events id ∧
      c.isInProduction = (lastBusy s.events id).getD (initial d₀ id).isInProduction

/-- A time that is not after another one. A facility that has not produced has no time. -/
def NotAfter (t t' : Option ℤ) : Prop := ∀ x ∈ t, ∃ y ∈ t', x ≤ y

instance (t t' : Option ℤ) : Decidable (NotAfter t t') :=
  inferInstanceAs (Decidable (∀ x ∈ t, ∃ y ∈ t', x ≤ y))

theorem notAfter_refl (t : Option ℤ) : NotAfter t t := fun x hx => ⟨x, hx, le_rfl⟩

theorem NotAfter.trans {t t' t'' : Option ℤ} (h : NotAfter t t') (h' : NotAfter t' t'') :
    NotAfter t t'' := by
  intro x hx
  obtain ⟨y, hy, hxy⟩ := h x hx
  obtain ⟨z, hz, hyz⟩ := h' y hy
  exact ⟨z, hz, hxy.trans hyz⟩

/-- `last_production_at` of no facility is earlier than before. -/
def Forward (d d' : GameDb C) : Prop :=
  ∀ id, ∀ c ∈ columns d id, ∃ c' ∈ columns d' id, NotAfter c.lastProductionAt c'.lastProductionAt

theorem forward_refl (d : GameDb C) : Forward d d := fun _ c hc => ⟨c, hc, notAfter_refl _⟩

theorem Forward.trans {d d' d'' : GameDb C} (h : Forward d d') (h' : Forward d' d'') :
    Forward d d'' := by
  intro id c hc
  obtain ⟨c', hc', htime⟩ := h id c hc
  obtain ⟨c'', hc'', htime'⟩ := h' id c' hc'
  exact ⟨c'', hc'', htime.trans htime'⟩

/-- No field is reverted in a run. -/
structure NotReverted (e : Env) (s₀ : State C) (as : List Action) : Prop where
  kept : ∀ bs, bs <+: as → Kept s₀.db (bs.foldl (step e) s₀)
  forward : ∀ bs, bs <+: as → ∀ cs, cs <+: bs →
    Forward (cs.foldl (step e) s₀).db (bs.foldl (step e) s₀).db

/-- The columns that a worker repeats are as it has found them, and the time that it writes is not
before that of the row. -/
def Worker.Fresh (d : GameDb C) (now : ℤ) : Worker C → Prop
  | .upgrading c => ∀ row ∈ columns d c.facility.facility.id,
    row.level = c.facility.facility.level ∧
      row.isInProduction = c.facility.production.isInProduction ∧
      NotAfter row.lastProductionAt c.facility.production.lastProductionAt
  | .ordering c => ∀ row ∈ columns d c.facility.facility.id,
    row.level = c.facility.facility.level ∧
      NotAfter row.lastProductionAt c.facility.production.lastProductionAt
  | .saving _ token sel facility => ∀ row ∈ columns d facility.facility.id,
    row.level = facility.facility.level ∧
      (sel.continued token = true → row.isInProduction = facility.production.isInProduction) ∧
      NotAfter row.lastProductionAt (some now)
  | .stamping facilityIds startedAt => ∀ id ∈ facilityIds, ∀ row ∈ columns d id,
    NotAfter row.lastProductionAt (some startedAt)
  | _ => True

instance (d : GameDb C) (now : ℤ) (w : Worker C) : Decidable (w.Fresh d now) :=
  match w with
  | .upgrading _ | .ordering _ | .saving _ _ _ _ =>
    inferInstanceAs (Decidable (∀ row ∈ _, _ ∧ _))
  | .stamping _ _ => inferInstanceAs (Decidable (∀ id ∈ _, ∀ row ∈ _, _))
  | .building _ | .queueing _ _ | .selecting _ _ | .loading _ _ _ | .requeueing _ _ | .ended =>
    isTrue trivial

/-- A worker that saves a facility is fresh. -/
def Fresh (s : State C) (a : Action) : Prop := Writing (fun now w => w.Fresh s.db now) s a

instance (s : State C) (a : Action) : Decidable (Fresh s a) :=
  inferInstanceAs (Decidable (Writing _ s a))

/-! ## Events -/

variable {d d' d₀ : GameDb C} {s s' s₀ : State C} {w : Worker C} {k : ℕ} {now : ℤ}
  {facility : Facility} {p : FacilityProduction} {e : Env} {id : ℕ} {es es' : List Event}

theorem upgrades_append : upgrades (es ++ es') id = upgrades es id + upgrades es' id :=
  List.count_append

theorem lastBusy_append : lastBusy (es ++ es') id = (lastBusy es' id).or (lastBusy es id) := by
  unfold lastBusy
  rw [List.filterMap_append, List.getLast?_append]

/-- Events of other facilities. -/
theorem upgrades_of_ne (h : ∀ ev ∈ es, ev.facilityId ≠ id) : upgrades es id = 0 :=
  List.count_eq_zero.2 fun hmem => h _ hmem rfl

theorem lastBusy_of_ne (h : ∀ ev ∈ es, ev.facilityId ≠ id) : lastBusy es id = none := by
  have hnil : es.filterMap (Event.busy? id) = [] := by
    refine List.filterMap_eq_nil_iff.2 fun ev hev => ?_
    have hne := h ev hev
    cases ev with
    | upgraded f => rfl
    | ordered f | completed f => exact if_neg hne
  unfold lastBusy
  rw [hnil]
  rfl

theorem upgrades_upgraded : upgrades [.upgraded id] id = 1 := List.count_singleton_self

theorem lastBusy_ordered : lastBusy [.ordered id] id = some true := by simp [lastBusy, Event.busy?]

theorem lastBusy_completed : lastBusy [.completed id] id = some false := by
  simp [lastBusy, Event.busy?]

/-- A unit completes its order if it was the last one. -/
theorem completions_saving (h : Found s) {resourceType : String} {token : OrderToken}
    {sel : Selected} {loaded : LoadedFacility C}
    (hk : s.workers[k]? = some (.saving resourceType token sel loaded))
    (hcommit : saveUnit now s.db token sel loaded = some d') :
    completions d' token.orderId =
      if sel.continued token then [] else [.completed loaded.facility.id] := by
  have hid : loaded.facility.id = token.facilityId := h.workers _ (List.mem_of_getElem? hk)
  obtain ⟨o, o', -, -, hvalid', hopen'⟩ := h.order hk hcommit
  unfold completions
  rw [hvalid'.order]
  dsimp only
  rw [hvalid'.facility, hid, if_congr hopen' rfl rfl]

/-- The events of a worker are about the facility that it saves. -/
theorem events_saved (h : Found s) (hk : s.workers[k]? = some w)
    (hcommit : w.commit now s.db = some d') (hsaved : w.saved now = some (facility, p)) :
    ∀ ev ∈ w.events d', ev.facilityId = facility.id := by
  cases w with
  | upgrading c | ordering c =>
    cases hsaved
    exact List.forall_mem_singleton.2 rfl
  | saving resourceType token sel loaded =>
    cases hsaved
    show ∀ ev ∈ completions d' token.orderId, _
    rw [completions_saving h hk hcommit]
    split
    · exact fun _ hev => absurd hev List.not_mem_nil
    · exact List.forall_mem_singleton.2 rfl
  | _ => cases hsaved

/-! ## One step -/

/-- The facilities of the start still have their rows, and events are about facilities with rows. -/
structure Begun (d₀ : GameDb C) (s : State C) : Prop where
  rows : ∀ id, (columns d₀ id).isSome → (columns s.db id).isSome
  events : ∀ ev ∈ s.events, (columns s.db ev.facilityId).isSome

theorem Begun.step (h : Begun d₀ s) (hfound : Found s) (a : Action) : Begun d₀ (step e s a) := by
  rcases step_cases e s a with ⟨k, now, w, d', hk, hcommit, hdb, hevents, -⟩ | ⟨hdb, hevents, -⟩
  · have hkeep : ∀ {id}, (columns s.db id).isSome → (columns d' id).isSome := by
      intro id hsome
      rw [isSome_columns] at hsome ⊢
      exact isSome_commit hcommit hsome
    refine ⟨fun id hid => hdb ▸ hkeep (h.rows id hid), ?_⟩
    rw [hevents, hdb]
    refine List.forall_mem_append.2 ⟨fun ev hev => hkeep (h.events ev hev), fun ev hev => ?_⟩
    cases hsaved : w.saved now with
    | some q =>
      obtain ⟨facility, p⟩ := q
      have hrow := hfound.row hk hsaved
      rw [events_saved hfound hk hcommit hsaved ev hev]
      rw [← isSome_columns] at hrow
      exact hkeep hrow
    | none =>
      cases w with
      | upgrading _ | ordering _ | saving _ _ _ _ => cases hsaved
      | _ => exact absurd hev List.not_mem_nil
  · refine ⟨fun id hid => hdb ▸ h.rows id hid, ?_⟩
    rw [hevents, hdb]
    exact h.events

/-- Whether a save keeps the fields depends on the row that it overwrites. -/
theorem kept_saved (hfound : Found s) (hkept : Kept d₀ s) (hk : s.workers[k]? = some w)
    (hcommit : w.commit now s.db = some d') (hsaved : w.saved now = some (facility, p))
    (hdb : s'.db = d') (hevents : s'.events = s.events ++ w.events d') :
    Kept d₀ s' ∧ Forward s.db s'.db ↔ ∀ row ∈ columns s.db facility.id,
      (facility.level = row.level + upgrades (w.events d') facility.id ∧
        p.isInProduction = (lastBusy (w.events d') facility.id).getD row.isInProduction) ∧
      NotAfter row.lastProductionAt p.lastProductionAt := by
  have hes := events_saved hfound hk hcommit hsaved
  obtain ⟨row, hrow⟩ := Option.isSome_iff_exists.1 (isSome_columns.trans (hfound.row hk hsaved))
  generalize w.events d' = es at hes hevents ⊢
  subst hdb
  obtain ⟨hlevel, hbusy⟩ := hkept _ row hrow
  have hcolumns := columns_saved hsaved hcommit
  have hself := hcolumns facility.id
  rw [if_pos rfl, hrow, Option.map_some] at hself
  have hlevels : (initial d₀ facility.id).level + (upgrades s'.events facility.id : ℕ) =
      row.level + upgrades es facility.id := by
    rw [hevents, upgrades_append]
    push_cast
    omega
  have hflags : (lastBusy s'.events facility.id).getD (initial d₀ facility.id).isInProduction =
      (lastBusy es facility.id).getD row.isInProduction := by
    rw [hevents, lastBusy_append, hbusy]
    cases lastBusy es facility.id <;> rfl
  constructor
  · rintro ⟨hkept', hforward⟩ row' hrow'
    obtain rfl := Option.some.inj (hrow.symm.trans hrow')
    obtain ⟨hlevel', hbusy'⟩ := hkept' _ _ hself
    obtain ⟨c', hc', htime⟩ := hforward _ _ hrow
    obtain rfl := Option.some.inj (hself.symm.trans hc')
    exact ⟨⟨hlevel'.trans hlevels, hbusy'.trans hflags⟩, htime⟩
  · intro h
    obtain ⟨⟨hlevel', hbusy'⟩, htime⟩ := h row hrow
    refine ⟨fun id c hc => ?_, fun id c hc => ?_⟩
    · by_cases hid : id = facility.id
      · subst hid
        obtain rfl := Option.some.inj (hself.symm.trans hc)
        exact ⟨hlevel'.trans hlevels.symm, hbusy'.trans hflags.symm⟩
      · rw [hcolumns, if_neg hid] at hc
        have hother : ∀ ev ∈ es, ev.facilityId ≠ id := fun ev hev =>
          (hes ev hev).trans_ne (Ne.symm hid)
        rw [hevents, upgrades_append, upgrades_of_ne hother, lastBusy_append, lastBusy_of_ne hother]
        exact hkept id c hc
    · by_cases hid : id = facility.id
      · subst hid
        obtain rfl := Option.some.inj (hrow.symm.trans hc)
        exact ⟨_, hself, htime⟩
      · exact ⟨c, (hcolumns id).trans ((if_neg hid).trans hc), notAfter_refl _⟩

/-- A step that writes nothing to facilities. -/
theorem Kept.congr (h : Kept d₀ s) (hdb : ∀ id, columns s'.db id = columns s.db id)
    (hevents : s'.events = s.events) : Kept d₀ s' := by
  unfold Kept
  simp only [hdb, hevents]
  exact h

/-- A facility that is built. -/
theorem kept_built (hbegun : Begun d₀ s) (hkept : Kept d₀ s) {c : CheckedCreate C}
    (hdb : s'.db = Facilities.create s.db c) (hevents : s'.events = s.events) :
    Kept d₀ s' ∧ Forward s.db s'.db := by
  have hfree : columns s.db s.db.facilities.next = none := by
    unfold columns
    rw [Table.get?_next]
    rfl
  constructor
  · intro id c' hc'
    rw [hdb, columns_built] at hc'
    rw [hevents]
    split at hc'
    next hid =>
      obtain rfl := Option.some.inj hc'
      have hnone : columns d₀ id = none := by
        by_contra hsome
        have hrow := hbegun.rows id (Option.ne_none_iff_isSome.1 hsome)
        rw [hid, hfree] at hrow
        cases hrow
      have hevents : ∀ ev ∈ s.events, ev.facilityId ≠ id := by
        intro ev hev heq
        have hrow := hbegun.events ev hev
        rw [heq, hid, hfree] at hrow
        cases hrow
      rw [upgrades_of_ne hevents, lastBusy_of_ne hevents]
      unfold initial
      rw [hnone]
      exact ⟨rfl, rfl⟩
    next hid => exact hkept id c' hc'
  · intro id c' hc'
    rw [hdb, columns_built]
    split
    next hid =>
      rw [hid, hfree] at hc'
      cases hc'
    next hid => exact ⟨c', hc', notAfter_refl _⟩

/-- The cron changes nothing but the time. -/
theorem kept_stamped (hkept : Kept d₀ s) {facilityIds : List ℕ} {startedAt : ℤ}
    (hdb : s'.db = stamp s.db facilityIds startedAt) (hevents : s'.events = s.events) :
    Kept d₀ s' ∧ Forward s.db s'.db ↔ ∀ id ∈ facilityIds, ∀ row ∈ columns s.db id,
      NotAfter row.lastProductionAt (some startedAt) := by
  have hcolumns := columns_stamp (d := s.db) facilityIds startedAt
  constructor
  · rintro ⟨-, hforward⟩ id hid row hrow
    have hself := hcolumns id
    rw [if_pos hid, hrow, Option.map_some, ← hdb] at hself
    obtain ⟨c', hc', htime⟩ := hforward id row hrow
    obtain rfl := Option.some.inj (hself.symm.trans hc')
    exact htime
  · intro htimes
    constructor
    · intro id c' hc'
      rw [hdb, hcolumns] at hc'
      rw [hevents]
      split at hc'
      · obtain ⟨row, hrow, rfl⟩ := Option.map_eq_some_iff.1 hc'
        exact hkept id row hrow
      · exact hkept id c' hc'
    · intro id row hrow
      rw [hdb, hcolumns, Option.mem_def.1 hrow]
      split
      next hid => exact ⟨_, rfl, htimes id hid row hrow⟩
      next hid => exact ⟨row, rfl, notAfter_refl _⟩

/-- The save of the producer repeats the level, and the flag if the order goes on. -/
theorem fresh_saving_iff {resourceType : String} {token : OrderToken} {sel : Selected}
    {loaded : LoadedFacility C}
    (hes : es = if sel.continued token then [] else [.completed loaded.facility.id]) :
    (∀ row ∈ columns d loaded.facility.id,
      (loaded.facility.level = row.level + upgrades es loaded.facility.id ∧
        (producedAt now (sel.continued token) loaded.production).isInProduction =
          (lastBusy es loaded.facility.id).getD row.isInProduction) ∧
      NotAfter row.lastProductionAt
        (producedAt now (sel.continued token) loaded.production).lastProductionAt) ↔
    (Worker.saving resourceType token sel loaded).Fresh d now := by
  refine forall₂_congr fun row _ => ?_
  have hlevel : loaded.facility.level = row.level + (0 : ℕ) ↔
      row.level = loaded.facility.level := by
    push_cast
    omega
  rw [hes, and_assoc]
  cases hcontinued : sel.continued token with
  | true =>
    show loaded.facility.level = row.level + (0 : ℕ) ∧
      loaded.production.isInProduction = row.isInProduction ∧ _ ↔ _ ∧ (true = true → _) ∧ _
    rw [hlevel, imp_iff_right rfl, eq_comm (b := row.isInProduction)]
    rfl
  | false =>
    show loaded.facility.level = row.level + (0 : ℕ) ∧ false =
      (lastBusy [.completed loaded.facility.id] _).getD row.isInProduction ∧ _ ↔
        _ ∧ (false = true → _) ∧ _
    have hfree : (false = true →
        row.isInProduction = loaded.production.isInProduction) ↔ True :=
      iff_true_intro fun h => by cases h
    rw [hlevel, lastBusy_completed, Option.getD_some, hfree, true_and, eq_self, true_and]
    rfl

/-- A step reverts no field exactly if it is fresh. -/
theorem kept_step_iff (hfound : Found s) (hbegun : Begun d₀ s) (hkept : Kept d₀ s) (a : Action) :
    Kept d₀ (step e s a) ∧ Forward s.db (step e s a).db ↔ Fresh s a := by
  rcases step_cases e s a with
    ⟨k, now, w, d', hk, hcommit, hdb, hevents, hwriting⟩ | ⟨hdb, hevents, hwriting⟩
  · refine Iff.trans ?_ (hwriting fun now w => w.Fresh s.db now).symm
    cases w with
    | building c =>
      cases hcommit
      exact iff_of_true (kept_built hbegun hkept hdb (hevents.trans (List.append_nil _))) trivial
    | stamping facilityIds startedAt =>
      cases hcommit
      exact kept_stamped hkept hdb (hevents.trans (List.append_nil _))
    | upgrading c =>
      refine (kept_saved hfound hkept hk hcommit rfl hdb hevents).trans ?_
      refine forall₂_congr fun row _ => ?_
      show (c.facility.facility.level + 1 = row.level + (upgrades [.upgraded _] _ : ℕ) ∧
        c.facility.production.isInProduction = row.isInProduction) ∧ _ ↔ _
      rw [upgrades_upgraded, and_assoc, eq_comm (b := row.isInProduction)]
      refine and_congr_left fun _ => ?_
      push_cast
      omega
    | ordering c =>
      refine (kept_saved hfound hkept hk hcommit rfl hdb hevents).trans ?_
      refine forall₂_congr fun row _ => ?_
      show (c.facility.facility.level = row.level + (0 : ℕ) ∧
        true = (lastBusy [.ordered c.facility.facility.id] _).getD row.isInProduction) ∧ _ ↔ _
      rw [lastBusy_ordered, Option.getD_some, and_iff_left rfl]
      refine and_congr_left fun _ => ?_
      push_cast
      omega
    | saving resourceType token sel loaded =>
      exact (kept_saved hfound hkept hk hcommit rfl hdb hevents).trans
        (fresh_saving_iff (completions_saving hfound hk hcommit))
    | queueing _ _ | selecting _ _ | loading _ _ _ | requeueing _ _ | ended =>
      cases hcommit
      have hkept' := hkept.congr (fun _ => by rw [hdb]) (hevents.trans (List.append_nil _))
      refine iff_of_true ⟨hkept', ?_⟩ trivial
      rw [hdb]
      exact forward_refl s.db
  · refine iff_of_true ⟨hkept.congr (fun _ => by rw [hdb]) hevents, ?_⟩ (hwriting _)
    rw [hdb]
    exact forward_refl s.db

/-! ## Runs -/

theorem Begun.start (s₀ : State C) (h : s₀.events = []) : Begun s₀.db s₀ where
  rows _ hid := hid
  events ev hev := by
    rw [h] at hev
    exact absurd hev List.not_mem_nil

theorem Kept.start (s₀ : State C) (h : s₀.events = []) : Kept s₀.db s₀ := by
  intro id c hc
  unfold initial
  rw [h, Option.mem_def.1 hc]
  exact ⟨(add_zero c.level).symm, rfl⟩

/-- In every run the facilities and the orders are found. -/
theorem begun_run (hfound : Found s₀) (hevents : s₀.events = []) (as : List Action) :
    Found (as.foldl (step e) s₀) ∧ Begun s₀.db (as.foldl (step e) s₀) :=
  foldl_inv (I := fun s => Found s ∧ Begun s₀.db s) ⟨hfound, .start s₀ hevents⟩
    (fun _ a hs => ⟨hs.1.step a, hs.2.step hs.1 a⟩) as

/-- A run reverts no field of a facility exactly if every save in it is fresh. -/
theorem not_reverted_iff {d : GameDb C} {queues : Queues String OrderToken}
    (h : Lifecycle.Held (⟨d, queues, []⟩ : Lifecycle.State C)) (e : Env) (as : List Action) :
    NotReverted e (start d queues) as ↔ Meets (step e) Fresh (start d queues) as := by
  have hrun := fun as => begun_run (e := e) (Found.start h) rfl as
  refine iff_meets (P := NotReverted e (start d queues)) ?_ (fun as a has => ?_)
    (fun as a has => ?_) as
  · refine ⟨fun bs hbs => ?_, fun bs hbs cs hcs => ?_⟩
    · rw [List.prefix_nil.1 hbs]
      exact Kept.start _ rfl
    · rw [List.prefix_nil.1 hbs] at hcs ⊢
      rw [List.prefix_nil.1 hcs]
      exact forward_refl _
  · have hconcat := List.prefix_append as [a]
    exact ⟨fun bs hbs => has.kept bs (hbs.trans hconcat),
      fun bs hbs => has.forward bs (hbs.trans hconcat)⟩
  · have hkept := has.kept as List.prefix_rfl
    rw [← kept_step_iff (hrun as).1 (hrun as).2 hkept a (e := e)]
    have hlast : (as ++ [a]).foldl (step e) (start d queues) =
        step e (as.foldl (step e) (start d queues)) a := List.foldl_concat ..
    constructor
    · intro h'
      have hforward := h'.forward _ List.prefix_rfl as (List.prefix_append as [a])
      rw [hlast] at hforward
      exact ⟨hlast ▸ h'.kept _ List.prefix_rfl, hforward⟩
    · rintro ⟨hkept', hforward⟩
      constructor
      · exact forall_prefix_concat.2 ⟨has.kept, hlast ▸ hkept'⟩
      · refine forall_prefix_concat.2 ⟨has.forward, ?_⟩
        refine forall_prefix_concat.2 ⟨fun cs hcs => ?_, forward_refl _⟩
        rw [hlast]
        exact (has.forward as List.prefix_rfl cs hcs).trans hforward

/-! ## Two upgrades -/

/-- A village with a barrack, and with the costs of several upgrades. -/
def sampleUpgrades : GameDb sampleCatalog where
  villages :=
    { rows := [⟨1, some 1, 5, 2, 0, 0⟩]
      next := 2
      nodup := by decide
      lt_next := by decide }
  villagesResourceTypes :=
    { rows := [⟨1, some 1, food, 9000⟩, ⟨2, some 1, wood, 8000⟩, ⟨3, some 1, iron, 7000⟩]
      next := 4
      nodup := by decide
      lt_next := by decide }
  facilities :=
    { rows := [⟨3, 1, "barrack", 1⟩]
      next := 4
      nodup := by decide
      lt_next := by decide }
  villagesStorageResourceTypes := Table.empty
  attacks := Table.empty
  orders := Table.empty
  production := fun _ => .none

/-- The state after a list of actions. -/
def after (withVillage : Bool) (as : List Action) : State sampleCatalog :=
  as.foldl (step ⟨withVillage, []⟩) (start sampleUpgrades Queues.empty)

/-- All workers have finished. -/
def Finished (s : State C) : Prop := ∀ w ∈ s.workers, w matches .ended

instance (s : State C) : Decidable (Finished s) := inferInstanceAs (Decidable (∀ w ∈ _, _))

/-- An order of one unit, with an upgrade before the unit is produced, and the cron. -/
def sampleInTurn : List Action :=
  [.order ⟨3, 1, "stone_hunter"⟩, .call 0 .ok 1000, .call 0 .ok 1000,
    .upgrade 3 1, .call 1 .ok 2000,
    .move "stone_hunter" (.start [1]), .move "stone_hunter" (.move .ok), .move "stone_hunter" .stop,
    .pop .stoneHunter .ok, .call 2 .ok 12000, .call 2 .ok 12000, .call 2 .ok 12000,
    .stamp [3] 13000, .call 3 .ok 14000]

theorem not_reverted_iff_sample :
    columns (after true sampleInTurn).db 3 = some ⟨2, false, some 13000⟩ ∧
      NotReverted ⟨true, []⟩ (start sampleUpgrades Queues.empty) sampleInTurn :=
  ⟨by decide +kernel,
    (not_reverted_iff (Lifecycle.Held.start sampleUpgrades) _ _).2 (by decide +kernel)⟩

/-- Two upgrades that load the barrack before one of them is paid. -/
def sampleTwice : List Action := [.upgrade 3 1, .upgrade 3 1, .call 0 .ok 1000, .call 1 .ok 2000]

/-- Both upgrades are paid, and the barrack is at level 2. -/
theorem upgrade_reverted :
    Finished (after false sampleTwice) ∧ upgrades (after false sampleTwice).events 3 = 2 ∧
      columns sampleUpgrades 3 = some ⟨1, false, none⟩ ∧
      columns (after false sampleTwice).db 3 = some ⟨2, false, none⟩ ∧
      ¬NotReverted ⟨false, []⟩ (start sampleUpgrades Queues.empty) sampleTwice := by
  have hlast : columns (after false sampleTwice).db 3 = some ⟨2, false, none⟩ := by decide +kernel
  refine ⟨by decide +kernel, by decide +kernel, by decide +kernel, hlast, fun h => ?_⟩
  obtain ⟨hlevel, -⟩ := h.kept sampleTwice List.prefix_rfl 3 _ hlast
  revert hlevel
  show ¬(2 = (initial sampleUpgrades 3).level + (upgrades (after false sampleTwice).events 3 : ℕ))
  decide +kernel

end Cme.Facilities.Saves
