import CmeBackend.Lib.Runs
import CmeBackend.Lib.Weights
import CmeBackend.Resources.CronQuery

/-!
# Overlapping productions

Executions of `produceResources` (`resources-updater-cron.service.ts`) in several processes. The
callback of `attempt` creates the stream of the query and returns, and with this the lock is
released. The query runs on its own: it finds the facilities that are due in the snapshot with which
it begins, and what it updates later are the rows as they are by then.

* `Attempt`, `Query`: the two parts of an execution.
* `write`: what a query writes, from what it has found. `execute` is a query that writes at once.
* `StillDue`: the facilities that a query credits are due when it writes.
* `credited_apart`: in runs in which they are, no facility is credited twice within its frequency.
-/

namespace Cme.ResourcesCron

open Runs Weights

variable {C : Catalog}

/-- What a query writes that has found the facilities of `snapshot` at the time `now`. -/
def write (power : ℚ → ℤ → ℚ) (snapshot : ResourcesDb C) (now : ℚ) (pick : ℕ → ℕ)
    (d : ResourcesDb C) : ResourcesDb C :=
  { d with
    toDb := d.toDb.setCounts (newCount power snapshot now pick)
    lastProductionAt := fun facilityId =>
      if facilityId ∈ stampedIds snapshot now pick then some now
      else d.lastProductionAt facilityId }

theorem write_self (power : ℚ → ℤ → ℚ) (d : ResourcesDb C) (now : ℚ) (pick : ℕ → ℕ) :
    write power d now pick d = execute power d now pick := rfl

/-! ## Executions -/

/-- A call of `attempt`, by its next command. -/
inductive Attempt where
  | locking
  /-- The callback creates the stream. -/
  | streaming
  | unlocking
  | ended

/-- The query of an execution. -/
inductive Query (C : Catalog) where
  | none
  /-- The stream is created, and the query has not begun. -/
  | created
  | running (snapshot : ResourcesDb C) (now : ℚ) (pick : ℕ → ℕ)
  | ended

structure Cron (C : Catalog) where
  attempt : Attempt
  query : Query C

structure State (C : Catalog) where
  db : ResourcesDb C
  /-- The execution whose value the lock has. -/
  lock : Option ℕ
  crons : List (Cron C)
  /-- The time of every query that has been committed, and the facilities that it has credited. -/
  credits : List (ℚ × List ℕ)

inductive Action where
  | start
  /-- The next command of the call of `attempt` of the execution `k`. -/
  | call (k : ℕ) (reply : Reply)
  /-- The query of the execution `k` begins. -/
  | begin (k : ℕ) (now : ℚ) (pick : ℕ → ℕ)
  /-- The query of the execution `k` ends. -/
  | finish (k : ℕ) (commits : Bool)
  /-- The time to live of the lock is over. -/
  | expire
  /-- The process of the execution `k` stops. -/
  | stop (k : ℕ)

namespace State

variable (s : State C)

def set (k : ℕ) (c : Cron C) : State C := { s with crons := s.crons.set k c }

/-- The next command of the call of `attempt`. -/
def advance (k : ℕ) (c : Cron C) (reply : Reply) : State C :=
  match c.attempt, reply with
  | .locking, .refused => s.set k { c with attempt := .ended }
  | .locking, _ =>
    if s.lock.isNone then
      { s with lock := some k }.set k
        { c with attempt := if reply = Reply.ok then .streaming else .ended }
    else s.set k { c with attempt := .ended }
  | .streaming, .refused => s.set k { c with attempt := .unlocking }
  | .streaming, _ => s.set k { attempt := .unlocking, query := .created }
  | .unlocking, .refused => s.set k { c with attempt := .ended }
  | .unlocking, _ =>
    { s with lock := if s.lock = some k then none else s.lock }.set k { c with attempt := .ended }
  | .ended, _ => s

/-- A query is committed. -/
def commit (power : ℚ → ℤ → ℚ) (snapshot : ResourcesDb C) (now : ℚ) (pick : ℕ → ℕ) : State C :=
  { s with
    db := write power snapshot now pick s.db
    credits := s.credits ++ [(now, stampedIds snapshot now pick)] }

end State

/-- One step. -/
def step (power : ℚ → ℤ → ℚ) (s : State C) : Action → State C
  | .start => { s with crons := s.crons ++ [⟨.locking, .none⟩] }
  | .call k reply =>
    match s.crons[k]? with
    | some c => s.advance k c reply
    | none => s
  | .begin k now pick =>
    match s.crons[k]? with
    | some ⟨attempt, .created⟩ => s.set k ⟨attempt, .running s.db now pick⟩
    | _ => s
  | .finish k commits =>
    match s.crons[k]? with
    | some ⟨attempt, .running snapshot now pick⟩ =>
      (if commits then s.commit power snapshot now pick else s).set k ⟨attempt, .ended⟩
    | _ => s
  | .expire => { s with lock := none }
  | .stop k =>
    match s.crons[k]? with
    | some c => s.set k { c with attempt := .ended }
    | none => s

/-- No execution has started. -/
def start (d : ResourcesDb C) : State C := ⟨d, none, [], []⟩

/-! ## The property and its condition -/

/-- When a facility has been credited. -/
def creditsOf (s : State C) (facilityId : ℕ) : List ℚ :=
  (s.credits.filter fun c => facilityId ∈ c.2).map Prod.fst

/-- Two credits of a facility are more than its frequency apart. -/
def CreditedApart (s : State C) : Prop :=
  ∀ f ∈ s.db.facilities.rows, ∀ p ∈ parametersOf s.db f.facilityType,
    (creditsOf s f.id).Pairwise fun t t' => p.frequency < |t' - t|

/-- The facilities that a query credits are due. -/
def Query.StillDue (d : ResourcesDb C) : Query C → Prop
  | .running snapshot now pick =>
    ∀ f ∈ d.facilities.rows, f.id ∈ stampedIds snapshot now pick →
      ∀ p ∈ parametersOf d f.facilityType, due d now p f.id = true
  | _ => True

/-- The facilities that a query credits are due when it is committed. -/
def StillDue (s : State C) : Action → Prop
  | .finish k true => ∀ c ∈ s.crons[k]?, c.query.StillDue s.db
  | _ => True

instance (d : ResourcesDb C) (q : Query C) : Decidable (q.StillDue d) :=
  match q with
  | .running _ _ _ => inferInstanceAs (Decidable (∀ f ∈ _, _ → ∀ p ∈ _, _))
  | .none | .created | .ended => isTrue trivial

instance (s : State C) (a : Action) : Decidable (StillDue s a) :=
  match a with
  | .finish _ true => inferInstanceAs (Decidable (∀ c ∈ _, _))
  | .finish _ false | .start | .call _ _ | .begin _ _ _ | .expire | .stop _ => isTrue trivial

/-! ## Runs -/

variable {power : ℚ → ℤ → ℚ} {d : ResourcesDb C} {s : State C} {k : ℕ} {c : Cron C}
  {snapshot : ResourcesDb C} {now : ℚ} {pick : ℕ → ℕ} {f : Facility} {p : Parameters}

theorem advance_eq (s : State C) (k : ℕ) (c : Cron C) (reply : Reply) :
    (s.advance k c reply).db = s.db ∧ (s.advance k c reply).credits = s.credits := by
  unfold State.advance
  split
  · exact ⟨rfl, rfl⟩
  · split <;> exact ⟨rfl, rfl⟩
  · exact ⟨rfl, rfl⟩
  · exact ⟨rfl, rfl⟩
  · exact ⟨rfl, rfl⟩
  · exact ⟨rfl, rfl⟩
  · exact ⟨rfl, rfl⟩

/-- A step commits a query, or it keeps the tables. -/
theorem step_cases (power : ℚ → ℤ → ℚ) (s : State C) (a : Action) :
    (∃ k attempt snapshot now pick, a = .finish k true ∧
      s.crons[k]? = some ⟨attempt, .running snapshot now pick⟩ ∧
      (step power s a).db = write power snapshot now pick s.db ∧
      (step power s a).credits = s.credits ++ [(now, stampedIds snapshot now pick)]) ∨
    (step power s a).db = s.db ∧ (step power s a).credits = s.credits := by
  cases a with
  | start => exact .inr ⟨rfl, rfl⟩
  | call k reply =>
    simp only [step]
    split
    next c _ => exact .inr (advance_eq s k c reply)
    · exact .inr ⟨rfl, rfl⟩
  | begin k now pick =>
    simp only [step]
    split <;> exact .inr ⟨rfl, rfl⟩
  | finish k commits =>
    simp only [step]
    split
    next attempt snapshot now pick hk =>
      cases commits with
      | true => exact .inl ⟨k, attempt, snapshot, now, pick, rfl, hk, rfl, rfl⟩
      | false => exact .inr ⟨rfl, rfl⟩
    · exact .inr ⟨rfl, rfl⟩
  | expire => exact .inr ⟨rfl, rfl⟩
  | stop k =>
    simp only [step]
    split <;> exact .inr ⟨rfl, rfl⟩

/-- The last credit of a facility is in its row, and the credits before it are earlier. -/
def Apart (s : State C) : Prop :=
  ∀ f ∈ s.db.facilities.rows, ∀ p ∈ parametersOf s.db f.facilityType, 0 ≤ p.frequency →
    (creditsOf s f.id).Pairwise (fun t t' => p.frequency < t' - t) ∧
      ∀ t ∈ creditsOf s f.id, ∃ last, s.db.lastProductionAt f.id = some last ∧ t ≤ last

theorem Apart.congr {s' : State C} (h : Apart s) (hdb : s'.db = s.db)
    (hcredits : s'.credits = s.credits) : Apart s' := by
  unfold Apart creditsOf
  rw [hdb, hcredits]
  exact h

theorem lt_of_due {last : ℚ} (h : due d now p f.id = true)
    (hlast : d.lastProductionAt f.id = some last) : p.frequency < now - last := by
  unfold due at h
  rw [hlast] at h
  have hlt : last < now - p.frequency := of_decide_eq_true h
  linarith

/-- The facilities of a query that is committed are credited once more. -/
theorem creditsOf_append {s' : State C}
    (hcredits : s'.credits = s.credits ++ [(now, stampedIds snapshot now pick)]) (id : ℕ) :
    creditsOf s' id =
      creditsOf s id ++ if id ∈ stampedIds snapshot now pick then [now] else [] := by
  unfold creditsOf
  rw [hcredits, List.filter_append, List.map_append]
  congr 1
  by_cases h : id ∈ stampedIds snapshot now pick <;> simp [h]

theorem Apart.commit {s' : State C} (h : Apart s)
    (hok : (Query.running snapshot now pick).StillDue s.db)
    (hdb : s'.db = write power snapshot now pick s.db)
    (hcredits : s'.credits = s.credits ++ [(now, stampedIds snapshot now pick)]) : Apart s' := by
  intro f hf p hp hfreq
  rw [hdb] at hf hp
  obtain ⟨hpair, hlast⟩ := h f hf p hp hfreq
  have hstamp : s'.db.lastProductionAt f.id =
      if f.id ∈ stampedIds snapshot now pick then some now else s.db.lastProductionAt f.id := by
    rw [hdb]
    rfl
  rw [creditsOf_append hcredits, hstamp]
  by_cases hid : f.id ∈ stampedIds snapshot now pick
  · have hdue := hok f hf hid p hp
    have hbefore : ∀ t ∈ creditsOf s f.id, p.frequency < now - t := by
      intro t ht
      obtain ⟨last, hsome, hle⟩ := hlast t ht
      have hlt := lt_of_due hdue hsome
      linarith
    rw [if_pos hid, if_pos hid]
    refine ⟨List.pairwise_append.2 ⟨hpair, List.pairwise_singleton _ _, fun t ht t' ht' => ?_⟩, ?_⟩
    · rw [List.mem_singleton.1 ht']
      exact hbefore t ht
    · refine List.forall_mem_append.2 ⟨fun t ht => ⟨now, rfl, ?_⟩,
        List.forall_mem_singleton.2 ⟨now, rfl, le_rfl⟩⟩
      have hlt := hbefore t ht
      linarith
  · rw [if_neg hid, if_neg hid, List.append_nil]
    exact ⟨hpair, hlast⟩

theorem Apart.step (h : Apart s) {a : Action} (hok : StillDue s a) : Apart (step power s a) := by
  rcases step_cases power s a with
    ⟨k, attempt, snapshot, now, pick, rfl, hk, hdb, hcredits⟩ | ⟨hdb, hcredits⟩
  · exact h.commit (hok _ hk) hdb hcredits
  · exact h.congr hdb hcredits

theorem Apart.creditedApart (h : Apart s) : CreditedApart s := by
  intro f hf p hp
  by_cases hfreq : 0 ≤ p.frequency
  · exact (h f hf p hp hfreq).1.imp fun hlt => hlt.trans_le (le_abs_self _)
  · exact List.pairwise_of_forall fun t t' => (not_le.1 hfreq).trans_le (abs_nonneg _)

/-- In a run in which the facilities that a query credits are still due when it is committed, two
credits of a facility are more than its frequency apart. -/
theorem credited_apart (h : Reach (graph (step power)) StillDue (start d) s) : CreditedApart s := by
  have hapart : Apart s := by
    refine h.inv (I := Apart) (fun f _ p _ _ => ⟨.nil, fun t ht => absurd ht List.not_mem_nil⟩) ?_
    rintro s a s' hapart hok rfl
    exact hapart.step hok
  exact hapart.creditedApart

/-! ## Two executions -/

/-- An execution creates its stream, and releases the lock. -/
def sampleAttempt (k : ℕ) : List Action := [.start, .call k .ok, .call k .ok, .call k .ok]

/-- The state after a list of actions. -/
def after (as : List Action) : State sampleCatalog :=
  as.foldl (step fun x _ => x) (start sampleCroplands)

/-- The second query begins when the first one has ended. -/
def sampleTurns : List Action :=
  sampleAttempt 0 ++ [.begin 0 4000 fun _ => 1, .finish 0 true] ++
    sampleAttempt 1 ++ [.begin 1 8000 fun _ => 1, .finish 1 true]

/-- The second query begins while the first one runs. -/
def sampleOverlap : List Action :=
  sampleAttempt 0 ++ [.begin 0 4000 fun _ => 1] ++
    sampleAttempt 1 ++ [.begin 1 4060 fun _ => 1, .finish 0 true, .finish 1 true]

theorem credited_apart_sample :
    creditsOf (after sampleTurns) 2 = [4000, 8000] ∧ CreditedApart (after sampleTurns) :=
  ⟨by decide +kernel, credited_apart (Reach.refl.meets (by decide +kernel))⟩

/-- A facility is credited twice within a minute. -/
theorem credited_twice :
    ∃ s : State sampleCatalog, Reach (graph (step fun x _ => x)) always (start sampleCroplands) s ∧
      creditsOf s 2 = [4000, 4060] ∧ ¬CreditedApart s := by
  have hcredits : creditsOf (after sampleOverlap) 2 = [4000, 4060] := by decide +kernel
  refine ⟨after sampleOverlap, Reach.refl.foldl _, hcredits, fun h => ?_⟩
  have hpair := h ⟨2, 2, "cropland", 1⟩ (by decide +kernel) ⟨3600, 10, 1 / 10⟩ (by decide +kernel)
  rw [show (⟨2, 2, "cropland", 1⟩ : Facility).id = 2 from rfl, hcredits] at hpair
  have hlt := List.rel_of_pairwise_cons hpair List.mem_cons_self
  revert hlt
  decide +kernel

/-! ## Queries that do not overlap -/

def Query.isRunning : Query C → Bool
  | .running _ _ _ => true
  | _ => false

/-- A query begins when no other is running. -/
def Alone (s : State C) : Action → Prop
  | .begin _ _ _ => ∀ c ∈ s.crons, c.query.isRunning = false
  | _ => True

/-- At most one query is running, and its snapshot is what the tables have. -/
structure Single (s : State C) : Prop where
  snapshot : ∀ c ∈ s.crons, ∀ snapshot now pick, c.query = .running snapshot now pick →
    snapshot = s.db
  one : ∀ (j k : ℕ) (c c' : Cron C), s.crons[j]? = some c → s.crons[k]? = some c' →
    c.query.isRunning = true → c'.query.isRunning = true → j = k

/-- An execution goes on, and its query does not begin. -/
theorem Single.set (h : Single s) {c₀ : Cron C} (hk : s.crons[k]? = some c₀)
    (hquery : c.query.isRunning = true → c.query = c₀.query) : Single (s.set k c) := by
  have hworker : ∀ (j : ℕ) (c' : Cron C), (s.crons.set k c)[j]? = some c' →
      c'.query.isRunning = true → ∃ c₁, s.crons[j]? = some c₁ ∧ c₁.query = c'.query := by
    intro j c' hj hrunning
    rcases getElem?_set_cases hj with ⟨rfl, rfl⟩ | ⟨-, hj⟩
    · exact ⟨c₀, hk, (hquery hrunning).symm⟩
    · exact ⟨c', hj, rfl⟩
  refine ⟨fun c' hc' snapshot now pick heq => ?_, fun i j c₁ c₂ hi hj hrun₁ hrun₂ => ?_⟩
  · obtain ⟨j, hj⟩ := List.mem_iff_getElem?.1 hc'
    obtain ⟨c₁, hc₁, hsame⟩ := hworker j c' hj (by rw [heq]; rfl)
    exact h.snapshot c₁ (List.mem_of_getElem? hc₁) snapshot now pick (hsame.trans heq)
  · obtain ⟨c₁', hc₁, hsame₁⟩ := hworker i c₁ hi hrun₁
    obtain ⟨c₂', hc₂, hsame₂⟩ := hworker j c₂ hj hrun₂
    exact h.one i j c₁' c₂' hc₁ hc₂ (hsame₁ ▸ hrun₁) (hsame₂ ▸ hrun₂)

theorem Single.advance (h : Single s) (hk : s.crons[k]? = some c) (reply : Reply) :
    Single (s.advance k c reply) := by
  have hlock : ∀ lock, Single { s with lock } := fun lock => ⟨h.snapshot, h.one⟩
  unfold State.advance
  split
  · exact h.set hk fun _ => rfl
  · split
    · exact (hlock _).set hk fun _ => rfl
    · exact h.set hk fun _ => rfl
  · exact h.set hk fun _ => rfl
  · exact h.set hk fun hrunning => by cases hrunning
  · exact h.set hk fun _ => rfl
  · exact (hlock _).set hk fun _ => rfl
  · exact h

/-- No query is running. -/
theorem single_of_none (h : ∀ c ∈ s.crons, c.query.isRunning = false) : Single s := by
  refine ⟨fun c hc snapshot now pick heq => ?_, fun i j c c' hi hj hrunning => ?_⟩
  · have hnone := h c hc
    rw [heq] at hnone
    cases hnone
  · rw [h c (List.mem_of_getElem? hi)] at hrunning
    cases hrunning

/-- An execution starts, and has no query yet. -/
theorem Single.spawn (h : Single s) :
    Single { s with crons := s.crons ++ [⟨.locking, .none⟩] } := by
  refine ⟨List.forall_mem_append.2 ⟨h.snapshot, List.forall_mem_singleton.2 ?_⟩, ?_⟩
  · rintro _ _ _ ⟨⟩
  · have hold : ∀ (j : ℕ) (c : Cron C), (s.crons ++ [⟨.locking, .none⟩])[j]? = some c →
        c.query.isRunning = true → s.crons[j]? = some c := by
      intro j c hj hrunning
      rcases getElem?_concat_cases hj with hj | rfl
      · exact hj
      · cases hrunning
    exact fun i j c c' hi hj hrun hrun' =>
      h.one i j c c' (hold i c hi hrun) (hold j c' hj hrun') hrun hrun'

/-- The only query that is running begins. -/
theorem single_begin (hnone : ∀ c ∈ s.crons, c.query.isRunning = false) (attempt : Attempt)
    (now : ℚ) (pick : ℕ → ℕ) : Single (s.set k ⟨attempt, .running s.db now pick⟩) := by
  have hothers : ∀ (j : ℕ) (c : Cron C), (s.crons.set k ⟨attempt, .running s.db now pick⟩)[j]? =
      some c → c.query.isRunning = true → j = k ∧ c.query = .running s.db now pick := by
    intro j c hj hrunning
    rcases getElem?_set_cases hj with ⟨rfl, rfl⟩ | ⟨-, hj⟩
    · exact ⟨rfl, rfl⟩
    · rw [hnone c (List.mem_of_getElem? hj)] at hrunning
      cases hrunning
  refine ⟨fun c hc snapshot now' pick' heq => ?_, fun i j c c' hi hj hrun hrun' => ?_⟩
  · obtain ⟨j, hj⟩ := List.mem_iff_getElem?.1 hc
    obtain ⟨-, hquery⟩ := hothers j c hj (by rw [heq]; rfl)
    cases heq.symm.trans hquery
    rfl
  · exact (hothers i c hi hrun).1.trans (hothers j c' hj hrun').1.symm

theorem Single.step (h : Single s) {a : Action} (hok : Alone s a) : Single (step power s a) := by
  cases a with
  | start => exact h.spawn
  | call k reply =>
    simp only [ResourcesCron.step]
    split
    next hk => exact h.advance hk reply
    · exact h
  | begin k now pick =>
    simp only [ResourcesCron.step]
    split
    next attempt _ => exact single_begin hok attempt now pick
    · exact h
  | finish k commits =>
    simp only [ResourcesCron.step]
    split
    next attempt snapshot now pick hk =>
      -- The only query that is running ends.
      refine single_of_none ?_
      have hnone : ∀ c ∈ s.crons.set k ⟨attempt, .ended⟩, c.query.isRunning = false := by
        refine forall_mem_set_of_ne (fun j c hj hc => ?_) rfl
        cases hrunning : c.query.isRunning with
        | false => rfl
        | true => exact absurd (h.one j k c _ hc hk hrunning rfl) hj
      cases commits <;> exact hnone
    · exact h
  | expire => exact ⟨h.snapshot, h.one⟩
  | stop k =>
    simp only [ResourcesCron.step]
    split
    next hk => exact h.set hk fun _ => rfl
    · exact h

/-- What a query that runs alone has found due is still due when it is committed. -/
theorem Single.stillDue (h : Single s) (a : Action) : StillDue s a := by
  match a with
  | .finish k true =>
    intro c hc
    cases hquery : c.query with
    | running snapshot now pick =>
      obtain rfl := h.snapshot c (List.mem_of_getElem? hc) snapshot now pick hquery
      intro f hf hstamped p hp
      obtain ⟨r, -, g, -, -, hjoins⟩ := joins_of_stamped hf hstamped
      have hpar := Option.some.inj (hjoins.parameters.symm.trans hp)
      exact hpar ▸ hjoins.due
    | _ => trivial
  | .finish _ false | .start | .call _ _ | .begin _ _ _ | .expire | .stop _ => trivial

/-- Queries that do not overlap credit no facility twice within its frequency. -/
theorem credited_apart_of_alone (h : Reach (graph (step power)) Alone (start d) s) :
    CreditedApart s := by
  have hinv : Single s ∧ Apart s := by
    refine h.inv (I := fun s => Single s ∧ Apart s) ⟨?_, ?_⟩ ?_
    · exact single_of_none fun c hc => absurd hc List.not_mem_nil
    · exact fun f _ p _ _ => ⟨.nil, fun t ht => absurd ht List.not_mem_nil⟩
    · rintro s a s' ⟨hsingle, hapart⟩ hok rfl
      exact ⟨hsingle.step hok, hapart.step (hsingle.stillDue a)⟩
  exact hinv.2.creditedApart

end Cme.ResourcesCron
