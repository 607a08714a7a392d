import CmeBackend.Attacks.Flags
import CmeBackend.Lib.Work

/-!
# Attacks come to an end

A worker that is called goes on or ends, and nothing is tried again: every accepted request makes for
a bounded number of calls, moves and takings, whatever fails.

* `Worker.work`, `State.work`: how many of them are left at most.
* `work_step`: a step does away with what it does.
* `attacks_end`: in every run, no more is done than the accepted requests make for, and without
  further requests the run can come to rest.
* `settled_of_quiet`: at rest, if no failure has left troops behind, the troops that have left have
  fallen or are home, and the flags say so.
-/

namespace Cme.Attacks.Lifecycle

open Battles Life Petri Redis Runs Weights Work

variable {C : Catalog} {e : Env} {d : Db C} {s : State C} {k : ℕ} {w : Worker C} {reply : Reply}

/-! ## What is left to do -/

/-- The calls of a return that has been taken. One without its loot has to take it first. -/
def returnCalls (token : ReturnToken) : ℕ := if token.stolenResources.isSome then 2 else 5

/-- What is left to do once the loot is recorded. The return of a battle has still to be queued, moved
and taken. -/
def Looter.work : Looter → ℕ
  | .battle _ => 5
  | .comeBack _ _ => 1

def Worker.work : Worker C → ℕ
  | .inserting _ _ => 18
  | .queueing _ _ _ => 17
  | .subtracting _ _ _ => 4
  | .losingTruce _ _ => 3
  | .gainingTruce _ => 2
  | .savingAgain => 1
  | .reading _ => 10
  | .resolving _ => 9
  | .looting looter => looter.work + 3
  | .takingLoot looter _ => looter.work + 2
  | .recordingLoot looter _ => looter.work + 1
  | .sendingHome _ _ => 5
  | .givingLoot _ _ _ => 1
  | .addingUnits _ _ _ => 1
  | .ended => 0

namespace State

/-- What is left to do with the tokens that are queued. -/
def queued (s : State C) : ℕ := s.normal.load (fun _ => 10) + s.returns.load returnCalls

def work (s : State C) : ℕ := weigh Worker.work s.workers + s.queued

/-- No worker has anything to do, and no token waits. -/
def Quiet (s : State C) : Prop :=
  (∀ w ∈ s.workers, w.work = 0) ∧ (s.normal.delayed = [] ∧ s.normal.pending = []) ∧
    s.returns.delayed = [] ∧ s.returns.pending = []

instance (s : State C) : Decidable s.Quiet := by
  unfold Quiet
  infer_instance

theorem work_eq_zero_iff : s.work = 0 ↔ s.Quiet := by
  unfold work queued Quiet
  rw [Nat.add_eq_zero_iff, Nat.add_eq_zero_iff, weigh_eq_zero_iff, Queues.load_eq_zero_iff,
    Queues.load_eq_zero_iff]

end State

/-! ## What a step does -/

/-- Whether a step does something: a call of a worker that has not ended, or its end, a token that is
moved, and one that is taken. -/
def does (s : State C) : Action → Bool
  | .create _ _ => false
  | .moveNormal c => s.normal.moves () c
  | .moveReturns c => s.returns.moves () c
  | .popNormal reply => reply ≠ .refused ∧ (s.normal.lpop ()).isSome
  | .popReturn reply => reply ≠ .refused ∧ (s.returns.lpop ()).isSome
  | .call k _ _ | .stop k => s.workers[k]?.any fun w => w.work ≠ 0

/-- Whether a step accepts a request. -/
def accepts (e : Env) (s : State C) : Action → Bool
  | .create dto now => (check e.math e.dev now s.db dto).isOk
  | _ => false

/-- The steps of a run that do something. -/
def done (e : Env) (s : State C) (as : List Action) : ℕ :=
  spent (step e) (fun s a => (does s a).toNat) s as

/-- The requests that a run accepts. -/
def requests (e : Env) (s : State C) (as : List Action) : ℕ :=
  spent (step e) (fun s a => (accepts e s a).toNat) s as

/-- A worker goes on. What it queues is left to do too. -/
theorem work_goto_lt {s' : State C} {w' : Worker C} {n : ℕ} (hk : s.workers[k]? = some w)
    (hworkers : s'.workers = s.workers) (hqueued : s'.queued ≤ s.queued + n)
    (hlt : w'.work + n < w.work) : (s'.goto k w').work < s.work := by
  have hset : weigh Worker.work (s'.workers.set k w') + w.work =
      weigh Worker.work s'.workers + w'.work := weigh_set (hworkers ▸ hk)
  have hgoto : (s'.goto k w').work = weigh Worker.work (s'.workers.set k w') + s'.queued := rfl
  have hwork : s.work = weigh Worker.work s'.workers + s.queued := by rw [hworkers]; rfl
  omega

theorem work_execute_lt {effect : Option (State C)} {next failed : Worker C} (n : ℕ)
    (hk : s.workers[k]? = some w)
    (heffect : ∀ s' ∈ effect, s'.workers = s.workers ∧ s'.queued ≤ s.queued + n)
    (hnext : effect.isSome → next.work + n < w.work) (hfailed : failed.work + n < w.work) :
    (s.execute k reply effect next failed).work < s.work := by
  unfold State.execute
  split
  next s' =>
    obtain ⟨hworkers, hqueued⟩ := heffect s' rfl
    exact work_goto_lt hk hworkers hqueued (hnext rfl)
  next s' =>
    obtain ⟨hworkers, hqueued⟩ := heffect s' rfl
    exact work_goto_lt hk hworkers hqueued hfailed
  · exact work_goto_lt hk rfl (Nat.le_add_right _ n) hfailed

/-- A call that writes to the tables only. -/
theorem work_write_lt {α : Type} {o : Option α} {f : α → Db C} {events : List (Event × ℕ)}
    {next failed : Worker C} (hk : s.workers[k]? = some w) (hnext : next.work < w.work)
    (hfailed : failed.work < w.work) :
    (s.execute k reply (o.map fun a => s.write (f a) events) next failed).work < s.work := by
  refine work_execute_lt 0 hk (fun s' hs' => ?_) (fun _ => hnext) hfailed
  obtain ⟨a, -, rfl⟩ := Option.map_eq_some_iff.1 hs'
  exact ⟨rfl, le_rfl⟩

/-- Every call of a worker that has not ended does something. -/
theorem work_advance_lt (hk : s.workers[k]? = some w) (hw : w.work ≠ 0) (now : ℤ) :
    (s.advance e k reply now w).work < s.work := by
  cases w with
  | queueing a loaded attackId =>
    refine work_execute_lt 12 hk ?_ (fun _ => by simp [Worker.work]) (by simp [Worker.work])
    rintro s' ⟨⟩
    have hload : (s.normal.zadd () (a.token attackId)).load (fun _ => 10) ≤
        s.normal.load (fun _ => 10) + (10 + 2) := Queues.load_zadd_le
    unfold State.queued
    exact ⟨rfl, by dsimp only; omega⟩
  | sendingHome report stolen =>
    refine work_execute_lt 4 hk ?_ (fun _ => by simp [Worker.work]) (by simp [Worker.work])
    rintro s' ⟨⟩
    have hload : (s.returns.zadd () (report.returnToken stolen)).load returnCalls ≤
        s.returns.load returnCalls + (2 + 2) := Queues.load_zadd_le
    unfold State.queued
    exact ⟨rfl, by dsimp only; omega⟩
  | looting looter =>
    refine work_execute_lt 0 hk ?_ (fun _ => ?_) (by simp [Worker.work])
    · rintro s' ⟨⟩
      exact ⟨rfl, le_rfl⟩
    · unfold Looter.read
      split <;> simp [Worker.work, Looter.work]
  | recordingLoot looter stolen =>
    refine work_execute_lt 0 hk ?_ (fun _ => ?_) (by simp [Worker.work])
    · rintro s' ⟨⟩
      exact ⟨rfl, le_rfl⟩
    · cases looter <;> simp [Worker.work, Looter.work, Looter.recorded]
  | reading token =>
    refine work_execute_lt 0 hk ?_ (fun _ => ?_) (by simp [Worker.work])
    · rintro s' ⟨⟩
      exact ⟨rfl, le_rfl⟩
    · unfold reported
      split <;> simp [Worker.work]
  | resolving report =>
    refine work_write_lt hk ?_ (by simp [Worker.work])
    unfold decided
    split <;> simp [Worker.work, Looter.work]
  | subtracting a loaded attackId =>
    exact work_write_lt hk (by simp [Worker.work]) (by simp [Worker.work])
  | takingLoot looter stolen =>
    exact work_write_lt hk (by simp [Worker.work]) (by simp [Worker.work])
  | addingUnits attackId attackerVillageId units =>
    exact work_write_lt hk (by simp [Worker.work]) (by simp [Worker.work])
  | ended => exact absurd rfl hw
  | inserting | losingTruce | gainingTruce | savingAgain | givingLoot =>
    refine work_execute_lt 0 hk ?_ (fun _ => by simp [Worker.work]) (by simp [Worker.work])
    rintro s' ⟨⟩
    exact ⟨rfl, le_rfl⟩

/-- The calls of a return are as many as its token makes for. -/
theorem work_comeBackCalls (token : ReturnToken) :
    weigh Worker.work (comeBackCalls token : List (Worker C)) ≤ returnCalls token := by
  unfold comeBackCalls returnCalls
  dsimp only
  split
  · simp
  · cases hstolen : token.stolenResources <;> simp [parsedReturn, hstolen, Worker.work, Looter.work]

/-- A step does away with what it does. A request makes for six calls of its own, and for the battle and
the return of its attack. -/
theorem work_step (h : QueuesSound s) (a : Action) :
    (step e s a).work + (does s a).toNat ≤ s.work + 18 * (accepts e s a).toNat := by
  cases a with
  | create dto now =>
    cases hcheck : check e.math e.dev now s.db dto with
    | error reason => simp [step, does, accepts, hcheck]
    | ok a =>
      have hadded : weigh Worker.work (s.workers ++ [.inserting a now]) =
          weigh Worker.work s.workers + 18 := weigh_append_singleton
      simp only [step, does, accepts, hcheck, State.work, State.queued, hadded, Except.isOk,
        Except.toBool, Bool.toNat_true, Bool.toNat_false]
      omega
  | moveNormal c =>
    have hload : (s.normal.mover () c).load (fun _ => 10) + (s.normal.moves () c).toNat =
        s.normal.load fun _ => 10 := Queues.load_mover h.1 c
    simp only [step, does, accepts, State.work, State.queued]
    omega
  | moveReturns c =>
    have hload : (s.returns.mover () c).load returnCalls + (s.returns.moves () c).toNat =
        s.returns.load returnCalls := Queues.load_mover h.2 c
    simp only [step, does, accepts, State.work, State.queued]
    omega
  | popNormal reply =>
    cases hpop : s.normal.lpop () with
    | none => cases reply <;> simp [step, does, accepts, hpop]
    | some p =>
      obtain ⟨token, q⟩ := p
      have hload := Queues.load_lpop (w := fun _ => 10) hpop
      have hadded : weigh Worker.work (s.workers ++ [.reading token]) =
          weigh Worker.work s.workers + 10 := weigh_append_singleton
      cases reply <;> simp [step, does, accepts, hpop, State.work, State.queued, hadded] <;> omega
  | popReturn reply =>
    cases hpop : s.returns.lpop () with
    | none => cases reply <;> simp [step, does, accepts, hpop]
    | some p =>
      obtain ⟨token, q⟩ := p
      have hload := Queues.load_lpop (w := returnCalls) hpop
      have hcalls := work_comeBackCalls (C := C) token
      cases reply <;> simp [step, does, accepts, hpop, State.work, State.queued, weigh_append] <;>
        omega
  | call k reply now =>
    cases hk : s.workers[k]? with
    | none => simp [step, does, accepts, hk]
    | some w =>
      by_cases hw : w.work = 0
      · have hended : s.advance e k reply now w = s := by
          cases w <;> simp_all [State.advance, Worker.work]
        simp [step, does, accepts, hk, hw, hended]
      · have hlt : (s.advance e k reply now w).work < s.work := work_advance_lt hk hw now
        simp [step, does, accepts, hk, hw]
        omega
  | stop k =>
    cases hk : s.workers[k]? with
    | none =>
      have hset : s.workers.set k .ended = s.workers :=
        List.set_eq_of_length_le (List.getElem?_eq_none_iff.1 hk)
      simp [step, does, accepts, hk, State.goto, hset]
    | some w =>
      have hset : weigh Worker.work (s.workers.set k .ended) + w.work =
          weigh Worker.work s.workers + 0 := weigh_set hk
      by_cases hw : w.work = 0 <;>
        simp [step, does, accepts, hk, hw, State.goto, State.work, State.queued] <;> omega

/-! ## Coming to rest -/

/-- A step that does not fail, other than a request. -/
def Smooth : Action → Prop
  | .moveNormal c | .moveReturns c => c ≠ .move .refused ∧ c ≠ .move .lost
  | .popNormal reply | .popReturn reply | .call _ reply _ => reply = .ok
  | .create _ _ | .stop _ => False

theorem accepts_of_smooth {a : Action} (ha : Smooth a) : accepts e s a = false := by
  cases a with
  | create dto now => cases ha
  | _ => rfl

theorem work_step_le (h : QueuesSound s) {a : Action} (ha : Smooth a) :
    (step e s a).work ≤ s.work := by
  have hstep := work_step (e := e) h a
  rw [accepts_of_smooth ha, Bool.toNat_false] at hstep
  omega

theorem work_step_lt (h : QueuesSound s) {a : Action} (ha : Smooth a) (hdoes : does s a) :
    (step e s a).work < s.work := by
  have hstep := work_step (e := e) h a
  rw [accepts_of_smooth ha, hdoes, Bool.toNat_false, Bool.toNat_true] at hstep
  omega

/-- Some steps that do not fail do away with work. -/
def Progress (e : Env) (s : State C) : Prop :=
  ∃ as : List Action, (∀ a ∈ as, Smooth a) ∧ (as.foldl (step e) s).work < s.work

theorem progress_of_does (h : QueuesSound s) (a : Action) (ha : Smooth a) (hdoes : does s a) :
    Progress e s :=
  ⟨[a], List.forall_mem_singleton.2 ha, work_step_lt h ha hdoes⟩

/-- After two steps that do nothing comes one that does something. -/
theorem progress_of_does_third (h : QueuesSound s) (a a' a'' : Action) (ha : Smooth a)
    (ha' : Smooth a') (ha'' : Smooth a'') (hdoes : does (step e (step e s a) a') a'') :
    Progress e s :=
  ⟨[a, a', a''], by simp [ha, ha', ha''], (work_step_lt ((h.step a).step a') ha'' hdoes).trans_le
    ((work_step_le (h.step a) ha').trans (work_step_le h ha))⟩

/-- Where something is left to do, something can be done. -/
theorem progress_of_work (h : QueuesSound s) (hwork : s.work ≠ 0) : Progress e s := by
  by_cases hbusy : ∀ w ∈ s.workers, w.work = 0
  · by_cases hpending : s.normal.pending = []
    · by_cases hdelayed : s.normal.delayed = []
      · by_cases hpending' : s.returns.pending = []
        · by_cases hdelayed' : s.returns.delayed = []
          · exact absurd (State.work_eq_zero_iff.2
              ⟨hbusy, ⟨hdelayed, hpending⟩, hdelayed', hpending'⟩) hwork
          · obtain ⟨a, ha⟩ := List.exists_mem_of_ne_nil _ hdelayed'
            exact progress_of_does_third h (.moveReturns .stop) (.moveReturns (.start [key a.2]))
              (.moveReturns (.move .ok)) (by simp [Smooth]) (by simp [Smooth]) (by simp [Smooth])
              (Queues.hasNext_start ha)
        · obtain ⟨a, ha⟩ := List.exists_mem_of_ne_nil _ hpending'
          have hpop : (s.returns.lpop ()).isSome := Queues.lpop_isSome_iff.2 ⟨a, ha, rfl⟩
          exact progress_of_does h (.popReturn .ok) rfl (by simp [does, hpop])
      · obtain ⟨a, ha⟩ := List.exists_mem_of_ne_nil _ hdelayed
        exact progress_of_does_third h (.moveNormal .stop) (.moveNormal (.start [key a.2]))
          (.moveNormal (.move .ok)) (by simp [Smooth]) (by simp [Smooth]) (by simp [Smooth])
          (Queues.hasNext_start ha)
    · obtain ⟨a, ha⟩ := List.exists_mem_of_ne_nil _ hpending
      have hpop : (s.normal.lpop ()).isSome := Queues.lpop_isSome_iff.2 ⟨a, ha, rfl⟩
      exact progress_of_does h (.popNormal .ok) rfl (by simp [does, hpop])
  · push Not at hbusy
    obtain ⟨w, hw, hne⟩ := hbusy
    obtain ⟨k, hk⟩ := List.mem_iff_getElem?.1 hw
    exact progress_of_does h (.call k .ok 0) rfl (by simp [does, hk, hne])

theorem queuesSound_start (d : Db C) : QueuesSound (start d) :=
  ⟨Queues.sound_empty, Queues.sound_empty⟩

/-- **Attacks come to an end.** In every run, whatever fails and in whatever order the steps come, the
workers and the queues do at most 18 things for each accepted request: 6 calls of the request, and 12
calls, moves and takings for the battle and the return. And from wherever a run has come, it comes to
rest by steps that do not fail, without further requests. -/
theorem attacks_end (as : List Action) :
    done e (start d) as ≤ 18 * requests e (start d) as ∧
      ∃ bs : List Action, (∀ a ∈ bs, Smooth a) ∧ ((as ++ bs).foldl (step e) (start d)).Quiet := by
  constructor
  · have hspent := spent_add_le QueuesSound State.work (fun _ a h => h.step a)
      (fun _ a h => work_step (e := e) h a) (queuesSound_start d) as
    rw [spent_mul] at hspent
    exact Nat.le_of_add_right_le (hspent.trans_eq (Nat.zero_add _))
  · obtain ⟨bs, hbs, hrest⟩ := exists_rest QueuesSound State.work Smooth
      (fun _ a h => h.step (e := e) a) (fun _ h hwork => progress_of_work h hwork)
      (foldl_inv (queuesSound_start d) (fun _ a h => h.step a) as)
    refine ⟨bs, hbs, ?_⟩
    rw [List.foldl_append]
    exact State.work_eq_zero_iff.1 hrest

/-- An attack that is won and comes home with its loot takes all 18. -/
example : done sampleEnv (start sampleDb) (sampleDeparture .ok ++ sampleBattle ++ sampleReturn) = 18 ∧
    requests sampleEnv (start sampleDb) (sampleDeparture .ok ++ sampleBattle ++ sampleReturn) = 1 := by
  decide +kernel

/-! ## At rest -/

/-- What has become of an attack: its troops have left and have fallen or come home, once, and its flags
say so, or they have never left. -/
structure Settled (s : State C) (a : Attack) : Prop where
  once : (.departed, a.id) ∈ s.log → s.log.count (.lost, a.id) + s.log.count (.home, a.id) = 1
  flags : flags a =
    if (.departed, a.id) ∈ s.log then ⟨false, true, (.victory, a.id) ∈ s.log⟩ else Flags.default

/-- At rest, no worker has an attack in hand, and none is queued. -/
theorem marking_of_quiet (h : s.Quiet) (j : ℕ) :
    (∀ x, s.marking j (.stage x) = 0) ∧ s.marking j .waiting = 0 ∧ s.marking j .returning = 0 := by
  obtain ⟨hworkers, ⟨hdelayed, hpending⟩, hdelayed', hpending'⟩ := h
  refine ⟨fun x => weigh_eq_zero fun w hw => ?_, ?_, ?_⟩
  · have hended := hworkers w hw
    cases w <;> simp_all [Worker.work, Looter.work, Worker.isAt, Worker.stage]
  · simp [State.marking, Queues.tokensOf, Queues.census, hdelayed, hpending]
  · simp [State.marking, Queues.tokensOf, Queues.census, hdelayed', hpending']

/-- **At rest.** After a run in which no failure leaves troops behind, when nothing is left to do: the
troops of every attack that have left the village have fallen or are home, either of them once, and the
flags of the attack say which. The flags of the others are those of their creation. -/
theorem settled_of_quiet (hd : d.attacks.rows = []) {as : List Action}
    (hrun : Meets (step e) (Undisturbed e) (start d) as)
    (hquiet : (as.foldl (step e) (start d)).Quiet) :
    ∀ a ∈ (as.foldl (step e) (start d)).db.attacks.rows,
      Settled (as.foldl (step e) (start d)) a := by
  intro a ha
  have hflags := flags_eq hd ha
  have hinv : Inv (as.foldl (step e) (start d)) := foldl_inv (Inv.start d) (fun _ a h => h.step a) as
  have hkept := kept_of_reach (Reach.refl.meets hrun) a.id
  obtain ⟨hstages, hwaiting, hreturning⟩ := marking_of_quiet hquiet a.id
  generalize as.foldl (step e) (start d) = s at *
  have hcreated := (hinv.life a.id).created_le
  have hlaunched := hkept.launched_eq
  have hsurvivors := hkept.survivors_eq
  simp only [hstages, hwaiting, hreturning, Nat.zero_add] at hcreated hlaunched hsurvivors
  have hdeparted : s.log.count (.departed, a.id) ≤ 1 := hcreated
  have hresolved : s.log.count (.lost, a.id) + s.log.count (.victory, a.id) =
      s.log.count (.departed, a.id) := hlaunched
  have hhome : s.log.count (.home, a.id) = s.log.count (.victory, a.id) := hsurvivors
  have hreturned : (.home, a.id) ∈ s.log ↔ (.victory, a.id) ∈ s.log := by
    rw [← List.count_pos_iff, ← List.count_pos_iff, hhome]
  have hended : (.departed, a.id) ∈ s.log ↔ (.lost, a.id) ∈ s.log ∨ (.victory, a.id) ∈ s.log := by
    rw [← List.count_pos_iff, ← List.count_pos_iff, ← List.count_pos_iff]
    omega
  constructor
  · intro hleft
    have hpos := List.count_pos_iff.2 hleft
    omega
  · rw [hflags]
    unfold flagsOf Flags.default
    split
    next hleft =>
      rw [hended] at hleft
      ext <;> simp [hreturned] <;> tauto
    next hnot =>
      rw [hended, not_or] at hnot
      simp [hreturned, hnot]

/-- The attack of the run that takes all steps. -/
theorem settled_sample :
    (after (sampleDeparture .ok ++ sampleBattle ++ sampleReturn)).db.attacks.rows.map Attack.id =
        [1] ∧
      ∀ a ∈ (after (sampleDeparture .ok ++ sampleBattle ++ sampleReturn)).db.attacks.rows,
        Settled (after (sampleDeparture .ok ++ sampleBattle ++ sampleReturn)) a := by
  have hrun : Meets (step sampleEnv) (Undisturbed sampleEnv) (start sampleDb)
        (sampleDeparture .ok ++ sampleBattle ++ sampleReturn) ∧
      (after (sampleDeparture .ok ++ sampleBattle ++ sampleReturn)).Quiet := by decide +kernel
  exact ⟨by decide +kernel, settled_of_quiet rfl hrun.1 hrun.2⟩

end Cme.Attacks.Lifecycle
