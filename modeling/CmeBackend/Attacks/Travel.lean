import CmeBackend.Attacks.Ending
import CmeBackend.Attacks.Speed
import CmeBackend.Lib.Delays

/-!
# The way there and back

The runs of `Lifecycle` on a clock. A worker reads the time between two of its calls, and a mover when
it starts. The token of an attack has the score of the time that was read and of the travel time, and so
has that of its return: no battle is resolved before the time that the attack shows (`attack_time`), and
no units are home before they have travelled as long again (`travel_takes_time`), whatever fails and in
whatever order the steps come.

* `Way`: when an attack was saved, and how long it travels.
* `Clocked`: a state with the clock, the scores of the sets, the time of the last call of each worker,
  and the way of each attack.
* `OnTime`: no token is in a list, and no worker has one in hand, before its attack is there, or back.
-/

namespace Cme.Attacks.Lifecycle

open Battles Js Life Redis Runs

variable {C : Catalog} {e : Env} {d d' : Db C} {k id : ℕ} {w w₀ : Worker C} {reply : Reply}
  {t t' : ℤ}

/-! ## Runs on a clock -/

/-- The time that was read when an attack was saved, and its travel time. -/
structure Way where
  saved : ℤ
  travelTime : ℤ

/-- When the troops are at the village that they attack. -/
def Way.there (way : Way) : ℤ := way.saved + way.travelTime

/-- When they can be home. -/
def Way.back (way : Way) : ℤ := way.there + way.travelTime

structure Clocked (C : Catalog) where
  state : State C
  clock : ℤ
  normalScore : Scores Unit
  returnScore : Scores Unit
  /-- The time of the last call of each worker. -/
  since : ℕ → ℤ
  way : ℕ → Way

/-- A travel time in milliseconds. It is an integer (`travelTime_of_check`). -/
def milliseconds (travelTime : Number) : ℤ := travelTime.toInt?.getD 0

/-- The scores of `delayed:normal` after a call of a worker. -/
def Worker.scoredNormal (reply : Reply) (now : ℤ) (score : Scores Unit) : Worker C → Scores Unit
  | .queueing a _ attackId =>
    if reply = .refused then score
    else Function.update score ((), attackId) (now + milliseconds a.travelTime)
  | _ => score

/-- The scores of `delayed:return` after a call of a worker. -/
def Worker.scoredReturn (reply : Reply) (now : ℤ) (score : Scores Unit) : Worker C → Scores Unit
  | .sendingHome report _ =>
    if reply = .refused then score
    else Function.update score ((), report.attackId) (now + milliseconds report.travelTime)
  | _ => score

/-- The ways of the attacks after a call of a worker. -/
def Worker.stamped (now : ℤ) (next : ℕ) (way : ℕ → Way) : Worker C → ℕ → Way
  | .inserting a _ => Function.update way next ⟨now, milliseconds a.travelTime⟩
  | _ => way

/-- The action as the time that was read has it. -/
def Clocked.actionAt (s : Clocked C) (now : ℤ) : Action → Action
  | .create dto _ => .create dto now
  | .moveNormal c => .moveNormal (c.dueAt s.normalScore now ())
  | .moveReturns c => .moveReturns (c.dueAt s.returnScore now ())
  | .call k reply _ => .call k reply now
  | a => a

/-- One step on the clock. -/
def tick (e : Env) (s : Clocked C) (a : Tick Action) : Clocked C :=
  let state := step e s.state (s.actionAt a.now a.action)
  match a.action with
  | .call k reply _ =>
    match s.state.workers[k]? with
    | some w =>
      { state
        clock := a.time
        normalScore := w.scoredNormal reply a.now s.normalScore
        returnScore := w.scoredReturn reply a.now s.returnScore
        since := Function.update s.since k a.time
        way := w.stamped a.now s.state.db.attacks.next s.way }
    | none => { s with state, clock := a.time }
  | _ => { s with state, clock := a.time }

/-- No attack is on its way at the time `t`. -/
def startAt (d : Db C) (t : ℤ) : Clocked C :=
  ⟨start d, t, fun _ => t, fun _ => t, fun _ => t, fun _ => ⟨t, 0⟩⟩

/-- Whether a worker has read the time since its last call. -/
def Clocked.readInTurn (s : Clocked C) (now : ℤ) : Action → Prop
  | .call k _ _ => s.since k ≤ now
  | _ => True

/-- The clock does not go back, and a process has read the time before its call. -/
structure InOrder (s : Clocked C) (a : Tick Action) : Prop where
  clock : s.clock ≤ a.time
  now : a.now ≤ a.time
  since : s.readInTurn a.now a.action

instance (s : Clocked C) (now : ℤ) (a : Action) : Decidable (s.readInTurn now a) :=
  match a with
  | .call _ _ _ => inferInstanceAs (Decidable (_ ≤ _))
  | .create _ _ | .moveNormal _ | .moveReturns _ | .popNormal _ | .popReturn _ | .stop _ =>
    isTrue trivial

instance (s : Clocked C) (a : Tick Action) : Decidable (InOrder s a) :=
  decidable_of_iff (s.clock ≤ a.time ∧ a.now ≤ a.time ∧ s.readInTurn a.now a.action)
    ⟨fun h => ⟨h.1, h.2.1, h.2.2⟩, fun h => ⟨h.clock, h.now, h.since⟩⟩

/-! ## The travel time -/

/-- The square root of a finite number that is not negative is finite. -/
def FiniteRoots (M : Math) : Prop := ∀ x : ℚ, 0 ≤ x → ∃ y : ℚ, M.sqrt (.fin x) = .fin y

/-- The travel time of an attack is an integer: the speed of its units is not zero. -/
theorem travelTime_of_check {now : ℤ} {dto : CreateAttackDto} {a : CheckedAttack C}
    (hsqrt : FiniteRoots e.math) (h : check e.math e.dev now d dto = .ok a) :
    ∃ n : ℤ, a.travelTime = .fin n := by
  obtain ⟨attackerVillage, -, h⟩ := bind_eq_ok.1 h
  obtain ⟨defenderVillage, -, h⟩ := bind_eq_ok.1 h
  obtain ⟨⟨⟩, -, h⟩ := bind_eq_ok.1 h
  obtain ⟨unitSent, -, h⟩ := bind_eq_ok.1 h
  split at h
  · cases h
  next hsent =>
    obtain ⟨slowest, hslowest, h⟩ := bind_eq_ok.1 h
    cases h
    obtain ⟨m, -, hspeed⟩ := (slowestSpeed_isGreatest hslowest (by simpa using hsent)).1
    have hpos : (slowest : ℚ) ≠ 0 := by
      rw [← hspeed]
      exact_mod_cast (GameRules.relatedUnitDescriptors_speed_pos m).ne'
    obtain ⟨length, hlength⟩ := hsqrt (((defenderVillage.x - attackerVillage.x : ℤ) : ℚ) ^ 2 +
      ((defenderVillage.y - attackerVillage.y : ℤ) : ℚ) ^ 2) (by positivity)
    unfold computeAttackTime distance
    rw [hlength]
    dsimp only
    split
    · exact ⟨0, by simp⟩
    · simp [Number.div, hpos, Number.mul, Number.round]

/-! ## What a token waits for -/

variable {way way' : ℕ → Way} {next next' : ℕ} {clock clock' since since' : ℤ}

/-- The attack with an id has been stored, travels as long as a token says, and is there at the time
`t`. -/
structure There (way : ℕ → Way) (next id : ℕ) (travelTime : Number) (t : ℤ) : Prop where
  stored : id < next
  travelTime : travelTime = .fin (way id).travelTime
  there : (way id).there ≤ t

/-- The troops of an attack that has been stored can be home at the time `t`. -/
structure Back (way : ℕ → Way) (next id : ℕ) (t : ℤ) : Prop where
  stored : id < next
  back : (way id).back ≤ t

/-- More attacks may be stored, and the ways of those that are stay as they are. -/
structure Extends (way : ℕ → Way) (next : ℕ) (way' : ℕ → Way) (next' : ℕ) : Prop where
  next_le : next ≤ next'
  way_eq : ∀ id < next, way' id = way id

theorem Extends.refl : Extends way next way next := ⟨le_rfl, fun _ _ => rfl⟩

theorem There.mono {travelTime : Number} (h : There way next id travelTime t)
    (hext : Extends way next way' next') (hle : t ≤ t') : There way' next' id travelTime t' := by
  have hway := hext.way_eq id h.stored
  exact ⟨h.stored.trans_le hext.next_le, hway ▸ h.travelTime, hway ▸ h.there.trans hle⟩

theorem Back.mono (h : Back way next id t) (hext : Extends way next way' next') (hle : t ≤ t') :
    Back way' next' id t' :=
  ⟨h.stored.trans_le hext.next_le, hext.way_eq id h.stored ▸ h.back.trans hle⟩

/-- What a worker that loots knows of the time. -/
def Looter.OnTime (way : ℕ → Way) (next : ℕ) (clock since : ℤ) : Looter → Prop
  | .battle report => There way next report.attackId report.travelTime since
  | .comeBack token _ => Back way next token.attackId clock

/-- What a worker knows of the time, which has made its last call at `since`. -/
def Worker.OnTime (way : ℕ → Way) (next : ℕ) (clock since : ℤ) : Worker C → Prop
  | .inserting a _ => ∃ n : ℤ, a.travelTime = .fin n
  | .queueing a _ attackId =>
    There way next attackId a.travelTime (since + (way attackId).travelTime)
  | .reading token => There way next token.attackId token.travelTime clock
  | .resolving report | .sendingHome report _ =>
    There way next report.attackId report.travelTime since
  | .looting looter | .takingLoot looter _ | .recordingLoot looter _ =>
    looter.OnTime way next clock since
  | .givingLoot attackId _ _ | .addingUnits attackId _ _ => Back way next attackId clock
  | _ => True

theorem Looter.OnTime.mono {looter : Looter} (h : looter.OnTime way next clock since)
    (hext : Extends way next way' next') (hclock : clock ≤ clock') (hsince : since ≤ since') :
    looter.OnTime way' next' clock' since' := by
  cases looter with
  | battle report => exact There.mono h hext hsince
  | comeBack token units => exact Back.mono h hext hclock

theorem Worker.OnTime.mono (h : w.OnTime way next clock since)
    (hext : Extends way next way' next') (hclock : clock ≤ clock') :
    w.OnTime way' next' clock' since := by
  cases w with
  | inserting a loaded => exact h
  | queueing a loaded attackId =>
    exact There.mono h hext (by rw [hext.way_eq _ (There.stored h)])
  | reading token => exact There.mono h hext hclock
  | resolving report => exact There.mono h hext le_rfl
  | sendingHome report stolen => exact There.mono h hext le_rfl
  | looting looter => exact Looter.OnTime.mono h hext hclock le_rfl
  | takingLoot looter stolen => exact Looter.OnTime.mono h hext hclock le_rfl
  | recordingLoot looter stolen => exact Looter.OnTime.mono h hext hclock le_rfl
  | givingLoot attackId attackerVillageId stolen => exact Back.mono h hext hclock
  | addingUnits attackId attackerVillageId units => exact Back.mono h hext hclock
  | _ => trivial

/-- A battle is resolved where the troops are there, and units and loot come home where they can be
back. -/
def Reached (way : ℕ → Way) (next : ℕ) (clock : ℤ) : Event × ℕ → Prop
  | (.victory, id) | (.lost, id) => id < next ∧ (way id).there ≤ clock
  | (.home, id) | (.lootHome, id) => Back way next id clock
  | (.departed, _) => True

theorem Reached.mono {p : Event × ℕ} (h : Reached way next clock p)
    (hext : Extends way next way' next') (hle : clock ≤ clock') : Reached way' next' clock' p := by
  obtain ⟨x, id⟩ := p
  cases x with
  | victory => exact ⟨h.1.trans_le hext.next_le, hext.way_eq id h.1 ▸ h.2.trans hle⟩
  | lost => exact ⟨h.1.trans_le hext.next_le, hext.way_eq id h.1 ▸ h.2.trans hle⟩
  | home => exact Back.mono h hext hle
  | lootHome => exact Back.mono h hext hle
  | departed => trivial

/-! ## The times that the attacks show -/

/-- The column `attack_time` of all attacks. -/
def attackTimes (d : Db C) : List (ℕ × Number) := d.attacks.rows.map fun a => (a.id, a.attackTime)

theorem attackTimes_congr (h : d'.attacks = d.attacks) : attackTimes d' = attackTimes d := by
  unfold attackTimes
  rw [h]

theorem attackTimes_updateAttack {f : Attack → Attack} {hf : ∀ a, key (f a) = key a}
    (h : ∀ a, (f a).attackTime = a.attackTime) :
    attackTimes (d.updateAttack id f hf) = attackTimes d := by
  unfold attackTimes
  show ((d.attacks.rows.map (Table.patch id f)).map _) = _
  rw [List.map_map]
  refine List.map_congr_left fun a _ => ?_
  show (key (Table.patch id f a), (Table.patch id f a).attackTime) = (key a, a.attackTime)
  rw [Table.key_patch hf]
  unfold Table.patch
  split
  · rw [h]
  · rfl

theorem attackTimes_insert (a : CheckedAttack C) (now : ℤ) (d : Db C) :
    attackTimes (a.insert now d) =
      attackTimes d ++ [(d.attacks.next, Number.add (.fin now) a.travelTime)] :=
  List.map_append

/-- A call of a worker other than the first of a request keeps the times and the next id. -/
structure KeepsTimes (d d' : Db C) : Prop where
  times : attackTimes d' = attackTimes d
  next : d'.attacks.next = d.attacks.next

theorem keepsTimes_of_attacks (h : d'.attacks = d.attacks) : KeepsTimes d d' :=
  ⟨attackTimes_congr h, congrArg Table.next h⟩

theorem keepsTimes_execReportQuery {report : AttackReport}
    (h : execReportQuery d report = some d') : KeepsTimes d d' := by
  refine ⟨?_, next_execReportQuery h⟩
  obtain ⟨-, casualties, -, rfl⟩ := execReportQuery_eq_some h
  exact attackTimes_updateAttack fun _ => rfl

theorem keepsTimes_updateAttackerValues {units : Fields} {villageId attackId : ℕ}
    (h : updateAttackerValuesAfterReturnAsSql d units villageId attackId = some d') :
    KeepsTimes d d' := by
  refine ⟨?_, next_updateAttackerValues h⟩
  obtain ⟨values, -, h⟩ := Option.bind_eq_some_iff.1 h
  cases h
  exact attackTimes_updateAttack fun _ => rfl

theorem keepsTimes_takeLoot {villageId : ℕ} {stolen : List StolenResource}
    (h : takeLoot d villageId stolen = some d') : KeepsTimes d d' := by
  obtain ⟨values, -, rfl⟩ := Option.map_eq_some_iff.1 h
  exact keepsTimes_of_attacks rfl

theorem keepsTimes_giveResourcesToAttacker (d : Db C) (stolen : List StolenResource)
    (villageId : ℕ) : KeepsTimes d (giveResourcesToAttacker d stolen villageId) := by
  unfold giveResourcesToAttacker
  split <;> exact keepsTimes_of_attacks rfl

theorem keepsTimes_recordLoot (d : Db C) (attackId : ℕ) (stolen : List StolenResource) :
    KeepsTimes d (recordLoot d attackId stolen) :=
  ⟨attackTimes_updateAttack fun _ => rfl, rfl⟩

/-! ## The invariant -/

variable {s : Clocked C}

structure OnTime (s : Clocked C) : Prop where
  queues : QueuesSound s.state
  normal : Timely s.state.normal s.normalScore s.clock fun token =>
    There s.way s.state.db.attacks.next token.attackId token.travelTime
  returns : Timely s.state.returns s.returnScore s.clock fun token =>
    Back s.way s.state.db.attacks.next token.attackId
  workers : ∀ k (w : Worker C), s.state.workers[k]? = some w →
    w.OnTime s.way s.state.db.attacks.next s.clock (s.since k)
  log : ∀ p ∈ s.state.log, Reached s.way s.state.db.attacks.next s.clock p
  times : ∀ p ∈ attackTimes s.state.db, p.2 = .fin (s.way p.1).there

theorem OnTime.start (hd : d.attacks.rows = []) (t : ℤ) : OnTime (startAt d t) where
  queues := queuesSound_start d
  normal := Timely.empty
  returns := Timely.empty
  workers _ _ hw := by cases hw
  log _ hp := absurd hp List.not_mem_nil
  times p hp := by
    have hnone : attackTimes d = [] := List.map_eq_nil_iff.2 hd
    have hmem : p ∈ attackTimes d := hp
    rw [hnone] at hmem
    cases hmem

/-- What a call does with the tables and the log that keeps the times. -/
structure Writes (s : Clocked C) (s' : State C) : Prop where
  normal : s'.normal = s.state.normal
  returns : s'.returns = s.state.returns
  workers : s'.workers = s.state.workers
  log : ∀ p ∈ s'.log, p ∈ s.state.log ∨ Reached s.way s.state.db.attacks.next s.clock p
  times : KeepsTimes s.state.db s'.db

theorem Writes.refl : Writes s s.state := ⟨rfl, rfl, rfl, fun _ hp => .inl hp, rfl, rfl⟩

theorem writes_of_keepsTimes {events : List (Event × ℕ)} (h : KeepsTimes s.state.db d')
    (hevents : ∀ p ∈ events, Reached s.way s.state.db.attacks.next s.clock p) :
    Writes s (s.state.write d' events) where
  normal := rfl
  returns := rfl
  workers := rfl
  log p hp := (List.mem_append.1 hp).imp_right (hevents p)
  times := h

namespace OnTime

/-- Time goes by, and attacks are stored. -/
theorem grow (h : OnTime s) (d' : Db C)
    (hext : Extends s.way s.state.db.attacks.next way' d'.attacks.next)
    (hle : s.clock ≤ t) (htimes : ∀ p ∈ attackTimes d', p.2 = .fin (way' p.1).there) :
    OnTime { s with state := { s.state with db := d' }, clock := t, way := way' } where
  queues := h.queues
  normal := h.normal.wait h.queues.1 hle fun hx => hx.mono hext
  returns := h.returns.wait h.queues.2 hle fun hx => hx.mono hext
  workers k w hk := (h.workers k w hk).mono hext hle
  log p hp := (h.log p hp).mono hext hle
  times := htimes

theorem wait (h : OnTime s) (hle : s.clock ≤ t) : OnTime { s with clock := t } :=
  h.grow s.state.db Extends.refl hle h.times

theorem writes (h : OnTime s) {s' : State C} (hs' : Writes s s') : OnTime { s with state := s' } := by
  obtain ⟨hnormal, hreturns, hworkers, hlog, htimes, hnext⟩ := hs'
  constructor
  · exact ⟨hnormal ▸ h.queues.1, hreturns ▸ h.queues.2⟩
  · dsimp only
    rw [hnormal, hnext]
    exact h.normal
  · dsimp only
    rw [hreturns, hnext]
    exact h.returns
  · dsimp only
    rw [hworkers, hnext]
    exact h.workers
  · dsimp only
    rw [hnext]
    exact fun p hp => (hlog p hp).elim (h.log p) fun hreached => hreached
  · dsimp only
    rw [htimes]
    exact h.times

/-- A worker goes on. -/
theorem goto (h : OnTime s) (hw : ∀ w₀, s.state.workers[k]? = some w₀ →
      w.OnTime s.way s.state.db.attacks.next s.clock t) :
    OnTime { s with state := s.state.goto k w, since := Function.update s.since k t } where
  queues := h.queues
  normal := h.normal
  returns := h.returns
  workers j w' hj := by
    have hset : (s.state.workers.set k w)[j]? = some w' := hj
    by_cases hjk : j = k
    · subst hjk
      rw [List.getElem?_set_self'] at hset
      obtain ⟨w₀, hw₀, rfl⟩ := Option.map_eq_some_iff.1 hset
      show Worker.OnTime _ _ _ (Function.update s.since j t j) _
      rw [Function.update_self]
      exact hw w₀ hw₀
    · rw [List.getElem?_set_ne (Ne.symm hjk)] at hset
      show Worker.OnTime _ _ _ (Function.update s.since k t j) _
      rw [Function.update_of_ne hjk]
      exact h.workers j w' hset
  log := h.log
  times := h.times

/-- A worker ends. -/
theorem drop (h : OnTime s) (k : ℕ) : OnTime { s with state := s.state.goto k .ended } := by
  have hended := h.goto (k := k) (w := .ended) (t := s.since k) fun _ _ => trivial
  rw [Function.update_eq_self] at hended
  exact hended

/-- A call that keeps the times. -/
theorem execute (h : OnTime s) {effect : Option (State C)} {next failed : Worker C}
    (heffect : ∀ s' ∈ effect, Writes s s')
    (hnext : effect.isSome → next.OnTime s.way s.state.db.attacks.next s.clock s.clock)
    (hfailed : failed.OnTime s.way s.state.db.attacks.next s.clock s.clock) :
    OnTime { s with
      state := s.state.execute k reply effect next failed
      since := Function.update s.since k s.clock } := by
  unfold State.execute
  split
  next s' =>
    have hs' := heffect s' rfl
    exact (h.writes hs').goto fun _ _ => by simpa only [hs'.times.next] using hnext rfl
  next s' =>
    have hs' := heffect s' rfl
    exact (h.writes hs').goto fun _ _ => by simpa only [hs'.times.next] using hfailed
  · exact h.goto fun _ _ => hfailed

/-- A request saves its attack. -/
theorem call_inserting (h : OnTime s) {a : CheckedAttack C} {n : ℤ} (hn : a.travelTime = .fin n)
    (loaded : ℤ) {now : ℤ} (hnow : now ≤ s.clock) :
    OnTime { s with
      state := s.state.advance e k reply now (.inserting a loaded)
      since := Function.update s.since k s.clock
      way := Function.update s.way s.state.db.attacks.next ⟨now, milliseconds a.travelTime⟩ } := by
  have htime : milliseconds a.travelTime = n := by simp [milliseconds, hn]
  have hself : Function.update s.way s.state.db.attacks.next ⟨now, milliseconds a.travelTime⟩
      s.state.db.attacks.next = ⟨now, n⟩ := by rw [Function.update_self, htime]
  have hother : ∀ id < s.state.db.attacks.next, Function.update s.way s.state.db.attacks.next
      ⟨now, milliseconds a.travelTime⟩ id = s.way id :=
    fun id hid => Function.update_of_ne hid.ne _ _
  generalize Function.update s.way s.state.db.attacks.next ⟨now, milliseconds a.travelTime⟩ = way'
    at hself hother ⊢
  have hbefore : ∀ p ∈ attackTimes s.state.db, p.2 = .fin (way' p.1).there := by
    intro p hp
    obtain ⟨row, hrow, rfl⟩ := List.mem_map.1 hp
    have hrest : way' row.id = s.way row.id := hother _ (s.state.db.attacks.lt_next row hrow)
    rw [h.times _ hp, hrest]
  have hafter : ∀ p ∈ attackTimes (a.insert now s.state.db), p.2 = .fin (way' p.1).there := by
    intro p hp
    rw [attackTimes_insert] at hp
    rcases List.mem_append.1 hp with hp | hp
    · exact hbefore p hp
    · rw [List.mem_singleton.1 hp, hself, hn]
      simp [Number.add, Way.there]
  have hfailed := h.grow s.state.db ⟨le_rfl, hother⟩ le_rfl hbefore
  have hsaved := h.grow (a.insert now s.state.db) ⟨Nat.le_succ _, hother⟩ le_rfl hafter
  have hwrite : s.state.write (a.insert now s.state.db) [] =
      { s.state with db := a.insert now s.state.db } := by
    unfold State.write
    rw [List.append_nil]
  rw [← hwrite] at hsaved
  cases reply with
  | refused => exact hfailed.goto fun _ _ => trivial
  | lost => exact hsaved.goto fun _ _ => trivial
  | ok =>
    refine hsaved.goto fun _ _ => ⟨Nat.lt_succ_self _, ?_, ?_⟩
    · show a.travelTime = .fin (way' s.state.db.attacks.next).travelTime
      rw [hself, hn]
    · show (way' s.state.db.attacks.next).there ≤ s.clock + (way' s.state.db.attacks.next).travelTime
      rw [hself]
      exact Int.add_le_add_right hnow _

/-- An attack is queued, with the time at which it is there. -/
theorem call_queueing (h : OnTime s) {a : CheckedAttack C} {loaded now : ℤ} {attackId : ℕ}
    (hk : s.state.workers[k]? = some (.queueing a loaded attackId)) (hsince : s.since k ≤ now) :
    OnTime { s with
      state := s.state.advance e k reply now (.queueing a loaded attackId)
      normalScore := (Worker.queueing a loaded attackId : Worker C).scoredNormal reply now
        s.normalScore
      since := Function.update s.since k s.clock } := by
  have hontime : There s.way s.state.db.attacks.next attackId a.travelTime
      (s.since k + (s.way attackId).travelTime) := h.workers k _ hk
  have htime : milliseconds a.travelTime = (s.way attackId).travelTime := by
    rw [hontime.travelTime]
    simp [milliseconds]
  have hdue : There s.way s.state.db.attacks.next attackId a.travelTime
      (now + milliseconds a.travelTime) :=
    hontime.mono Extends.refl (htime ▸ Int.add_le_add_right hsince _)
  have hnormal := h.normal.zadd () (a.token attackId) hdue fun b hb heq => by
    have hid : b.2.attackId = attackId := (Prod.ext_iff.1 heq).2
    have hthere := h.normal.delayed b hb
    exact ⟨hthere.stored, hthere.travelTime, hid ▸ hdue.there⟩
  have hqueued : OnTime { s with
      state := { s.state with normal := s.state.normal.zadd () (a.token attackId) }
      normalScore :=
        Function.update s.normalScore ((), attackId) (now + milliseconds a.travelTime) } :=
    { h with queues := ⟨h.queues.1.zadd _ _, h.queues.2⟩, normal := hnormal }
  cases reply with
  | ok => exact hqueued.goto fun _ _ => trivial
  | lost => exact hqueued.goto fun _ _ => trivial
  | refused => exact h.goto fun _ _ => trivial

/-- The units are queued for their return, with the time at which they are back. -/
theorem call_sendingHome (h : OnTime s) {report : AttackReport} {stolen : List StolenResource}
    {now : ℤ} (hk : s.state.workers[k]? = some (.sendingHome report stolen))
    (hsince : s.since k ≤ now) :
    OnTime { s with
      state := s.state.advance e k reply now (.sendingHome report stolen)
      returnScore := (Worker.sendingHome report stolen : Worker C).scoredReturn reply now
        s.returnScore
      since := Function.update s.since k s.clock } := by
  have hontime : There s.way s.state.db.attacks.next report.attackId report.travelTime
      (s.since k) := h.workers k _ hk
  have htime : milliseconds report.travelTime = (s.way report.attackId).travelTime := by
    rw [hontime.travelTime]
    simp [milliseconds]
  have hdue : Back s.way s.state.db.attacks.next report.attackId
      (now + milliseconds report.travelTime) :=
    ⟨hontime.stored, htime ▸ Int.add_le_add_right (hontime.there.trans hsince) _⟩
  have hreturns := h.returns.zadd () (report.returnToken stolen) hdue
    fun b hb heq => by
      have hid : b.2.attackId = report.attackId := (Prod.ext_iff.1 heq).2
      show Back s.way s.state.db.attacks.next b.2.attackId _
      rw [hid]
      exact hdue
  have hqueued : OnTime { s with
      state := { s.state with returns := s.state.returns.zadd () (report.returnToken stolen) }
      returnScore := Function.update s.returnScore ((), report.attackId)
        (now + milliseconds report.travelTime) } :=
    { h with queues := ⟨h.queues.1, h.queues.2.zadd _ _⟩, returns := hreturns }
  cases reply with
  | ok => exact hqueued.goto fun _ _ => trivial
  | lost => exact hqueued.goto fun _ _ => trivial
  | refused => exact h.goto fun _ _ => trivial

/-- A battle of an attack that is there is resolved. -/
theorem writes_resolving {report : AttackReport}
    (hthere : There s.way s.state.db.attacks.next report.attackId report.travelTime s.clock)
    {s' : State C} (hs' : s' ∈ (execReportQuery s.state.db report).map fun d =>
      s.state.write d [(outcome report, report.attackId)]) : Writes s s' := by
  obtain ⟨d', hd', rfl⟩ := Option.map_eq_some_iff.1 hs'
  refine writes_of_keepsTimes (keepsTimes_execReportQuery hd') fun p hp => ?_
  rw [List.mem_singleton.1 hp]
  unfold outcome
  split <;> exact ⟨hthere.stored, hthere.there⟩

/-- A call of a worker that has read the time since its last one. -/
theorem call (h : OnTime s) (hk : s.state.workers[k]? = some w) {now : ℤ}
    (hsince : s.since k ≤ now) (hnow : now ≤ s.clock) :
    OnTime { s with
      state := s.state.advance e k reply now w
      normalScore := w.scoredNormal reply now s.normalScore
      returnScore := w.scoredReturn reply now s.returnScore
      since := Function.update s.since k s.clock
      way := w.stamped now s.state.db.attacks.next s.way } := by
  have hontime := h.workers k w hk
  have hclock : s.since k ≤ s.clock := hsince.trans hnow
  cases w with
  | inserting a loaded =>
    obtain ⟨n, hn⟩ := hontime
    exact h.call_inserting hn loaded hnow
  | queueing a loaded attackId => exact h.call_queueing hk hsince
  | sendingHome report stolen => exact h.call_sendingHome hk hsince
  | subtracting a loaded attackId =>
    refine h.execute (fun s' hs' => ?_) (fun _ => trivial) trivial
    obtain ⟨left, -, rfl⟩ := Option.map_eq_some_iff.1 hs'
    refine writes_of_keepsTimes (keepsTimes_of_attacks rfl) fun p hp => ?_
    rw [List.mem_singleton.1 hp]
    trivial
  | losingTruce a loaded =>
    refine h.execute ?_ (fun _ => trivial) trivial
    rintro s' ⟨⟩
    exact writes_of_keepsTimes (keepsTimes_of_attacks (attacks_loseTruce ..)) (by simp)
  | gainingTruce a =>
    refine h.execute ?_ (fun _ => trivial) trivial
    rintro s' ⟨⟩
    exact writes_of_keepsTimes (keepsTimes_of_attacks (attacks_gainTruce ..)) (by simp)
  | savingAgain => exact h.execute (by rintro s' ⟨⟩; exact Writes.refl) (fun _ => trivial) trivial
  | reading token =>
    refine h.execute (by rintro s' ⟨⟩; exact Writes.refl) (fun _ => ?_) trivial
    unfold reported
    split
    next report hreport =>
      obtain ⟨hid, htime, -⟩ := generateAttackReport_eq_some hreport
      show There _ _ report.attackId report.travelTime _
      rw [hid, htime]
      exact hontime
    · trivial
  | resolving report =>
    have hthere := There.mono hontime Extends.refl hclock
    refine h.execute (fun s' hs' => writes_resolving hthere hs') (fun _ => ?_) trivial
    unfold decided
    split
    · exact hthere
    · trivial
  | looting looter =>
    have hlooter := Looter.OnTime.mono hontime Extends.refl le_rfl hclock
    refine h.execute (by rintro s' ⟨⟩; exact Writes.refl) (fun _ => ?_) trivial
    unfold Looter.read
    split
    · exact hlooter
    · exact hlooter
    · trivial
  | takingLoot looter stolen =>
    have hlooter := Looter.OnTime.mono hontime Extends.refl le_rfl hclock
    refine h.execute (fun s' hs' => ?_) (fun _ => hlooter) trivial
    obtain ⟨d', hd', rfl⟩ := Option.map_eq_some_iff.1 hs'
    exact writes_of_keepsTimes (keepsTimes_takeLoot hd') (by simp)
  | recordingLoot looter stolen =>
    have hlooter := Looter.OnTime.mono hontime Extends.refl le_rfl hclock
    refine h.execute ?_ (fun _ => ?_) trivial
    · rintro s' ⟨⟩
      exact writes_of_keepsTimes (keepsTimes_recordLoot ..) (by simp)
    · cases looter <;> exact hlooter
  | givingLoot attackId attackerVillageId stolen =>
    refine h.execute ?_ (fun _ => trivial) trivial
    rintro s' ⟨⟩
    refine writes_of_keepsTimes (keepsTimes_giveResourcesToAttacker ..) fun p hp => ?_
    rw [List.mem_singleton.1 hp]
    exact hontime
  | addingUnits attackId attackerVillageId units =>
    refine h.execute (fun s' hs' => ?_) (fun _ => trivial) trivial
    obtain ⟨d', hd', rfl⟩ := Option.map_eq_some_iff.1 hs'
    refine writes_of_keepsTimes (keepsTimes_updateAttackerValues hd') fun p hp => ?_
    rw [List.mem_singleton.1 hp]
    exact hontime
  | ended =>
    have hsame : s.state.goto k .ended = s.state := by
      obtain ⟨hlt, heq⟩ := List.getElem?_eq_some_iff.1 hk
      unfold State.goto
      rw [← heq, List.set_getElem_self]
    have hended := h.goto (k := k) (w := .ended) (t := s.clock) fun _ _ => trivial
    rw [hsame] at hended
    exact hended

/-- New workers, with what the queues still hold. -/
theorem append (h : OnTime s) {ws : List (Worker C)}
    (hws : ∀ w ∈ ws, ∀ since, w.OnTime s.way s.state.db.attacks.next s.clock since) :
    OnTime { s with state := { s.state with workers := s.state.workers ++ ws } } where
  queues := h.queues
  normal := h.normal
  returns := h.returns
  workers k w hk := by
    have happend : (s.state.workers ++ ws)[k]? = some w := hk
    rw [List.getElem?_append] at happend
    split at happend
    · exact h.workers k w happend
    · exact hws w (List.mem_of_getElem? happend) _
  log := h.log
  times := h.times

theorem normal_change (h : OnTime s) {q : Queues Unit AttackToken} (hsound : q.Sound)
    (hnormal : Timely q s.normalScore s.clock fun token =>
      There s.way s.state.db.attacks.next token.attackId token.travelTime) :
    OnTime { s with state := { s.state with normal := q } } :=
  { h with queues := ⟨hsound, h.queues.2⟩, normal := hnormal }

theorem returns_change (h : OnTime s) {q : Queues Unit ReturnToken} (hsound : q.Sound)
    (hreturns : Timely q s.returnScore s.clock fun token =>
      Back s.way s.state.db.attacks.next token.attackId) :
    OnTime { s with state := { s.state with returns := q } } :=
  { h with queues := ⟨h.queues.1, hsound⟩, returns := hreturns }

/-- The calls of a return that can be back. -/
theorem onTime_comeBackCalls {token : ReturnToken} (h : Back way next token.attackId clock) :
    ∀ w ∈ (comeBackCalls token : List (Worker C)), w.OnTime way next clock since := by
  unfold comeBackCalls
  dsimp only
  split
  · simp
  · split <;> simp [Worker.OnTime, Looter.OnTime, parsedReturn, h]

theorem tick (hsqrt : FiniteRoots e.math) (h : OnTime s) {a : Tick Action} (hok : InOrder s a) :
    OnTime (tick e s a) := by
  have hwait := h.wait hok.clock
  obtain ⟨-, hnow, hsince⟩ := hok
  obtain ⟨time, now, action⟩ := a
  cases action with
  | create dto _ =>
    show OnTime { s with state := step e s.state (.create dto now), clock := time }
    simp only [step]
    split
    next a hcheck =>
      exact hwait.append (List.forall_mem_singleton.2 fun _ => travelTime_of_check hsqrt hcheck)
    · exact hwait
  | moveNormal c =>
    exact hwait.normal_change (h.queues.1.mover _ _)
      (hwait.normal.mover (fun hx => hx.mono Extends.refl) hnow c)
  | moveReturns c =>
    exact hwait.returns_change (h.queues.2.mover _ _)
      (hwait.returns.mover (fun hx => hx.mono Extends.refl) hnow c)
  | popNormal reply =>
    show OnTime { s with state := step e s.state (.popNormal reply), clock := time }
    simp only [step]
    split
    next hpop =>
      obtain ⟨hthere, hnormal⟩ := hwait.normal.lpop hpop
      exact (hwait.normal_change (h.queues.1.lpop hpop) hnormal).append
        (List.forall_mem_singleton.2 fun _ => hthere)
    next hpop => exact hwait.normal_change (h.queues.1.lpop hpop) (hwait.normal.lpop hpop).2
    · exact hwait
  | popReturn reply =>
    show OnTime { s with state := step e s.state (.popReturn reply), clock := time }
    simp only [step]
    split
    next hpop =>
      obtain ⟨hback, hreturns⟩ := hwait.returns.lpop hpop
      exact (hwait.returns_change (h.queues.2.lpop hpop) hreturns).append
        fun w hw since => onTime_comeBackCalls hback w hw
    next hpop => exact hwait.returns_change (h.queues.2.lpop hpop) (hwait.returns.lpop hpop).2
    · exact hwait
  | call k reply _ =>
    unfold Lifecycle.tick
    cases hk : s.state.workers[k]? with
    | some w =>
      simp only [Clocked.actionAt, step, hk]
      exact hwait.call hk hsince hnow
    | none =>
      simp only [Clocked.actionAt, step, hk]
      exact hwait
  | stop k => exact hwait.drop k

end OnTime

/-- The flags of the attacks do not go by the clock. -/
theorem recorded_tick {a : Tick Action} (h : Recorded s.state) : Recorded (tick e s a).state := by
  have hstep := h.step (e := e) (s.actionAt a.now a.action)
  unfold tick
  split
  · split <;> exact hstep
  · exact hstep

/-- **Travel takes its time.** In every run in which the clock does not go back, whatever fails and in
whatever order the steps come: an attack is resolved not before the time that it shows, and its units
are home not before they have travelled once more as long. -/
theorem travel_takes_time (hsqrt : FiniteRoots e.math) (hd : d.attacks.rows = []) (t : ℤ)
    {ticks : List (Tick Action)} (hrun : Meets (tick e) InOrder (startAt d t) ticks) :
    let s := ticks.foldl (tick e) (startAt d t)
    ∀ a ∈ s.state.db.attacks.rows,
      a.attackTime = .fin (s.way a.id).there ∧
        (a.isUnderAttack = false → (s.way a.id).there ≤ s.clock) ∧
        (a.attackerWon = true → (s.way a.id).back ≤ s.clock) := by
  intro s a ha
  obtain ⟨hontime, hrecorded⟩ : OnTime s ∧ Recorded s.state :=
    hrun.inv (I := fun s => OnTime s ∧ Recorded s.state) ⟨OnTime.start hd t, Recorded.start hd⟩
      fun s a h hok => ⟨h.1.tick hsqrt hok, recorded_tick h.2⟩
  have hflags : flags a = flagsOf s.state.log a.id := hrecorded.written _ (mem_flagged ha)
  refine ⟨hontime.times _ (List.mem_map_of_mem ha), fun hover => ?_, fun hwon => ?_⟩
  · have hunder : (flags a).isUnderAttack = false := hover
    rw [hflags] at hunder
    simp only [flagsOf, decide_eq_false_iff_not, not_and_or, not_not] at hunder
    rcases hunder with hvictory | hlost
    · exact (hontime.log _ hvictory).2
    · exact (hontime.log _ hlost).2
  · have hhome : (flags a).attackerWon = true := hwon
    rw [hflags] at hhome
    exact Back.back (hontime.log _ (of_decide_eq_true hhome))

/-! ## One attack -/

theorem finiteRoots_sampleMath : FiniteRoots sampleMath := by
  intro x hx
  show ∃ y, exactSqrt (.fin x) = .fin y
  simp [exactSqrt, not_lt.2 hx]

/-- 28 stone hunters leave, travel for 50 seconds, win, and are home after as long again. -/
def sampleTicks : List (Tick Action) :=
  [⟨1000, 1000, .create (sampleRequest sampleHunters) 0⟩, ⟨1010, 1010, .call 0 .ok 0⟩,
    ⟨1025, 1020, .call 0 .ok 0⟩, ⟨1030, 1030, .call 0 .ok 0⟩,
    ⟨51020, 51020, .moveNormal (.start [1])⟩, ⟨51030, 51030, .moveNormal (.move .ok)⟩,
    ⟨51040, 51040, .popNormal .ok⟩, ⟨51050, 51050, .call 1 .ok 0⟩, ⟨51060, 51060, .call 1 .ok 0⟩,
    ⟨51070, 51070, .call 1 .ok 0⟩, ⟨51080, 51080, .call 1 .ok 0⟩, ⟨51090, 51090, .call 1 .ok 0⟩,
    ⟨51110, 51100, .call 1 .ok 0⟩, ⟨101100, 101100, .moveReturns (.start [1])⟩,
    ⟨101110, 101110, .moveReturns (.move .ok)⟩, ⟨101120, 101120, .popReturn .ok⟩,
    ⟨101130, 101130, .call 3 .ok 0⟩]

/-- The state after a list of ticks. -/
def afterTicks (ticks : List (Tick Action)) : Clocked sampleCatalog :=
  ticks.foldl (tick sampleEnv) (startAt sampleDb 0)

theorem travel_takes_time_sample :
    (afterTicks sampleTicks).state.db.attacks.rows.map (fun a => (a.id, a.attackerWon)) =
        [(1, true)] ∧
      ∀ a ∈ (afterTicks sampleTicks).state.db.attacks.rows,
        a.attackTime = .fin ((afterTicks sampleTicks).way a.id).there ∧
          (a.isUnderAttack = false →
            ((afterTicks sampleTicks).way a.id).there ≤ (afterTicks sampleTicks).clock) ∧
          (a.attackerWon = true →
            ((afterTicks sampleTicks).way a.id).back ≤ (afterTicks sampleTicks).clock) :=
  ⟨by decide +kernel,
    travel_takes_time (e := sampleEnv) finiteRoots_sampleMath rfl 0 (by decide +kernel)⟩

end Cme.Attacks.Lifecycle
