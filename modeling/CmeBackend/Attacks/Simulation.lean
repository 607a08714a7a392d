import CmeBackend.Attacks.Lifecycle

/-!
# The steps of the workers as rules of the game

Every step of the workers is a rule in the life of one attack (`plays_step`), and a healthy one in
an undisturbed run. So the workers keep what the rules keep (`Inv.step`).
-/

namespace Cme.Attacks.Lifecycle

open Battles Life Petri Redis Runs Weights

variable {C : Catalog} {e : Env} {s s' : State C} {k i j : ℕ} {w w₀ : Worker C}
  {p p' : Option Stage} {more : List Place} {reply : Reply}

/-- A worker goes from one stage to another, and the places `more` get a token each. -/
def moved (p p' : Option Stage) (more : List Place) : Rule Place :=
  ⟨p.toList.map .stage, p'.toList.map .stage ++ more⟩

/-- The step from `s` to `s'` is a rule in the life of one attack, a healthy one if `ok`. -/
inductive Plays (ok : Prop) (s s' : State C) : Prop
  | rule (r : Rule Place) (j : ℕ) (hr : r ∈ net) (hok : ok → r ∈ healthy)
      (h : FiresAt r j s.marking s'.marking) (hnext : s.db.attacks.next ≤ s'.db.attacks.next)
  | birth (h : FiresAt birth s.db.attacks.next s.marking s'.marking)
      (hnext : s.db.attacks.next < s'.db.attacks.next)

theorem Plays.idle {ok : Prop} (h : s'.marking = s.marking)
    (hnext : s.db.attacks.next ≤ s'.db.attacks.next) : Plays ok s s' :=
  .rule Petri.idle 0 (by decide) (fun _ => by decide) (FiresAt.idle h 0) hnext

/-! ## Effects -/

/-- The effect of a call: its places have got a token of `j`. -/
structure Adds (s s' : State C) (j : ℕ) (more : List Place) : Prop where
  workers : s'.workers = s.workers
  next : s.db.attacks.next ≤ s'.db.attacks.next
  marking : ∀ i x, s'.marking i x = s.marking i x + if i = j then more.count x else 0

theorem adds_refl (s : State C) (j : ℕ) : Adds s s j [] :=
  ⟨rfl, le_rfl, fun i x => by simp⟩

theorem adds_write {d : Db C} (hnext : s.db.attacks.next ≤ d.attacks.next) (j : ℕ) :
    Adds s (s.write d []) j [] := by
  refine ⟨rfl, hnext, fun i x => ?_⟩
  cases x with
  | event x =>
    show (s.log ++ []).count (x, i) = _
    simp [State.marking]
  | _ => simp [State.marking, State.write]

theorem adds_event {d : Db C} (hnext : s.db.attacks.next ≤ d.attacks.next) (y : Event) (j : ℕ) :
    Adds s (s.write d [(y, j)]) j [.event y] := by
  refine ⟨rfl, hnext, fun i x => ?_⟩
  cases x with
  | event x =>
    show (s.log ++ [(y, j)]).count (x, i) = s.log.count (x, i) + _
    rw [List.count_append, List.count_singleton, List.count_singleton]
    by_cases hi : i = j
    · simp [hi]
    · simp [hi, Ne.symm hi]
  | _ => simp [State.marking, State.write]

theorem adds_normal (token : AttackToken) (h : s.marking token.attackId .waiting = 0) :
    Adds s { s with normal := s.normal.zadd () token } token.attackId [.waiting] := by
  refine ⟨rfl, le_rfl, fun i x => ?_⟩
  cases x with
  | waiting =>
    refine (Queues.tokensOf_zadd h ()).trans (congrArg _ ?_)
    rw [List.count_singleton_self]
    exact if_congr eq_comm rfl rfl
  | _ => simp [State.marking]

theorem adds_returns (token : ReturnToken) (h : s.marking token.attackId .returning = 0) :
    Adds s { s with returns := s.returns.zadd () token } token.attackId [.returning] := by
  refine ⟨rfl, le_rfl, fun i x => ?_⟩
  cases x with
  | returning =>
    refine (Queues.tokensOf_zadd h ()).trans (congrArg _ ?_)
    rw [List.count_singleton_self]
    exact if_congr eq_comm rfl rfl
  | _ => simp [State.marking]

/-! ## A worker goes on -/

theorem isAt_eq (h : w.stage = p.map fun x => (x, j)) (x : Stage) (i : ℕ) :
    w.isAt x i = if i = j then (p.toList.map Place.stage).count (.stage x) else 0 := by
  unfold Worker.isAt
  rw [h]
  cases p with
  | none => simp
  | some y =>
    by_cases hi : i = j
    · by_cases hx : y = x <;> simp [hi, hx]
    · simp [hi, Ne.symm hi]

theorem marking_goto {x : Place} (hx : ∀ y, x ≠ .stage y) :
    (s.goto k w).marking i x = s.marking i x := by
  cases x with
  | stage y => exact absurd rfl (hx y)
  | _ => rfl

theorem count_stages {x : Place} (hx : ∀ y, x ≠ .stage y) :
    (p.toList.map Place.stage).count x = 0 := by
  refine List.count_eq_zero.2 fun hmem => ?_
  obtain ⟨y, -, hy⟩ := List.mem_map.1 hmem
  exact hx y hy.symm

/-- A worker that goes on after an effect has fired a rule. -/
theorem fires_goto (p p' : Option Stage) (hk : s.workers[k]? = some w₀) (hadds : Adds s s' j more)
    (hmore : ∀ x, .stage x ∉ more) (h₀ : w₀.stage = p.map fun x => (x, j))
    (h : w.stage = p'.map fun x => (x, j)) :
    FiresAt (moved p p' more) j s.marking (s'.goto k w).marking := by
  intro i x
  have hmarking := hadds.marking i x
  unfold moved
  dsimp only
  rw [List.count_append]
  by_cases hx : ∃ y, x = .stage y
  · obtain ⟨y, rfl⟩ := hx
    have hset : (s'.goto k w).marking i (.stage y) + w₀.isAt y i =
        s'.marking i (.stage y) + w.isAt y i := weigh_set (hadds.workers ▸ hk)
    rw [isAt_eq h₀, isAt_eq h, hmarking, List.count_eq_zero.2 (hmore y), ite_self, add_zero] at hset
    rw [List.count_eq_zero.2 (hmore y), add_zero]
    exact hset
  · have hstage : ∀ y, x ≠ .stage y := fun y hy => hx ⟨y, hy⟩
    rw [marking_goto hstage, count_stages hstage, count_stages hstage, hmarking, zero_add, ite_self,
      add_zero]

/-- A rule of the game, and a healthy one if `ok`. -/
def Allowed (ok : Prop) (r : Rule Place) : Prop := r ∈ net ∧ (ok → r ∈ healthy)

theorem allowed_of_healthy {ok : Prop} {r : Rule Place} (h : r ∈ healthy) : Allowed ok r :=
  ⟨List.mem_append_left _ h, fun _ => h⟩

/-- A call is a rule if what becomes of it is one, whether it goes through or not. -/
theorem plays_execute {ok : Prop} {effect : Option (State C)} {next failed : Worker C} (j : ℕ)
    (p p₁ p₂ : Option Stage) (more : List Place) (hk : s.workers[k]? = some w₀)
    (h₀ : w₀.stage = p.map fun x => (x, j))
    (heffect : ∀ s' ∈ effect, Adds s s' j more) (hmore : ∀ x, .stage x ∉ more)
    (hnext : effect.isSome → next.stage = p₁.map fun x => (x, j))
    (hfailed : failed.stage = p₂.map fun x => (x, j))
    (hdone : reply = .ok → effect.isSome → Allowed ok (moved p p₁ more))
    (hlost : reply = .lost → effect.isSome → Allowed ok (moved p p₂ more))
    (hrefused : reply = .refused ∨ effect = none → Allowed ok (moved p p₂ [])) :
    Plays ok s (s.execute k reply effect next failed) := by
  have hnothing : reply = .refused ∨ effect = none → Plays ok s (s.goto k failed) := by
    intro h
    obtain ⟨hnet, hhealthy⟩ := hrefused h
    exact .rule _ j hnet hhealthy (fires_goto _ _ hk (adds_refl s j) (by simp) h₀ hfailed) le_rfl
  cases effect with
  | none => exact hnothing (.inr rfl)
  | some s' =>
    have hadds := heffect s' rfl
    cases reply with
    | ok =>
      obtain ⟨hnet, hhealthy⟩ := hdone rfl rfl
      exact .rule _ j hnet hhealthy (fires_goto _ _ hk hadds hmore h₀ (hnext rfl)) hadds.next
    | refused => exact hnothing (.inl rfl)
    | lost =>
      obtain ⟨hnet, hhealthy⟩ := hlost rfl rfl
      exact .rule _ j hnet hhealthy (fires_goto _ _ hk hadds hmore h₀ hfailed) hadds.next

/-- A call of a worker that has no attack in hand. -/
theorem plays_free {ok : Prop} {effect : Option (State C)} {next failed : Worker C}
    (hk : s.workers[k]? = some w₀) (h₀ : w₀.stage = none) (heffect : ∀ s' ∈ effect, Adds s s' 0 [])
    (hnext : next.stage = none) (hfailed : failed.stage = none) :
    Plays ok s (s.execute k reply effect next failed) := by
  have hidle : Allowed ok (moved none none []) := allowed_of_healthy (by decide)
  exact plays_execute 0 none none none [] hk h₀ heffect (by simp) (fun _ => hnext) hfailed
    (fun _ _ => hidle) (fun _ _ => hidle) fun _ => hidle

/-- A call of a worker that keeps its attack in hand if the call goes through. -/
theorem plays_held {ok : Prop} {effect : Option (State C)} {next failed : Worker C} (j : ℕ)
    (x : Stage) (hk : s.workers[k]? = some w₀) (h₀ : w₀.stage = some (x, j))
    (heffect : ∀ s' ∈ effect, Adds s s' j []) (hfailed : failed.stage = none)
    (hstay : ⟨[.stage x], [.stage x]⟩ ∈ healthy) (hdrop : drop (.stage x) ∈ net)
    (hnext : effect.isSome →
      next.stage = some (x, j) ∨ next.stage = none ∧ (ok → drop (.stage x) ∈ healthy))
    (hok : reply ≠ .ok ∨ effect = none → ok → drop (.stage x) ∈ healthy) :
    Plays ok s (s.execute k reply effect next failed) := by
  have hlost : reply = .lost → effect.isSome → Allowed ok (moved (some x) none []) :=
    fun hr _ => ⟨hdrop, hok (.inl (hr ▸ by decide))⟩
  have hrefused : reply = .refused ∨ effect = none → Allowed ok (moved (some x) none []) := by
    rintro (hr | hnone)
    · exact ⟨hdrop, hok (.inl (hr ▸ by decide))⟩
    · exact ⟨hdrop, hok (.inr hnone)⟩
  by_cases h : next.stage = some (x, j)
  · exact plays_execute j (some x) (some x) none [] hk h₀ heffect (by simp) (fun _ => h) hfailed
      (fun _ _ => allowed_of_healthy hstay) hlost hrefused
  · have hnone : effect.isSome → next.stage = none ∧ (ok → drop (.stage x) ∈ healthy) :=
      fun hsome => (hnext hsome).resolve_left h
    exact plays_execute j (some x) none none [] hk h₀ heffect (by simp)
      (fun hsome => (hnone hsome).1) hfailed (fun _ hsome => ⟨hdrop, (hnone hsome).2⟩) hlost
      hrefused

/-- A call of `updateDefenderStolenResources`. -/
theorem plays_looter {ok : Prop} {effect : Option (State C)} {next failed : Worker C}
    (looter : Looter) (hk : s.workers[k]? = some w₀)
    (h₀ : w₀.stage = some (looter.stage, looter.attackId))
    (heffect : ∀ s' ∈ effect, Adds s s' looter.attackId []) (hfailed : failed.stage = none)
    (hnext : effect.isSome → next.stage = some (looter.stage, looter.attackId) ∨
      next.stage = none ∧ (looter.stage = .won → ¬ok))
    (hok : looter.stage = .won → ok → reply = .ok ∧ effect.isSome) :
    Plays ok s (s.execute k reply effect next failed) := by
  have hstay : ⟨[.stage looter.stage], [.stage looter.stage]⟩ ∈ healthy := by
    cases looter <;> simp [healthy, Looter.stage]
  have hdrop : drop (.stage looter.stage) ∈ net := by
    cases looter <;> simp [net, healthy, faulty, Looter.stage]
  have hloot : looter.stage ≠ .won → drop (.stage looter.stage) ∈ healthy := by
    cases looter <;> simp [healthy, Looter.stage]
  refine plays_held looter.attackId looter.stage hk h₀ heffect hfailed hstay hdrop ?_ ?_
  · intro hsome
    refine (hnext hsome).imp_right fun h => ⟨h.1, fun hholds => hloot fun hwon => ?_⟩
    exact h.2 hwon hholds
  · intro hnot hholds
    refine hloot fun hwon => ?_
    obtain ⟨hreply, hsome⟩ := hok hwon hholds
    rcases hnot with hne | hnone
    · exact hne hreply
    · exact Option.isSome_iff_ne_none.1 hsome hnone

/-! ## The calls -/

/-- The attack of a worker is at its stage. -/
theorem stage_pos (hk : s.workers[k]? = some w) {x : Stage} (h : w.stage = some (x, j)) :
    0 < s.marking j (.stage x) := by
  have hle := le_weigh_get (w := Worker.isAt x j) hk
  rw [Worker.isAt, if_pos h] at hle
  exact hle

/-- An attack that is not queued yet is not in a queue. -/
theorem waiting_eq_zero (hs : Life.Sound (s.marking j)) (h : 0 < s.marking j (.stage .inserted)) :
    s.marking j .waiting = 0 := by
  have hresolved := hs.resolved_le
  omega

/-- A return that is not queued yet is not in a queue. -/
theorem returning_eq_zero (hs : Life.Sound (s.marking j)) (h : 0 < s.marking j (.stage .won)) :
    s.marking j .returning = 0 := by
  have hresolved := hs.resolved_le
  have hsurvivors := hs.survivors_le
  omega

theorem next_execReportQuery {d d' : Db C} {report : AttackReport}
    (h : execReportQuery d report = some d') : d'.attacks.next = d.attacks.next := by
  obtain ⟨-, casualties, -, rfl⟩ := execReportQuery_eq_some h
  rfl

theorem next_giveResourcesToAttacker (d : Db C) (stolen : List StolenResource) (v : ℕ) :
    (giveResourcesToAttacker d stolen v).attacks.next = d.attacks.next := by
  unfold giveResourcesToAttacker
  split <;> rfl

theorem next_updateAttackerValues {d d' : Db C} {units : Js.Fields} {v attackId : ℕ}
    (h : updateAttackerValuesAfterReturnAsSql d units v attackId = some d') :
    d'.attacks.next = d.attacks.next := by
  obtain ⟨values, -, h⟩ := Option.bind_eq_some_iff.1 h
  cases h
  rfl

theorem next_takeLoot {d d' : Db C} {v : ℕ} {stolen : List StolenResource}
    (h : takeLoot d v stolen = some d') : d'.attacks.next = d.attacks.next := by
  obtain ⟨values, -, rfl⟩ := Option.map_eq_some_iff.1 h
  rfl

/-- A statement that the database takes goes through. -/
theorem false_of_map {α β : Type} {o : Option α} {f : α → β} (h : o.map f = none)
    (hsome : o.isSome) : False := by
  rw [Option.map_eq_none_iff.1 h] at hsome
  cases hsome

theorem plays_inserting {a : CheckedAttack C} {loaded : ℤ}
    (hk : s.workers[k]? = some (.inserting a loaded)) (reply : Reply) (now : ℤ) {ok : Prop} :
    Plays ok s (s.advance e k reply now (.inserting a loaded)) := by
  have hadds : Adds s (s.write (a.insert now s.db) []) s.db.attacks.next [] :=
    adds_write (Nat.le_succ _) _
  have hended : ∀ s', Adds s s' s.db.attacks.next [] → Plays ok s (s'.goto k .ended) :=
    fun s' hadds => .rule (moved none none []) _ (by decide) (fun _ => by decide)
      (fires_goto none none hk hadds (by simp) rfl rfl) hadds.next
  cases reply with
  | ok =>
    have hfires := fires_goto none (some .inserted)
      (w := .queueing a loaded s.db.attacks.next) hk hadds (by simp) rfl rfl
    exact .birth hfires (Nat.lt_succ_self _)
  | refused => exact hended s (adds_refl s _)
  | lost => exact hended _ hadds

theorem plays_queueing {a : CheckedAttack C} {loaded : ℤ} {attackId : ℕ}
    (hs : Life.Sound (s.marking attackId))
    (hk : s.workers[k]? = some (.queueing a loaded attackId)) (reply : Reply) (now : ℤ) :
    Plays (reply ≠ .refused) s (s.advance e k reply now (.queueing a loaded attackId)) := by
  have hzero := waiting_eq_zero hs (stage_pos hk rfl)
  refine plays_execute attackId (some .inserted) (some .departing) (some .departing) [.waiting] hk
    rfl ?_ (by simp) (fun _ => rfl) rfl ?_ ?_ ?_
  · rintro s' ⟨⟩
    exact adds_normal (a.token attackId) hzero
  · exact fun _ _ => allowed_of_healthy (by decide)
  · exact fun _ _ => allowed_of_healthy (by decide)
  · rintro (hr | hnone)
    · exact ⟨by decide, fun hok => absurd hr hok⟩
    · cases hnone

/-- A statement with which one event of an attack happens, and which ends its stage. -/
theorem plays_statement {α : Type} {o : Option α} {f : α → Db C} {next failed : Worker C} {j : ℕ}
    {x : Stage} {y : Event} (hk : s.workers[k]? = some w₀) (h₀ : w₀.stage = some (x, j))
    (hdb : ∀ a, o = some a → s.db.attacks.next ≤ (f a).attacks.next)
    (hnext : next.stage = none) (hfailed : failed.stage = none)
    (hdone : ⟨[.stage x], [.event y]⟩ ∈ healthy) (hdrop : drop (.stage x) ∈ net) (reply : Reply) :
    Plays (reply ≠ .refused ∧ o.isSome) s
      (s.execute k reply (o.map fun a => s.write (f a) [(y, j)]) next failed) := by
  refine plays_execute j (some x) none none [.event y] hk h₀ ?_ (by simp) (fun _ => hnext) hfailed
    ?_ ?_ ?_
  · intro s' hs'
    obtain ⟨a, ha, rfl⟩ := Option.map_eq_some_iff.1 hs'
    exact adds_event (hdb a ha) _ _
  · exact fun _ _ => allowed_of_healthy hdone
  · exact fun _ _ => allowed_of_healthy hdone
  · rintro (hr | hnone)
    · exact ⟨hdrop, fun hok => absurd hr hok.1⟩
    · exact ⟨hdrop, fun hok => (false_of_map hnone hok.2).elim⟩

theorem plays_reading {token : AttackToken} (hk : s.workers[k]? = some (.reading token))
    (reply : Reply) (now : ℤ) :
    Plays (Worker.Spared e s reply (.reading token)) s
      (s.advance e k reply now (.reading token)) := by
  refine plays_held token.attackId .fighting hk rfl ?_ rfl (by decide) (by decide) ?_ ?_
  · rintro s' ⟨⟩
    exact adds_refl s _
  · intro _
    cases hreport : battleReport e.math s.db (parsedAttack token) with
    | some report =>
      obtain ⟨hid, -⟩ := generateAttackReport_eq_some hreport
      exact .inl (congrArg (fun id => some (Stage.fighting, id)) hid)
    | none =>
      refine .inr ⟨rfl, fun hok => ?_⟩
      have hsome : (battleReport e.math s.db (parsedAttack token)).isSome := hok.2
      rw [hreport] at hsome
      cases hsome
  · rintro (hr | hnone) hok
    · exact absurd hok.1 hr
    · cases hnone

theorem plays_resolving {report : AttackReport} (hk : s.workers[k]? = some (.resolving report))
    (reply : Reply) (now : ℤ) :
    Plays (Worker.Spared e s reply (.resolving report)) s
      (s.advance e k reply now (.resolving report)) := by
  have heffect : ∀ s' ∈ (execReportQuery s.db report).map fun d =>
      s.write d [(outcome report, report.attackId)],
      Adds s s' report.attackId [.event (outcome report)] := by
    intro s' hs'
    obtain ⟨d, hd, rfl⟩ := Option.map_eq_some_iff.1 hs'
    exact adds_event (next_execReportQuery hd).ge _ _
  have hfailed : reply = .refused ∨ (execReportQuery s.db report).map (fun d =>
      s.write d [(outcome report, report.attackId)]) = none →
        Allowed (Worker.Spared e s reply (.resolving report)) (moved (some .fighting) none []) := by
    rintro (hr | hnone)
    · refine ⟨by decide, fun hok => ?_⟩
      rcases hok.2 with h | ⟨h, -⟩ <;> exact absurd (hr.symm.trans h) (by decide)
    · exact ⟨by decide, fun hok => (false_of_map hnone hok.1).elim⟩
  by_cases hwon : report.WonByAttacker
  · have hevent : outcome report = .victory := if_pos hwon
    refine plays_execute report.attackId (some .fighting) (some .won) none
      [.event (outcome report)] hk rfl heffect (by simp) (fun _ => ?_) rfl ?_ ?_ hfailed
    · show (decided report : Worker C).stage = _
      rw [decided, if_pos hwon]
      rfl
    · exact fun _ _ => hevent ▸ allowed_of_healthy (by decide)
    · -- The battle is won, and its worker is gone.
      refine fun hr _ => hevent ▸ ⟨by decide, fun hok => ?_⟩
      rcases hok.2 with h | ⟨-, h⟩
      · exact absurd (hr.symm.trans h) (by decide)
      · exact absurd hwon h
  · have hevent : outcome report = .lost := if_neg hwon
    refine plays_execute report.attackId (some .fighting) none none [.event (outcome report)]
      hk rfl heffect (by simp) (fun _ => ?_) rfl ?_ ?_ hfailed
    · show (decided report : Worker C).stage = _
      rw [decided, if_neg hwon]
      rfl
    · exact fun _ _ => hevent ▸ allowed_of_healthy (by decide)
    · exact fun _ _ => hevent ▸ allowed_of_healthy (by decide)

theorem plays_sendingHome {report : AttackReport} {stolen : List StolenResource}
    (hs : Life.Sound (s.marking report.attackId))
    (hk : s.workers[k]? = some (.sendingHome report stolen)) (reply : Reply) (now : ℤ) :
    Plays (reply ≠ .refused) s (s.advance e k reply now (.sendingHome report stolen)) := by
  have hzero := returning_eq_zero hs (stage_pos hk rfl)
  refine plays_execute report.attackId (some .won) none none [.returning] hk rfl
    ?_ (by simp) (fun _ => rfl) rfl ?_ ?_ ?_
  · rintro s' ⟨⟩
    exact adds_returns (report.returnToken stolen) hzero
  · exact fun _ _ => allowed_of_healthy (by decide)
  · exact fun _ _ => allowed_of_healthy (by decide)
  · rintro (hr | hnone)
    · exact ⟨by decide, fun hok => absurd hr hok⟩
    · cases hnone

theorem plays_givingLoot {attackId attackerVillageId : ℕ} {stolen : List StolenResource}
    (hk : s.workers[k]? = some (.givingLoot attackId attackerVillageId stolen)) (reply : Reply)
    (now : ℤ) {ok : Prop} :
    Plays ok s (s.advance e k reply now (.givingLoot attackId attackerVillageId stolen)) := by
  refine plays_execute attackId (some .loot) none none [.event .lootHome] hk rfl
    ?_ (by simp) (fun _ => rfl) rfl ?_ ?_ ?_
  · rintro s' ⟨⟩
    exact adds_event (next_giveResourcesToAttacker s.db stolen attackerVillageId).ge _ _
  · exact fun _ _ => allowed_of_healthy (by decide)
  · exact fun _ _ => allowed_of_healthy (by decide)
  · exact fun _ => allowed_of_healthy (by decide)

theorem plays_looting {looter : Looter} (hk : s.workers[k]? = some (.looting looter))
    (reply : Reply) (now : ℤ) :
    Plays (Worker.Spared e s reply (.looting looter)) s
      (s.advance e k reply now (.looting looter)) := by
  refine plays_looter looter hk rfl ?_ rfl ?_ ?_
  · rintro s' ⟨⟩
    exact adds_refl s _
  · intro _
    show (looter.read (stolenResources s.db looter.defenderVillageId
      looter.unitsInfoLeftByType) : Worker C).stage = _ ∨ _
    cases hstolen : stolenResources s.db looter.defenderVillageId looter.unitsInfoLeftByType with
    | some stolen => exact .inl (by cases stolen <;> rfl)
    | none =>
      refine .inr ⟨rfl, fun hwon hok => ?_⟩
      cases looter with
      | battle report =>
        have hsome : (stolenResources s.db report.defenderVillageId
          report.attackerUnits).isSome := hok.2
        exact Option.isSome_iff_ne_none.1 hsome hstolen
      | comeBack token units => cases hwon
  · intro hwon hok
    cases looter with
    | battle report => exact ⟨hok.1, rfl⟩
    | comeBack token units => cases hwon

/-- Every call of a worker is a rule. -/
theorem plays_advance (hs : ∀ j, Life.Sound (s.marking j)) (hk : s.workers[k]? = some w)
    (reply : Reply) (now : ℤ) :
    Plays (w.Spared e s reply) s (s.advance e k reply now w) := by
  cases w with
  | inserting a loaded => exact plays_inserting hk reply now
  | queueing a loaded attackId => exact plays_queueing (hs attackId) hk reply now
  | subtracting a loaded attackId =>
    exact plays_statement (f := s.db.saveEntities) hk rfl (fun _ _ => le_rfl) rfl rfl
      (by decide) (by decide) reply
  | losingTruce a loaded =>
    refine plays_free hk rfl ?_ rfl rfl
    rintro s' ⟨⟩
    exact adds_write (congrArg Table.next (attacks_loseTruce a loaded now s.db)).ge _
  | gainingTruce a =>
    refine plays_free hk rfl ?_ rfl rfl
    rintro s' ⟨⟩
    exact adds_write (congrArg Table.next (attacks_gainTruce a now s.db)).ge _
  | savingAgain =>
    refine plays_free hk rfl ?_ rfl rfl
    rintro s' ⟨⟩
    exact adds_refl s 0
  | ended => exact .idle rfl le_rfl
  | reading token => exact plays_reading hk reply now
  | resolving report => exact plays_resolving hk reply now
  | sendingHome report stolen => exact plays_sendingHome (hs report.attackId) hk reply now
  | givingLoot attackId attackerVillageId stolen => exact plays_givingLoot hk reply now
  | addingUnits attackId attackerVillageId units =>
    exact plays_statement hk rfl (fun d hd => (next_updateAttackerValues hd).ge) rfl rfl
      (by decide) (by decide) reply
  | looting looter => exact plays_looting hk reply now
  | takingLoot looter stolen =>
    refine plays_looter looter hk rfl ?_ rfl (fun _ => .inl rfl) ?_
    · intro s' hs'
      obtain ⟨d, hd, rfl⟩ := Option.map_eq_some_iff.1 hs'
      exact adds_write (next_takeLoot hd).ge _
    · intro hwon hok
      cases looter with
      | battle report => exact ⟨hok.1, Option.isSome_map.trans hok.2⟩
      | comeBack token units => cases hwon
  | recordingLoot looter stolen =>
    refine plays_looter looter hk rfl ?_ rfl (fun _ => .inl (by cases looter <;> rfl)) ?_
    · rintro s' ⟨⟩
      exact adds_write (d := recordLoot s.db looter.attackId stolen) le_rfl _
    · intro hwon hok
      cases looter with
      | battle report => exact ⟨hok, rfl⟩
      | comeBack token units => cases hwon

/-! ## The steps -/

/-- A worker that stops. -/
theorem plays_stop (k : ℕ) : Plays (∀ w ∈ s.workers[k]?, w.dispensable) s (s.goto k .ended) := by
  cases hk : s.workers[k]? with
  | none =>
    refine .idle ?_ le_rfl
    have hset : s.goto k .ended = s := by
      unfold State.goto
      rw [List.set_eq_of_length_le (List.getElem?_eq_none_iff.1 hk)]
    rw [hset]
  | some w =>
    cases hstage : w.stage with
    | none =>
      exact .rule _ 0 (by decide) (fun _ => by decide)
        (fires_goto none none hk (adds_refl s 0) (by simp) hstage rfl) le_rfl
    | some a =>
      obtain ⟨x, j⟩ := a
      refine .rule _ j ?_ (fun hok => ?_)
        (fires_goto (some x) none hk (adds_refl s j) (by simp) hstage rfl) le_rfl
      · cases x <;> decide
      · have hdispensable := hok w rfl
        unfold Worker.dispensable at hdispensable
        rw [hstage] at hdispensable
        cases x with
        | inserted => decide
        | loot => decide
        | _ => cases hdispensable

/-- A battle starts. -/
theorem fires_popNormal {token : AttackToken} {q : Queues Unit AttackToken}
    (h : s.normal.lpop () = some (token, q)) :
    FiresAt ⟨[.waiting], [.stage .fighting]⟩ token.attackId s.marking
      ({ s with normal := q, workers := s.workers ++ [.reading token] } : State C).marking := by
  intro i x
  cases x with
  | stage x =>
    show weigh _ (s.workers ++ _) + _ = weigh _ s.workers + _
    rw [weigh_append, weigh_cons, weigh_nil, isAt_eq (p := some .fighting) rfl]
    simp
  | waiting =>
    have htaken : s.normal.tokensOf i = q.tokensOf i + if token.attackId = i then 1 else 0 :=
      Queues.tokensOf_lpop h
    simp [State.marking, htaken, eq_comm]
  | returning => simp [State.marking]
  | event x => simp [State.marking]

/-- The calls of a return, unless the subtraction of the casualties throws. -/
theorem comeBackCalls_cases (token : ReturnToken) :
    (comeBackCalls token : List (Worker C)) = [] ∧ ¬Returnable token ∨
      ∃ w w' : Worker C, comeBackCalls token = [w, w'] ∧
        w.stage = some (.loot, token.attackId) ∧ w'.stage = some (.units, token.attackId) := by
  unfold comeBackCalls Returnable
  dsimp only
  split
  next hnone => exact .inl ⟨rfl, by simp [hnone]⟩
  · refine .inr ⟨_, _, rfl, ?_, rfl⟩
    split <;> rfl

/-- A return starts. -/
theorem fires_popReturn {token : ReturnToken} {q : Queues Unit ReturnToken}
    (h : s.returns.lpop () = some (token, q)) {w' : Worker C}
    (hw : w.stage = some (.loot, token.attackId)) (hw' : w'.stage = some (.units, token.attackId)) :
    FiresAt ⟨[.returning], [.stage .loot, .stage .units]⟩ token.attackId s.marking
      ({ s with returns := q, workers := s.workers ++ [w, w'] } : State C).marking := by
  intro i x
  cases x with
  | stage x =>
    show weigh _ (s.workers ++ _) + _ = weigh _ s.workers + _
    rw [weigh_append, weigh_cons, weigh_cons, weigh_nil, isAt_eq (p := some .loot) hw,
      isAt_eq (p := some .units) hw']
    by_cases hi : i = token.attackId
    · simp only [hi, if_true, Option.toList_some, List.map_singleton, add_zero]
      cases x <;> rfl
    · simp [hi]
  | returning =>
    have htaken : s.returns.tokensOf i = q.tokensOf i + if token.attackId = i then 1 else 0 :=
      Queues.tokensOf_lpop h
    simp [State.marking, htaken, eq_comm]
  | waiting => simp [State.marking]
  | event x => simp [State.marking]

/-- A token that is popped, and of which nobody hears. -/
theorem fires_lostNormal {token : AttackToken} {q : Queues Unit AttackToken}
    (h : s.normal.lpop () = some (token, q)) :
    FiresAt (drop .waiting) token.attackId s.marking
      ({ s with normal := q } : State C).marking := by
  intro i x
  cases x with
  | waiting =>
    have htaken : s.normal.tokensOf i = q.tokensOf i + if token.attackId = i then 1 else 0 :=
      Queues.tokensOf_lpop h
    simp [State.marking, drop, htaken, eq_comm]
  | _ => simp [State.marking, drop]

theorem fires_lostReturn {token : ReturnToken} {q : Queues Unit ReturnToken}
    (h : s.returns.lpop () = some (token, q)) :
    FiresAt (drop .returning) token.attackId s.marking
      ({ s with returns := q } : State C).marking := by
  intro i x
  cases x with
  | returning =>
    have htaken : s.returns.tokensOf i = q.tokensOf i + if token.attackId = i then 1 else 0 :=
      Queues.tokensOf_lpop h
    simp [State.marking, drop, htaken, eq_comm]
  | _ => simp [State.marking, drop]

/-- Every step is a rule. -/
theorem plays_step (hs : ∀ j, Life.Sound (s.marking j)) (hnormal : s.normal.Sound)
    (hreturns : s.returns.Sound) (a : Action) : Plays (Undisturbed e s a) s (step e s a) := by
  cases a with
  | create dto now =>
    simp only [step]
    split
    next c hc =>
      refine .idle (funext fun i => funext fun x => ?_) le_rfl
      cases x with
      | stage x =>
        show weigh _ (s.workers ++ _) = weigh _ s.workers
        rw [weigh_append_singleton]
        exact add_zero _
      | _ => rfl
    · exact .idle rfl le_rfl
  | moveNormal c =>
    refine .idle (funext fun i => funext fun x => ?_) le_rfl
    cases x with
    | waiting => exact Queues.census_mover hnormal c
    | _ => rfl
  | moveReturns c =>
    refine .idle (funext fun i => funext fun x => ?_) le_rfl
    cases x with
    | returning => exact Queues.census_mover hreturns c
    | _ => rfl
  | popNormal reply =>
    simp only [step]
    split
    next token q hpop =>
      exact .rule _ _ (by decide) (fun _ => by decide) (fires_popNormal hpop) le_rfl
    next token q hpop =>
      exact .rule _ _ (by decide) (fun hok => absurd rfl hok) (fires_lostNormal hpop) le_rfl
    · exact .idle rfl le_rfl
  | popReturn reply =>
    simp only [step]
    split
    next token q hpop =>
      rcases comeBackCalls_cases (C := C) token with ⟨hnone, hnot⟩ | ⟨w, w', hcalls, hw, hw'⟩
      · rw [hnone, List.append_nil]
        exact .rule _ _ (by decide) (fun hok => absurd (hok.2 rfl (token, q) hpop) hnot)
          (fires_lostReturn hpop) le_rfl
      · rw [hcalls]
        exact .rule _ _ (by decide) (fun _ => by decide) (fires_popReturn hpop hw hw') le_rfl
    next token q hpop =>
      exact .rule _ _ (by decide) (fun hok => absurd rfl hok.1) (fires_lostReturn hpop) le_rfl
    · exact .idle rfl le_rfl
  | call k reply now =>
    simp only [step]
    split
    next w hk =>
      have hplays := plays_advance (e := e) hs hk reply now
      cases hplays with
      | rule r j hr hok h hnext => exact .rule r j hr (fun hok' => hok (hok' w hk)) h hnext
      | birth h hnext => exact .birth h hnext
    · exact .idle rfl le_rfl
  | stop k => exact plays_stop k

end Cme.Attacks.Lifecycle
