import CmeBackend.Attacks.Simulation

/-!
# One token for every attack

* `effects_at_most_once`: in every run, whatever fails, an attack has at most one token, and each of
  its effects happens at most once.
* `not_stranded_iff`: in a run in which no failure leaves troops behind, all troops under way have a
  token, and what is queued is under way once its request has saved the rows.
-/

namespace Cme.Attacks.Lifecycle

open Battles Life Petri Redis Runs Weights

variable {C : Catalog} {e : Env} {d : Db C} {s : State C} {k : ℕ}

/-! ## The queues -/

def QueuesSound (s : State C) : Prop := s.normal.Sound ∧ s.returns.Sound

theorem QueuesSound.execute {effect : Option (State C)} {reply : Reply} {next failed : Worker C}
    (h : QueuesSound s) (heffect : ∀ s' ∈ effect, QueuesSound s') :
    QueuesSound (s.execute k reply effect next failed) := by
  unfold State.execute
  split
  next s' => exact heffect s' rfl
  next s' => exact heffect s' rfl
  · exact h

/-- A call that writes to the tables only. -/
theorem QueuesSound.execute_map {α : Type} {o : Option α} {f : α → Db C} {events : List (Event × ℕ)}
    {reply : Reply} {next failed : Worker C} (h : QueuesSound s) :
    QueuesSound (s.execute k reply (o.map fun a => s.write (f a) events) next failed) := by
  refine h.execute fun s' hs' => ?_
  obtain ⟨a, -, rfl⟩ := Option.map_eq_some_iff.1 hs'
  exact h

theorem QueuesSound.advance {reply : Reply} (h : QueuesSound s) (w : Worker C) (now : ℤ) :
    QueuesSound (s.advance e k reply now w) := by
  cases w with
  | queueing a loaded attackId =>
    exact h.execute (by rintro s' ⟨⟩; exact ⟨h.1.zadd _ _, h.2⟩)
  | sendingHome report stolen =>
    exact h.execute (by rintro s' ⟨⟩; exact ⟨h.1, h.2.zadd _ _⟩)
  | subtracting a loaded attackId => exact h.execute_map
  | resolving report => exact h.execute_map
  | takingLoot looter stolen => exact h.execute_map
  | addingUnits attackId attackerVillageId units => exact h.execute_map
  | ended => exact h
  | _ => exact h.execute (by rintro s' ⟨⟩; exact h)

theorem QueuesSound.step (h : QueuesSound s) (a : Action) : QueuesSound (step e s a) := by
  cases a with
  | create dto now =>
    simp only [Lifecycle.step]
    split <;> exact h
  | moveNormal c => exact ⟨h.1.mover _ _, h.2⟩
  | moveReturns c => exact ⟨h.1, h.2.mover _ _⟩
  | popNormal reply =>
    simp only [Lifecycle.step]
    split
    next hpop => exact ⟨h.1.lpop hpop, h.2⟩
    next hpop => exact ⟨h.1.lpop hpop, h.2⟩
    · exact h
  | popReturn reply =>
    simp only [Lifecycle.step]
    split
    next hpop => exact ⟨h.1, h.2.lpop hpop⟩
    next hpop => exact ⟨h.1, h.2.lpop hpop⟩
    · exact h
  | call k reply now =>
    simp only [Lifecycle.step]
    split
    · exact h.advance _ _
    · exact h
  | stop k => exact h

/-! ## The invariant -/

structure Inv (s : State C) : Prop where
  queues : QueuesSound s
  life : ∀ j, Life.Sound (s.marking j)
  /-- Nothing is known of an attack that is not stored yet. -/
  fresh : ∀ j, s.db.attacks.next ≤ j → ∀ x, s.marking j x = 0

theorem marking_start (d : Db C) (j : ℕ) (x : Place) : (start d).marking j x = 0 := by
  cases x <;> rfl

theorem Inv.start (d : Db C) : Inv (start d) where
  queues := ⟨Queues.sound_empty, Queues.sound_empty⟩
  life j := sound_of_zero (marking_start d j)
  fresh j _ := marking_start d j

theorem Inv.step (h : Inv s) (a : Action) : Inv (step e s a) := by
  have hplays := plays_step (e := e) h.life h.queues.1 h.queues.2 a
  refine ⟨h.queues.step a, fun j => ?_, fun j hj => ?_⟩
  · cases hplays with
    | rule r i hr hok hfires hnext =>
      by_cases hj : j = i
      · subst hj
        exact (h.life j).fires hr hfires.self
      · rw [hfires.of_ne hj]
        exact h.life j
    | birth hfires hnext =>
      by_cases hj : j = s.db.attacks.next
      · subst hj
        exact sound_birth (h.fresh _ le_rfl) hfires.self
      · rw [hfires.of_ne hj]
        exact h.life j
  · cases hplays with
    | rule r i hr hok hfires hnext =>
      have hzero := h.fresh j (hnext.trans hj)
      by_cases hji : j = i
      · subst hji
        exact zero_of_fires hzero hr hfires.self
      · rw [hfires.of_ne hji]
        exact hzero
    | birth hfires hnext =>
      rw [hfires.of_ne (by omega)]
      exact h.fresh j (by omega)

theorem inv_of_reach {ok : State C → Action → Prop}
    (h : Reach (graph (step e)) ok (start d) s) : Inv s := by
  refine h.inv (Inv.start d) ?_
  rintro s a s' hinv - rfl
  exact hinv.step a

/-! ## At most once -/

/-- The tokens of an attack whose units are on their way home. -/
def State.returnTokens (s : State C) (attackId : ℕ) : ℕ :=
  s.marking attackId .returning +
    max (s.marking attackId (.stage .units)) (s.marking attackId (.stage .loot))

structure AtMostOnce (s : State C) (attackId : ℕ) : Prop where
  token : s.tokens attackId ≤ 1
  resolved : s.log.count (.lost, attackId) + s.log.count (.victory, attackId) ≤ 1
  returning : 0 < s.returnTokens attackId → (.victory, attackId) ∈ s.log
  survivors : s.log.count (.home, attackId) ≤ 1
  loot : s.log.count (.lootHome, attackId) ≤ 1

/-- **At most once.** Whatever fails in a run, an attack has at most one token, its battle is
resolved at most once, a return is queued only after a victory, and the units and the loot come home
at most once. -/
theorem effects_at_most_once (h : Reach (graph (step e)) always (start d) s) (attackId : ℕ) :
    AtMostOnce s attackId := by
  have hlife := (inv_of_reach h).life attackId
  have hresolved : s.marking attackId (.stage .inserted) + s.marking attackId .waiting +
      s.marking attackId (.stage .fighting) + s.log.count (.lost, attackId) +
        s.log.count (.victory, attackId) ≤ 1 := hlife.resolved_le
  have hsurvivors : s.marking attackId (.stage .won) + s.marking attackId .returning +
      s.marking attackId (.stage .units) + s.log.count (.home, attackId) ≤
        s.log.count (.victory, attackId) := hlife.survivors_le
  have hplunder : s.marking attackId (.stage .won) + s.marking attackId .returning +
      s.marking attackId (.stage .loot) + s.log.count (.lootHome, attackId) ≤
        s.log.count (.victory, attackId) := hlife.plunder_le
  constructor
  · exact hlife.tokens_le
  · omega
  · intro hpos
    unfold State.returnTokens at hpos
    exact List.count_pos_iff.1 (by omega)
  · omega
  · omega

/-! ## No stranded attack -/

/-- The troops of an attack have left the village, and are neither dead nor home. -/
def Travelling (s : State C) (attackId : ℕ) : Prop :=
  (.departed, attackId) ∈ s.log ∧ (.lost, attackId) ∉ s.log ∧ (.home, attackId) ∉ s.log

structure NotStranded (s : State C) (attackId : ℕ) : Prop where
  token : Travelling s attackId → s.tokens attackId = 1
  departed : 0 < s.tokens attackId → (.departed, attackId) ∈ s.log

theorem kept_of_reach (h : Reach (graph (step e)) (Undisturbed e) (start d) s) (j : ℕ) :
    Kept (s.marking j) := by
  have hinv : Inv s ∧ ∀ j, Kept (s.marking j) := by
    refine h.inv (I := fun s => Inv s ∧ ∀ j, Kept (s.marking j))
      ⟨Inv.start d, fun j => kept_of_zero (marking_start d j)⟩ ?_
    rintro s a s' ⟨hinv, hkept⟩ hok rfl
    refine ⟨hinv.step a, fun j => ?_⟩
    cases plays_step (e := e) hinv.life hinv.queues.1 hinv.queues.2 a with
    | rule r i hr hhealthy hfires hnext =>
      by_cases hj : j = i
      · subst hj
        exact (hkept j).fires (hhealthy hok) hfires.self
      · rw [hfires.of_ne hj]
        exact hkept j
    | birth hfires hnext =>
      by_cases hj : j = s.db.attacks.next
      · subst hj
        exact kept_birth (hinv.fresh _ le_rfl) hfires.self
      · rw [hfires.of_ne hj]
        exact hkept j
  exact hinv.2 j

/-- In a run in which no failure leaves troops behind, all troops that have left, and are neither
dead nor home, have one token, and the troops of every attack with a token have left, but for those
whose request has yet to save the rows of the village. -/
theorem not_stranded_iff (h : Reach (graph (step e)) (Undisturbed e) (start d) s) (attackId : ℕ) :
    NotStranded s attackId ↔
      (0 < s.tokens attackId → ∀ w ∈ s.workers, w.stage ≠ some (.departing, attackId)) := by
  have hlife := (inv_of_reach h).life attackId
  have hkept := kept_of_reach h attackId
  constructor
  · intro hsafe htokens w hw hdeparting
    obtain ⟨k, hk⟩ := List.mem_iff_getElem?.1 hw
    have hpos := stage_pos hk hdeparting
    have hdeparted : 0 < s.marking attackId (.event .departed) :=
      List.count_pos_iff.2 (hsafe.departed htokens)
    have hcreated := hlife.created_le
    omega
  · intro hsaved
    constructor
    · rintro ⟨hdeparted, hlost, hhome⟩
      exact hkept.tokens_eq hlife (List.count_pos_iff.2 hdeparted) (List.count_eq_zero.2 hlost)
        (List.count_eq_zero.2 hhome)
    · intro htokens
      refine List.count_pos_iff.1 (hkept.departed hlife htokens ?_)
      exact weigh_eq_zero fun w hw => if_neg (hsaved htokens w hw)

/-! ## One attack -/

def sampleEnv : Env := ⟨sampleMath, false⟩

/-- 28 stone hunters leave, as far as the second save of the attack. -/
def sampleDeparture (queued : Reply) : List Action :=
  [.create (sampleRequest sampleHunters) 1000, .call 0 .ok 1001, .call 0 queued 1002,
    .call 0 .ok 1003, .call 0 .ok 1004, .call 0 .ok 1005, .call 0 .ok 1006]

/-- They win, and are on their way home. -/
def sampleBattle : List Action :=
  [.moveNormal (.start [1]), .moveNormal (.move .ok), .moveNormal .stop, .popNormal .ok,
    .call 1 .ok 2000, .call 1 .ok 2000, .call 1 .ok 2000, .call 1 .ok 2000, .call 1 .ok 2000,
    .call 1 .ok 2000]

/-- They come home. -/
def sampleReturn : List Action :=
  [.moveReturns (.start [1]), .moveReturns (.move .ok), .moveReturns .stop, .popReturn .ok,
    .call 2 .ok 3000, .call 3 .ok 3000]

instance (s : State C) (attackId : ℕ) : Decidable (Travelling s attackId) :=
  inferInstanceAs (Decidable (_ ∧ _ ∧ _))

/-- The state after a list of actions. -/
def after (as : List Action) : State sampleCatalog := as.foldl (step sampleEnv) (start sampleDb)

example : (after (sampleDeparture .ok ++ sampleBattle ++ sampleReturn)).log =
    [(.departed, 1), (.victory, 1), (.lootHome, 1), (.home, 1)] := by decide +kernel

theorem effects_at_most_once_sample :
    AtMostOnce (after (sampleDeparture .ok ++ sampleBattle ++ sampleReturn)) 1 :=
  effects_at_most_once (Reach.refl.foldl _) 1

theorem not_stranded_sample :
    Travelling (after (sampleDeparture .ok ++ sampleBattle)) 1 ∧
      NotStranded (after (sampleDeparture .ok ++ sampleBattle)) 1 := by
  have hrun : Travelling (after (sampleDeparture .ok ++ sampleBattle)) 1 ∧
      Meets (step sampleEnv) (Undisturbed sampleEnv) (start sampleDb)
        (sampleDeparture .ok ++ sampleBattle) ∧
      ∀ w ∈ (after (sampleDeparture .ok ++ sampleBattle)).workers,
        w.stage ≠ some (.departing, 1) := by decide +kernel
  obtain ⟨htravelling, hmeets, hsaved⟩ := hrun
  exact ⟨htravelling, (not_stranded_iff (Reach.refl.meets hmeets) 1).2 fun _ => hsaved⟩

/-- The command that queues the attack fails, and the error is caught: the units have left the
village, and there is no token. -/
theorem stranded :
    ∃ s, Reach (graph (step sampleEnv)) always (start sampleDb) s ∧ Travelling s 1 ∧
      s.tokens 1 = 0 ∧ ¬NotStranded s 1 := by
  refine ⟨after (sampleDeparture .refused), Reach.refl.foldl _, by decide +kernel,
    by decide +kernel, fun h => ?_⟩
  have htokens := h.token (by decide +kernel)
  revert htokens
  decide +kernel

end Cme.Attacks.Lifecycle
