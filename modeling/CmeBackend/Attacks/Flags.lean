import CmeBackend.Attacks.Tokens

/-!
# The flags of an attack

`is_under_attack`, `is_troop_home` and `attacker_won`, between the battle and the return. The
statement that stores the report writes the first two, and the statement of the return the last two.

* `flags_eq`: in every run, the flags of an attack are what has happened to it. `attacker_won` is
  that the units are home.
* `agree_iff`: so the flags agree with the battles when all that have won are home.
* `flags_agree_iff`: the flags agree at every point of exactly the runs in which no report of a
  victory is stored.
-/

namespace Cme.Attacks.Lifecycle

open Battles Life Redis Runs

variable {C : Catalog} {e : Env} {d : Db C} {s s' : State C} {k j : ℕ} {v : Option ℕ}

/-- The columns that say where an attack is. -/
@[ext] structure Flags where
  isUnderAttack : Bool
  isTroopHome : Bool
  attackerWon : Bool
  deriving DecidableEq

def flags (a : Attack) : Flags := ⟨a.isUnderAttack, a.isTroopHome, a.attackerWon⟩

/-- The flags of an attack that is stored: the defaults of the columns. -/
def Flags.default : Flags := ⟨true, false, false⟩

/-- The flags after the statement with which something happens to the attack. -/
def Flags.after (f : Flags) : Event → Flags
  | .lost => { f with isUnderAttack := false, isTroopHome := true }
  | .victory => { f with isUnderAttack := false, isTroopHome := false }
  | .home => { f with isTroopHome := true, attackerWon := true }
  | .departed | .lootHome => f

/-- The flags of all attacks. -/
def flagged (d : Db C) : List (ℕ × Flags) := d.attacks.rows.map fun a => (a.id, flags a)

/-- Something happens to the attack `j`. -/
def happens (x : Event) (j : ℕ) (p : ℕ × Flags) : ℕ × Flags :=
  (p.1, if p.1 = j then p.2.after x else p.2)

/-- The tokens of the units that are still to be added to their village. -/
def State.pendingReturns (s : State C) (attackId : ℕ) : ℕ :=
  s.marking attackId .returning + s.marking attackId (.stage .units)

/-- The flags of the attacks whose battle is resolved. A report is stored together with who has won
in the log. -/
def FlagsAgree (s : State C) : Prop :=
  ∀ a ∈ s.db.attacks.rows, a.isUnderAttack = false →
    (a.attackerWon = true ↔ (.victory, a.id) ∈ s.log) ∧
      (a.isTroopHome = true ↔ s.pendingReturns a.id = 0)

/-- The attack whose victory the next call of a worker stores. -/
def Worker.victory (d : Db C) (reply : Reply) : Worker C → Option ℕ
  | .resolving report =>
    if reply ≠ .refused ∧ (execReportQuery d report).isSome ∧ report.WonByAttacker then
      some report.attackId
    else none
  | _ => none

/-- The attack whose victory a step stores. -/
def victory (s : State C) : Action → Option ℕ
  | .call k reply _ => s.workers[k]?.bind (·.victory s.db reply)
  | _ => none

/-- The step stores no report of a battle that the attacker has won. -/
def NoVictory (s : State C) (a : Action) : Prop := victory s a = none

instance (s : State C) (a : Action) : Decidable (NoVictory s a) :=
  inferInstanceAs (Decidable (_ = _))

/-! ## What a step writes -/

theorem flagged_congr {d' : Db C} (h : d'.attacks = d.attacks) : flagged d' = flagged d := by
  unfold flagged
  rw [h]

theorem flagged_updateAttack {x : Event} {f : Attack → Attack} {hk : ∀ a, key (f a) = key a}
    (h : ∀ a, flags (f a) = (flags a).after x) :
    flagged (d.updateAttack j f hk) = (flagged d).map (happens x j) := by
  unfold flagged
  show ((d.attacks.rows.map (Table.patch j f)).map _) = _
  rw [List.map_map, List.map_map]
  refine List.map_congr_left fun a _ => ?_
  show (key (Table.patch j f a), flags (Table.patch j f a)) = happens x j (key a, flags a)
  rw [Table.key_patch hk]
  unfold Table.patch happens
  refine Prod.ext rfl ?_
  dsimp only
  split
  · exact h a
  · rfl

theorem happens_of_after {x : Event} (h : ∀ f : Flags, f.after x = f) (l : List (ℕ × Flags)) :
    l.map (happens x j) = l := by
  refine (List.map_congr_left fun p _ => ?_).trans (List.map_id l)
  unfold happens
  rw [h, ite_self]
  rfl

/-- What a step does to the flags, to the log, and to the next id, if `v` is the attack whose
victory it stores. -/
inductive Records (v : Option ℕ) (s s' : State C) : Prop
  | quiet (hv : v = none) (hflags : flagged s'.db = flagged s.db) (hlog : s'.log = s.log)
      (hnext : s'.db.attacks.next = s.db.attacks.next)
  | born (hv : v = none)
      (hflags : flagged s'.db = flagged s.db ++ [(s.db.attacks.next, Flags.default)])
      (hlog : s'.log = s.log)
  | event (x : Event) (j : ℕ) (hv : v = if x = .victory then some j else none)
      (hflags : flagged s'.db = (flagged s.db).map (happens x j))
      (hlog : s'.log = s.log ++ [(x, j)]) (hnext : s'.db.attacks.next = s.db.attacks.next)

theorem Records.goto {w : Worker C} (h : Records v s s') : Records v s (s'.goto k w) := by
  cases h with
  | quiet hv hflags hlog hnext => exact .quiet hv hflags hlog hnext
  | born hv hflags hlog => exact .born hv hflags hlog
  | event x j hv hflags hlog hnext => exact .event x j hv hflags hlog hnext

theorem records_execute {effect : Option (State C)} {reply : Reply} {next failed : Worker C}
    (h : ∀ s' ∈ effect, reply ≠ .refused → Records v s s')
    (hnone : reply = .refused ∨ effect = none → v = none) :
    Records v s (s.execute k reply effect next failed) := by
  have hfailed : reply = .refused ∨ effect = none → Records v s (s.goto k failed) := fun hr =>
    .quiet (hnone hr) rfl rfl rfl
  cases effect with
  | none => exact hfailed (.inr rfl)
  | some s' =>
    cases reply with
    | ok => exact (h s' rfl (by decide)).goto
    | lost => exact (h s' rfl (by decide)).goto
    | refused => exact hfailed (.inl rfl)

/-- A call that writes neither to the attacks nor to the log. -/
theorem records_quiet {effect : Option (State C)} {reply : Reply} {next failed : Worker C}
    (h : ∀ s' ∈ effect, flagged s'.db = flagged s.db ∧ s'.log = s.log ∧
      s'.db.attacks.next = s.db.attacks.next) :
    Records none s (s.execute k reply effect next failed) :=
  records_execute (fun s' hs' _ => .quiet rfl (h s' hs').1 (h s' hs').2.1 (h s' hs').2.2)
    fun _ => rfl

/-- A call with which something other than a victory happens to an attack. -/
theorem records_event {α : Type} {o : Option α} {f : α → Db C} {x : Event} {reply : Reply}
    {next failed : Worker C} (hx : x ≠ .victory)
    (h : ∀ a, o = some a → flagged (f a) = (flagged s.db).map (happens x j) ∧
      (f a).attacks.next = s.db.attacks.next) :
    Records none s
      (s.execute k reply (o.map fun a => s.write (f a) [(x, j)]) next failed) := by
  refine records_execute (fun s' hs' _ => ?_) fun _ => rfl
  obtain ⟨a, ha, rfl⟩ := Option.map_eq_some_iff.1 hs'
  exact .event x j (if_neg hx).symm (h a ha).1 rfl (h a ha).2

theorem flagged_execReportQuery {d' : Db C} {report : AttackReport}
    (h : execReportQuery d report = some d') :
    flagged d' = (flagged d).map (happens (outcome report) report.attackId) := by
  obtain ⟨-, casualties, -, rfl⟩ := execReportQuery_eq_some h
  refine flagged_updateAttack fun a => ?_
  unfold outcome AttackReport.store
  by_cases hwon : report.WonByAttacker <;> simp [flags, Flags.after, hwon]

theorem flagged_updateAttackerValues {d' : Db C} {units : Js.Fields} {villageId attackId : ℕ}
    (h : updateAttackerValuesAfterReturnAsSql d units villageId attackId = some d') :
    flagged d' = (flagged d).map (happens .home attackId) := by
  obtain ⟨values, -, h⟩ := Option.bind_eq_some_iff.1 h
  cases h
  exact flagged_updateAttack fun a => rfl

theorem flagged_recordLoot {attackId : ℕ} {stolen : List StolenResource} :
    flagged (recordLoot d attackId stolen) = flagged d := by
  refine Eq.trans (flagged_updateAttack (x := .lootHome) fun a => ?_)
    (happens_of_after (fun f => rfl) _)
  rfl

theorem records_resolving {report : AttackReport} (reply : Reply) (now : ℤ) :
    Records ((Worker.resolving report : Worker C).victory s.db reply) s
      (s.advance e k reply now (.resolving report)) := by
  refine records_execute (fun s' hs' hreply => ?_) fun hnot => ?_
  · obtain ⟨d', hd', rfl⟩ := Option.map_eq_some_iff.1 hs'
    refine .event (outcome report) report.attackId ?_ (flagged_execReportQuery hd') rfl
      (next_execReportQuery hd')
    unfold Worker.victory outcome
    by_cases hwon : report.WonByAttacker <;> simp [hwon, hreply, hd']
  · refine if_neg fun h => ?_
    rcases hnot with hrefused | hnone
    · exact h.1 hrefused
    · exact false_of_map hnone h.2.1

/-- What a call of a worker writes. -/
theorem records_advance (w : Worker C) (reply : Reply) (now : ℤ) :
    Records (w.victory s.db reply) s (s.advance e k reply now w) := by
  cases w with
  | inserting a loaded =>
    refine records_execute (fun s' hs' _ => ?_) fun _ => rfl
    cases hs'
    exact .born rfl List.map_append (List.append_nil _)
  | resolving report => exact records_resolving reply now
  | subtracting a loaded attackId =>
    exact records_event (f := s.db.saveEntities) (by decide) fun left _ =>
      ⟨(happens_of_after (fun f => rfl) _).symm, rfl⟩
  | givingLoot attackId attackerVillageId stolen =>
    refine records_execute (fun s' hs' _ => ?_) fun _ => rfl
    cases hs'
    refine .event .lootHome attackId rfl ?_ rfl (next_giveResourcesToAttacker ..)
    rw [happens_of_after fun f => rfl]
    show flagged (giveResourcesToAttacker s.db stolen attackerVillageId) = _
    unfold giveResourcesToAttacker
    split <;> rfl
  | addingUnits attackId attackerVillageId units =>
    exact records_event (by decide) fun d' hd' =>
      ⟨flagged_updateAttackerValues hd', next_updateAttackerValues hd'⟩
  | takingLoot looter stolen =>
    refine records_quiet fun s' hs' => ?_
    obtain ⟨d', hd', rfl⟩ := Option.map_eq_some_iff.1 hs'
    obtain ⟨values, -, rfl⟩ := Option.map_eq_some_iff.1 hd'
    exact ⟨rfl, List.append_nil _, rfl⟩
  | recordingLoot looter stolen =>
    refine records_quiet fun s' hs' => ?_
    cases hs'
    exact ⟨flagged_recordLoot, List.append_nil _, rfl⟩
  | losingTruce a loaded =>
    refine records_quiet fun s' hs' => ?_
    cases hs'
    have hattacks := attacks_loseTruce a loaded now s.db
    exact ⟨flagged_congr hattacks, List.append_nil _, congrArg Table.next hattacks⟩
  | gainingTruce a =>
    refine records_quiet fun s' hs' => ?_
    cases hs'
    have hattacks := attacks_gainTruce a now s.db
    exact ⟨flagged_congr hattacks, List.append_nil _, congrArg Table.next hattacks⟩
  | ended => exact .quiet rfl rfl rfl rfl
  | queueing | savingAgain | reading | looting | sendingHome =>
    refine records_quiet fun s' hs' => ?_
    cases hs'
    exact ⟨rfl, rfl, rfl⟩

/-- What a step writes. -/
theorem records_step (a : Action) : Records (victory s a) s (step e s a) := by
  cases a with
  | call k reply now =>
    unfold victory
    simp only [step]
    split
    next w hk => exact hk ▸ records_advance w reply now
    next hk => exact .quiet (by rw [hk]; rfl) rfl rfl rfl
  | stop k => exact .quiet rfl rfl rfl rfl
  | moveNormal c => exact .quiet rfl rfl rfl rfl
  | moveReturns c => exact .quiet rfl rfl rfl rfl
  | _ =>
    simp only [step]
    split <;> exact .quiet rfl rfl rfl rfl

/-! ## The flags are what has happened -/

/-- The flags of an attack, from the log. -/
def flagsOf (log : List (Event × ℕ)) (j : ℕ) : Flags where
  isUnderAttack := (.victory, j) ∉ log ∧ (.lost, j) ∉ log
  isTroopHome := (.lost, j) ∈ log ∨ (.home, j) ∈ log
  attackerWon := (.home, j) ∈ log

/-- An event of one attack leaves the others as they are. -/
theorem flagsOf_concat_of_ne {log : List (Event × ℕ)} {x : Event} {i : ℕ} (h : i ≠ j) :
    flagsOf (log ++ [(x, j)]) i = flagsOf log i := by
  simp [flagsOf, h]

/-- What happens to an attack is what is written to its flags, since no attack that is resolved is
resolved again. -/
theorem flagsOf_concat {log : List (Event × ℕ)} {x : Event}
    (h : x = .victory → (.lost, j) ∉ log ∧ (.home, j) ∉ log) :
    flagsOf (log ++ [(x, j)]) j = (flagsOf log j).after x := by
  cases x with
  | victory => simp [flagsOf, Flags.after, h rfl]
  | _ => simp [flagsOf, Flags.after]

/-- An attack that is won now has been resolved by nothing before. -/
theorem unresolved_of_victory (h : Inv s) (h' : Inv s')
    (hlog : s'.log = s.log ++ [(.victory, j)]) : (.lost, j) ∉ s.log ∧ (.home, j) ∉ s.log := by
  have hresolved := (h'.life j).resolved_le
  have hsurvivors := (h.life j).survivors_le
  have hvictory : s'.marking j (.event .victory) = s.marking j (.event .victory) + 1 := by
    show s'.log.count _ = s.log.count _ + 1
    rw [hlog, List.count_append, List.count_singleton_self]
  have hlost : s'.marking j (.event .lost) = s.marking j (.event .lost) := by
    show s'.log.count _ = s.log.count _
    rw [hlog, List.count_append]
    simp
  exact ⟨List.count_eq_zero.1 (show s.marking j (.event .lost) = 0 by omega),
    List.count_eq_zero.1 (show s.marking j (.event .home) = 0 by omega)⟩

/-- The invariant: the columns are what the log says. -/
structure Recorded (s : State C) : Prop where
  inv : Inv s
  written : ∀ p ∈ flagged s.db, p.2 = flagsOf s.log p.1
  /-- An attack that is under way, or to which something has happened, has a row. -/
  stored : ∀ j x, 0 < s.marking j x → ∃ f, (j, f) ∈ flagged s.db

theorem Recorded.start (hd : d.attacks.rows = []) : Recorded (start d) where
  inv := Inv.start d
  written p hp := by
    unfold flagged at hp
    rw [show (Lifecycle.start d).db.attacks.rows = [] from hd] at hp
    cases hp
  stored j x hpos := absurd (marking_start d j x) hpos.ne'

/-- No event is known of an attack that is not stored yet. -/
theorem flagsOf_next (h : Inv s) : flagsOf s.log s.db.attacks.next = Flags.default := by
  have hnot : ∀ x, (x, s.db.attacks.next) ∉ s.log := fun x =>
    List.count_eq_zero.1 (h.fresh _ le_rfl (.event x))
  simp [flagsOf, Flags.default, hnot]

theorem Records.flags_eq (h : Records v s s') (hs : Recorded s) (hinv : Inv s') :
    ∀ p ∈ flagged s'.db, p.2 = flagsOf s'.log p.1 := by
  intro p hp
  cases h with
  | quiet hv hflags hlog hnext =>
    rw [hlog]
    exact hs.written p (hflags ▸ hp)
  | born hv hflags hlog =>
    rw [hlog]
    rcases List.mem_append.1 (hflags ▸ hp) with hp | hp
    · exact hs.written p hp
    · rw [List.mem_singleton.1 hp]
      exact (flagsOf_next hs.inv).symm
  | event x j hv hflags hlog hnext =>
    obtain ⟨q, hq, rfl⟩ := List.mem_map.1 (hflags ▸ hp)
    have hflag := hs.written q hq
    rw [hlog]
    unfold happens
    dsimp only
    by_cases hj : q.1 = j
    · subst hj
      rw [if_pos rfl, hflag, flagsOf_concat]
      rintro rfl
      exact unresolved_of_victory hs.inv hinv hlog
    · rw [if_neg hj, flagsOf_concat_of_ne hj, hflag]

theorem Records.stored (h : Records v s s') (hs : ∃ f, (j, f) ∈ flagged s.db) :
    ∃ f, (j, f) ∈ flagged s'.db := by
  obtain ⟨f, hf⟩ := hs
  cases h with
  | quiet hv hflags hlog hnext => exact ⟨f, hflags ▸ hf⟩
  | born hv hflags hlog => exact ⟨f, hflags ▸ List.mem_append_left _ hf⟩
  | event x i hv hflags hlog hnext => exact ⟨_, hflags ▸ List.mem_map_of_mem hf⟩

/-- A new id is the id of a new row. -/
theorem Records.stored_next (h : Records v s s')
    (hnext : s.db.attacks.next < s'.db.attacks.next) :
    ∃ f, (s.db.attacks.next, f) ∈ flagged s'.db := by
  cases h with
  | quiet hv hflags hlog heq => omega
  | born hv hflags hlog => exact ⟨Flags.default, hflags ▸ List.mem_append_right _ List.mem_cons_self⟩
  | event x i hv hflags hlog heq => omega

/-- An attack that is there after a rule was there before. -/
theorem pos_of_fires {r : Petri.Rule Place} {i : ℕ} {x : Place} (hr : r ∈ net)
    (h : Petri.FiresAt r i s.marking s'.marking) (hpos : 0 < s'.marking j x) :
    ∃ y, 0 < s.marking j y := by
  by_contra hnone
  have hzero : ∀ y, s.marking j y = 0 := by
    intro y
    by_contra hy
    exact hnone ⟨y, Nat.pos_of_ne_zero hy⟩
  have hstill : s'.marking j x = 0 := by
    by_cases hj : j = i
    · subst hj
      exact zero_of_fires hzero hr h.self x
    · rw [h.of_ne hj]
      exact hzero x
  omega

theorem Recorded.step (h : Recorded s) (a : Action) : Recorded (step e s a) := by
  have hinv := h.inv.step (e := e) a
  have hrecords := records_step (e := e) (s := s) a
  refine ⟨hinv, hrecords.flags_eq h hinv, fun j x hpos => ?_⟩
  cases plays_step (e := e) h.inv.life h.inv.queues.1 h.inv.queues.2 a with
  | rule r i hr hok hfires hnext =>
    obtain ⟨y, hy⟩ := pos_of_fires hr hfires hpos
    exact hrecords.stored (h.stored j y hy)
  | birth hfires hnext =>
    by_cases hj : j = s.db.attacks.next
    · subst hj
      exact hrecords.stored_next hnext
    · rw [hfires.of_ne hj] at hpos
      exact hrecords.stored (h.stored j x hpos)

theorem mem_flagged {a : Attack} (ha : a ∈ s.db.attacks.rows) : (a.id, flags a) ∈ flagged s.db :=
  List.mem_map_of_mem ha

/-- In every run, the flags of an attack are what has happened to it. -/
theorem flags_eq {as : List Action} (hd : d.attacks.rows = []) {a : Attack}
    (ha : a ∈ (as.foldl (step e) (start d)).db.attacks.rows) :
    flags a = flagsOf (as.foldl (step e) (start d)).log a.id :=
  (foldl_inv (Recorded.start hd) (fun _ a h => h.step a) as).written _ (mem_flagged ha)

/-! ## When the flags agree -/

/-- Units that are home have no token, and were sent home by a victory. -/
theorem Recorded.home (h : Recorded s) (hhome : (.home, j) ∈ s.log) :
    (.victory, j) ∈ s.log ∧ s.pendingReturns j = 0 := by
  have hresolved := (h.inv.life j).resolved_le
  have hsurvivors := (h.inv.life j).survivors_le
  have hpos : 0 < s.marking j (.event .home) := List.count_pos_iff.2 hhome
  unfold State.pendingReturns
  exact ⟨List.count_pos_iff.1 (show 0 < s.marking j (.event .victory) by omega), by omega⟩

/-- Troops that have lost have no token of a return. -/
theorem Recorded.lost (h : Recorded s) (hlost : (.lost, j) ∈ s.log) :
    (.victory, j) ∉ s.log ∧ s.pendingReturns j = 0 := by
  have hresolved := (h.inv.life j).resolved_le
  have hsurvivors := (h.inv.life j).survivors_le
  have hpos : 0 < s.marking j (.event .lost) := List.count_pos_iff.2 hlost
  unfold State.pendingReturns
  exact ⟨List.count_eq_zero.1 (show s.marking j (.event .victory) = 0 by omega), by omega⟩

/-- The flags agree with the battles when all units that have won are home. -/
theorem Recorded.agree_iff (h : Recorded s) :
    FlagsAgree s ↔ ∀ j, (.victory, j) ∈ s.log → (.home, j) ∈ s.log := by
  constructor
  · intro hagree j hvictory
    obtain ⟨f, hf⟩ := h.stored j (.event .victory) (List.count_pos_iff.2 hvictory)
    obtain ⟨a, ha, heq⟩ := List.mem_map.1 hf
    cases heq
    have hflags : flags a = flagsOf s.log a.id := h.written _ (mem_flagged ha)
    have hresolved : a.isUnderAttack = false := by
      have hcolumn := congrArg Flags.isUnderAttack hflags
      simpa [flags, flagsOf, hvictory] using hcolumn
    have hwon := (hagree a ha hresolved).1.2 hvictory
    have hcolumn : a.attackerWon = _ := congrArg Flags.attackerWon hflags
    exact of_decide_eq_true (hcolumn.symm.trans hwon)
  · intro hhome a ha hresolved
    have hflags : flags a = flagsOf s.log a.id := h.written _ (mem_flagged ha)
    have hunder : a.isUnderAttack = _ := congrArg Flags.isUnderAttack hflags
    have htroop : a.isTroopHome = _ := congrArg Flags.isTroopHome hflags
    have hwon : a.attackerWon = _ := congrArg Flags.attackerWon hflags
    have hresolution : (.victory, a.id) ∈ s.log ∨ (.lost, a.id) ∈ s.log := by
      have hnot := of_decide_eq_false (hunder.symm.trans hresolved)
      tauto
    rw [htroop, hwon]
    rcases hresolution with hvictory | hlost
    · have hreturned := hhome _ hvictory
      simp [flagsOf, hvictory, hreturned, (h.home hreturned).2]
    · have hnot : (.home, a.id) ∉ s.log := fun hreturned => (h.lost hlost).1 (h.home hreturned).1
      simp [flagsOf, hlost, hnot, h.lost hlost]

/-- The victories that are known after a step. -/
theorem Records.victory_iff (h : Records v s s') :
    (.victory, j) ∈ s'.log ↔ (.victory, j) ∈ s.log ∨ v = some j := by
  cases h with
  | quiet hv hflags hlog hnext => simp [hlog, hv]
  | born hv hflags hlog => simp [hlog, hv]
  | event x i hv hflags hlog hnext =>
    rw [hlog, hv]
    by_cases hx : x = .victory
    · simp [hx, eq_comm]
    · simp [hx, Ne.symm hx]

theorem Records.home_mono (h : Records v s s') (hhome : (.home, j) ∈ s.log) :
    (.home, j) ∈ s'.log := by
  cases h with
  | quiet hv hflags hlog hnext => rwa [hlog]
  | born hv hflags hlog => rwa [hlog]
  | event x i hv hflags hlog hnext => exact hlog ▸ List.mem_append_left _ hhome

/-- Units that have won now are not home. -/
theorem Records.home_not_mem (h : Records (some j) s s') (hs : Inv s) (hs' : Inv s') :
    (.home, j) ∉ s'.log := by
  cases h with
  | quiet hv hflags hlog hnext => cases hv
  | born hv hflags hlog => cases hv
  | event x i hv hflags hlog hnext =>
    split at hv
    next hx =>
      cases hv
      subst hx
      simp [hlog, (unresolved_of_victory hs hs' hlog).2]
    · cases hv

/-- A step keeps the agreement exactly if it stores no victory. -/
theorem FlagsAgree.step_iff (hs : Recorded s) (h : FlagsAgree s) (a : Action) :
    FlagsAgree (step e s a) ↔ NoVictory s a := by
  have hrecords := records_step (e := e) (s := s) a
  rw [(hs.step a).agree_iff]
  rw [hs.agree_iff] at h
  unfold NoVictory
  constructor
  · intro h'
    cases hv : victory s a with
    | none => rfl
    | some j =>
      rw [hv] at hrecords
      exact absurd (h' j (hrecords.victory_iff.2 (.inr rfl)))
        (hrecords.home_not_mem hs.inv (hs.step a).inv)
  · intro hnone j hvictory
    rw [hnone] at hrecords
    rcases hrecords.victory_iff.1 hvictory with hbefore | hnow
    · exact hrecords.home_mono (h j hbefore)
    · cases hnow

theorem flagsAgree_start (hd : d.attacks.rows = []) : FlagsAgree (start d) := by
  intro a ha
  rw [show (start d).db.attacks.rows = [] from hd] at ha
  cases ha

/-- **The flags of the attacks.** At every point of a run, the flags of the attacks that are
resolved agree with their battles and with the tokens that are pending, exactly if no step of the
run stores the report of a battle that the attacker has won: `attacker_won` is written when the
units come home. -/
theorem flags_agree_iff (hd : d.attacks.rows = []) (as : List Action) :
    (∀ bs, bs <+: as → FlagsAgree (bs.foldl (step e) (start d))) ↔
      Meets (step e) NoVictory (start d) as :=
  holds_iff_meets (I := Recorded) (Recorded.start hd) (fun _ a h => h.step a)
    (flagsAgree_start hd) (fun _ a hs h => h.step_iff hs a) as

/-! ## A battle that is lost, and one that is won -/

instance (s : State C) : Decidable (FlagsAgree s) :=
  inferInstanceAs (Decidable (∀ a ∈ _, _ → _ ∧ _))

/-- One stone hunter. -/
def sampleHunter : Js.Fields :=
  [("unitTypeId", .num (.fin 5)), ("unitTypeName", .str "stone_hunter"), ("count", .num (.fin 1))]

/-- It leaves, and loses. -/
def sampleDefeat : List Action :=
  [.create (sampleRequest sampleHunter) 1000, .call 0 .ok 1001, .call 0 .ok 1002, .call 0 .ok 1003,
    .call 0 .ok 1004, .call 0 .ok 1005, .call 0 .ok 1006, .moveNormal (.start [1]),
    .moveNormal (.move .ok), .moveNormal .stop, .popNormal .ok, .call 1 .ok 2000, .call 1 .ok 2000]

theorem flags_agree_sample :
    (after sampleDefeat).log = [(.departed, 1), (.lost, 1)] ∧
      ∀ bs, bs <+: sampleDefeat → FlagsAgree (after bs) := by
  have hrun : (after sampleDefeat).log = [(.departed, 1), (.lost, 1)] ∧
      Meets (step sampleEnv) NoVictory (start sampleDb) sampleDefeat := by decide +kernel
  exact ⟨hrun.1, (flags_agree_iff rfl sampleDefeat).2 hrun.2⟩

/-- The units have won and are on their way home, and `attacker_won` is false. -/
theorem victory_not_flagged :
    ∃ s, Reach (graph (step sampleEnv)) always (start sampleDb) s ∧
      (.victory, 1) ∈ s.log ∧ 0 < s.pendingReturns 1 ∧
      (flagged s.db).lookup 1 = some ⟨false, false, false⟩ ∧ ¬FlagsAgree s :=
  ⟨after (sampleDeparture .ok ++ sampleBattle), Reach.refl.foldl _, by decide +kernel⟩

end Cme.Attacks.Lifecycle
