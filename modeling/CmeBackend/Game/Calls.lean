import CmeBackend.Attacks.Ending
import CmeBackend.Attacks.Truce
import CmeBackend.Game.Armies
import CmeBackend.Lib.Refinement

/-!
# The game and its calls

A step of the game runs a request, a battle or a return to its end. In `Attacks.Lifecycle` the same
code makes one call at a time, and takes its tokens from the queues. Here the two are compared.

* `Shows`: the tables and the queues of the calls are those of the game.
* `Goes`: a worker that is called until it ends does what a function of the game does.
* `calls_refine`: every run of the game is a run of the calls.
-/

namespace Cme.Game

open Attacks Attacks.Lifecycle Battles Redis Refinement

variable {C : Catalog} {e : Env C} {s s' : State C} {w w' w'' : World C} {k : ℕ}
  {x x' x'' : Worker C}

/-- What the calls take as given. -/
def Env.calls (e : Env C) : Lifecycle.Env := ⟨e.math, e.dev⟩

/-- A request, or a step of the workers and the queues that does not fail. -/
def Plain (a : Lifecycle.Action) : Prop := Smooth a ∨ ∃ dto now, a = .create dto now

/-- A run of the calls. -/
abbrev Calls (e : Env C) (s s' : State C) : Prop := Leads (Lifecycle.step e.calls) Plain s s'

/-- The steps of the game that `Lifecycle` has the calls of. -/
def IsWar : Action → Prop
  | .attack _ _ | .fight _ | .comeHome _ => True
  | _ => False

/-- The tables and the queues are those of the game. -/
structure Shows (s : State C) (w : World C) : Prop where
  db : s.db = w.db.toDb
  delayed : s.normal.delayed = w.attacks.map fun token => ((), token)
  pending : s.normal.pending = []
  delayedReturns : s.returns.delayed = w.returns.map fun token => ((), token)
  pendingReturns : s.returns.pending = []

/-- And all workers have ended. -/
structure AtRest (s : State C) (w : World C) : Prop extends Shows s w where
  ended : ∀ x ∈ s.workers, x = .ended

/-- The attacks that are queued. -/
def World.ids (w : World C) : List ℕ :=
  w.attacks.map AttackToken.attackId ++ w.returns.map ReturnToken.attackId

/-- No two tokens stand for one attack, and the next attack has an id of its own. -/
structure Distinct (w : World C) : Prop where
  nodup : w.ids.Nodup
  stored : ∀ id ∈ w.ids, id < w.db.attacks.next

/-! ## Workers -/

/-- The calls of a worker at `x` lead it to `x'`, and the game from `w` to `w'`. -/
def Goes (e : Env C) (x : Worker C) (w : World C) (x' : Worker C) (w' : World C) : Prop :=
  ∀ (s : State C) (before after : List (Worker C)), s.workers = before ++ x :: after → Shows s w →
    ∃ s', Calls e s s' ∧ s'.workers = before ++ x' :: after ∧ Shows s' w'

theorem Goes.trans (h : Goes e x w x' w') (h' : Goes e x' w' x'' w'') : Goes e x w x'' w'' := by
  intro s before after hworkers hshows
  obtain ⟨s₁, hcalls, hworkers, hshows⟩ := h s before after hworkers hshows
  obtain ⟨s₂, hcalls', hworkers, hshows⟩ := h' s₁ before after hworkers hshows
  exact ⟨s₂, hcalls.trans hcalls', hworkers, hshows⟩

/-- One call. -/
theorem goes_call (now : ℤ) (h : ∀ (s : State C) k, Shows s w → ∃ s₁ : State C,
    s.advance e.calls k .ok now x = s₁.goto k x' ∧ s₁.workers = s.workers ∧ Shows s₁ w') :
    Goes e x w x' w' := by
  intro s before after hworkers hshows
  obtain ⟨s₁, hadvance, hkept, hshows'⟩ := h s before.length hshows
  have hk : s.workers[before.length]? = some x := by simp [hworkers]
  have hstep : Lifecycle.step e.calls s (.call before.length .ok now) =
      s₁.goto before.length x' := by
    simp only [Lifecycle.step, hk, hadvance]
  refine ⟨s₁.goto before.length x', hstep ▸ Leads.one (.inl rfl), ?_, ⟨hshows'.db, hshows'.delayed,
    hshows'.pending, hshows'.delayedReturns, hshows'.pendingReturns⟩⟩
  simp [State.goto, hkept, hworkers]

/-- A call that writes nothing. -/
theorem goes_read (now : ℤ) (h : ∀ (s : State C) k, Shows s w →
    s.advance e.calls k .ok now x = s.goto k x') : Goes e x w x' w :=
  goes_call now fun s k hs => ⟨s, h s k hs, rfl, hs⟩

/-- A call that writes to the tables. -/
theorem goes_write {d : Db C} (events : List (Life.Event × ℕ)) (now : ℤ)
    (h : ∀ (s : State C) k, Shows s w →
      s.advance e.calls k .ok now x = (s.write d events).goto k x') :
    Goes e x w x' (w.setDb d) :=
  goes_call now fun s k hs => ⟨s.write d events, h s k hs, rfl,
    ⟨rfl, hs.delayed, hs.pending, hs.delayedReturns, hs.pendingReturns⟩⟩

/-! ## The loot -/

section Loot

variable {looter : Looter} {stolen : List StolenResource} {d : Db C}

theorem goes_recordingLoot : Goes e (.recordingLoot looter stolen) w (looter.recorded stolen)
    (w.setDb (recordLoot w.db.toDb looter.attackId stolen)) := by
  refine goes_write [] 0 fun s k hs => ?_
  rw [← hs.db]
  rfl

/-- `updateDefenderStolenResources` -/
theorem goes_looting (looter : Looter) (h : updateDefenderStolenResources w.db.toDb looter.attackId
    looter.defenderVillageId looter.unitsInfoLeftByType = some (d, stolen)) :
    Goes e (.looting looter) w (looter.recorded stolen) (w.setDb d) := by
  rw [updateDefenderStolenResources_eq] at h
  obtain ⟨stolen', hstolen, h⟩ := Option.bind_eq_some_iff.1 h
  obtain ⟨taken, htaken, heq⟩ := Option.map_eq_some_iff.1 h
  cases heq
  have hread : Goes e (.looting looter) w (looter.read (some stolen)) w := by
    refine goes_read 0 fun s k hs => ?_
    rw [← hstolen, ← hs.db]
    rfl
  cases stolen with
  | nil =>
    have hnothing : taken = w.db.toDb := by
      have hvalues := Option.some.inj htaken
      rw [← hvalues]
      exact (@Db.foldl_subtractFromCounts _ _ _ [] List.nodup_nil).symm
    rw [hnothing]
    exact hread.trans goes_recordingLoot
  | cons first rest =>
    have htake : Goes e (.takingLoot looter (first :: rest)) w
        (.recordingLoot looter (first :: rest)) (w.setDb taken) := by
      refine goes_write [] 0 fun s k hs => ?_
      simp only [State.advance, State.execute, hs.db, htaken, Option.map_some]
    exact hread.trans (htake.trans goes_recordingLoot)

theorem goes_looting_none (looter : Looter) (h : updateDefenderStolenResources w.db.toDb looter.attackId
    looter.defenderVillageId looter.unitsInfoLeftByType = none) :
    Goes e (.looting looter) w .ended w := by
  rw [updateDefenderStolenResources_eq, Option.bind_eq_none_iff] at h
  cases hstolen : stolenResources w.db.toDb looter.defenderVillageId
      looter.unitsInfoLeftByType with
  | none =>
    refine goes_read 0 fun s k hs => ?_
    simp only [State.advance, State.execute, hs.db, hstolen, Looter.read]
  | some stolen =>
    have hnone : takeLoot w.db.toDb looter.defenderVillageId stolen = none := by
      simpa using h stolen hstolen
    cases stolen with
    | nil => cases hnone
    | cons first rest =>
      have hread : Goes e (.looting looter) w (.takingLoot looter (first :: rest)) w :=
        goes_read 0 fun s k hs => by
          simp only [State.advance, State.execute, hs.db, hstolen, Looter.read]
      refine hread.trans (goes_read 0 fun s k hs => ?_)
      simp only [State.advance, State.execute, hs.db, hnone, Option.map_none]

theorem goes_givingLoot {attackId v : ℕ} : Goes e (.givingLoot attackId v stolen) w .ended
    (w.setDb (giveResourcesToAttacker w.db.toDb stolen v)) := by
  refine goes_write [(.lootHome, attackId)] 0 fun s k hs => ?_
  rw [← hs.db]
  rfl

end Loot

/-! ## A battle -/

section Battle

variable {token : AttackToken} {report : AttackReport} {d : Db C}

theorem resolve_of_report {M : Js.Math} {d : Db C}
    (h : battleReport M d (parsedAttack token) = some report) :
    resolve M d token =
      match execReportQuery d report with
      | none => (d, none)
      | some d =>
        if report.WonByAttacker then
          match updateDefenderStolenResources d report.attackId report.defenderVillageId
              report.attackerUnits with
          | none => (d, none)
          | some (d, stolen) => (d, some (report.returnToken stolen))
        else (d, none) := by
  unfold resolve battle
  simp only [h, Option.bind_eq_bind, Option.bind_some, updateDb_eq]
  cases execReportQuery d report with
  | none => rfl
  | some d =>
    simp only [Option.bind_some]
    by_cases hwon : report.WonByAttacker
    · simp only [if_pos hwon]
      cases updateDefenderStolenResources d report.attackId report.defenderVillageId
        report.attackerUnits <;> rfl
    · simp only [if_neg hwon]

theorem resolve_of_no_report {M : Js.Math} {d : Db C}
    (h : battleReport M d (parsedAttack token) = none) : resolve M d token = (d, none) := by
  unfold resolve battle
  simp only [h, Option.bind_eq_bind, Option.bind_none, Option.getD_none]

theorem goes_sendingHome {stolen : List StolenResource}
    (hnew : report.attackId ∉ w.returns.map ReturnToken.attackId) :
    Goes e (.sendingHome report stolen) w .ended
      { w with returns := w.returns ++ [report.returnToken stolen] } := by
  refine goes_call 0 fun s k hs => ⟨{ s with
    returns := s.returns.zadd () (report.returnToken stolen) }, rfl, rfl, ?_⟩
  have hfresh : ((), key (report.returnToken stolen)) ∉ s.returns.delayed.map address := by
    rw [hs.delayedReturns, List.map_map]
    intro hmem
    obtain ⟨token, htoken, heq⟩ := List.mem_map.1 hmem
    exact hnew (List.mem_map.2 ⟨token, htoken, (Prod.ext_iff.1 heq).2⟩)
  refine ⟨hs.db, hs.delayed, hs.pending, ?_, ?_⟩
  · show (s.returns.zadd () _).delayed = _
    rw [Queues.zadd, if_neg hfresh, List.map_append, ← hs.delayedReturns]
    rfl
  · show (s.returns.zadd () _).pending = _
    rw [Queues.zadd, if_neg hfresh]
    exact hs.pendingReturns

/-- The battle of a token, from the query for the units of the defender on. -/
theorem goes_reading (hnew : token.attackId ∉ w.returns.map ReturnToken.attackId) :
    Goes e (.reading token) w .ended
      { w.setDb (resolve e.math w.db.toDb token).1 with
        returns := w.returns ++ (resolve e.math w.db.toDb token).2.toList } := by
  have hread : Goes e (.reading token) w
      (reported (battleReport e.math w.db.toDb (parsedAttack token))) w := by
    refine goes_read 0 fun s k hs => ?_
    rw [← hs.db]
    rfl
  cases hreport : battleReport e.math w.db.toDb (parsedAttack token) with
  | none =>
    rw [resolve_of_no_report hreport]
    simpa [hreport, reported, World.setDb] using hread
  | some report =>
    rw [hreport] at hread
    rw [resolve_of_report hreport]
    refine hread.trans ?_
    show Goes e (.resolving report) _ _ _
    cases hquery : execReportQuery w.db.toDb report with
    | none =>
      simp only [Option.toList_none, List.append_nil]
      refine goes_read 0 fun s k hs => ?_
      simp only [State.advance, State.execute, hs.db, hquery, Option.map_none]
    | some d =>
      have hresolve : Goes e (.resolving report) w (decided report) (w.setDb d) := by
        refine goes_write [(outcome report, report.attackId)] 0 fun s k hs => ?_
        simp only [State.advance, State.execute, hs.db, hquery, Option.map_some]
      by_cases hwon : report.WonByAttacker
      · simp only [if_pos hwon]
        rw [decided, if_pos hwon] at hresolve
        cases hloot : updateDefenderStolenResources d report.attackId report.defenderVillageId
            report.attackerUnits with
        | none =>
          simp only [Option.toList_none, List.append_nil]
          exact hresolve.trans (goes_looting_none (.battle report) hloot)
        | some p =>
          obtain ⟨d', stolen⟩ := p
          refine hresolve.trans ((goes_looting (.battle report) hloot).trans ?_)
          have hid : report.attackId = token.attackId := (generateAttackReport_eq_some hreport).1
          exact goes_sendingHome (hid ▸ hnew)
      · simp only [if_neg hwon, Option.toList_none, List.append_nil]
        rw [decided, if_neg hwon] at hresolve
        exact hresolve

end Battle

/-! ## A return -/

section Return

variable {token : ReturnToken} {units : Js.Fields}

/-- The first call of a return. -/
def lootCall (token : ReturnToken) (units : Js.Fields) : Worker C :=
  match token.stolenResources with
  | some stolen => .givingLoot token.attackId token.attackerVillageId stolen
  | none => .looting (.comeBack token units)

theorem goes_lootCall :
    Goes e (lootCall token units) w .ended (w.setDb (giveLoot w.db.toDb token units)) := by
  unfold lootCall giveLoot
  cases token.stolenResources with
  | some stolen => exact goes_givingLoot
  | none =>
    cases hloot : updateDefenderStolenResources w.db.toDb token.attackId token.defenderVillageId
        units with
    | none => exact goes_looting_none (.comeBack token units) hloot
    | some p =>
      obtain ⟨d, stolen⟩ := p
      exact (goes_looting (.comeBack token units) hloot).trans goes_givingLoot

theorem goes_addingUnits {attackId v : ℕ} : Goes e (.addingUnits attackId v units) w .ended
    (w.setDb ((updateAttackerValuesAfterReturnAsSql w.db.toDb units v attackId).getD
      w.db.toDb)) := by
  cases hunits : updateAttackerValuesAfterReturnAsSql w.db.toDb units v attackId with
  | none =>
    refine goes_read 0 fun s k hs => ?_
    simp only [State.advance, State.execute, hs.db, hunits, Option.map_none]
  | some d =>
    refine goes_write [(.home, attackId)] 0 fun s k hs => ?_
    simp only [State.advance, State.execute, hs.db, hunits, Option.map_some]
    rfl

theorem comeBackCalls_eq (token : ReturnToken) :
    (comeBackCalls token : List (Worker C)) =
      match subtractCasualties (parsedReturn token).attackerUnitsInfoByType
        (parsedReturn token).attackerCasualties with
      | none => []
      | some units => [lootCall (parsedReturn token) units,
          .addingUnits token.attackId token.attackerVillageId units] := rfl

/-- The loot comes first, and the units come home if their counts are numbers. -/
theorem comeHome_eq {d : Db C} :
    comeHome d token =
      match subtractCasualties (parsedReturn token).attackerUnitsInfoByType
        (parsedReturn token).attackerCasualties with
      | none => d
      | some units =>
        (updateAttackerValuesAfterReturnAsSql (giveLoot d (parsedReturn token) units) units
          token.attackerVillageId token.attackId).getD (giveLoot d (parsedReturn token) units) := by
  have hback : comeBack d token =
      (subtractCasualties (parsedReturn token).attackerUnitsInfoByType
        (parsedReturn token).attackerCasualties).bind fun units =>
          updateAttackerValuesAfterReturnAsSql (giveLoot d (parsedReturn token) units) units
            token.attackerVillageId token.attackId := rfl
  unfold comeHome
  rw [hback]
  cases hunits : subtractCasualties (parsedReturn token).attackerUnitsInfoByType
      (parsedReturn token).attackerCasualties with
  | none => rfl
  | some units =>
    simp only [Option.bind_some]
    cases updateAttackerValuesAfterReturnAsSql (giveLoot d (parsedReturn token) units) units
      token.attackerVillageId token.attackId <;> rfl

end Return

/-! ## A request -/

section Request

variable {a : CheckedAttack C}

theorem goes_queueing {loaded : ℤ} {attackId : ℕ}
    (hnew : attackId ∉ w.attacks.map AttackToken.attackId) :
    Goes e (.queueing a loaded attackId) w (.subtracting a loaded attackId)
      { w with attacks := w.attacks ++ [a.token attackId] } := by
  refine goes_call 0 fun s k hs => ⟨{ s with
    normal := s.normal.zadd () (a.token attackId) }, rfl, rfl, ?_⟩
  have hfresh : ((), key (a.token attackId)) ∉ s.normal.delayed.map address := by
    rw [hs.delayed, List.map_map]
    intro hmem
    obtain ⟨token, htoken, heq⟩ := List.mem_map.1 hmem
    exact hnew (List.mem_map.2 ⟨token, htoken, (Prod.ext_iff.1 heq).2⟩)
  refine ⟨hs.db, ?_, ?_, hs.delayedReturns, hs.pendingReturns⟩
  · show (s.normal.zadd () _).delayed = _
    rw [Queues.zadd, if_neg hfresh, List.map_append, ← hs.delayed]
    rfl
  · show (s.normal.zadd () _).pending = _
    rw [Queues.zadd, if_neg hfresh]
    exact hs.pending

/-- The rows of the village are saved if the database takes them. -/
theorem goes_subtracting {loaded : ℤ} {attackId : ℕ} :
    Goes e (.subtracting a loaded attackId) w (.losingTruce a loaded)
      (w.setDb ((a.left.map w.db.toDb.saveEntities).getD w.db.toDb)) := by
  cases hleft : a.left with
  | none =>
    refine goes_read 0 fun s k hs => ?_
    simp only [State.advance, State.execute, hleft, Option.map_none]
  | some left =>
    refine goes_write [(.departed, attackId)] 0 fun s k hs => ?_
    simp only [State.advance, State.execute, hs.db, hleft, Option.map_some]
    rfl

/-- The calls of a request that is accepted. -/
theorem goes_inserting (c : Clock) (hrows : a.rows = w.db.rowsOf a.attackerVillage.id)
    (hnew : w.db.attacks.next ∉ w.attacks.map AttackToken.attackId) :
    Goes e (.inserting a c.loaded) w .ended
      { w.setDb (depart c w.db.toDb a.attackerVillage a.defenderVillage a.unitSent
          a.travelTime).db with
        attacks := w.attacks ++ [a.token w.db.attacks.next] } := by
  have hinsert : Goes e (.inserting a c.loaded) w (.queueing a c.loaded w.db.attacks.next)
      (w.setDb (a.insert c.departed w.db.toDb)) := by
    refine goes_write [] c.departed fun s k hs => ?_
    simp only [State.advance, State.execute, hs.db]
  have hqueue : Goes e (.queueing a c.loaded w.db.attacks.next)
      (w.setDb (a.insert c.departed w.db.toDb)) (.subtracting a c.loaded w.db.attacks.next)
      { w.setDb (a.insert c.departed w.db.toDb) with
        attacks := w.attacks ++ [a.token w.db.attacks.next] } := goes_queueing hnew
  have hlose : ∀ w : World C, Goes e (.losingTruce a c.loaded) w (.gainingTruce a)
      (w.setDb (a.loseTruce c.loaded c.updated w.db.toDb)) := fun w =>
    goes_write [] c.updated fun s k hs => by
      rw [← hs.db]
      rfl
  have hgain : ∀ w : World C, Goes e (.gainingTruce a) w .savingAgain
      (w.setDb (a.gainTruce c.updated w.db.toDb)) := fun w =>
    goes_write [] c.updated fun s k hs => by
      rw [← hs.db]
      rfl
  rw [depart_eq c hrows]
  exact hinsert.trans (hqueue.trans (goes_subtracting.trans ((hlose _).trans ((hgain _).trans
    (goes_read 0 fun s k hs => rfl)))))

end Request

/-! ## Steps -/

theorem Distinct.start (d : GameDb C) : Distinct (start d) :=
  ⟨List.nodup_nil, fun id h => by cases h⟩

/-- Ids that are taken, and the next one. -/
theorem Distinct.next_not_mem (h : Distinct w) :
    w.db.attacks.next ∉ w.attacks.map AttackToken.attackId ∧
      w.db.attacks.next ∉ w.returns.map ReturnToken.attackId := by
  constructor
  · exact fun hmem => absurd (h.stored _ (List.mem_append_left _ hmem)) (lt_irrefl _)
  · exact fun hmem => absurd (h.stored _ (List.mem_append_right _ hmem)) (lt_irrefl _)

theorem AtRest.of_ended {xs : List (Worker C)} (hs : Shows s' w) (h : ∀ x ∈ xs, x = .ended)
    {n : ℕ} (hworkers : s'.workers = xs ++ List.replicate n .ended) : AtRest s' w := by
  refine { hs with ended := fun x hx => ?_ }
  rw [hworkers] at hx
  rcases List.mem_append.1 hx with hx | hx
  · exact h x hx
  · exact List.eq_of_mem_replicate hx

theorem calls_attack {c : Clock} {dto : CreateAttackDto} (h : Distinct w) (hs : AtRest s w) :
    ∃ s', Calls e s s' ∧ AtRest s' (step e w (.attack c dto)) := by
  simp only [step]
  rw [create_eq_check]
  cases hcheck : check e.math e.dev c.loaded w.db.toDb dto with
  | error reason => exact ⟨s, .refl, hs⟩
  | ok a =>
    have hrows := (Truce.check_eq_ok hcheck).2.2.2
    have haccept : Lifecycle.step e.calls s (.create dto c.loaded) =
        { s with workers := s.workers ++ [.inserting a c.loaded] } := by
      have hcheck' : check e.calls.math e.calls.dev c.loaded s.db dto = .ok a := hs.db ▸ hcheck
      simp only [Lifecycle.step, hcheck']
    obtain ⟨s', hcalls, hworkers, hshows⟩ := goes_inserting c hrows h.next_not_mem.1
      { s with workers := s.workers ++ [.inserting a c.loaded] } s.workers [] rfl
      ⟨hs.db, hs.delayed, hs.pending, hs.delayedReturns, hs.pendingReturns⟩
    refine ⟨s', .trans (haccept ▸ .one (.inr ⟨dto, c.loaded, rfl⟩)) hcalls, ?_⟩
    exact .of_ended (n := 1) hshows hs.ended hworkers

/-- The tokens of attacks, in a set. -/
theorem address_nodup {α : Type} [Keyed α] {l : List α} (h : (l.map key).Nodup) :
    ((l.map fun a => ((), a)).map address).Nodup := by
  rw [List.map_map, List.Nodup, List.pairwise_map]
  exact (List.pairwise_map.1 h).imp fun hne heq => hne (Prod.ext_iff.1 heq).2

/-- A mover starts on one token and moves it, and it is taken. -/
theorem calls_popNormal {token : AttackToken} {q : Queues Unit AttackToken}
    (h : (((s.normal.stopMove ()).startMove () [key token]).move ()).lpop () = some (token, q)) :
    Calls e s { s with normal := q, workers := s.workers ++ [.reading token] } :=
  ⟨[.moveNormal .stop, .moveNormal (.start [key token]), .moveNormal (.move .ok), .popNormal .ok],
    by simp [Plain, Smooth], by simp [Lifecycle.step, Queues.mover, h]⟩

theorem calls_popReturn {token : ReturnToken} {q : Queues Unit ReturnToken}
    (h : (((s.returns.stopMove ()).startMove () [key token]).move ()).lpop () = some (token, q)) :
    Calls e s { s with returns := q, workers := s.workers ++ comeBackCalls token } :=
  ⟨[.moveReturns .stop, .moveReturns (.start [key token]), .moveReturns (.move .ok),
    .popReturn .ok], by simp [Plain, Smooth], by simp [Lifecycle.step, Queues.mover, h]⟩

theorem calls_fight (h : Distinct w) (hs : AtRest s w) :
    ∃ s', Calls e s s' ∧ AtRest s' (step e w (.fight k)) := by
  simp only [step]
  cases hk : w.attacks[k]? with
  | none => exact ⟨s, .refl, hs⟩
  | some token =>
    obtain ⟨hattacks, -, hdisjoint⟩ := List.nodup_append.1 h.nodup
    have hnodup : (s.normal.delayed.map address).Nodup := hs.delayed ▸ address_nodup hattacks
    have hmember : s.normal.delayed[k]? = some ((), token) := by simp [hs.delayed, hk]
    obtain ⟨q, hpop, hdelayed, hpending⟩ := Queues.lpop_move hnodup hs.pending hmember
    have hnew : token.attackId ∉ w.returns.map ReturnToken.attackId := fun hmem =>
      hdisjoint _ (List.mem_map_of_mem (List.mem_of_getElem? hk)) _ hmem rfl
    have hshows : Shows { s with normal := q, workers := s.workers ++ [.reading token] }
        { w with attacks := w.attacks.eraseIdx k } := by
      refine ⟨hs.db, ?_, hpending, hs.delayedReturns, hs.pendingReturns⟩
      exact hdelayed.trans (by rw [hs.delayed, List.eraseIdx_map])
    obtain ⟨s', hcalls, hworkers, hshows⟩ := goes_reading (e := e)
      (w := { w with attacks := w.attacks.eraseIdx k }) hnew _ s.workers [] rfl hshows
    exact ⟨s', (calls_popNormal hpop).trans hcalls, .of_ended (n := 1) hshows hs.ended hworkers⟩

theorem calls_comeHome (h : Distinct w) (hs : AtRest s w) :
    ∃ s', Calls e s s' ∧ AtRest s' (step e w (.comeHome k)) := by
  simp only [step]
  cases hk : w.returns[k]? with
  | none => exact ⟨s, .refl, hs⟩
  | some token =>
    have hnodup : (s.returns.delayed.map address).Nodup :=
      hs.delayedReturns ▸ address_nodup (List.nodup_append.1 h.nodup).2.1
    have hmember : s.returns.delayed[k]? = some ((), token) := by simp [hs.delayedReturns, hk]
    obtain ⟨q, hpop, hdelayed, hpending⟩ := Queues.lpop_move hnodup hs.pendingReturns hmember
    have hcalls := calls_popReturn (e := e) hpop
    have hshows : Shows { s with returns := q, workers := s.workers ++ comeBackCalls token }
        { w with returns := w.returns.eraseIdx k } := by
      refine ⟨hs.db, hs.delayed, hs.pending, ?_, hpending⟩
      exact hdelayed.trans (by rw [hs.delayedReturns, List.eraseIdx_map])
    show ∃ s', Calls e s s' ∧ AtRest s' { w.setDb (comeHome w.db.toDb token) with
      returns := w.returns.eraseIdx k }
    rw [comeHome_eq]
    rw [comeBackCalls_eq] at hcalls hshows
    cases hunits : subtractCasualties (parsedReturn token).attackerUnitsInfoByType
        (parsedReturn token).attackerCasualties with
    | none =>
      rw [hunits] at hcalls hshows
      exact ⟨_, hcalls, .of_ended (n := 0) hshows hs.ended rfl⟩
    | some units =>
      rw [hunits] at hcalls hshows
      obtain ⟨s₁, hcalls₁, hworkers₁, hshows₁⟩ := goes_lootCall (e := e) _ s.workers
        [.addingUnits token.attackId token.attackerVillageId units] rfl hshows
      obtain ⟨s₂, hcalls₂, hworkers₂, hshows₂⟩ := goes_addingUnits (e := e) s₁
        (s.workers ++ [.ended]) [] (by simpa using hworkers₁) hshows₁
      refine ⟨s₂, hcalls.trans (hcalls₁.trans hcalls₂), .of_ended (n := 2) hshows₂ hs.ended ?_⟩
      simpa using hworkers₂

/-! ## The invariant -/

theorem next_updateDefenderStolenResources {d d' : Db C} {attackId v : ℕ} {units : Js.Fields}
    {stolen : List StolenResource}
    (h : updateDefenderStolenResources d attackId v units = some (d', stolen)) :
    d'.attacks.next = d.attacks.next := by
  rw [updateDefenderStolenResources_eq] at h
  obtain ⟨stolen', -, h⟩ := Option.bind_eq_some_iff.1 h
  obtain ⟨taken, htaken, heq⟩ := Option.map_eq_some_iff.1 h
  cases heq
  have hnext := next_takeLoot htaken
  exact hnext

theorem next_giveLoot {d : Db C} {token : ReturnToken} {units : Js.Fields} :
    (giveLoot d token units).attacks.next = d.attacks.next := by
  unfold giveLoot
  split
  · exact next_giveResourcesToAttacker ..
  · split
    next hloot =>
      exact (next_giveResourcesToAttacker ..).trans (next_updateDefenderStolenResources hloot)
    · rfl

theorem next_comeHome {d : Db C} {token : ReturnToken} :
    (comeHome d token).attacks.next = d.attacks.next := by
  rw [comeHome_eq]
  split
  · rfl
  next units hunits =>
    cases hdone : updateAttackerValuesAfterReturnAsSql (giveLoot d (parsedReturn token) units) units
        token.attackerVillageId token.attackId with
    | none => exact next_giveLoot
    | some d' => exact (next_updateAttackerValues hdone).trans next_giveLoot

/-- A battle creates no attack, and what it sends home is its own. -/
theorem next_resolve (M : Js.Math) (d : Db C) (token : AttackToken) :
    (resolve M d token).1.attacks.next = d.attacks.next ∧
      ∀ returning ∈ (resolve M d token).2, returning.attackId = token.attackId := by
  cases hreport : battleReport M d (parsedAttack token) with
  | none =>
    rw [resolve_of_no_report hreport]
    exact ⟨rfl, by simp⟩
  | some report =>
    have hid : report.attackId = token.attackId := (generateAttackReport_eq_some hreport).1
    rw [resolve_of_report hreport]
    split
    · exact ⟨rfl, by simp⟩
    next d' hquery =>
      have hnext := next_execReportQuery hquery
      split
      · split
        · exact ⟨hnext, by simp⟩
        next hloot =>
          exact ⟨(next_updateDefenderStolenResources hloot).trans hnext,
            by simp [AttackReport.returnToken, hid]⟩
      · exact ⟨hnext, by simp⟩

/-- A step that creates no attack. -/
theorem Distinct.of_subperm (h : Distinct w) (hids : w'.ids.Subperm w.ids)
    (hnext : w'.db.attacks.next = w.db.attacks.next) : Distinct w' := by
  refine ⟨?_, fun id hid => hnext ▸ h.stored id (hids.subset hid)⟩
  obtain ⟨l, hperm, hsub⟩ := hids
  exact hperm.nodup_iff.1 (h.nodup.sublist hsub)

theorem Distinct.step (h : Distinct w) {a : Action} (ha : IsWar a) : Distinct (step e w a) := by
  cases a with
  | attack c dto =>
    simp only [Game.step]
    rw [create_eq_check]
    cases hcheck : check e.math e.dev c.loaded w.db.toDb dto with
    | error reason => exact h
    | ok a =>
      have hnext : (depart c w.db.toDb a.attackerVillage a.defenderVillage a.unitSent
          a.travelTime).db.attacks.next = w.db.attacks.next + 1 := by
        rw [depart_eq c (Truce.check_eq_ok hcheck).2.2.2, attacks_gainTruce, attacks_loseTruce]
        cases a.left <;> rfl
      have hids : World.ids (C := C) { w.setDb (depart c w.db.toDb a.attackerVillage
          a.defenderVillage a.unitSent a.travelTime).db with
          attacks := w.attacks ++ [a.token w.db.attacks.next] } =
            w.attacks.map AttackToken.attackId ++
              w.db.attacks.next :: w.returns.map ReturnToken.attackId := by
        simp [World.ids, World.setDb, CheckedAttack.token]
      have hnew : w.db.attacks.next ∉ w.ids := fun hmem => absurd (h.stored _ hmem) (lt_irrefl _)
      constructor
      · refine hids ▸ List.perm_middle.nodup_iff.2 (List.nodup_cons.2 ⟨hnew, h.nodup⟩)
      · intro id hid
        rcases List.mem_cons.1 (List.perm_middle.mem_iff.1 (hids ▸ hid)) with rfl | hid
        · exact (Nat.lt_succ_self _).trans_eq hnext.symm
        · exact (Nat.lt_succ_of_lt (h.stored id hid)).trans_eq hnext.symm
  | fight k =>
    simp only [Game.step]
    cases hk : w.attacks[k]? with
    | none => exact h
    | some token =>
      obtain ⟨hnext, hback⟩ := next_resolve e.math w.db.toDb token
      refine h.of_subperm ?_ hnext
      obtain ⟨hlt, rfl⟩ := List.getElem?_eq_some_iff.1 hk
      have hperm := (List.getElem_cons_eraseIdx_perm hlt).map AttackToken.attackId
      show List.Subperm ((w.attacks.eraseIdx k).map _ ++ (w.returns ++ _).map _) (_ ++ _)
      cases hreturning : (resolve e.math w.db.toDb w.attacks[k]).2 with
      | none =>
        rw [Option.toList_none, List.append_nil]
        exact (((List.eraseIdx_sublist _ k).map _).append_right _).subperm
      | some returning =>
        rw [Option.toList_some, List.map_append, List.map_singleton, hback returning hreturning,
          ← List.append_assoc]
        exact ((List.perm_append_singleton _ _).trans (hperm.append_right _)).subperm
  | comeHome k =>
    simp only [Game.step]
    cases hk : w.returns[k]? with
    | none => exact h
    | some token =>
      refine h.of_subperm ?_ next_comeHome
      exact ((List.Sublist.refl _).append ((List.eraseIdx_sublist _ k).map _)).subperm
  | _ => cases ha

/-! ## Runs -/

theorem calls_step (h : Distinct w) {a : Action} (ha : IsWar a) (hs : AtRest s w) :
    ∃ s', Calls e s s' ∧ AtRest s' (step e w a) := by
  cases a with
  | attack c dto => exact calls_attack h hs
  | fight k => exact calls_fight h hs
  | comeHome k => exact calls_comeHome h hs
  | _ => cases ha

theorem AtRest.start (d : GameDb C) : AtRest (Lifecycle.start d.toDb) (start d) :=
  { db := rfl, delayed := rfl, pending := rfl, delayedReturns := rfl, pendingReturns := rfl
    ended := fun x h => by cases h }

/-- **The game is a run of its calls.** Every run of requests, battles and returns, each to its end and
in any order, is a run of their calls in which no call fails: it leads to the same tables and the same
tokens, with all workers ended. -/
theorem calls_refine (d : GameDb C) (as : List Action) (has : ∀ a ∈ as, IsWar a) :
    ∃ s, Calls e (Lifecycle.start d.toDb) s ∧ AtRest s (as.foldl (step e) (start d)) :=
  leads_foldl (g := step e) (I := Distinct) (R := AtRest) (fun _ _ h ha => h.step ha)
    (fun _ _ _ h ha hs => calls_step h ha hs) has (Distinct.start d) (.start d)

/-- The attack, the battle and the return of `sampleWorld`. -/
theorem calls_refine_sample :
    ∃ s, Calls Game.sampleEnv (Lifecycle.start sampleGame.toDb) s ∧ AtRest s sampleWorld :=
  calls_refine sampleGame [sampleAttack, .fight 0, .comeHome 0] (by simp [IsWar, sampleAttack])

end Cme.Game
