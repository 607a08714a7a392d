import CmeBackend.Attacks.Life
import CmeBackend.Attacks.Steps
import CmeBackend.Battles.Steps
import CmeBackend.Lib.Redis

/-!
# Attacks between the tables and the queues

The requests, the mover and the battles manager as workers that share the tables and the queues. A
worker makes one call at a time, and every call may fail.

* `Worker`: the next call of a worker, with what it holds.
* `State.advance`: one call. Where the code catches the error of a call, the worker goes on.
* `marking`: an attack as the game of `Life`.
* `Undisturbed`: the failures that leave no troops behind.
-/

namespace Cme.Attacks.Lifecycle

open Battles Life Redis Runs Weights

variable {C : Catalog}

instance : Keyed AttackToken := ⟨AttackToken.attackId⟩
instance : Keyed ReturnToken := ⟨ReturnToken.attackId⟩

/-- Who has called `updateDefenderStolenResources`. -/
inductive Looter where
  | battle (report : AttackReport)
  /-- The return of a token without its loot. -/
  | comeBack (token : ReturnToken) (unitsInfoLeftByType : Js.Fields)

def Looter.attackId : Looter → ℕ
  | .battle report => report.attackId
  | .comeBack token _ => token.attackId

def Looter.defenderVillageId : Looter → ℕ
  | .battle report => report.defenderVillageId
  | .comeBack token _ => token.defenderVillageId

def Looter.unitsInfoLeftByType : Looter → Js.Fields
  | .battle report => report.attackerUnits
  | .comeBack _ units => units

/-- A worker, by its next call. -/
inductive Worker (C : Catalog) where
  /-- `attacksRepository.save(attack)`, of a request that was loaded at the time `loaded` -/
  | inserting (a : CheckedAttack C) (loaded : ℤ)
  /-- `zadd('delayed:normal', ...)` -/
  | queueing (a : CheckedAttack C) (loaded : ℤ) (attackId : ℕ)
  /-- `villagesResourceTypesRepository.save(...)` -/
  | subtracting (a : CheckedAttack C) (loaded : ℤ) (attackId : ℕ)
  | losingTruce (a : CheckedAttack C) (loaded : ℤ)
  | gainingTruce (a : CheckedAttack C)
  /-- The second `attacksRepository.save(attack)`. -/
  | savingAgain
  /-- The query for the units of the defender. -/
  | reading (token : AttackToken)
  /-- The query with the report. -/
  | resolving (report : AttackReport)
  /-- The query for what may be looted. -/
  | looting (looter : Looter)
  | takingLoot (looter : Looter) (stolenResources : List StolenResource)
  | recordingLoot (looter : Looter) (stolenResources : List StolenResource)
  /-- `zadd('delayed:return', ...)` -/
  | sendingHome (report : AttackReport) (stolenResources : List StolenResource)
  /-- `giveResourcesToAttacker` -/
  | givingLoot (attackId attackerVillageId : ℕ) (stolenResources : List StolenResource)
  /-- `updateAttackerValuesAfterReturnAsSql` -/
  | addingUnits (attackId attackerVillageId : ℕ) (unitsInfoLeftByType : Js.Fields)
  | ended

structure State (C : Catalog) where
  db : Db C
  /-- `delayed:normal` and `pending:normal` -/
  normal : Queues Unit AttackToken
  /-- `delayed:return` and `pending:return` -/
  returns : Queues Unit ReturnToken
  workers : List (Worker C)
  /-- What the statements have done to the attacks. No step reads it. -/
  log : List (Event × ℕ)

structure Env where
  math : Js.Math
  dev : Bool

inductive Action where
  /-- A request is loaded and checked. -/
  | create (dto : CreateAttackDto) (now : ℤ)
  | moveNormal (c : MoverCall)
  | moveReturns (c : MoverCall)
  /-- `lpop('pending:normal')` -/
  | popNormal (reply : Reply)
  /-- `lpop('pending:return')` -/
  | popReturn (reply : Reply)
  /-- The next call of the worker `k`. -/
  | call (k : ℕ) (reply : Reply) (now : ℤ)
  /-- The process of the worker `k` stops. -/
  | stop (k : ℕ)

/-! ## The steps -/

namespace State

variable (s : State C)

def goto (k : ℕ) (w : Worker C) : State C := { s with workers := s.workers.set k w }

/-- A call of the worker `k`. `none`: the call cannot go through. -/
def execute (k : ℕ) (reply : Reply) (effect : Option (State C)) (next failed : Worker C) :
    State C :=
  match effect, reply with
  | some s', .ok => s'.goto k next
  | some s', .lost => s'.goto k failed
  | _, _ => s.goto k failed

/-- The effect of a statement. -/
def write (db : Db C) (events : List (Event × ℕ)) : State C :=
  { s with db, log := s.log ++ events }

end State

/-- What `updateDefenderStolenResources` returns to. -/
def Looter.recorded (looter : Looter) (stolen : List StolenResource) : Worker C :=
  match looter with
  | .battle report => .sendingHome report stolen
  | .comeBack token _ => .givingLoot token.attackId token.attackerVillageId stolen

/-- After the query for what may be looted. Nothing is updated where nothing is stolen. -/
def Looter.read (looter : Looter) (stolen : Option (List StolenResource)) : Worker C :=
  match stolen with
  | some [] => .recordingLoot looter []
  | some (first :: rest) => .takingLoot looter (first :: rest)
  | none => .ended

/-- After the query for the units of the defender. -/
def reported (report : Option AttackReport) : Worker C :=
  match report with
  | some report => .resolving report
  | none => .ended

/-- What has happened to the attack of a report that is stored. -/
def outcome (report : AttackReport) : Event := if report.WonByAttacker then .victory else .lost

/-- After the query with the report. -/
def decided (report : AttackReport) : Worker C :=
  if report.WonByAttacker then .looting (.battle report) else .ended

/-- The calls of a return, of which none waits for the other. -/
def comeBackCalls (token : ReturnToken) : List (Worker C) :=
  let token := parsedReturn token
  match subtractCasualties token.attackerUnitsInfoByType token.attackerCasualties with
  | none => []
  | some unitsInfoLeftByType =>
    let loot := match token.stolenResources with
      | some stolen => .givingLoot token.attackId token.attackerVillageId stolen
      | none => .looting (.comeBack token unitsInfoLeftByType)
    [loot, .addingUnits token.attackId token.attackerVillageId unitsInfoLeftByType]

/-- The next call of the worker `k`, at the time `now`. -/
def State.advance (e : Env) (s : State C) (k : ℕ) (reply : Reply) (now : ℤ) :
    Worker C → State C
  | .inserting a loaded =>
    s.execute k reply (s.write (a.insert now s.db) []) (.queueing a loaded s.db.attacks.next) .ended
  | .queueing a loaded attackId =>
    let next : Worker C := .subtracting a loaded attackId
    s.execute k reply (some { s with normal := s.normal.zadd () (a.token attackId) }) next next
  | .subtracting a loaded attackId =>
    let next : Worker C := .losingTruce a loaded
    s.execute k reply
      (a.left.map fun left => s.write (s.db.saveEntities left) [(.departed, attackId)]) next next
  | .losingTruce a loaded =>
    s.execute k reply (s.write (a.loseTruce loaded now s.db) []) (.gainingTruce a) .ended
  | .gainingTruce a => s.execute k reply (s.write (a.gainTruce now s.db) []) .savingAgain .ended
  | .savingAgain => s.execute k reply s .ended .ended
  | .reading token =>
    s.execute k reply s (reported (battleReport e.math s.db (parsedAttack token))) .ended
  | .resolving report =>
    s.execute k reply
      ((execReportQuery s.db report).map fun d => s.write d [(outcome report, report.attackId)])
      (decided report) .ended
  | .looting looter =>
    let stolen := stolenResources s.db looter.defenderVillageId looter.unitsInfoLeftByType
    s.execute k reply s (looter.read stolen) .ended
  | .takingLoot looter stolen =>
    s.execute k reply
      ((takeLoot s.db looter.defenderVillageId stolen).map fun d => s.write d [])
      (.recordingLoot looter stolen) .ended
  | .recordingLoot looter stolen =>
    s.execute k reply (s.write (recordLoot s.db looter.attackId stolen) []) (looter.recorded stolen)
      .ended
  | .sendingHome report stolen =>
    s.execute k reply
      (some { s with returns := s.returns.zadd () (report.returnToken stolen) }) .ended .ended
  | .givingLoot attackId attackerVillageId stolen =>
    s.execute k reply
      (s.write (giveResourcesToAttacker s.db stolen attackerVillageId) [(.lootHome, attackId)])
      .ended .ended
  | .addingUnits attackId attackerVillageId unitsInfoLeftByType =>
    s.execute k reply
      ((updateAttackerValuesAfterReturnAsSql s.db unitsInfoLeftByType attackerVillageId
        attackId).map fun d => s.write d [(.home, attackId)])
      .ended .ended
  | .ended => s

/-- One step. -/
def step (e : Env) (s : State C) : Action → State C
  | .create dto now =>
    match check e.math e.dev now s.db dto with
    | .ok a => { s with workers := s.workers ++ [.inserting a now] }
    | .error _ => s
  | .moveNormal c => { s with normal := s.normal.mover () c }
  | .moveReturns c => { s with returns := s.returns.mover () c }
  | .popNormal reply =>
    match reply, s.normal.lpop () with
    | .ok, some (token, q) => { s with normal := q, workers := s.workers ++ [.reading token] }
    | .lost, some (_, q) => { s with normal := q }
    | _, _ => s
  | .popReturn reply =>
    match reply, s.returns.lpop () with
    | .ok, some (token, q) => { s with returns := q, workers := s.workers ++ comeBackCalls token }
    | .lost, some (_, q) => { s with returns := q }
    | _, _ => s
  | .call k reply now =>
    match s.workers[k]? with
    | some w => s.advance e k reply now w
    | none => s
  | .stop k => s.goto k .ended

/-- No attack is on its way. -/
def start (d : Db C) : State C := ⟨d, Queues.empty, Queues.empty, [], []⟩

/-! ## The life of an attack -/

def Looter.stage : Looter → Stage
  | .battle _ => .won
  | .comeBack _ _ => .loot

/-- The attack that a worker has in hand. -/
def Worker.stage : Worker C → Option (Stage × ℕ)
  | .queueing _ _ attackId => some (.inserted, attackId)
  | .subtracting _ _ attackId => some (.departing, attackId)
  | .reading token => some (.fighting, token.attackId)
  | .resolving report => some (.fighting, report.attackId)
  | .looting looter | .takingLoot looter _ | .recordingLoot looter _ =>
    some (looter.stage, looter.attackId)
  | .sendingHome report _ => some (.won, report.attackId)
  | .givingLoot attackId _ _ => some (.loot, attackId)
  | .addingUnits attackId _ _ => some (.units, attackId)
  | _ => none

/-- Whether a worker has an attack in hand at a stage, as a number. -/
def Worker.isAt (x : Stage) (attackId : ℕ) (w : Worker C) : ℕ :=
  if w.stage = some (x, attackId) then 1 else 0

/-- The marking of an attack. -/
def State.marking (s : State C) (attackId : ℕ) : Place → ℕ
  | .stage x => weigh (Worker.isAt x attackId) s.workers
  | .waiting => s.normal.tokensOf attackId
  | .returning => s.returns.tokensOf attackId
  | .event x => s.log.count (x, attackId)

/-- The tokens of an attack, in the delayed sets, in the pending lists and with the workers. -/
def State.tokens (s : State C) (attackId : ℕ) : ℕ := Life.tokens (s.marking attackId)

/-! ## The condition -/

/-- A call of a worker does not fail where the failure leaves troops behind. -/
def Worker.Spared (e : Env) (s : State C) (reply : Reply) : Worker C → Prop
  | .queueing _ _ _ => reply ≠ .refused
  | .subtracting a _ _ => reply ≠ .refused ∧ a.left.isSome
  | .reading token => reply = .ok ∧ (battleReport e.math s.db (parsedAttack token)).isSome
  | .resolving report =>
    (execReportQuery s.db report).isSome ∧
      (reply = .ok ∨ reply = .lost ∧ ¬report.WonByAttacker)
  | .looting (.battle report) =>
    reply = .ok ∧ (stolenResources s.db report.defenderVillageId report.attackerUnits).isSome
  | .takingLoot (.battle report) stolen =>
    reply = .ok ∧ (takeLoot s.db report.defenderVillageId stolen).isSome
  | .recordingLoot (.battle _) _ => reply = .ok
  | .sendingHome _ _ => reply ≠ .refused
  | .addingUnits attackId attackerVillageId units =>
    reply ≠ .refused ∧
      (updateAttackerValuesAfterReturnAsSql s.db units attackerVillageId attackId).isSome
  | _ => True

instance (e : Env) (s : State C) (reply : Reply) (w : Worker C) : Decidable (w.Spared e s reply) :=
  match w with
  | .queueing _ _ _ | .sendingHome _ _ => inferInstanceAs (Decidable (_ ≠ _))
  | .subtracting _ _ _ | .reading _ | .looting (.battle _) | .takingLoot (.battle _) _
  | .addingUnits _ _ _ => inferInstanceAs (Decidable (_ ∧ _))
  | .resolving _ => inferInstanceAs (Decidable (_ ∧ (_ ∨ _ ∧ ¬_)))
  | .recordingLoot (.battle _) _ => inferInstanceAs (Decidable (_ = _))
  | .inserting _ _ | .losingTruce _ _ | .gainingTruce _ | .savingAgain | .looting (.comeBack _ _)
  | .takingLoot (.comeBack _ _) _ | .recordingLoot (.comeBack _ _) _ | .givingLoot _ _ _
  | .ended => isTrue trivial

/-- A worker that leaves no troops behind when it stops. -/
def Worker.dispensable (w : Worker C) : Bool :=
  match w.stage with
  | none | some (.inserted, _) | some (.loot, _) => true
  | _ => false

/-- The casualties of a token can be subtracted. -/
def Returnable (token : ReturnToken) : Prop :=
  (subtractCasualties (parsedReturn token).attackerUnitsInfoByType
    (parsedReturn token).attackerCasualties).isSome

instance (token : ReturnToken) : Decidable (Returnable token) :=
  inferInstanceAs (Decidable (_ = true))

/-- No failure of the step leaves troops behind. -/
def Undisturbed (e : Env) (s : State C) : Action → Prop
  | .popNormal reply => reply ≠ .lost
  | .popReturn reply =>
    reply ≠ .lost ∧ (reply = .ok → ∀ p ∈ s.returns.lpop (), Returnable p.1)
  | .call k reply _ => ∀ w ∈ s.workers[k]?, w.Spared e s reply
  | .stop k => ∀ w ∈ s.workers[k]?, w.dispensable
  | _ => True

instance (e : Env) (s : State C) (a : Action) : Decidable (Undisturbed e s a) :=
  match a with
  | .popNormal _ => inferInstanceAs (Decidable (_ ≠ _))
  | .popReturn _ => inferInstanceAs (Decidable (_ ∧ (_ → ∀ p ∈ _, _)))
  | .call _ _ _ | .stop _ => inferInstanceAs (Decidable (∀ w ∈ _, _))
  | .create _ _ | .moveNormal _ | .moveReturns _ => isTrue trivial

end Cme.Attacks.Lifecycle
