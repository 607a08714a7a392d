import CmeBackend.Battles.Loot
import CmeBackend.Exchanges.Balances
import CmeBackend.Exchanges.Conservation
import CmeBackend.Facilities.Building
import CmeBackend.Production.Delivered
import CmeBackend.Storage.Conservation

/-!
# The game as one system

The services over the tables and the queues that they share. A request, a tick of a producer or of
the battles manager, and a callback of the deliveries runs to its end before the next one begins. They
come in any order, and what is queued is taken in any order.

* `World`: the tables, the tokens of attacks and of their returns, the items of military exchanges,
  and the tokens of orders.
* `resolve`, `comeHome`: a battle and a return with what they leave behind when they stop half way.
* `step`: one of them.
-/

namespace Cme.Game

open Js Attacks Battles

variable {C : Catalog}

structure World (C : Catalog) where
  db : GameDb C
  /-- `delayed:normal` and `pending:normal` -/
  attacks : List AttackToken
  /-- `delayed:return` and `pending:return` -/
  returns : List ReturnToken
  /-- `receiver-village-resources` -/
  transfers : List Exchanges.QueueItem
  /-- `delayed:type` and `pending:type` of all types -/
  orders : List Production.OrderToken

/-- What the services take as given. -/
structure Env (C : Catalog) where
  math : Math
  dev : Bool
  /-- The speeds of the column `characteristics`. -/
  speedOf : C.Ref → Option ℚ
  /-- The facility of an order is loaded with its village. -/
  withVillage : Bool
  /-- The types of facilities by their ids. -/
  facilityTypes : List (ℕ × String)

inductive Action where
  | attack (c : Clock) (dto : CreateAttackDto)
  | fight (k : ℕ)
  | comeHome (k : ℕ)
  /-- A military exchange. -/
  | send (req : Exchanges.Request) (unique : ℚ)
  | deliver (k : ℕ)
  /-- An exchange of base resources. -/
  | exchange (req : Exchanges.Request)
  | transfer (villageId facilityId : ℕ) (req : Storage.Request)
  | order (order : Production.CreateOrder)
  | produce (k : ℕ) (now : ℤ)
  | upgrade (facilityId userId : ℕ)
  | build (facility : Facilities.CreateFacility) (userId : ℕ)
  /-- The rows of a new village of a user. -/
  | settle (village : NewVillage) (isNew : Bool)
  /-- The rows of a new automated village. -/
  | generate (village : NewVillage)

/-! ## Parts of steps -/

/-- The tables after a battle, and the token of the units on their way home. A battle that stops
after its report has stored the report. -/
def resolve (M : Math) (d : Db C) (token : AttackToken) : Db C × Option ReturnToken :=
  match battle M d token with
  | some o => (o.db, o.returning)
  | none => (((battleReport M d (parsedAttack token)).bind (execReportQuery d)).getD d, none)

/-- The loot of a return, which does not wait for its units. -/
def giveLoot (d : Db C) (token : ReturnToken) (unitsInfoLeftByType : Fields) : Db C :=
  match token.stolenResources with
  | some stolen => giveResourcesToAttacker d stolen token.attackerVillageId
  | none =>
    match updateDefenderStolenResources d token.attackId token.defenderVillageId
        unitsInfoLeftByType with
    | some (d, stolen) => giveResourcesToAttacker d stolen token.attackerVillageId
    | none => d

/-- The tables after a return. One that stops before its units are home may have given the loot. -/
def comeHome (d : Db C) (token : ReturnToken) : Db C :=
  match comeBack d token with
  | some d' => d'
  | none =>
    match subtractCasualties (parsedReturn token).attackerUnitsInfoByType
        (parsedReturn token).attackerCasualties with
    | some unitsInfoLeftByType => giveLoot d (parsedReturn token) unitsInfoLeftByType
    | none => d

/-- The checks of a military exchange. -/
def checkSend (e : Env C) (d : Db C) (req : Exchanges.Request) :
    Except Exchanges.ExchangeEnd (Exchanges.CheckedMilitary C) := do
  Exchanges.checkDifferent req
  Exchanges.checkMilitary e.math e.speedOf req (d.findVillage req.senderVillageId)
    (d.findVillage req.receiverVillageId)

/-- The tables after a callback of the deliveries. An item whose save fails goes back. -/
def deliver (d : Db C) (item : Exchanges.QueueItem) : Db C :=
  (Exchanges.receive d item).getD (Exchanges.giveBack d item)

/-- The tables after a tick of the producer, and whether the order goes on. -/
def produce (now : ℤ) (d : GameDb C) (token : Production.OrderToken) : GameDb C × Bool :=
  match Production.readRows (Production.selectRows d token) with
  | none => (d, false)
  | some sel =>
    if sel.due token then
      match Production.deliverUnit now d token sel with
      | some d' => (d', sel.continued token)
      | none => (d, false)
    else (d, false)

namespace World

variable (w : World C)

def setDb (d : Db C) : World C := { w with db := { w.db with toDb := d } }

end World

/-! ## The step -/

/-- One request, tick or callback. One that is refused, or that finds nothing, changes nothing. -/
def step (e : Env C) (w : World C) : Action → World C
  | .attack c dto =>
    match create e.math e.dev c w.db.toDb dto with
    | .ok dep => { w.setDb dep.db with attacks := w.attacks ++ [dep.token] }
    | .error _ => w
  | .fight k =>
    match w.attacks[k]? with
    | some token =>
      let resolved := resolve e.math w.db.toDb token
      { w.setDb resolved.1 with
        attacks := w.attacks.eraseIdx k
        returns := w.returns ++ resolved.2.toList }
    | none => w
  | .comeHome k =>
    match w.returns[k]? with
    | some token =>
      { w.setDb (comeHome w.db.toDb token) with returns := w.returns.eraseIdx k }
    | none => w
  | .send req unique =>
    match checkSend e w.db.toDb req with
    | .ok c =>
      { w.setDb (w.db.saveEntities c.senderLeft) with transfers := w.transfers ++ [c.item unique] }
    | .error _ => w
  | .deliver k =>
    match w.transfers[k]? with
    | some item =>
      { w.setDb (deliver w.db.toDb item) with transfers := w.transfers.eraseIdx k }
    | none => w
  | .exchange req => w.setDb (Exchanges.exchangeResourcesBetweenSameUserVillages w.db.toDb req).1
  | .transfer villageId facilityId req =>
    w.setDb (Storage.step villageId facilityId w.db.toDb req)
  | .order order =>
    match Production.checkOrder e.withVillage w.db order with
    | .ok c =>
      match Production.placeOrder w.db c with
      | some d => { w with db := d, orders := w.orders ++ [c.token w.db.orders.next] }
      | none => w
    | .error _ => w
  | .produce k now =>
    match w.orders[k]? with
    | some token =>
      let produced := produce now w.db token
      { w with
        db := produced.1
        orders := w.orders.eraseIdx k ++
          if produced.2 then [Production.Lifecycle.again token] else [] }
    | none => w
  | .upgrade facilityId userId =>
    match Facilities.checkUpgrade w.db facilityId userId with
    | .ok c => { w with db := Facilities.upgradeFacility w.db c }
    | .error _ => w
  | .build facility userId =>
    match Facilities.checkCreate e.facilityTypes w.db facility userId with
    | .ok c => { w with db := Facilities.create w.db c }
    | .error _ => w
  | .settle village isNew => w.setDb (w.db.createVillage village isNew)
  | .generate village => w.setDb (w.db.generateVillage village)

/-- Nothing is queued. -/
def start (d : GameDb C) : World C := ⟨d, [], [], [], []⟩

end Cme.Game
