import CmeBackend.Lib.Redis
import CmeBackend.Production.Producer

/-!
# Orders between the tables and the queues

The requests, the movers and the producer as workers that share the tables and the queues. A worker
makes one call at a time, and every call may fail. A transaction is one call: if one of its
statements fails, all of it is rolled back.

* `Worker`: the next call of a worker, with what it holds.
* `State.advance`: one call. The errors of `zadd` are caught.
* `NotStranded`: every order that is not delivered has a token.
* `Undisturbed`: the failures that leave no order behind.
-/

namespace Cme.Production.Lifecycle

open GameRules Redis Runs Weights

variable {C : Catalog}

/-- A worker, by its next call. -/
inductive Worker (C : Catalog) where
  /-- The transaction of `create`. -/
  | paying (c : CheckedOrder C)
  /-- `zadd` of a new order -/
  | queueing (c : CheckedOrder C) (orderId : ℕ)
  /-- The query of `produce`, for an item of `pending:resourceType`. -/
  | selecting (resourceType : String) (token : OrderToken)
  /-- The transaction of `produce`. One that starts while another runs is refused. -/
  | delivering (resourceType : String) (token : OrderToken) (sel : Selected)
  /-- `zadd` of an order that goes on -/
  | requeueing (resourceType : String) (token : OrderToken)
  | ended

structure State (C : Catalog) where
  db : GameDb C
  queues : Queues String OrderToken
  workers : List (Worker C)

inductive Action where
  /-- A request is loaded and checked. -/
  | create (order : CreateOrder)
  /-- A call of the mover of a type. -/
  | move (resourceType : String) (c : MoverCall)
  /-- `lpop` of the producer -/
  | pop (resourceType : MilitaryResource) (reply : Reply)
  /-- The next call of the worker `k`. -/
  | call (k : ℕ) (reply : Reply) (now : ℤ)
  /-- The process of the worker `k` stops. -/
  | stop (k : ℕ)

/-! ## The steps -/

namespace State

variable (s : State C)

def goto (k : ℕ) (w : Worker C) : State C := { s with workers := s.workers.set k w }

/-- A call of the worker `k`. `none`: the call cannot go through. -/
def execute (k : ℕ) (reply : Reply) (effect : Option (State C)) (next : Worker C) : State C :=
  match effect, reply with
  | some s', .ok => s'.goto k next
  | some s', .lost => s'.goto k .ended
  | _, _ => s.goto k .ended

end State

/-- After the query. More than one row is an error. -/
def selected (resourceType : String) (token : OrderToken) (sel : Option Selected) : Worker C :=
  match sel with
  | some sel => if sel.due token then .delivering resourceType token sel else .ended
  | none => .ended

/-- The item that `produce` queues again. -/
def again (token : OrderToken) : OrderToken := { token with action := "create" }

/-- After the transaction of `produce`. -/
def delivered (resourceType : String) (token : OrderToken) (sel : Selected) : Worker C :=
  if sel.continued token then .requeueing resourceType token else .ended

/-- The next call of the worker `k`, at the time `now`. -/
def State.advance (s : State C) (k : ℕ) (reply : Reply) (now : ℤ) : Worker C → State C
  | .paying c =>
    s.execute k reply ((placeOrder s.db c).map fun d => { s with db := d })
      (.queueing c s.db.orders.next)
  | .queueing c orderId =>
    let queues := s.queues.zadd c.resourceRequested.type (c.token orderId)
    s.execute k reply (some { s with queues }) .ended
  | .selecting resourceType token =>
    s.execute k reply (some s) (selected resourceType token (readRows (selectRows s.db token)))
  | .delivering resourceType token sel =>
    s.execute k reply ((deliverUnit now s.db token sel).map fun d => { s with db := d })
      (delivered resourceType token sel)
  | .requeueing resourceType token =>
    s.execute k reply (some { s with queues := s.queues.zadd resourceType (again token) }) .ended
  | .ended => s

/-- One step. The facility of a request is loaded with or without its village. -/
def step (withVillage : Bool) (s : State C) : Action → State C
  | .create order =>
    match checkOrder withVillage s.db order with
    | .ok c => { s with workers := s.workers ++ [.paying c] }
    | .error _ => s
  | .move resourceType c => { s with queues := s.queues.mover resourceType c }
  | .pop resourceType reply =>
    match reply, s.queues.lpop resourceType.name with
    | .ok, some (token, q) =>
      { s with queues := q, workers := s.workers ++ [.selecting resourceType.name token] }
    | .lost, some (_, q) => { s with queues := q }
    | _, _ => s
  | .call k reply now =>
    match s.workers[k]? with
    | some w => s.advance k reply now w
    | none => s
  | .stop k => s.goto k .ended

/-- No worker is under way. -/
def start (d : GameDb C) (queues : Queues String OrderToken) : State C := ⟨d, queues, []⟩

/-! ## The property and its condition -/

/-- An order that is not delivered yet. -/
def Open (o : Order C) : Prop := o.deliveredQuantity < o.orderedQuantity

instance (o : Order C) : Decidable (Open o) := inferInstanceAs (Decidable (_ < _))

/-- The order that a worker has in hand. -/
def Worker.orderId : Worker C → Option ℕ
  | .queueing _ orderId => some orderId
  | .selecting _ token | .delivering _ token _ | .requeueing _ token => some token.orderId
  | _ => none

/-- Whether a worker has an order in hand, as a number. -/
def Worker.holds (orderId : ℕ) (w : Worker C) : ℕ := if w.orderId = some orderId then 1 else 0

/-- The tokens of an order, in the delayed sets, in the pending lists and with the workers. -/
def State.tokens (s : State C) (orderId : ℕ) : ℕ :=
  s.queues.tokensOf orderId + weigh (Worker.holds orderId) s.workers

structure NotStranded (s : State C) : Prop where
  order : ∀ o ∈ s.db.orders.rows, Open o → s.tokens o.id = 1
  /-- A facility that is in production has an order with a token, which will free it. -/
  facility : ∀ f, (s.db.production f).isInProduction = true →
    ∃ o ∈ s.db.orders.rows, o.facilityId = f ∧ Open o ∧ s.tokens o.id = 1

/-- A call of a worker does not fail where the failure leaves an order behind, and the query finds
at most one row. -/
def Worker.Spared (s : State C) (reply : Reply) : Worker C → Prop
  | .paying _ => reply ≠ .lost
  | .queueing _ _ | .requeueing _ _ => reply ≠ .refused
  | .selecting _ token => reply = .ok ∧ (selectRows s.db token).length ≤ 1
  | .delivering _ token sel => reply = .ok ∨ reply = .lost ∧ sel.continued token = false
  | .ended => True

/-- No failure of the step leaves an order behind. -/
def Undisturbed (s : State C) : Action → Prop
  | .pop _ reply => reply ≠ .lost
  | .call k reply _ => ∀ w ∈ s.workers[k]?, w.Spared s reply
  | .stop k => ∀ w ∈ s.workers[k]?, w.orderId = none
  | _ => True

instance (s : State C) (reply : Reply) (w : Worker C) : Decidable (w.Spared s reply) :=
  match w with
  | .paying _ | .queueing _ _ | .requeueing _ _ => inferInstanceAs (Decidable (_ ≠ _))
  | .selecting _ _ => inferInstanceAs (Decidable (_ ∧ _))
  | .delivering _ _ _ => inferInstanceAs (Decidable (_ ∨ _ ∧ _))
  | .ended => isTrue trivial

instance (s : State C) (a : Action) : Decidable (Undisturbed s a) :=
  match a with
  | .pop _ _ => inferInstanceAs (Decidable (_ ≠ _))
  | .call _ _ _ | .stop _ => inferInstanceAs (Decidable (∀ w ∈ _, _))
  | .create _ | .move _ _ => isTrue trivial

end Cme.Production.Lifecycle
