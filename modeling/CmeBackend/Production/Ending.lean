import CmeBackend.Lib.Work
import CmeBackend.Production.Delivered

/-!
# Orders come to an end

An order takes five steps for each of its units: it is moved, taken, looked up, delivered, and queued
again. Nothing else is tried again, so every accepted request makes for a bounded number of steps.

* `left`, `State.work`: how many are left at most.
* `work_step`: a step does away with what it does.
* `orders_end`: in every run, no more is done than the tokens of the start and the accepted requests
  make for, and without further requests the run can come to rest.
* `finished_of_quiet`: at rest, if no failure has left an order behind, every order is delivered, and
  every facility is free.
-/

namespace Cme.Production.Lifecycle

open GameRules Redis Runs Weights Work

variable {C : Catalog} {withVillage : Bool} {d d' : GameDb C} {s : State C} {k : ℕ}
  {token : OrderToken} {o : Order C} {w w₀ : Worker C} {reply : Reply}

/-! ## What is left to do -/

/-- The steps that an order takes after the unit that is next. -/
def stepsAfter (o : Order C) : ℕ := 5 * (o.orderedQuantity - o.deliveredQuantity - 1).toNat

def left (d : GameDb C) (orderId : ℕ) : ℕ := ((d.orders.get? orderId).map stepsAfter).getD 0

/-- The steps that a request makes for: two of its own, and five for each unit, of which the last is not
queued again. -/
def stepsOf (c : CheckedOrder C) : ℕ := 6 + 5 * (c.orderedQuantity.num - 1).toNat

def Worker.work (d : GameDb C) : Worker C → ℕ
  | .paying c => stepsOf c
  | .queueing _ orderId => 5 + left d orderId
  | .requeueing _ token => 5 + left d token.orderId
  | .selecting _ token => 2 + left d token.orderId
  | .delivering _ token _ => 1 + left d token.orderId
  | .ended => 0

/-- What is left to do with a token that has been taken. -/
def taken (d : GameDb C) (token : OrderToken) : ℕ := 2 + left d token.orderId

namespace State

def work (s : State C) : ℕ := weigh (Worker.work s.db) s.workers + s.queues.load (taken s.db)

/-- No worker has anything to do, and no token waits. -/
def Quiet (s : State C) : Prop :=
  (∀ w ∈ s.workers, w.work s.db = 0) ∧ s.queues.delayed = [] ∧ s.queues.pending = []

instance (s : State C) : Decidable s.Quiet := inferInstanceAs (Decidable (_ ∧ _ ∧ _))

theorem work_eq_zero_iff : s.work = 0 ↔ s.Quiet := by
  unfold work Quiet
  rw [Nat.add_eq_zero_iff, weigh_eq_zero_iff, Queues.load_eq_zero_iff]

end State

/-! ## What a step does -/

/-- Whether a step does something: a call of a worker that has not ended, or its end, a token that is
moved, and one that is taken. -/
def does (s : State C) : Action → Bool
  | .create _ => false
  | .move resourceType c => s.queues.moves resourceType c
  | .pop resourceType reply => reply ≠ .refused ∧ (s.queues.lpop resourceType.name).isSome
  | .call k _ _ | .stop k => s.workers[k]?.any fun w => w.work s.db ≠ 0

/-- The steps that a request makes for. -/
def asks (withVillage : Bool) (s : State C) : Action → ℕ
  | .create order =>
    match checkOrder withVillage s.db order with
    | .ok c => stepsOf c
    | .error _ => 0
  | _ => 0

/-- The steps of a run that do something. -/
def done (withVillage : Bool) (s : State C) (as : List Action) : ℕ :=
  spent (step withVillage) (fun s a => (does s a).toNat) s as

/-- The steps that the accepted requests of a run make for. -/
def asked (withVillage : Bool) (s : State C) (as : List Action) : ℕ :=
  spent (step withVillage) (asks withVillage) s as

/-! ## One step -/

/-- A worker does not notice a step that changes the order of another. -/
theorem left_keeps {orderId id : ℕ} (h : Keeps orderId d d') (hne : id ≠ orderId) :
    left d' id = left d id := by
  unfold left
  rw [h.orders id hne]

theorem work_keeps {orderId : ℕ} (h : Keeps orderId d d') (hne : w.orderId ≠ some orderId) :
    w.work d' = w.work d := by
  cases w with
  | paying c => rfl
  | ended => rfl
  | queueing c id => simp [Worker.work, left_keeps h fun heq => hne (congrArg some heq)]
  | _ => simp [Worker.work, left_keeps h fun heq => hne (congrArg some heq)]

/-- A worker goes on. What it queues is left to do too. -/
theorem work_goto_lt {q : Queues String OrderToken} {n : ℕ} (hk : s.workers[k]? = some w₀)
    (hothers : ∀ j x, j ≠ k → s.workers[j]? = some x → x.work d' = x.work s.db)
    (hload : q.load (taken d') ≤ s.queues.load (taken s.db) + n)
    (hlt : w.work d' + n < w₀.work s.db) :
    (({ s with db := d', queues := q } : State C).goto k w).work < s.work := by
  have hset := weigh_set_of_ne (b := w) hk hothers
  show weigh (Worker.work d') (s.workers.set k w) + q.load (taken d') <
    weigh (Worker.work s.db) s.workers + s.queues.load (taken s.db)
  omega

theorem work_drop_lt (hk : s.workers[k]? = some w) (hw : w.work s.db ≠ 0) :
    (s.goto k .ended).work < s.work :=
  work_goto_lt hk (fun _ _ _ _ => rfl) (Nat.le_add_right _ 0) (Nat.pos_of_ne_zero hw)

theorem work_execute_lt {effect : Option (State C)} {next : Worker C}
    (hk : s.workers[k]? = some w) (hw : w.work s.db ≠ 0)
    (heffect : ∀ s' ∈ effect, (s'.goto k next).work < s.work ∧ (s'.goto k .ended).work < s.work) :
    (s.execute k reply effect next).work < s.work := by
  unfold State.execute
  split
  next s' => exact (heffect s' rfl).1
  next s' => exact (heffect s' rfl).2
  · exact work_drop_lt hk hw

/-- A worker queues its order. -/
theorem work_queue_lt (token : OrderToken) (hk : s.workers[k]? = some w)
    (hw : w.work s.db = 5 + left s.db token.orderId) (resourceType : String) :
    (s.execute k reply (some { s with queues := s.queues.zadd resourceType token }) .ended).work <
      s.work := by
  have hload : (s.queues.zadd resourceType token).load (taken s.db) ≤
      s.queues.load (taken s.db) + (taken s.db token + 2) := Queues.load_zadd_le
  have htaken : taken s.db token = 2 + left s.db token.orderId := rfl
  refine work_execute_lt hk (by omega) ?_
  rintro s' ⟨⟩
  have hlt : (Worker.ended : Worker C).work s.db + (taken s.db token + 2) < w.work s.db := by
    show 0 + _ < _
    omega
  exact ⟨work_goto_lt hk (fun _ _ _ _ => rfl) hload hlt,
    work_goto_lt hk (fun _ _ _ _ => rfl) hload hlt⟩

theorem left_of_get? {orderId : ℕ} (h : d.orders.get? orderId = some o) :
    left d orderId = stepsAfter o := by
  unfold left
  rw [h]
  rfl

/-- The transaction of a request: the steps of its order are left. -/
theorem work_paying_lt (h : Held s) {c : CheckedOrder C} (hk : s.workers[k]? = some (.paying c))
    (hplace : placeOrder s.db c = some d') :
    (({ s with db := d' } : State C).goto k (.queueing c s.db.orders.next)).work < s.work ∧
      (({ s with db := d' } : State C).goto k .ended).work < s.work := by
  have hkeeps := keeps_placeOrder hplace
  have hnext : openOrders s.db s.db.orders.next = 0 := by
    unfold openOrders
    rw [Table.get?_next]
    rfl
  have hothers : ∀ j x, j ≠ k → s.workers[j]? = some x → x.work d' = x.work s.db := by
    refine fun j x _ hx => work_keeps hkeeps fun hid => ?_
    have hone := (h.only hx hid).1
    omega
  have hload : s.queues.load (taken d') = s.queues.load (taken s.db) := by
    refine Queues.load_congr (h.tasks.imp fun token hknown => ?_)
    obtain ⟨o, hvalid⟩ := hknown
    refine congrArg (2 + ·) (left_keeps hkeeps fun heq => ?_)
    have hget := heq ▸ hvalid.order
    rw [Table.get?_next] at hget
    cases hget
  have hnew : left d' s.db.orders.next = 5 * (c.orderedQuantity.num - 1).toNat := by
    obtain ⟨amounts, -, -, rfl⟩ := placeOrder_eq_some.1 hplace
    rw [left_of_get? (Table.get?_insert_self (t := s.db.orders))]
    simp [stepsAfter]
  have hwork : (Worker.paying c : Worker C).work s.db =
      6 + 5 * (c.orderedQuantity.num - 1).toNat := rfl
  constructor
  · refine work_goto_lt (n := 0) hk hothers hload.le ?_
    simp only [Worker.work, stepsOf, hnew]
    omega
  · refine work_goto_lt (n := 0) hk hothers hload.le ?_
    simp only [Worker.work, stepsOf]
    omega

/-- The transaction of a tick: the order has one unit less to go. -/
theorem work_delivering_lt (h : Held s) {resourceType : String} {sel : Selected}
    (hk : s.workers[k]? = some (.delivering resourceType token sel))
    (hwrites : Counted s.db d' token sel) :
    (({ s with db := d' } : State C).goto k (delivered resourceType token sel)).work < s.work ∧
      (({ s with db := d' } : State C).goto k .ended).work < s.work := by
  obtain ⟨o, hvalid, hcount, hrows⟩ := h.workers _ (List.mem_of_getElem? hk)
  obtain ⟨o', hvalid', hopen'⟩ := hwrites.order hvalid hcount hrows
  have hopen : o.deliveredQuantity < o.orderedQuantity := h.open_of_only hk rfl hvalid.order
  obtain ⟨-, hzero, hne⟩ := h.only hk rfl
  have hothers : ∀ j x, j ≠ k → s.workers[j]? = some x → x.work d' = x.work s.db :=
    fun j x hj hx => work_keeps hwrites.keeps (hne j x hj hx)
  have hload : s.queues.load (taken d') = s.queues.load (taken s.db) :=
    Queues.load_congr ((Queues.all_of_tokensOf hzero).imp fun _ hother =>
      congrArg (2 + ·) (left_keeps hwrites.keeps hother))
  have hget : d'.orders.get? token.orderId =
      some { o with deliveredQuantity := o.deliveredQuantity + 1 } := by
    rw [hwrites.orders]
    exact Table.get?_update_self hvalid.order
  have hbefore : left s.db token.orderId =
      5 * (o.orderedQuantity - o.deliveredQuantity - 1).toNat := left_of_get? hvalid.order
  have hafter : left d' token.orderId =
      5 * (o.orderedQuantity - (o.deliveredQuantity + 1) - 1).toNat := left_of_get? hget
  have ho' : o'.orderedQuantity = o.orderedQuantity ∧
      o'.deliveredQuantity = o.deliveredQuantity + 1 := by
    obtain rfl := Option.some.inj (hvalid'.order.symm.trans hget)
    exact ⟨rfl, rfl⟩
  constructor
  · refine work_goto_lt (n := 0) hk hothers hload.le ?_
    unfold delivered
    split
    next hcontinued =>
      have hgoes : o'.deliveredQuantity < o'.orderedQuantity := hopen'.2 hcontinued
      simp only [Worker.work, hbefore, hafter]
      omega
    next => simp [Worker.work]
  · exact work_goto_lt (n := 0) hk hothers hload.le (by simp [Worker.work])

/-- Every call of a worker that has not ended does something. -/
theorem work_advance_lt (h : Held s) (hk : s.workers[k]? = some w) (hw : w.work s.db ≠ 0)
    (now : ℤ) : (s.advance k reply now w).work < s.work := by
  cases w with
  | paying c =>
    refine work_execute_lt hk hw fun s' hs' => ?_
    obtain ⟨d', hplace, rfl⟩ := Option.map_eq_some_iff.1 hs'
    exact work_paying_lt h hk hplace
  | queueing c orderId => exact work_queue_lt (c.token orderId) hk rfl c.resourceRequested.type
  | selecting resourceType token =>
    refine work_execute_lt hk hw ?_
    rintro s' ⟨⟩
    refine ⟨work_goto_lt (n := 0) hk (fun _ _ _ _ => rfl) le_rfl ?_, work_drop_lt hk hw⟩
    unfold selected
    split
    · split <;> simp [Worker.work]
    · simp [Worker.work]
  | delivering resourceType token sel =>
    refine work_execute_lt hk hw fun s' hs' => ?_
    obtain ⟨d', hdeliver, rfl⟩ := Option.map_eq_some_iff.1 hs'
    exact work_delivering_lt h hk (delivers_of_deliverUnit hdeliver).toCounted
  | requeueing resourceType token =>
    exact work_queue_lt (again token) hk rfl resourceType
  | ended => exact absurd rfl hw

/-- A step does away with what it does. -/
theorem work_step (withVillage : Bool) (h : Held s) (a : Action) :
    (step withVillage s a).work + (does s a).toNat ≤ s.work + asks withVillage s a := by
  cases a with
  | create order =>
    cases hcheck : checkOrder withVillage s.db order with
    | error reason => simp [step, does, asks, hcheck]
    | ok c =>
      have hadded : weigh (Worker.work s.db) (s.workers ++ [.paying c]) =
          weigh (Worker.work s.db) s.workers + stepsOf c := weigh_append_singleton
      simp only [step, does, asks, hcheck, State.work, hadded, Bool.toNat_false]
      omega
  | move resourceType c =>
    have hload : (s.queues.mover resourceType c).load (taken s.db) +
        (s.queues.moves resourceType c).toNat = s.queues.load (taken s.db) :=
      Queues.load_mover h.queues c
    simp only [step, does, asks, State.work]
    omega
  | pop resourceType reply =>
    cases hpop : s.queues.lpop resourceType.name with
    | none => cases reply <;> simp [step, does, asks, hpop]
    | some p =>
      obtain ⟨token, q⟩ := p
      have hload := Queues.load_lpop (w := taken s.db) hpop
      have hadded : weigh (Worker.work s.db) (s.workers ++ [.selecting resourceType.name token]) =
          weigh (Worker.work s.db) s.workers + taken s.db token := weigh_append_singleton
      cases reply <;> simp [step, does, asks, hpop, State.work, hadded] <;> omega
  | call k reply now =>
    cases hk : s.workers[k]? with
    | none => simp [step, does, asks, hk]
    | some w =>
      by_cases hw : w.work s.db = 0
      · have hended : s.advance k reply now w = s := by
          cases w <;> simp_all [State.advance, Worker.work, stepsOf]
        simp [step, does, asks, hk, hw, hended]
      · have hlt : (s.advance k reply now w).work < s.work := work_advance_lt h hk hw now
        simp [step, does, asks, hk, hw]
        omega
  | stop k =>
    cases hk : s.workers[k]? with
    | none => simp [step, does, asks, hk, goto_of_none hk]
    | some w =>
      by_cases hw : w.work s.db = 0
      · have hset := weigh_set (w := Worker.work s.db) (b := .ended) hk
        have hgoto : (s.goto k .ended).work =
            weigh (Worker.work s.db) (s.workers.set k .ended) + s.queues.load (taken s.db) := rfl
        have hzero : (Worker.ended : Worker C).work s.db = 0 := rfl
        simp [step, does, asks, hk, hw]
        unfold State.work at hgoto ⊢
        omega
      · have hlt := work_drop_lt hk hw
        simp [step, does, asks, hk, hw]
        omega

/-! ## The names of the queues -/

/-- The producer asks for the units by their names. -/
def Military (name : String) : Prop := ∃ u : MilitaryResource, u.name = name

def Worker.Named : Worker C → Prop
  | .paying c | .queueing c _ => Military c.resourceRequested.type
  | .selecting resourceType _ | .delivering resourceType _ _ | .requeueing resourceType _ =>
    Military resourceType
  | .ended => True

/-- Every token is in a queue that the producer takes from. -/
structure Named (s : State C) : Prop where
  queues : s.queues.Names Military
  workers : ∀ w ∈ s.workers, w.Named

theorem Named.start {queues : Queues String OrderToken} (h : queues.Names Military) :
    Named (start d queues) :=
  ⟨h, fun _ hw => absurd hw List.not_mem_nil⟩

theorem Named.goto (h : Named s) (hw : w.Named) : Named (s.goto k w) :=
  ⟨h.queues, forall_mem_set h.workers hw⟩

theorem Named.execute {effect : Option (State C)} {next : Worker C} (h : Named s)
    (heffect : ∀ s' ∈ effect, Named s') (hnext : next.Named) :
    Named (s.execute k reply effect next) := by
  unfold State.execute
  split
  next s' => exact (heffect s' rfl).goto hnext
  next s' => exact (heffect s' rfl).goto trivial
  · exact h.goto trivial

theorem Named.advance (h : Named s) (hw : w.Named) (now : ℤ) : Named (s.advance k reply now w) := by
  cases w with
  | paying c =>
    refine h.execute (fun s' hs' => ?_) hw
    obtain ⟨d', -, rfl⟩ := Option.map_eq_some_iff.1 hs'
    exact ⟨h.queues, h.workers⟩
  | queueing c orderId =>
    exact h.execute (by rintro s' ⟨⟩; exact ⟨h.queues.zadd hw _, h.workers⟩) trivial
  | selecting resourceType token =>
    refine h.execute (by rintro s' ⟨⟩; exact h) ?_
    unfold selected
    split
    · split
      · exact hw
      · trivial
    · trivial
  | delivering resourceType token sel =>
    refine h.execute (fun s' hs' => ?_) ?_
    · obtain ⟨d', -, rfl⟩ := Option.map_eq_some_iff.1 hs'
      exact ⟨h.queues, h.workers⟩
    · unfold delivered
      split
      · exact hw
      · trivial
  | requeueing resourceType token =>
    exact h.execute (by rintro s' ⟨⟩; exact ⟨h.queues.zadd hw _, h.workers⟩) trivial
  | ended => exact h

theorem Named.step (h : Named s) (hheld : Held s) (a : Action) : Named (step withVillage s a) := by
  cases a with
  | create order =>
    simp only [Lifecycle.step]
    split
    next c hcheck =>
      exact ⟨h.queues, List.forall_mem_append.2 ⟨h.workers, List.forall_mem_singleton.2
        ⟨c.unit, (checkOrder_eq_ok hcheck).unit⟩⟩⟩
    · exact h
  | move resourceType c => exact ⟨Queues.Names.mover hheld.queues h.queues _ c, h.workers⟩
  | pop resourceType reply =>
    simp only [Lifecycle.step]
    split
    next hpop =>
      exact ⟨h.queues.lpop hpop, List.forall_mem_append.2 ⟨h.workers, List.forall_mem_singleton.2
        ⟨resourceType, rfl⟩⟩⟩
    next hpop => exact ⟨h.queues.lpop hpop, h.workers⟩
    · exact h
  | call k reply now =>
    simp only [Lifecycle.step]
    split
    next w hk => exact h.advance (h.workers w (List.mem_of_getElem? hk)) now
    · exact h
  | stop k => exact h.goto trivial

/-! ## Coming to rest -/

/-- A step that does not fail, other than a request. -/
def Smooth : Action → Prop
  | .move _ c => c ≠ .move .refused ∧ c ≠ .move .lost
  | .pop _ reply | .call _ reply _ => reply = .ok
  | .create _ | .stop _ => False

theorem work_step_le (withVillage : Bool) (h : Held s) {a : Action} (ha : Smooth a) :
    (step withVillage s a).work + (does s a).toNat ≤ s.work := by
  have hstep := work_step withVillage h a
  cases a with
  | create order => cases ha
  | _ => exact hstep

/-- Some steps that do not fail do away with work. -/
def Progress (withVillage : Bool) (s : State C) : Prop :=
  ∃ as : List Action, (∀ a ∈ as, Smooth a) ∧ (as.foldl (step withVillage) s).work < s.work

/-- A mover starts on a token and moves it. -/
theorem progress_of_delayed (h : Held s) {a : String × OrderToken} (ha : a ∈ s.queues.delayed) :
    Progress withVillage s := by
  obtain ⟨name, token⟩ := a
  have hstopped : Held (step withVillage s (.move name .stop)) := h.step _
  have hstarted : Held (step withVillage (step withVillage s (.move name .stop))
      (.move name (.start [token.orderId]))) := hstopped.step _
  have hstop := work_step_le withVillage h (a := .move name .stop) (by simp [Smooth])
  have hstart := work_step_le withVillage hstopped (a := .move name (.start [token.orderId]))
    (by simp [Smooth])
  have hmove := work_step_le withVillage hstarted (a := .move name (.move .ok)) (by simp [Smooth])
  have hmoves : ((s.queues.stopMove name).startMove name [token.orderId]).hasNext name :=
    Queues.hasNext_start ha
  have hdoes : does (step withVillage (step withVillage s (.move name .stop))
      (.move name (.start [token.orderId]))) (.move name (.move .ok)) = true := hmoves
  rw [hdoes, Bool.toNat_true] at hmove
  refine ⟨[.move name .stop, .move name (.start [token.orderId]), .move name (.move .ok)],
    by simp [Smooth], ?_⟩
  simp only [List.foldl_cons, List.foldl_nil]
  omega

/-- Where something is left to do, something can be done. -/
theorem progress_of_work (h : Held s) (hnamed : Named s) (hwork : s.work ≠ 0) :
    Progress withVillage s := by
  have hone : ∀ a, Smooth a → does s a → Progress withVillage s := by
    intro a ha hdoes
    have hle := work_step_le withVillage h ha
    rw [hdoes] at hle
    exact ⟨[a], List.forall_mem_singleton.2 ha, hle⟩
  by_cases hbusy : ∀ w ∈ s.workers, w.work s.db = 0
  · by_cases hpending : s.queues.pending = []
    · by_cases hdelayed : s.queues.delayed = []
      · exact absurd (State.work_eq_zero_iff.2 ⟨hbusy, hdelayed, hpending⟩) hwork
      · obtain ⟨a, ha⟩ := List.exists_mem_of_ne_nil _ hdelayed
        exact progress_of_delayed h ha
    · obtain ⟨a, ha⟩ := List.exists_mem_of_ne_nil _ hpending
      obtain ⟨u, hu⟩ := hnamed.queues.2 a ha
      have hpop : (s.queues.lpop u.name).isSome := Queues.lpop_isSome_iff.2 ⟨a, ha, hu.symm⟩
      exact hone (.pop u .ok) rfl (by simp [does, hpop])
  · push Not at hbusy
    obtain ⟨w, hw, hne⟩ := hbusy
    obtain ⟨k, hk⟩ := List.mem_iff_getElem?.1 hw
    exact hone (.call k .ok 0) rfl (by simp [does, hk, hne])

/-- **Orders come to an end.** In every run, whatever fails and in whatever order the steps come, the
workers and the queues do no more than what the tokens of the start have left, and five things for each
unit that an accepted request asks for, and one for the request. And from wherever a run has come, it
comes to rest by steps that do not fail, without further requests. -/
theorem orders_end {queues : Queues String OrderToken} (hheld : Held (start d queues))
    (hnamed : queues.Names Military) (as : List Action) :
    done withVillage (start d queues) as ≤
        queues.load (taken d) + asked withVillage (start d queues) as ∧
      ∃ bs : List Action, (∀ a ∈ bs, Smooth a) ∧
        ((as ++ bs).foldl (step withVillage) (start d queues)).Quiet := by
  have hinv : ∀ (s : State C) a, Held s ∧ Named s →
      Held (step withVillage s a) ∧ Named (step withVillage s a) :=
    fun s a h => ⟨h.1.step a, h.2.step h.1 a⟩
  have hstart : Held (start d queues) ∧ Named (start d queues) := ⟨hheld, .start hnamed⟩
  have hwork : (start d queues).work = queues.load (taken d) := Nat.zero_add _
  constructor
  · have hspent := spent_add_le (fun s : State C => Held s ∧ Named s) State.work hinv
      (fun _ a h => work_step withVillage h.1 a) hstart as
    rw [hwork] at hspent
    exact Nat.le_of_add_right_le hspent
  · have hend := foldl_inv (I := fun s : State C => Held s ∧ Named s) hstart hinv as
    obtain ⟨bs, hbs, hrest⟩ := exists_rest (fun s : State C => Held s ∧ Named s) State.work Smooth
      hinv (fun _ h hwork => progress_of_work h.1 h.2 hwork) hend
    refine ⟨bs, hbs, ?_⟩
    rw [List.foldl_append]
    exact State.work_eq_zero_iff.1 hrest

/-! ## At rest -/

/-- All orders are delivered as they were ordered, and every facility is free. -/
structure Finished (d : GameDb C) : Prop where
  orders : ∀ o ∈ d.orders.rows, o.deliveredQuantity = o.orderedQuantity
  facilities : ∀ f, (d.production f).isInProduction = false

/-- No order has got more than it has asked for. -/
def Bounded (d : GameDb C) : Prop := ∀ o ∈ d.orders.rows, o.deliveredQuantity ≤ o.orderedQuantity

theorem bounded_execute {effect : Option (State C)} {next : Worker C} (h : Bounded s.db)
    (heffect : ∀ s' ∈ effect, Bounded s'.db) : Bounded (s.execute k reply effect next).db := by
  unfold State.execute
  split
  next s' => exact heffect s' rfl
  next s' => exact heffect s' rfl
  · exact h

/-- A tick delivers a unit of an order that is open. -/
theorem bounded_delivered (h : Held s) (hbounded : Bounded s.db) {resourceType : String}
    {sel : Selected} (hk : s.workers[k]? = some (.delivering resourceType token sel))
    (hwrites : Counted s.db d' token sel) : Bounded d' := by
  obtain ⟨o, hvalid, -, -⟩ := h.workers _ (List.mem_of_getElem? hk)
  have hopen : o.deliveredQuantity < o.orderedQuantity := h.open_of_only hk rfl hvalid.order
  obtain ⟨ho, hid⟩ := Table.get?_eq_some.1 hvalid.order
  let one (o : Order C) : Order C := { o with deliveredQuantity := o.deliveredQuantity + 1 }
  unfold Bounded
  rw [hwrites.orders]
  exact Table.forall_mem_update (f := one) (fun _ => rfl) ho hid hopen fun x hx _ => hbounded x hx

theorem bounded_advance (h : Held s) (hbounded : Bounded s.db) (hk : s.workers[k]? = some w)
    (now : ℤ) : Bounded (s.advance k reply now w).db := by
  cases w with
  | paying c =>
    refine bounded_execute hbounded fun s' hs' => ?_
    obtain ⟨d', hplace, rfl⟩ := Option.map_eq_some_iff.1 hs'
    exact (pays_placeOrder hplace (h.workers _ (List.mem_of_getElem? hk))).quantity hbounded
  | delivering resourceType token sel =>
    refine bounded_execute hbounded fun s' hs' => ?_
    obtain ⟨d', hdeliver, rfl⟩ := Option.map_eq_some_iff.1 hs'
    exact bounded_delivered h hbounded hk (delivers_of_deliverUnit hdeliver).toCounted
  | ended => exact hbounded
  | _ => exact bounded_execute hbounded (by rintro s' ⟨⟩; exact hbounded)

theorem bounded_step (h : Held s) (hbounded : Bounded s.db) (a : Action) :
    Bounded (step withVillage s a).db := by
  cases a with
  | call k reply now =>
    simp only [step]
    split
    next w hk => exact bounded_advance h hbounded hk now
    · exact hbounded
  | move resourceType c => exact hbounded
  | stop k => exact hbounded
  | _ =>
    simp only [step]
    split <;> exact hbounded

/-- At rest, no order has a token. -/
theorem tokens_of_quiet (h : s.Quiet) (id : ℕ) : s.tokens id = 0 := by
  obtain ⟨hworkers, hdelayed, hpending⟩ := h
  have hheld : weigh (Worker.holds id) s.workers = 0 := by
    refine weigh_eq_zero fun w hw => ?_
    have hended := hworkers w hw
    cases w <;> simp_all [Worker.work, Worker.holds, Worker.orderId, stepsOf]
  simp [State.tokens, hheld, Queues.tokensOf, Queues.census, hdelayed, hpending]

/-- **At rest.** After a run in which no failure leaves an order behind, from a start where each open
order has one token, when nothing is left to do every order is delivered as it was ordered, and every
facility is free. -/
theorem finished_of_quiet {queues : Queues String OrderToken} (hheld : Held (start d queues))
    (hstart : NotStranded (start d queues)) (hd : Bounded d) {as : List Action}
    (hrun : Meets (step withVillage) Undisturbed (start d queues) as)
    (hquiet : (as.foldl (step withVillage) (start d queues)).Quiet) :
    Finished (as.foldl (step withVillage) (start d queues)).db := by
  have hinv : Inv (as.foldl (step withVillage) (start d queues)) ∧
      Bounded (as.foldl (step withVillage) (start d queues)).db :=
    hrun.inv (I := fun s => Inv s ∧ Bounded s.db) ⟨.of_notStranded hheld hstart, hd⟩
      fun s a h hok => ⟨h.1.step hok, bounded_step h.1.held h.2 a⟩
  have htokens := tokens_of_quiet hquiet
  generalize as.foldl (step withVillage) (start d queues) = s at *
  obtain ⟨hinv, hbounded⟩ := hinv
  have hclosed : ∀ o ∈ s.db.orders.rows, ¬Open o := by
    intro o ho hopen
    have hget : s.db.orders.get? o.id = some o := Table.get?_eq_some.2 ⟨ho, rfl⟩
    have hone := hinv.tokens o.id
    rw [htokens, openOrders_of_get? hget, if_pos hopen] at hone
    cases hone
  constructor
  · exact fun o ho => le_antisymm (hbounded o ho) (not_lt.1 (hclosed o ho))
  · intro f
    by_contra hbusy
    obtain ⟨o, ho, -, hopen⟩ := hinv.facility f (eq_true_of_ne_false hbusy)
    exact hclosed o ho hopen

/-! ## Two units -/

/-- Two units make for eleven steps, with the two of their request. -/
example :
    let as : List Action :=
      [.create ⟨1, 2, "stone_hunter"⟩, .call 0 .ok 1000, .call 0 .ok 1000] ++
        sampleTick 1 .ok ++ sampleTick 2 .ok
    done true (start sampleBarrack Queues.empty) as = 11 ∧
      asked true (start sampleBarrack Queues.empty) as = 11 := by
  decide +kernel

/-- A token of two units has nine steps left. -/
theorem orders_end_sample :
    done false (start sampleOrdered sampleQueues) (sampleTick 0 .ok) ≤ 9 ∧
      ∃ bs : List Action, (∀ a ∈ bs, Smooth a) ∧
        ((sampleTick 0 .ok ++ bs).foldl (step false) (start sampleOrdered sampleQueues)).Quiet := by
  have hname : Military "stone_hunter" := ⟨.stoneHunter, rfl⟩
  obtain ⟨hdone, hrest⟩ := @orders_end sampleCatalog false sampleOrdered sampleQueues
    held_sampleOrdered (Queues.names_empty.zadd hname _) (sampleTick 0 .ok)
  exact ⟨hdone.trans (by decide +kernel), hrest⟩

theorem bounded_sampleOrdered : Bounded sampleOrdered := by
  unfold Bounded
  decide

theorem finished_of_quiet_sample :
    Finished (after (sampleTick 0 .ok ++ sampleTick 1 .ok)).db ∧
      (after (sampleTick 0 .ok ++ sampleTick 1 .ok)).db.orders.rows.map
        Order.deliveredQuantity = [2] :=
  ⟨finished_of_quiet held_sampleOrdered notStranded_sampleOrdered bounded_sampleOrdered
      (by decide +kernel) (by decide +kernel),
    by decide +kernel⟩

end Cme.Production.Lifecycle
