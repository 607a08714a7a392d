import CmeBackend.Lib.Runs
import CmeBackend.Lib.Weights
import Mathlib.Data.Rat.Floor

/-!
# Movers of a delayed set

Calls of `moveFromZsetToList` (`scheduler.service.ts`) on one sorted set, each under the lock of
`RedlockService.attempt` (`redlock.service.ts`). The set is read by one command, and every member
that is due is pushed and removed by a transaction of its own, whether it is still in the set or
not. The lock is a key that expires, and a mover does not notice when it does.

* `Mover`: the next command of a mover.
* `step`: one command of one mover. The commands come in any order, and every one may fail.
* `InSet`: a member that is pushed is still in the set.
* `pushed_at_most_once_iff`: a run pushes no member twice exactly if all its pushes are such.
* `pushed_at_most_once_of_held`: they are if the lock does not expire while its mover works.
-/

namespace Cme.Scheduler

open Runs Weights

/-- A member of a sorted set with its score. -/
structure Item where
  member : String
  score : ℚ

/-- A sorted set, in the order of its scores. -/
structure Zset where
  items : List Item
  nodup : (items.map Item.member).Nodup
  sorted : items.Pairwise fun a b => a.score ≤ b.score

namespace Zset

def members (z : Zset) : List String := z.items.map Item.member

/-- `ZRANGE key start stop WITHSCORES` -/
def zrange (z : Zset) (start stop : ℕ) : List Item := (z.items.drop start).take (stop + 1 - start)

/-- `ZREM key member` -/
def zrem (z : Zset) (member : String) : Zset where
  items := z.items.filter fun i => i.member ≠ member
  nodup := z.nodup.sublist (List.filter_sublist.map _)
  sorted := z.sorted.filter _

theorem sublist_zrange (z : Zset) (start stop : ℕ) : (z.zrange start stop).Sublist z.items :=
  (List.take_sublist _ _).trans (List.drop_sublist _ _)

theorem mem_zrem {z : Zset} {member m : String} :
    m ∈ (z.zrem member).members ↔ m ∈ z.members ∧ m ≠ member := by
  simp only [members, zrem, List.mem_map, List.mem_filter, decide_eq_true_eq]
  constructor
  · rintro ⟨i, ⟨hi, hne⟩, rfl⟩
    exact ⟨⟨i, hi, rfl⟩, hne⟩
  · rintro ⟨⟨i, hi, rfl⟩, hne⟩
    exact ⟨i, ⟨hi, hne⟩, rfl⟩

end Zset

/-! ## The movers -/

/-- `parseInt` of the text of a score. -/
def parseInt (score : ℚ) : ℤ := if score < 0 then ⌈score⌉ else ⌊score⌋

/-- A call of `attempt` with `moveFromZsetToList` as its callback, by its next command. -/
inductive Mover where
  /-- `SET resource value NX PX ttl` -/
  | locking
  /-- `ZRANGE` -/
  | reading
  /-- `MULTI`, `RPUSH`, `ZREM`, `EXEC` for an item that was due at the time `now`. -/
  | moving (now : ℤ) (item : Item) (rest : List Item)
  /-- The script that deletes the lock if it has the value of the mover. -/
  | unlocking
  | ended

/-- The loop goes on with the items that are left. -/
def next (now : ℤ) : List Item → Mover
  | [] => .unlocking
  | item :: rest => if parseInt item.score > now then .unlocking else .moving now item rest

structure State where
  zset : Zset
  pending : List String
  /-- The mover whose value the lock has. -/
  lock : Option ℕ
  movers : List Mover

inductive Action where
  /-- A tick of the cron calls `attempt`. -/
  | start
  /-- The next command of the mover `k`. -/
  | call (k : ℕ) (reply : Reply) (now : ℤ)
  /-- The time to live of the lock is over. -/
  | expire
  /-- The process of the mover `k` stops. -/
  | stop (k : ℕ)

namespace State

variable (s : State)

def goto (k : ℕ) (m : Mover) : State := { s with movers := s.movers.set k m }

/-- The transaction of an item. -/
def push (member : String) : State :=
  { s with zset := s.zset.zrem member, pending := s.pending ++ [member] }

/-- The mover `k` asks for the lock. A lock whose answer is lost is never released. -/
def acquire (k : ℕ) (reply : Reply) : State :=
  match s.lock, reply with
  | none, .ok => { s with lock := some k }.goto k .reading
  | none, .lost => { s with lock := some k }.goto k .ended
  | _, _ => s.goto k .ended

/-- The lock of the mover `k` is released. -/
def unlock (k : ℕ) : State := { s with lock := if s.lock = some k then none else s.lock }

/-- The next command of the mover `k`, with the bounds of the range. An error of a command in the
callback goes to `attempt`, which releases the lock. -/
def advance (start stop : ℕ) (k : ℕ) (reply : Reply) (now : ℤ) : Mover → State
  | .locking => s.acquire k reply
  | .reading =>
    match reply with
    | .ok => s.goto k (next now (s.zset.zrange start stop))
    | .refused | .lost => s.goto k .unlocking
  | .moving now item rest =>
    match reply with
    | .ok => (s.push item.member).goto k (next now rest)
    | .refused => s.goto k .unlocking
    | .lost => (s.push item.member).goto k .unlocking
  | .unlocking =>
    match reply with
    | .ok | .lost => (s.unlock k).goto k .ended
    | .refused => s.goto k .ended
  | .ended => s

end State

/-- One step. -/
def step (start stop : ℕ) (s : State) : Action → State
  | .start => { s with movers := s.movers ++ [.locking] }
  | .call k reply now =>
    match s.movers[k]? with
    | some m => s.advance start stop k reply now m
    | none => s
  | .expire => { s with lock := none }
  | .stop k => s.goto k .ended

/-- No mover has started. -/
def initial (z : Zset) (pending : List String) : State := ⟨z, pending, none, []⟩

/-! ## The property and its condition -/

/-- No member has been pushed twice to what was pending. -/
def PushedAtMostOnce (pending : List String) (s : State) : Prop :=
  ∀ member, s.pending.count member ≤ pending.count member + 1

/-- The command of a mover finds the member that it pushes in the set. -/
def Mover.InSet (s : State) (reply : Reply) : Mover → Prop
  | .moving _ item _ => reply ≠ .refused → item.member ∈ s.zset.members
  | _ => True

/-- A member that is pushed is in the set. -/
def InSet (s : State) : Action → Prop
  | .call k reply _ => ∀ m ∈ s.movers[k]?, m.InSet s reply
  | _ => True

instance (s : State) (reply : Reply) (m : Mover) : Decidable (m.InSet s reply) :=
  match m with
  | .moving _ _ _ => inferInstanceAs (Decidable (_ → _))
  | .locking | .reading | .unlocking | .ended => isTrue trivial

instance (s : State) (a : Action) : Decidable (InSet s a) :=
  match a with
  | .call _ _ _ => inferInstanceAs (Decidable (∀ m ∈ _, _))
  | .start | .expire | .stop _ => isTrue trivial

/-! ## Every run -/

variable {start stop : ℕ} {pending : List String} {s : State} {z : Zset} {k : ℕ} {m : Mover}
  {reply : Reply} {now : ℤ}

/-- The items that a mover has in hand. -/
def Mover.items : Mover → List Item
  | .moving _ item rest => item :: rest
  | _ => []

theorem items_next (now : ℤ) (l : List Item) : (next now l).items.Sublist l := by
  unfold next
  split
  · exact List.nil_sublist _
  · split
    · exact List.nil_sublist _
    · exact List.Sublist.refl _

/-- What a mover has in hand is in the set or has been pushed. -/
structure Seen (pending : List String) (s : State) : Prop where
  le : ∀ member, pending.count member ≤ s.pending.count member
  items : ∀ m ∈ s.movers, ∀ i ∈ m.items,
    i.member ∈ s.zset.members ∨ pending.count i.member < s.pending.count i.member

/-- A member that is in the set has not been pushed, and no other has been pushed twice. -/
def Once (pending : List String) (s : State) : Prop :=
  ∀ member, s.pending.count member + (if member ∈ s.zset.members then 1 else 0) ≤
    pending.count member + 1

theorem Once.pushedAtMostOnce (h : Once pending s) : PushedAtMostOnce pending s :=
  fun member => (Nat.le_add_right _ _).trans (h member)

theorem count_push (member m : String) :
    (s.push member).pending.count m = s.pending.count m + if member = m then 1 else 0 := by
  show (s.pending ++ [member]).count m = _
  rw [List.count_append, List.count_singleton]
  simp

theorem Once.push (h : Once pending s) {member : String} (hin : member ∈ s.zset.members) :
    Once pending (s.push member) := by
  intro m
  have hm := h m
  rw [count_push]
  have hmem : m ∈ (s.push member).zset.members ↔ m ∈ s.zset.members ∧ m ≠ member := Zset.mem_zrem
  simp only [hmem]
  by_cases heq : member = m
  · subst heq
    rw [if_pos hin] at hm
    simpa using hm
  · simpa [heq, Ne.symm heq] using hm

namespace Seen

theorem goto (h : Seen pending s) (hitems : ∀ i ∈ m.items,
    i.member ∈ s.zset.members ∨ pending.count i.member < s.pending.count i.member) :
    Seen pending (s.goto k m) :=
  ⟨h.le, forall_mem_set h.items hitems⟩

theorem push (h : Seen pending s) (member : String) : Seen pending (s.push member) := by
  refine ⟨fun m => ?_, fun m hm i hi => ?_⟩
  · rw [count_push]
    exact (h.le m).trans (Nat.le_add_right _ _)
  · rw [count_push]
    by_cases heq : member = i.member
    · rw [if_pos heq]
      exact .inr (Nat.lt_succ_of_le (h.le _))
    · rw [if_neg heq]
      exact (h.items m hm i hi).imp (fun hin => Zset.mem_zrem.2 ⟨hin, Ne.symm heq⟩) id

theorem advance (h : Seen pending s) (hk : s.movers[k]? = some m) :
    Seen pending (s.advance start stop k reply now m) := by
  have hnone : ∀ i ∈ ([] : List Item),
      i.member ∈ s.zset.members ∨ pending.count i.member < s.pending.count i.member :=
    fun i hi => absurd hi List.not_mem_nil
  have hitems := h.items m (List.mem_of_getElem? hk)
  cases m with
  | locking =>
    show Seen pending (s.acquire k reply)
    unfold State.acquire
    split
    · exact ⟨h.le, forall_mem_set h.items hnone⟩
    · exact ⟨h.le, forall_mem_set h.items hnone⟩
    · exact h.goto hnone
  | reading =>
    cases reply with
    | ok =>
      refine h.goto fun i hi => .inl (List.mem_map_of_mem ?_)
      exact (s.zset.sublist_zrange start stop).subset ((items_next _ _).subset hi)
    | refused => exact h.goto hnone
    | lost => exact h.goto hnone
  | moving now₀ item rest =>
    have hpush : ∀ i ∈ rest, i.member ∈ (s.push item.member).zset.members ∨
        pending.count i.member < (s.push item.member).pending.count i.member :=
      fun i hi => (h.push item.member).items _ (List.mem_of_getElem? hk) i
        (List.mem_cons_of_mem _ hi)
    cases reply with
    | ok => exact (h.push item.member).goto fun i hi => hpush i ((items_next _ _).subset hi)
    | refused => exact h.goto hnone
    | lost => exact (h.push item.member).goto fun i hi => absurd hi List.not_mem_nil
  | unlocking =>
    cases reply with
    | ok => exact ⟨h.le, forall_mem_set h.items hnone⟩
    | refused => exact h.goto hnone
    | lost => exact ⟨h.le, forall_mem_set h.items hnone⟩
  | ended => exact h

theorem step (h : Seen pending s) (a : Action) : Seen pending (step start stop s a) := by
  cases a with
  | start =>
    refine ⟨h.le, List.forall_mem_append.2 ⟨h.items, List.forall_mem_singleton.2 ?_⟩⟩
    exact fun i hi => absurd hi List.not_mem_nil
  | call k reply now =>
    simp only [Scheduler.step]
    split
    next m hm => exact h.advance hm
    · exact h
  | expire => exact ⟨h.le, h.items⟩
  | stop k => exact h.goto fun i hi => absurd hi List.not_mem_nil

end Seen

/-- A step that does not push keeps the set and what is pending. -/
theorem advance_cases (start stop k : ℕ) (reply : Reply) (now : ℤ) (s : State) (m : Mover) :
    (∃ now₀ item rest, m = .moving now₀ item rest ∧ reply ≠ .refused ∧
      (s.advance start stop k reply now m).zset = (s.push item.member).zset ∧
      (s.advance start stop k reply now m).pending = (s.push item.member).pending) ∨
    m.InSet s reply ∧ (s.advance start stop k reply now m).zset = s.zset ∧
      (s.advance start stop k reply now m).pending = s.pending := by
  cases m with
  | locking =>
    refine .inr ⟨trivial, ?_⟩
    show (s.acquire k reply).zset = _ ∧ (s.acquire k reply).pending = _
    unfold State.acquire
    split <;> exact ⟨rfl, rfl⟩
  | reading => cases reply <;> exact .inr ⟨trivial, rfl, rfl⟩
  | moving now₀ item rest =>
    cases reply with
    | ok => exact .inl ⟨now₀, item, rest, rfl, by decide, rfl, rfl⟩
    | refused => exact .inr ⟨fun h => absurd rfl h, rfl, rfl⟩
    | lost => exact .inl ⟨now₀, item, rest, rfl, by decide, rfl, rfl⟩
  | unlocking => cases reply <;> exact .inr ⟨trivial, rfl, rfl⟩
  | ended => exact .inr ⟨trivial, rfl, rfl⟩

/-- A step pushes what one mover has in hand, or it keeps the set and what is pending. -/
theorem step_cases (start stop : ℕ) (s : State) (a : Action) :
    (∃ k reply now now₀ item rest, a = .call k reply now ∧
      s.movers[k]? = some (.moving now₀ item rest) ∧ reply ≠ .refused ∧
      (step start stop s a).zset = (s.push item.member).zset ∧
      (step start stop s a).pending = (s.push item.member).pending) ∨
    InSet s a ∧ (step start stop s a).zset = s.zset ∧
      (step start stop s a).pending = s.pending := by
  cases a with
  | call k reply now =>
    simp only [step]
    cases hk : s.movers[k]? with
    | none =>
      refine .inr ⟨fun m hm => ?_, rfl, rfl⟩
      rw [hk] at hm
      cases hm
    | some m =>
      rcases advance_cases start stop k reply now s m with
        ⟨now₀, item, rest, rfl, hreply, hzset, hpending⟩ | ⟨hin, hzset, hpending⟩
      · exact .inl ⟨k, reply, now, now₀, item, rest, rfl, hk, hreply, hzset, hpending⟩
      · refine .inr ⟨fun m' hm' => ?_, hzset, hpending⟩
        obtain rfl := Option.some.inj (hk.symm.trans hm')
        exact hin
  | _ => exact .inr ⟨trivial, rfl, rfl⟩

theorem Once.congr {s' : State} (h : Once pending s) (hzset : s'.zset = s.zset)
    (hpending : s'.pending = s.pending) : Once pending s' := by
  unfold Once
  rw [hzset, hpending]
  exact h

theorem Once.step (h : Once pending s) {a : Action} (hok : InSet s a) :
    Once pending (step start stop s a) := by
  rcases step_cases start stop s a with
    ⟨k, reply, now, now₀, item, rest, rfl, hk, hreply, hzset, hpending⟩ | ⟨-, hzset, hpending⟩
  · exact (h.push (hok _ hk hreply)).congr hzset hpending
  · exact h.congr hzset hpending

/-- A member that is no longer in the set has been pushed. -/
theorem not_pushedAtMostOnce (h : Seen pending s) {a : Action} (hbad : ¬InSet s a) :
    ¬PushedAtMostOnce pending (step start stop s a) := by
  rcases step_cases start stop s a with
    ⟨k, reply, now, now₀, item, rest, rfl, hk, hreply, -, hpending⟩ | ⟨hok, -⟩
  · have hout : item.member ∉ s.zset.members := by
      intro hin
      refine hbad fun m hm => ?_
      obtain rfl := Option.some.inj (hk.symm.trans hm)
      exact fun _ => hin
    have hpushed := (h.items _ (List.mem_of_getElem? hk) item List.mem_cons_self).resolve_left hout
    intro hone
    have hcount := hone item.member
    rw [hpending, count_push, if_pos rfl] at hcount
    omega
  · exact absurd hok hbad

theorem prefix_step (a : Action) : s.pending <+: (step start stop s a).pending := by
  rcases step_cases start stop s a with ⟨-, -, -, -, item, -, -, -, -, -, hpending⟩ | ⟨-, -, hpending⟩
  · exact ⟨_, hpending.symm⟩
  · exact ⟨[], (List.append_nil _).trans hpending.symm⟩

/-- What is pushed twice stays so. -/
theorem PushedAtMostOnce.of_foldl (as : List Action)
    (h : PushedAtMostOnce pending (as.foldl (step start stop) s)) : PushedAtMostOnce pending s := by
  induction as generalizing s with
  | nil => exact h
  | cons a as ih =>
    exact fun member => ((prefix_step a).sublist.count_le member).trans (ih h member)

theorem pushed_iff (hseen : Seen pending s) (honce : Once pending s) (as : List Action) :
    PushedAtMostOnce pending (as.foldl (step start stop) s) ↔
      Meets (step start stop) InSet s as := by
  induction as generalizing s with
  | nil => exact iff_of_true honce.pushedAtMostOnce trivial
  | cons a as ih =>
    by_cases hok : InSet s a
    · exact (ih (hseen.step a) (honce.step hok)).trans (iff_and_self.2 fun _ => hok)
    · refine iff_of_false (fun h => ?_) fun h => hok h.1
      exact not_pushedAtMostOnce hseen hok (PushedAtMostOnce.of_foldl as h)

theorem Seen.initial : Seen pending (initial z pending) :=
  ⟨fun _ => le_rfl, fun _ hm => absurd hm List.not_mem_nil⟩

theorem Once.initial : Once pending (initial z pending) := by
  intro member
  show pending.count member + (if member ∈ z.members then 1 else 0) ≤ _
  split <;> omega

/-- For every content of the set and every run of the commands of any number of movers: each member
is pushed at most once exactly if every member that is pushed is still in the set then. -/
theorem pushed_at_most_once_iff (start stop : ℕ) (z : Zset) (pending : List String)
    (as : List Action) :
    PushedAtMostOnce pending (as.foldl (step start stop) (initial z pending)) ↔
      Meets (step start stop) InSet (initial z pending) as :=
  pushed_iff Seen.initial Once.initial as

/-! ## One member -/

def sampleZset : Zset where
  items := [⟨"task", 1000⟩]
  nodup := by decide
  sorted := by decide

/-- The first mover loses the lock after it has read the set, and a second one takes it. -/
def sampleMovers : List Action :=
  [.start, .call 0 .ok 0, .call 0 .ok 2000, .expire, .start, .call 1 .ok 0, .call 1 .ok 2000,
    .call 0 .ok 0, .call 1 .ok 0]

/-- Both movers push the member. -/
theorem pushed_twice :
    ∃ as : List Action, ¬PushedAtMostOnce [] (as.foldl (step 0 20) (initial sampleZset [])) := by
  refine ⟨sampleMovers, fun h => ?_⟩
  have htwice : (sampleMovers.foldl (step 0 20) (initial sampleZset [])).pending.count "task" = 2 :=
    by decide +kernel
  have hle := h "task"
  rw [htwice] at hle
  revert hle
  decide

/-! ## A lock that does not expire -/

/-- A mover is in the callback, or still has to release its lock. -/
def Mover.Working (m : Mover) : Prop := m ≠ .locking ∧ m ≠ .ended

/-- The lock does not expire while its mover works. -/
def Held (s : State) : Action → Prop
  | .expire => ∀ k m, s.lock = some k → s.movers[k]? = some m → ¬m.Working
  | _ => True

/-- The mover that works has the lock, and has members of the set in hand. -/
structure Locked (s : State) : Prop where
  lock : ∀ k m, s.movers[k]? = some m → m.Working → s.lock = some k
  items : ∀ m ∈ s.movers, (m.items.map Item.member).Nodup ∧
    ∀ i ∈ m.items, i.member ∈ s.zset.members

theorem working_of_mem_items {i : Item} (h : i ∈ m.items) : m.Working := by
  cases m with
  | moving now item rest => exact ⟨fun h => (by cases h), fun h => by cases h⟩
  | _ => cases h

namespace Locked

/-- A mover that goes on and has the lock if it works. -/
theorem goto (h : Locked s) (hlock : m.Working → s.lock = some k)
    (hitems : (m.items.map Item.member).Nodup ∧ ∀ i ∈ m.items, i.member ∈ s.zset.members) :
    Locked (s.goto k m) := by
  refine ⟨fun j m' hj hwork => ?_, forall_mem_set h.items hitems⟩
  rcases getElem?_set_cases hj with ⟨rfl, rfl⟩ | ⟨-, hj⟩
  · exact hlock hwork
  · exact h.lock j m' hj hwork

/-- The lock of a mover that works is its own. -/
theorem alone (h : Locked s) (hk : s.movers[k]? = some m) (hwork : m.Working) {j : ℕ} {m' : Mover}
    (hj : s.movers[j]? = some m') (hwork' : m'.Working) : j = k :=
  Option.some.inj ((h.lock j m' hj hwork').symm.trans (h.lock k m hk hwork))

/-- A mover that has nothing in hand. -/
theorem idle (h : Locked s) (hitems : m.items = []) (hlock : m.Working → s.lock = some k) :
    Locked (s.goto k m) := by
  refine h.goto hlock ?_
  rw [hitems]
  exact ⟨List.nodup_nil, fun i hi => absurd hi List.not_mem_nil⟩

theorem ended (h : Locked s) (k : ℕ) : Locked (s.goto k .ended) :=
  h.idle rfl fun hwork => absurd rfl hwork.2

/-- A mover pushes the first of its items. -/
theorem push (h : Locked s) {now₀ : ℤ} {item : Item} {rest : List Item}
    (hk : s.movers[k]? = some (.moving now₀ item rest)) (hm : m.items.Sublist rest) :
    Locked ((s.push item.member).goto k m) := by
  have hmover := List.mem_of_getElem? hk
  obtain ⟨hnodup, hin⟩ := h.items _ hmover
  obtain ⟨hnot, hrest⟩ := List.nodup_cons.1 hnodup
  have hwork : Mover.Working (.moving now₀ item rest) := working_of_mem_items List.mem_cons_self
  refine ⟨fun j m' hj hwork' => ?_, forall_mem_set_of_ne (fun j m' hj hm' => ?_) ?_⟩
  · rcases getElem?_set_cases hj with ⟨rfl, -⟩ | ⟨-, hj⟩
    · exact h.lock j _ hk hwork
    · exact h.lock j m' hj hwork'
  · -- The others do not work.
    have hnone : m'.items = [] := by
      refine List.eq_nil_iff_forall_not_mem.2 fun i hi => hj ?_
      exact h.alone hk hwork hm' (working_of_mem_items hi)
    rw [hnone]
    exact ⟨List.nodup_nil, fun i hi => absurd hi List.not_mem_nil⟩
  · refine ⟨hrest.sublist (hm.map _), fun i hi => Zset.mem_zrem.2 ⟨?_, fun heq => hnot ?_⟩⟩
    · exact hin i (List.mem_cons_of_mem _ (hm.subset hi))
    · exact heq ▸ List.mem_map_of_mem (hm.subset hi)

theorem acquire (h : Locked s) (k : ℕ) (reply : Reply) : Locked (s.acquire k reply) := by
  have hfree : s.lock = none → Locked { s with lock := some k } := by
    refine fun hnone => ⟨fun j m hj hwork => ?_, h.items⟩
    have hlock := h.lock j m hj hwork
    rw [hnone] at hlock
    cases hlock
  unfold State.acquire
  split
  next hnone => exact (hfree hnone).idle rfl fun _ => rfl
  next hnone => exact (hfree hnone).ended k
  · exact h.ended k

theorem unlock (h : Locked s) (k : ℕ) : Locked ((s.unlock k).goto k .ended) := by
  refine ⟨fun j m hj hwork => ?_, (h.ended k).items⟩
  rcases getElem?_set_cases hj with ⟨-, rfl⟩ | ⟨hne, hj⟩
  · exact absurd rfl hwork.2
  · have hlock := h.lock j m hj hwork
    show (if s.lock = some k then none else s.lock) = some j
    rw [hlock, if_neg fun hsome => hne (Option.some.inj hsome)]

theorem advance (h : Locked s) (hk : s.movers[k]? = some m) :
    Locked (s.advance start stop k reply now m) := by
  have hlock := h.lock k m hk
  cases m with
  | locking => exact h.acquire k reply
  | reading =>
    have hwork : Mover.Working .reading := ⟨fun h => (by cases h), fun h => by cases h⟩
    cases reply with
    | ok =>
      have hsub := (items_next now _).trans (s.zset.sublist_zrange start stop)
      refine h.goto (fun _ => hlock hwork) ⟨s.zset.nodup.sublist (hsub.map _), fun i hi => ?_⟩
      exact List.mem_map_of_mem (hsub.subset hi)
    | refused => exact h.idle rfl fun _ => hlock hwork
    | lost => exact h.idle rfl fun _ => hlock hwork
  | moving now₀ item rest =>
    have hwork : Mover.Working (.moving now₀ item rest) := working_of_mem_items List.mem_cons_self
    cases reply with
    | ok => exact h.push hk (items_next _ _)
    | refused => exact h.idle rfl fun _ => hlock hwork
    | lost => exact h.push hk (List.nil_sublist _)
  | unlocking =>
    cases reply with
    | ok => exact h.unlock k
    | refused => exact h.ended k
    | lost => exact h.unlock k
  | ended => exact h

theorem step (h : Locked s) {a : Action} (hok : Held s a) : Locked (step start stop s a) := by
  cases a with
  | start =>
    refine ⟨fun j m hj hwork => ?_,
      List.forall_mem_append.2 ⟨h.items, List.forall_mem_singleton.2 ?_⟩⟩
    · have hmover : (s.movers ++ [.locking])[j]? = some m := hj
      rcases getElem?_concat_cases hmover with hmover | rfl
      · exact h.lock j m hmover hwork
      · exact absurd rfl hwork.1
    · exact ⟨List.nodup_nil, fun i hi => absurd hi List.not_mem_nil⟩
  | call k reply now =>
    simp only [Scheduler.step]
    split
    next m hm => exact h.advance hm
    · exact h
  | expire =>
    refine ⟨fun j m hj hwork => ?_, h.items⟩
    exact absurd hwork (hok j m (h.lock j m hj hwork) hj)
  | stop k => exact h.ended k

/-- What a mover pushes is in the set. -/
theorem inSet (h : Locked s) (a : Action) : InSet s a := by
  cases a with
  | call k reply now =>
    intro m hm
    cases m with
    | moving now₀ item rest =>
      exact fun _ => (h.items _ (List.mem_of_getElem? hm)).2 item List.mem_cons_self
    | _ => trivial
  | _ => trivial

end Locked

/-- Movers whose lock does not expire while they work push no member twice. -/
theorem pushed_at_most_once_of_held (h : Reach (graph (step start stop)) Held (initial z pending) s) :
    PushedAtMostOnce pending s := by
  have hinv : Locked s ∧ Once pending s := by
    refine h.inv (I := fun s => Locked s ∧ Once pending s) ⟨?_, Once.initial⟩ ?_
    · exact ⟨fun j m hj => absurd (List.mem_of_getElem? hj) List.not_mem_nil,
        fun m hm => absurd hm List.not_mem_nil⟩
    · rintro s a s' ⟨hlocked, honce⟩ hok rfl
      exact ⟨hlocked.step hok, honce.step (hlocked.inSet a)⟩
  exact hinv.2.pushedAtMostOnce

end Cme.Scheduler
