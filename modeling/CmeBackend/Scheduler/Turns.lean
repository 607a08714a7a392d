import CmeBackend.Scheduler.Moves
import Mathlib.Data.List.Sort

/-!
# Tasks take turns

A sorted set with the list behind it, over runs in which tasks are added (`ZADD`), the mover is
called (`moveFromZsetToList`, one call at a time, as the lock has it) and tasks are taken (`LPOP`), in
any order.

* `line`: what was taken, what is pending, and what is in the set, one behind the other. A call and a
  taking leave it as it is, and adding a task leaves the others in their order (`line_step`).
* `ahead_run`: each call that comes late enough moves 21 tasks of those that come before a task that
  stays in the set.
* `tasks_in_turn`: no task overtakes another, and none waits for ever.
-/

namespace Cme.Scheduler

open Batches Moves

/-! ## The code -/

/-- The order of a sorted set: by the scores, and by the members where these are the same. -/
def Item.Before (i j : Item) : Prop := i.score < j.score ∨ i.score = j.score ∧ i.member ≤ j.member

instance (i j : Item) : Decidable (i.Before j) := inferInstanceAs (Decidable (_ ∨ _ ∧ _))

/-- A new item is put before the first one that is not before it. -/
def insertItem (i : Item) (items : List Item) : List Item := items.orderedInsert Item.Before i

theorem perm_insertItem (i : Item) (items : List Item) : (insertItem i items).Perm (i :: items) :=
  List.perm_orderedInsert _ _ _

theorem pairwise_insertItem {items : List Item} (i : Item)
    (h : items.Pairwise fun a b => a.score ≤ b.score) :
    (insertItem i items).Pairwise fun a b => a.score ≤ b.score := by
  unfold insertItem
  induction items with
  | nil => exact List.pairwise_singleton _ _
  | cons b items ih =>
    obtain ⟨hb, hitems⟩ := List.pairwise_cons.1 h
    rw [List.orderedInsert_cons]
    split
    next hbefore =>
      have hle : i.score ≤ b.score := hbefore.elim le_of_lt fun hand => hand.1.le
      refine List.pairwise_cons.2 ⟨fun c hc => ?_, h⟩
      rcases List.mem_cons.1 hc with rfl | hc
      · exact hle
      · exact hle.trans (hb c hc)
    next hnot =>
      refine List.pairwise_cons.2 ⟨fun c hc => ?_, ih hitems⟩
      rcases (List.mem_orderedInsert _).1 hc with rfl | hc
      · exact not_lt.1 fun hlt => hnot (.inl hlt)
      · exact hb c hc

/-- `ZADD key score member`. A member that is there gets the new score. -/
def Zset.zadd (z : Zset) (i : Item) : Zset where
  items := insertItem i (z.zrem i.member).items
  nodup := by
    refine ((perm_insertItem _ _).map _).nodup_iff.2 (List.nodup_cons.2 ⟨fun h => ?_, ?_⟩)
    · exact (Zset.mem_zrem.1 h).2 rfl
    · exact (z.zrem i.member).nodup
  sorted := pairwise_insertItem i (z.zrem i.member).sorted

namespace Turns

/-- A set and its list, and what was taken from the list. -/
structure State where
  keys : Keys
  taken : List String

inductive Action where
  | add (item : Item)
  /-- A call of the mover. -/
  | call (now : ℤ)
  /-- `LPOP` -/
  | take

def step (s : State) : Action → State
  | .add item => { s with keys.zset := s.keys.zset.zadd item }
  | .call now => { s with keys := moveFromZsetToList 0 20 now s.keys }
  | .take =>
    match s.keys.pending with
    | [] => s
    | member :: pending => ⟨{ s.keys with pending }, s.taken ++ [member]⟩

def run (s : State) (as : List Action) : State := as.foldl step s

/-- Nothing has been taken. -/
def start (keys : Keys) : State := ⟨keys, []⟩

/-- The tasks in the order in which they are taken. -/
def line (s : State) : List String := s.taken ++ s.keys.pending ++ s.keys.zset.members

/-- The members that a run adds. -/
def added : List Action → List String
  | [] => []
  | .add item :: as => item.member :: added as
  | _ :: as => added as

/-- The calls of a mover from the time `t` on. -/
def callsFrom (t : ℤ) (as : List Action) : ℕ :=
  as.countP fun
    | .call now => t ≤ now
    | _ => false

/-- The tasks that are added with a score of at most `t`. -/
def addedUntil (t : ℤ) (as : List Action) : ℕ :=
  as.countP fun
    | .add item => item.score ≤ (t : ℚ)
    | _ => false

def takes (as : List Action) : ℕ :=
  as.countP fun
    | .take => true
    | _ => false

/-- The tasks of a set with a score of at most `t`. -/
def ahead (t : ℤ) (z : Zset) : ℕ := z.items.countP fun i => i.score ≤ (t : ℚ)

/-- The tasks of a set that are not pending, and that a run does not add again. -/
def waiting (keys : Keys) (as : List Action) : List String :=
  keys.zset.members.filter fun m => m ∉ keys.pending ∧ m ∉ added as

variable {s : State} {a : Action} {as bs : List Action} {i : Item} {m : String} {t : ℤ} {z : Zset}

theorem step_take_nil (h : s.keys.pending = []) : step s .take = s := by simp [step, h]

theorem step_take_cons {pending : List String} (h : s.keys.pending = m :: pending) :
    step s .take = ⟨⟨s.keys.zset, pending⟩, s.taken ++ [m]⟩ := by simp [step, h]

@[simp] theorem zset_take : (step s .take).keys.zset = s.keys.zset := by
  cases hpending : s.keys.pending with
  | nil => rw [step_take_nil hpending]
  | cons m pending => rw [step_take_cons hpending]

/-! ## The line -/

/-- Adding a task leaves the others in their order. -/
theorem filter_members_zadd {p : String → Bool} (h : p i.member = false) :
    (z.zadd i).members.filter p = z.members.filter p := by
  have hinsert : ∀ items : List Item, ((insertItem i items).map Item.member).filter p =
      (items.map Item.member).filter p := by
    intro items
    unfold insertItem
    induction items with
    | nil => simp [h]
    | cons b items ih =>
      rw [List.orderedInsert_cons]
      split
      · simp [h]
      · simp only [List.map_cons, List.filter_cons, ih]
  refine (hinsert _).trans ?_
  show ((z.items.filter fun j => j.member ≠ i.member).map Item.member).filter p = _
  rw [Zset.members, List.filter_map, List.filter_map, List.filter_filter]
  congr 1
  refine List.filter_congr fun j _ => ?_
  by_cases hj : j.member = i.member
  · simp [hj, h]
  · simp [hj]

theorem line_call (now : ℤ) : line (step s (.call now)) = line s := by
  obtain ⟨hpending, hitems⟩ := moveFromZsetToList_eq 20 now s.keys
  unfold line step Zset.members
  dsimp only
  rw [hpending, hitems, List.append_assoc, List.append_assoc, List.append_assoc, ← List.map_append,
    batch_append_rest]

theorem line_take : line (step s .take) = line s := by
  cases hpending : s.keys.pending with
  | nil => rw [step_take_nil hpending]
  | cons m pending => simp [line, step_take_cons hpending, hpending]

/-- A step leaves the tasks that it does not add in their order. -/
theorem line_step {p : String → Bool} (h : ∀ m ∈ added [a], p m = false) :
    (line (step s a)).filter p = (line s).filter p := by
  cases a with
  | add item =>
    have hzset := @filter_members_zadd item s.keys.zset p (h item.member (.head _))
    simp only [line, step, List.filter_append, hzset]
  | call now => rw [line_call]
  | take => rw [line_take]

theorem added_cons (a : Action) (as : List Action) : added (a :: as) = added [a] ++ added as := by
  cases a <;> rfl

theorem line_run {p : String → Bool} (h : ∀ m ∈ added as, p m = false) :
    (line (run s as)).filter p = (line s).filter p := by
  induction as generalizing s with
  | nil => rfl
  | cons a as ih =>
    rw [added_cons, List.forall_mem_append] at h
    exact (ih h.2).trans (line_step h.1)

/-! ## Progress -/

/-- What stays in a set was there before. -/
theorem mem_of_step (hne : i.member ∉ added [a]) (hi : i ∈ (step s a).keys.zset.items) :
    i ∈ s.keys.zset.items := by
  cases a with
  | add item =>
    rcases (List.mem_orderedInsert _).1 hi with rfl | hi
    · exact absurd (.head _) hne
    · exact (List.mem_filter.1 hi).1
  | call now =>
    have hitems := (moveFromZsetToList_eq 20 now s.keys).2
    exact List.mem_of_mem_drop (hitems ▸ hi)
  | take => exact zset_take ▸ hi

theorem mem_of_run (hne : i.member ∉ added as) (hi : i ∈ (run s as).keys.zset.items) :
    i ∈ s.keys.zset.items := by
  induction as generalizing s with
  | nil => exact hi
  | cons a as ih =>
    rw [added_cons, List.mem_append, not_or] at hne
    exact mem_of_step hne.1 (ih hne.2 hi)

/-- A call from the time `t` on moves 21 tasks with a score of at most `t`, or all. -/
theorem ahead_call {now : ℤ} (hlate : t ≤ now) (s : State) :
    ahead t (step s (.call now)).keys.zset = ahead t s.keys.zset - 21 := by
  have hfront : Front (fun i : Item => decide (i.score ≤ (t : ℚ))) s.keys.zset.items :=
    s.keys.zset.sorted.imp fun hle h => decide_eq_true (hle.trans (of_decide_eq_true h))
  have hdue : ∀ i : Item, decide (i.score ≤ (t : ℚ)) = true → due now i = true := fun i hi =>
    decide_eq_true ((parseInt_le (of_decide_eq_true hi)).trans hlate)
  unfold ahead step
  rw [(moveFromZsetToList_eq 20 now s.keys).2]
  exact countP_rest hfront hdue

/-- While a task with a score of at most `t` stays, each call from `t` on moves 21 others. -/
theorem ahead_step (hi : i ∈ (step s a).keys.zset.items) (hscore : i.score ≤ t) :
    ahead t (step s a).keys.zset + 21 * callsFrom t [a] ≤
      ahead t s.keys.zset + addedUntil t [a] := by
  have hpos : 0 < ahead t (step s a).keys.zset :=
    List.countP_pos_iff.2 ⟨i, hi, decide_eq_true hscore⟩
  cases a with
  | add item =>
    have hperm := (perm_insertItem item (s.keys.zset.zrem item.member).items).countP_eq
      fun i : Item => decide (i.score ≤ (t : ℚ))
    have hrem : (s.keys.zset.zrem item.member).items.countP (fun i => i.score ≤ (t : ℚ)) ≤
        ahead t s.keys.zset := List.Sublist.countP_le List.filter_sublist
    rw [List.countP_cons] at hperm
    have hadd : ahead t (step s (.add item)).keys.zset ≤
        ahead t s.keys.zset + addedUntil t [.add item] := by
      unfold addedUntil
      rw [List.countP_singleton]
      exact hperm.le.trans (Nat.add_le_add_right hrem _)
    exact hadd
  | call now =>
    by_cases hlate : t ≤ now
    · rw [ahead_call hlate] at hpos ⊢
      have hcalls : callsFrom t [.call now] = 1 := by simp [callsFrom, hlate]
      omega
    · have hle : ahead t (step s (.call now)).keys.zset ≤ ahead t s.keys.zset := by
        unfold ahead step
        rw [(moveFromZsetToList_eq 20 now s.keys).2]
        exact List.Sublist.countP_le (List.drop_sublist _ _)
      have hcalls : callsFrom t [.call now] = 0 := by simp [callsFrom, hlate]
      omega
  | take =>
    rw [zset_take]
    exact le_rfl

theorem ahead_run (hne : i.member ∉ added as) (hi : i ∈ (run s as).keys.zset.items)
    (hscore : i.score ≤ t) :
    ahead t (run s as).keys.zset + 21 * callsFrom t as ≤
      ahead t s.keys.zset + addedUntil t as := by
  induction as generalizing s with
  | nil => exact le_rfl
  | cons a as ih =>
    rw [added_cons, List.mem_append, not_or] at hne
    have hfirst := ahead_step (mem_of_run hne.2 hi) hscore
    have hrest := ih hne.2 hi
    have hcalls : callsFrom t (a :: as) = callsFrom t [a] + callsFrom t as :=
      @List.countP_append _ _ [a] as
    have hadded : addedUntil t (a :: as) = addedUntil t [a] + addedUntil t as :=
      @List.countP_append _ _ [a] as
    have hrun : run s (a :: as) = run (step s a) as := rfl
    rw [hrun]
    omega

theorem mem_taken_run (h : m ∈ s.taken) (as : List Action) : m ∈ (run s as).taken := by
  refine Runs.foldl_inv (I := fun s : State => m ∈ s.taken) h (fun s a hs => ?_) as
  cases a with
  | add item => exact hs
  | call now => exact hs
  | take =>
    cases hpending : s.keys.pending with
    | nil => rwa [step_take_nil hpending]
    | cons m' pending =>
      rw [step_take_cons hpending]
      exact List.mem_append_left _ hs

/-- A task that is pending is taken when those before it are. -/
theorem taken_of_pending {before behind : List String}
    (h : s.keys.pending = before ++ m :: behind) (htakes : before.length < takes as) :
    m ∈ (run s as).taken := by
  induction as generalizing s before behind with
  | nil => exact absurd htakes (Nat.not_lt_zero _)
  | cons a as ih =>
    cases a with
    | add item => exact ih (s := step s (.add item)) h htakes
    | call now =>
      have hpending := (moveFromZsetToList_eq 20 now s.keys).1
      rw [h, List.append_assoc] at hpending
      exact ih (s := step s (.call now)) hpending htakes
    | take =>
      cases before with
      | nil =>
        have hm : m ∈ (step s .take).taken := by
          rw [step_take_cons h]
          exact List.mem_append_right _ (.head _)
        exact mem_taken_run hm as
      | cons b before =>
        have hpending : (step s .take).keys.pending = before ++ m :: behind := by
          rw [step_take_cons h]
          rfl
        have hone : takes (.take :: as) = takes as + 1 := List.countP_cons_of_pos rfl
        rw [hone, List.length_cons] at htakes
        exact ih hpending (Nat.lt_of_succ_lt_succ htakes)

theorem mem_waiting {keys : Keys} :
    m ∈ waiting keys as ↔ m ∈ keys.zset.members ∧ m ∉ keys.pending ∧ m ∉ added as := by
  simp [waiting]

/-- The tasks that wait stay in their order. -/
theorem line_waiting (keys : Keys) (as : List Action) :
    (line (run (start keys) as)).filter (· ∈ waiting keys as) = waiting keys as := by
  have hadded : ∀ m ∈ added as, decide (m ∈ waiting keys as) = false := fun m hm =>
    decide_eq_false fun hmem => (mem_waiting.1 hmem).2.2 hm
  have hpending : keys.pending.filter (· ∈ waiting keys as) = [] :=
    List.filter_eq_nil_iff.2 fun m hm hmem =>
      (mem_waiting.1 (of_decide_eq_true hmem)).2.1 hm
  rw [line_run hadded]
  show ([] ++ keys.pending ++ keys.zset.members).filter _ = _
  rw [List.nil_append, List.filter_append, hpending, List.nil_append]
  refine List.filter_congr fun m hm => ?_
  rw [Bool.eq_iff_iff, decide_eq_true_iff, decide_eq_true_iff, mem_waiting]
  exact and_iff_right hm

/-- A task with a score of at most `t` has been moved when there were enough calls from `t` on. -/
theorem moved_of_calls {keys : Keys} (hi : i ∈ keys.zset.items)
    (hwaiting : i.member ∈ waiting keys as) (hscore : i.score ≤ t)
    (henough : ahead t keys.zset + addedUntil t as ≤ 21 * callsFrom t as) :
    i.member ∈ (run (start keys) as).taken ++ (run (start keys) as).keys.pending := by
  obtain ⟨-, -, hadded⟩ := mem_waiting.1 hwaiting
  have hmem : i.member ∈ line (run (start keys) as) :=
    List.mem_of_mem_filter ((line_waiting keys as).symm ▸ hwaiting)
  refine (List.mem_append.1 hmem).resolve_right fun hmember => ?_
  obtain ⟨j, hj, hji⟩ := List.mem_map.1 hmember
  have hj₀ : j ∈ keys.zset.items := mem_of_run (s := start keys) (hji ▸ hadded) hj
  obtain rfl : j = i := List.inj_on_of_nodup_map keys.zset.nodup hj₀ hi hji
  have hahead := ahead_run (s := start keys) hadded hj hscore
  have hpos : 0 < ahead t (run (start keys) as).keys.zset :=
    List.countP_pos_iff.2 ⟨j, hj, decide_eq_true hscore⟩
  have hstart : ahead t (start keys).keys.zset = ahead t keys.zset := rfl
  omega

/-- **Turns.** The tasks that wait in a set are taken in their order, whatever is added meanwhile:
what is taken of them is a front of the set. A task with a score of at most `t` has been moved when
there were enough calls from `t` on, a call for every 21 of the tasks that were in the set or were
added with such a score. And then it is taken when as many are taken as are pending. -/
theorem tasks_in_turn (keys : Keys) (as : List Action) :
    (run (start keys) as).taken.filter (· ∈ waiting keys as) <+: waiting keys as ∧
      ∀ i ∈ keys.zset.items, i.member ∈ waiting keys as → ∀ t : ℤ, i.score ≤ t →
        ahead t keys.zset + addedUntil t as ≤ 21 * callsFrom t as →
          i.member ∈ (run (start keys) as).taken ++ (run (start keys) as).keys.pending ∧
            ∀ bs, (run (start keys) as).keys.pending.length ≤ takes bs →
              i.member ∈ (run (run (start keys) as) bs).taken := by
  constructor
  · have hline := line_waiting keys as
    rw [line, List.append_assoc, List.filter_append] at hline
    exact ⟨_, hline⟩
  · intro i hi hwaiting t hscore henough
    have hmoved := moved_of_calls hi hwaiting hscore henough
    refine ⟨hmoved, fun bs htakes => ?_⟩
    rcases List.mem_append.1 hmoved with htaken | hpending
    · exact mem_taken_run htaken bs
    · obtain ⟨before, behind, heq⟩ := List.append_of_mem hpending
      refine taken_of_pending heq (lt_of_lt_of_le ?_ htakes)
      rw [heq, List.length_append, List.length_cons]
      omega

/-- A unit is added that is ready before the others. -/
def sampleTurns : List Action := [.take, .add ⟨"d", 5⟩, .call 20, .take]

theorem tasks_in_turn_sample :
    (run (start sampleKeys) sampleTurns).taken = ["z", "d"] ∧
      "b" ∈ (run (run (start sampleKeys) sampleTurns) [.take, .take]).taken :=
  have hb : (⟨"b", 20⟩ : Item) ∈ sampleKeys.zset.items := .tail _ (.head _)
  ⟨by decide +kernel, ((tasks_in_turn sampleKeys sampleTurns).2 _ hb (by decide +kernel) 20
    (by decide +kernel) (by decide +kernel)).2 _ (by decide +kernel)⟩

end Turns

end Cme.Scheduler
