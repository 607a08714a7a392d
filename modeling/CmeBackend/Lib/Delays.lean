import CmeBackend.Lib.Redis
import Mathlib.Data.List.TakeWhile

/-!
# Sorted sets by time

A member of a set `delayed:name` has a score, the time from which on it may be taken. A mover reads the
members in an order of its own and ends at the first whose score it finds in the future (`dueAt`).

`Timely`: no task is moved or taken before the time that it has to wait for, if none was queued with an
earlier score. What a task waits for is a parameter, `due x t`: at `t` it need not wait any more.
-/

namespace Redis

variable {ν τ : Type} [DecidableEq ν] [Keyed τ]

/-- A step at a time, by a process that has read the time `now`. -/
structure Tick (α : Type) where
  time : ℤ
  now : ℤ
  action : α

/-- The scores of the members, by their set and their key. -/
abbrev Scores (ν : Type) := ν × ℕ → ℤ

/-- What a mover moves of the members that it has read. -/
def dueAt (score : Scores ν) (now : ℤ) (name : ν) (read : List ℕ) : List ℕ :=
  read.takeWhile fun k => score (name, k) ≤ now

/-- The members of the sets wait until their scores, and the clock has come to what has been moved. -/
structure Timely (q : Queues ν τ) (score : Scores ν) (clock : ℤ) (due : τ → ℤ → Prop) : Prop where
  delayed : ∀ a ∈ q.delayed, due a.2 (score (address a))
  moving : ∀ name xs, q.moving name = some xs → ∀ x ∈ xs, due x clock
  pending : ∀ a ∈ q.pending, due a.2 clock

namespace Timely

variable {q : Queues ν τ} {score : Scores ν} {clock now : ℤ} {due : τ → ℤ → Prop} {name : ν} {x : τ}

omit [DecidableEq ν] in
theorem empty : Timely (Queues.empty : Queues ν τ) score clock due :=
  ⟨fun _ ha => absurd ha List.not_mem_nil, fun _ _ hxs => (by cases hxs),
    fun _ ha => absurd ha List.not_mem_nil⟩

omit [DecidableEq ν] in
/-- Something else changes, for tasks of which `P` is known. -/
theorem imp {score' : Scores ν} {clock' : ℤ} {due' : τ → ℤ → Prop} {P : τ → Prop}
    (h : Timely q score clock due) (hs : q.Sound) (hall : q.All P)
    (hdelayed : ∀ a, P a.2 → due a.2 (score (address a)) → due' a.2 (score' (address a)))
    (hclock : ∀ x, P x → due x clock → due' x clock') : Timely q score' clock' due' where
  delayed a ha := hdelayed a (hall.1 a ha) (h.delayed a ha)
  moving name xs hxs x hx :=
    hclock x (hall.1 _ ((hs.moving name xs hxs).2 x hx)) (h.moving name xs hxs x hx)
  pending a ha := hclock a.2 (hall.2 a ha) (h.pending a ha)

omit [DecidableEq ν] in
/-- Time goes by, and what tasks wait for is stated anew. -/
theorem wait {clock' : ℤ} {due' : τ → ℤ → Prop} (h : Timely q score clock due) (hs : q.Sound)
    (hle : clock ≤ clock') (hdue : ∀ {x t t'}, due x t → t ≤ t' → due' x t') :
    Timely q score clock' due' :=
  h.imp (P := fun _ => True) hs ⟨fun _ _ => trivial, fun _ _ => trivial⟩
    (fun _ _ ha => hdue ha le_rfl) fun _ _ hx => hdue hx hle

/-- A task is queued. A member with its key has its score from then on. -/
theorem zadd (h : Timely q score clock due) (name : ν) (x : τ) {t : ℤ} (hx : due x t)
    (hsame : ∀ a ∈ q.delayed, address a = (name, key x) → due a.2 t) :
    Timely (q.zadd name x) (Function.update score (name, key x) t) clock due := by
  have hkept : Timely q (Function.update score (name, key x) t) clock due := by
    refine ⟨fun a ha => ?_, h.moving, h.pending⟩
    by_cases heq : address a = (name, key x)
    · rw [heq, Function.update_self]
      exact hsame a ha heq
    · rw [Function.update_of_ne heq]
      exact h.delayed a ha
  unfold Queues.zadd
  split
  · exact hkept
  · refine ⟨List.forall_mem_append.2 ⟨hkept.delayed, List.forall_mem_singleton.2 ?_⟩,
      hkept.moving, hkept.pending⟩
    show due x (Function.update score (name, key x) t (name, key x))
    rwa [Function.update_self]

/-- A task of which nothing waits with its key. -/
theorem zadd_new (h : Timely q score clock due) (hnew : q.tokensOf (key x) = 0) {t : ℤ}
    (hx : due x t) (name : ν) :
    Timely (q.zadd name x) (Function.update score (name, key x) t) clock due :=
  h.zadd name x hx fun a ha heq =>
    absurd (List.mem_map.2 ⟨a, ha, heq⟩) (Queues.not_mem_of_tokensOf hnew)

/-- A mover starts on what is due. -/
theorem startMove (h : Timely q score clock due) (hdue : ∀ {x t t'}, due x t → t ≤ t' → due x t')
    (hnow : now ≤ clock) (read : List ℕ) :
    Timely (q.startMove name (dueAt score now name read)) score clock due := by
  unfold Queues.startMove
  split
  · refine ⟨h.delayed, fun n xs hxs x hx => ?_, h.pending⟩
    by_cases hn : n = name
    · subst hn
      have heq : Function.update q.moving n _ n = some xs := hxs
      rw [Function.update_self] at heq
      obtain rfl := Option.some.inj heq
      obtain ⟨k, hk, hmember⟩ := List.mem_filterMap.1 hx
      obtain ⟨hmem, rfl⟩ := Queues.member_eq_some hmember
      have hread : key x ∈ dueAt score now n read := List.mem_dedup.1 hk
      have hscore : score (n, key x) ≤ now := by simpa using List.mem_takeWhile_imp hread
      exact hdue (h.delayed (n, x) hmem) (hscore.trans hnow)
    · have heq : Function.update q.moving name _ n = some xs := hxs
      rw [Function.update_of_ne hn] at heq
      exact h.moving n xs heq x hx
  · exact h

theorem stopMove (h : Timely q score clock due) (name : ν) :
    Timely (q.stopMove name) score clock due := by
  refine ⟨h.delayed, fun n xs hxs => ?_, h.pending⟩
  by_cases hn : n = name
  · subst hn
    have heq : Function.update q.moving n none n = some xs := hxs
    rw [Function.update_self] at heq
    cases heq
  · have heq : Function.update q.moving name none n = some xs := hxs
    rw [Function.update_of_ne hn] at heq
    exact h.moving n xs heq

theorem move (h : Timely q score clock due) (name : ν) :
    Timely (q.move name) score clock due := by
  unfold Queues.move
  split
  next x rest hmoving =>
    have hx := h.moving name _ hmoving
    refine ⟨fun a ha => h.delayed a (List.mem_filter.1 ha).1, fun n xs hxs => ?_,
      List.forall_mem_append.2
        ⟨h.pending, List.forall_mem_singleton.2 (hx x List.mem_cons_self)⟩⟩
    by_cases hn : n = name
    · subst hn
      have heq : Function.update q.moving n (some rest) n = some xs := hxs
      rw [Function.update_self] at heq
      obtain rfl := Option.some.inj heq
      exact fun y hy => hx y (List.mem_cons_of_mem _ hy)
    · have heq : Function.update q.moving name (some rest) n = some xs := hxs
      rw [Function.update_of_ne hn] at heq
      exact h.moving n xs heq
  · exact h

end Timely

/-- A call of a mover that starts on what is due at the time `now`. -/
def MoverCall.dueAt (score : Scores ν) (now : ℤ) (name : ν) : MoverCall → MoverCall
  | .start read => .start (Redis.dueAt score now name read)
  | c => c

namespace Timely

variable {q : Queues ν τ} {score : Scores ν} {clock now : ℤ} {due : τ → ℤ → Prop} {name : ν} {x : τ}

theorem mover (h : Timely q score clock due) (hdue : ∀ {x t t'}, due x t → t ≤ t' → due x t')
    (hnow : now ≤ clock) (c : MoverCall) :
    Timely (q.mover name (c.dueAt score now name)) score clock due := by
  cases c with
  | start read => exact h.startMove hdue hnow read
  | move reply =>
    cases reply with
    | ok => exact h.move name
    | refused => exact h.stopMove name
    | lost => exact (h.move name).stopMove name
  | stop => exact h.stopMove name

/-- A task that is taken has waited. -/
theorem lpop {q' : Queues ν τ} (h : Timely q score clock due) (hpop : q.lpop name = some (x, q')) :
    due x clock ∧ Timely q' score clock due := by
  obtain ⟨a, ha, heq⟩ := Option.map_eq_some_iff.1 hpop
  cases heq
  exact ⟨h.pending a (List.mem_of_find?_eq_some ha), h.delayed, h.moving,
    fun b hb => h.pending b (List.mem_of_mem_eraseP hb)⟩

end Timely

end Redis
