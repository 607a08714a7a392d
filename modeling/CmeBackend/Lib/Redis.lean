import CmeBackend.Lib.Runs
import CmeBackend.Lib.Table
import CmeBackend.Lib.Weights
import Mathlib.Data.List.Dedup
import Mathlib.Logic.Function.Basic

/-!
# Delayed sets and pending lists

Tasks that wait in a sorted set `delayed:name` until they are due, and then in a list
`pending:name` until a worker takes them. Every command is atomic, and so is the transaction that
moves a task from the set to the list.

A set has no member twice. The members of one set differ by their keys.

* `startMove`, `move`, `stopMove`: a mover reads the members that are due, and moves them one by
  one. One mover at a time works on a name, as a lock has it. It ends when a call fails.
* `Sound`: no set has two members with one key, and what a mover still has to move is in its set.
* `census`: the sum of a weight over all tasks. A move keeps it (`census_move`).
* `load`: what is left to do with the tasks.
* `tokensOf`: the number of tasks with a key.
-/

namespace Redis

open Runs Weights

variable {ν τ : Type} [DecidableEq ν] [Keyed τ]

structure Queues (ν τ : Type) where
  delayed : List (ν × τ)
  pending : List (ν × τ)
  /-- What the mover that works on a name has still to move. -/
  moving : ν → Option (List τ)

/-- A call of a mover. -/
inductive MoverCall where
  | start (due : List ℕ)
  | move (reply : Reply)
  | stop

/-- A member of a set by the name of the set and its key. -/
def address (a : ν × τ) : ν × ℕ := (a.1, key a.2)

namespace Queues

variable (q : Queues ν τ)

/-- Nothing waits. -/
def empty : Queues ν τ := ⟨[], [], fun _ => none⟩

/-- `ZADD delayed:name` -/
def zadd (name : ν) (x : τ) : Queues ν τ :=
  if (name, key x) ∈ q.delayed.map address then q
  else { q with delayed := q.delayed ++ [(name, x)] }

/-- The member of a set with a key. -/
def member (name : ν) (k : ℕ) : Option τ :=
  (q.delayed.find? fun a => address a = (name, k)).map Prod.snd

/-- A mover starts on a name with the members with the keys `due`, in their order. -/
def startMove (name : ν) (due : List ℕ) : Queues ν τ :=
  match q.moving name with
  | none =>
    { q with moving := Function.update q.moving name (some (due.dedup.filterMap (q.member name))) }
  | some _ => q

/-- The transaction `RPUSH pending:name x`, `ZREM delayed:name x`. -/
def transfer (name : ν) (x : τ) : Queues ν τ :=
  { q with
    delayed := q.delayed.filter fun a => address a ≠ (name, key x)
    pending := q.pending ++ [(name, x)] }

/-- The mover of a name moves its next member. -/
def move (name : ν) : Queues ν τ :=
  match q.moving name with
  | some (x :: rest) =>
    { q.transfer name x with moving := Function.update q.moving name (some rest) }
  | _ => q

/-- The mover of a name ends, with nothing left or because a call has failed. -/
def stopMove (name : ν) : Queues ν τ := { q with moving := Function.update q.moving name none }

/-- The mover of a name goes on. -/
def mover (name : ν) : MoverCall → Queues ν τ
  | .start due => q.startMove name due
  | .move .ok => q.move name
  | .move .refused => q.stopMove name
  | .move .lost => (q.move name).stopMove name
  | .stop => q.stopMove name

/-- `LPOP pending:name` -/
def lpop (name : ν) : Option (τ × Queues ν τ) :=
  (q.pending.find? fun a => a.1 = name).map fun a =>
    (a.2, { q with pending := q.pending.eraseP fun a => a.1 = name })

/-! ## Soundness -/

structure Sound : Prop where
  nodup : (q.delayed.map address).Nodup
  moving : ∀ name xs, q.moving name = some xs →
    (xs.map key).Nodup ∧ ∀ x ∈ xs, (name, x) ∈ q.delayed

variable {q} {name : ν} {x : τ}

omit [DecidableEq ν] in
theorem sound_empty : (empty : Queues ν τ).Sound :=
  ⟨List.nodup_nil, fun name xs h => by cases h⟩

theorem Sound.zadd (h : q.Sound) (name : ν) (x : τ) : (q.zadd name x).Sound := by
  unfold Queues.zadd
  split
  · exact h
  next hnew =>
    constructor
    · rw [List.map_append, List.map_singleton, List.nodup_append]
      refine ⟨h.nodup, List.nodup_singleton _, ?_⟩
      rintro a ha b hb rfl
      rw [List.mem_singleton.1 hb] at ha
      exact hnew ha
    · intro n xs hxs
      obtain ⟨hn, hmem⟩ := h.moving n xs hxs
      exact ⟨hn, fun x hx => List.mem_append_left _ (hmem x hx)⟩

theorem member_eq_some {k : ℕ} (h : q.member name k = some x) :
    (name, x) ∈ q.delayed ∧ key x = k := by
  obtain ⟨a, ha, rfl⟩ := Option.map_eq_some_iff.1 h
  have haddr : address a = (name, k) := by simpa using List.find?_some ha
  obtain ⟨hname, hkey⟩ := Prod.ext_iff.1 haddr
  have heq : a = (name, a.2) := Prod.ext hname rfl
  exact ⟨heq ▸ List.mem_of_find?_eq_some ha, hkey⟩

/-- A statement about what the movers have to move, after one of them has gone on. -/
theorem Sound.update (h : q.Sound) {xs : Option (List τ)}
    (hxs : ∀ ys, xs = some ys → (ys.map key).Nodup ∧ ∀ x ∈ ys, (name, x) ∈ q.delayed) :
    ({ q with moving := Function.update q.moving name xs } : Queues ν τ).Sound := by
  refine ⟨h.nodup, fun n ys hys => ?_⟩
  by_cases hn : n = name
  · subst hn
    have heq : Function.update q.moving n xs n = some ys := hys
    rw [Function.update_self] at heq
    exact hxs ys heq
  · have heq : Function.update q.moving name xs n = some ys := hys
    rw [Function.update_of_ne hn] at heq
    exact h.moving n ys heq

theorem Sound.startMove (h : q.Sound) (name : ν) (due : List ℕ) : (q.startMove name due).Sound := by
  unfold Queues.startMove
  split
  · refine h.update fun ys hys => ?_
    obtain rfl := Option.some.inj hys
    constructor
    · rw [List.Nodup, List.pairwise_map, List.pairwise_filterMap]
      refine (List.nodup_dedup due).imp fun {k k'} hne x hx x' hx' heq => hne ?_
      rw [← (member_eq_some hx).2, ← (member_eq_some hx').2, heq]
    · intro x hx
      obtain ⟨k, -, hk⟩ := List.mem_filterMap.1 hx
      exact (member_eq_some hk).1
  · exact h

theorem Sound.stopMove (h : q.Sound) (name : ν) : (q.stopMove name).Sound :=
  h.update fun ys hys => by cases hys

theorem Sound.move (h : q.Sound) (name : ν) : (q.move name).Sound := by
  unfold Queues.move
  split
  next x rest hmoving =>
    obtain ⟨hn, hmem⟩ := h.moving name _ hmoving
    obtain ⟨hnot, hn'⟩ := List.nodup_cons.1 hn
    refine ⟨h.nodup.sublist (List.filter_sublist.map _), fun n ys hys => ?_⟩
    have hkeep : ∀ y, (n, y) ∈ q.delayed → (n, key y) ≠ (name, key x) →
        (n, y) ∈ (q.transfer name x).delayed :=
      fun y hy hne => List.mem_filter.2 ⟨hy, decide_eq_true hne⟩
    by_cases hname : n = name
    · subst hname
      have heq : Function.update q.moving n (some rest) n = some ys := hys
      rw [Function.update_self] at heq
      obtain rfl := Option.some.inj heq
      refine ⟨hn', fun y hy => hkeep y (hmem y (List.mem_cons_of_mem _ hy)) ?_⟩
      intro hkey
      have heq : key y = key x := (Prod.ext_iff.1 hkey).2
      exact hnot (heq ▸ List.mem_map_of_mem hy)
    · have heq : Function.update q.moving name (some rest) n = some ys := hys
      rw [Function.update_of_ne hname] at heq
      obtain ⟨hn, hmem⟩ := h.moving n ys heq
      exact ⟨hn, fun y hy => hkeep y (hmem y hy) fun hkey => hname (Prod.ext_iff.1 hkey).1⟩
  · exact h

theorem Sound.mover (h : q.Sound) (name : ν) (c : MoverCall) : (q.mover name c).Sound := by
  cases c with
  | start due => exact h.startMove name due
  | move reply =>
    cases reply with
    | ok => exact h.move name
    | refused => exact h.stopMove name
    | lost => exact (h.move name).stopMove name
  | stop => exact h.stopMove name

theorem Sound.lpop {q' : Queues ν τ} (h : q.Sound) (hpop : q.lpop name = some (x, q')) :
    q'.Sound := by
  obtain ⟨a, -, heq⟩ := Option.map_eq_some_iff.1 hpop
  cases heq
  exact ⟨h.nodup, h.moving⟩

/-! ## What holds of all tasks -/

/-- A property of every task that waits. -/
def All (q : Queues ν τ) (P : τ → Prop) : Prop :=
  (∀ a ∈ q.delayed, P a.2) ∧ ∀ a ∈ q.pending, P a.2

section All

variable {P Q : τ → Prop}

omit [DecidableEq ν] [Keyed τ] in
theorem all_empty : (empty : Queues ν τ).All P :=
  ⟨fun _ ha => absurd ha List.not_mem_nil, fun _ ha => absurd ha List.not_mem_nil⟩

omit [DecidableEq ν] [Keyed τ] in
theorem All.imp (h : q.All P) (himp : ∀ x, P x → Q x) : q.All Q :=
  ⟨fun a ha => himp _ (h.1 a ha), fun a ha => himp _ (h.2 a ha)⟩

omit [DecidableEq ν] [Keyed τ] in
theorem All.and (h : q.All P) (h' : q.All Q) : q.All fun x => P x ∧ Q x :=
  ⟨fun a ha => ⟨h.1 a ha, h'.1 a ha⟩, fun a ha => ⟨h.2 a ha, h'.2 a ha⟩⟩

theorem All.zadd (h : q.All P) (hx : P x) (name : ν) : (q.zadd name x).All P := by
  unfold Queues.zadd
  split
  · exact h
  · exact ⟨List.forall_mem_append.2 ⟨h.1, List.forall_mem_singleton.2 hx⟩, h.2⟩

theorem All.startMove (h : q.All P) (name : ν) (due : List ℕ) : (q.startMove name due).All P := by
  unfold Queues.startMove
  split <;> exact h

theorem All.move (hs : q.Sound) (h : q.All P) (name : ν) : (q.move name).All P := by
  unfold Queues.move
  split
  next x rest hmoving =>
    have hx : P x := h.1 _ ((hs.moving name _ hmoving).2 x List.mem_cons_self)
    exact ⟨fun a ha => h.1 a (List.mem_filter.1 ha).1,
      List.forall_mem_append.2 ⟨h.2, List.forall_mem_singleton.2 hx⟩⟩
  · exact h

theorem All.mover (hs : q.Sound) (h : q.All P) (name : ν) (c : MoverCall) :
    (q.mover name c).All P := by
  cases c with
  | start due => exact h.startMove name due
  | move reply =>
    cases reply with
    | ok => exact All.move hs h name
    | refused => exact h
    | lost => exact All.move hs h name
  | stop => exact h

omit [Keyed τ] in
theorem All.lpop {q' : Queues ν τ} (h : q.All P) (hpop : q.lpop name = some (x, q')) :
    P x ∧ q'.All P := by
  obtain ⟨a, ha, heq⟩ := Option.map_eq_some_iff.1 hpop
  cases heq
  exact ⟨h.2 a (List.mem_of_find?_eq_some ha), h.1, fun b hb => h.2 b (List.mem_of_mem_eraseP hb)⟩

end All

/-! ## The names of the tasks -/

/-- A property of the name of every task that waits. -/
def Names (q : Queues ν τ) (P : ν → Prop) : Prop :=
  (∀ a ∈ q.delayed, P a.1) ∧ ∀ a ∈ q.pending, P a.1

section Names

variable {P : ν → Prop}

omit [DecidableEq ν] [Keyed τ] in
theorem names_empty : (empty : Queues ν τ).Names P :=
  ⟨fun _ ha => absurd ha List.not_mem_nil, fun _ ha => absurd ha List.not_mem_nil⟩

theorem Names.zadd (h : q.Names P) (hname : P name) (x : τ) : (q.zadd name x).Names P := by
  unfold Queues.zadd
  split
  · exact h
  · exact ⟨List.forall_mem_append.2 ⟨h.1, List.forall_mem_singleton.2 hname⟩, h.2⟩

theorem Names.startMove (h : q.Names P) (name : ν) (due : List ℕ) :
    (q.startMove name due).Names P := by
  unfold Queues.startMove
  split <;> exact h

theorem Names.move (hs : q.Sound) (h : q.Names P) (name : ν) : (q.move name).Names P := by
  unfold Queues.move
  split
  next x rest hmoving =>
    have hname : P name := h.1 _ ((hs.moving name _ hmoving).2 x List.mem_cons_self)
    exact ⟨fun a ha => h.1 a (List.mem_filter.1 ha).1,
      List.forall_mem_append.2 ⟨h.2, List.forall_mem_singleton.2 hname⟩⟩
  · exact h

theorem Names.mover (hs : q.Sound) (h : q.Names P) (name : ν) (c : MoverCall) :
    (q.mover name c).Names P := by
  cases c with
  | start due => exact h.startMove name due
  | move reply =>
    cases reply with
    | ok => exact Names.move hs h name
    | refused => exact h
    | lost => exact Names.move hs h name
  | stop => exact h

omit [Keyed τ] in
theorem Names.lpop {q' : Queues ν τ} (h : q.Names P) (hpop : q.lpop name = some (x, q')) :
    q'.Names P := by
  obtain ⟨a, -, heq⟩ := Option.map_eq_some_iff.1 hpop
  cases heq
  exact ⟨h.1, fun b hb => h.2 b (List.mem_of_mem_eraseP hb)⟩

end Names

/-! ## The census -/

section Census

variable {M : Type} [AddCommMonoid M] {w : ν × τ → M}

/-- The sum of a weight over all tasks that wait. -/
def census (q : Queues ν τ) (w : ν × τ → M) : M := weigh w q.delayed + weigh w q.pending

/-- A new member is one more task. -/
theorem census_zadd (hnew : (name, key x) ∉ q.delayed.map address) :
    (q.zadd name x).census w = q.census w + w (name, x) := by
  unfold Queues.zadd census
  rw [if_neg hnew, weigh_append_singleton, add_right_comm]

theorem census_startMove (due : List ℕ) : (q.startMove name due).census w = q.census w := by
  unfold Queues.startMove
  split <;> rfl

omit [Keyed τ] in
theorem census_stopMove : (q.stopMove name).census w = q.census w := rfl

/-- What leaves a set is the one member with its key. -/
theorem weigh_filter_address {l : List (ν × τ)} (hn : (l.map address).Nodup) {a : ν × τ}
    (ha : a ∈ l) :
    weigh w (l.filter fun b => address b ≠ address a) + w a = weigh w l := by
  induction l with
  | nil => cases ha
  | cons b l ih =>
    obtain ⟨hnot, hn'⟩ := List.nodup_cons.1 hn
    rcases List.mem_cons.1 ha with rfl | ha
    · have hall : l.filter (fun b => address b ≠ address a) = l := by
        refine List.filter_eq_self.2 fun b hb => decide_eq_true fun heq => hnot ?_
        exact heq ▸ List.mem_map_of_mem hb
      rw [List.filter_cons_of_neg (by simp), hall, weigh_cons, add_comm]
    · have hne : address b ≠ address a := fun heq => hnot (heq ▸ List.mem_map_of_mem ha)
      rw [List.filter_cons_of_pos (by simpa using hne), weigh_cons, weigh_cons, add_assoc,
        ih hn' ha]

/-- A move keeps every task. -/
theorem census_move (h : q.Sound) : (q.move name).census w = q.census w := by
  unfold Queues.move
  split
  next x rest hmoving =>
    have hmem := (h.moving name _ hmoving).2 x List.mem_cons_self
    unfold census
    show weigh w (q.delayed.filter fun a => address a ≠ address (name, x)) +
      weigh w (q.pending ++ [(name, x)]) = _
    rw [weigh_append_singleton, add_comm (weigh w q.pending), ← add_assoc,
      weigh_filter_address h.nodup hmem]
  · rfl

theorem census_mover (h : q.Sound) (c : MoverCall) : (q.mover name c).census w = q.census w := by
  cases c with
  | start due => exact census_startMove due
  | move reply =>
    cases reply with
    | ok => exact census_move h
    | refused => exact census_stopMove
    | lost => exact census_stopMove.trans (census_move h)
  | stop => exact census_stopMove

omit [Keyed τ] in
/-- A task that is taken is one task less. -/
theorem census_lpop {q' : Queues ν τ} (h : q.lpop name = some (x, q')) :
    q.census w = q'.census w + w (name, x) := by
  obtain ⟨a, ha, heq⟩ := Option.map_eq_some_iff.1 h
  cases heq
  have hname : a.1 = name := by simpa using List.find?_some ha
  have heq : (name, a.2) = a := Prod.ext hname.symm rfl
  rw [heq]
  have hpending : ∀ l : List (ν × τ), l.find? (fun a => a.1 = name) = some a →
      weigh w l = weigh w (l.eraseP fun a => a.1 = name) + w a := by
    intro l
    induction l with
    | nil => exact fun hfind => by cases hfind
    | cons b l ih =>
      intro hfind
      by_cases hb : b.1 = name
      · obtain rfl : b = a := by simpa [hb] using hfind
        rw [List.eraseP_cons_of_pos (by simpa using hb), weigh_cons, add_comm]
      · have hfind' : l.find? (fun a => a.1 = name) = some a := by simpa [hb] using hfind
        rw [List.eraseP_cons_of_neg (by simpa using hb), weigh_cons, weigh_cons, ih hfind',
          add_assoc]
  unfold census
  rw [hpending _ ha, add_assoc]

end Census

/-! ## What is left to do -/

section Load

variable {w : τ → ℕ}

/-- What is left to do with the tasks, if `w` is left to do with a task that has been taken. A task in
a set is still to be moved and to be taken. -/
def load (q : Queues ν τ) (w : τ → ℕ) : ℕ :=
  weigh (fun a => w a.2 + 2) q.delayed + weigh (fun a => w a.2 + 1) q.pending

/-- Whether the mover of a name has something left to move. -/
def hasNext (q : Queues ν τ) (name : ν) : Bool :=
  match q.moving name with
  | some (_ :: _) => true
  | _ => false

/-- Whether a call of the mover of a name moves a task. -/
def moves (q : Queues ν τ) (name : ν) : MoverCall → Bool
  | .move .ok | .move .lost => q.hasNext name
  | _ => false

omit [DecidableEq ν] [Keyed τ] in
theorem load_eq_zero_iff : q.load w = 0 ↔ q.delayed = [] ∧ q.pending = [] := by
  unfold load
  rw [Nat.add_eq_zero_iff, weigh_eq_zero_iff, weigh_eq_zero_iff]
  simp [List.eq_nil_iff_forall_not_mem]

omit [DecidableEq ν] [Keyed τ] in
theorem load_congr {w' : τ → ℕ} (h : q.All fun x => w' x = w x) : q.load w' = q.load w := by
  unfold load weigh
  rw [List.map_congr_left fun a ha => congrArg (· + 2) (h.1 a ha),
    List.map_congr_left fun a ha => congrArg (· + 1) (h.2 a ha)]

theorem load_zadd_le : (q.zadd name x).load w ≤ q.load w + (w x + 2) := by
  unfold Queues.zadd
  split
  · exact Nat.le_add_right _ _
  · unfold load
    rw [weigh_append_singleton]
    dsimp only
    omega

theorem load_startMove (due : List ℕ) : (q.startMove name due).load w = q.load w := by
  unfold Queues.startMove
  split <;> rfl

/-- A task that has been moved is to be moved no more. -/
theorem load_move (h : q.Sound) {rest : List τ} (hmoving : q.moving name = some (x :: rest)) :
    (q.move name).load w + 1 = q.load w := by
  have hmem := (h.moving name _ hmoving).2 x List.mem_cons_self
  have hleft : weigh (fun a => w a.2 + 2) (q.delayed.filter fun a => address a ≠ address (name, x)) +
      (w x + 2) = weigh (fun a => w a.2 + 2) q.delayed :=
    weigh_filter_address h.nodup hmem
  unfold Queues.move
  simp only [hmoving]
  show weigh _ (q.delayed.filter fun a => address a ≠ address (name, x)) +
    weigh _ (q.pending ++ [(name, x)]) + 1 = _
  rw [weigh_append_singleton]
  unfold load
  dsimp only
  omega

theorem load_mover (h : q.Sound) (c : MoverCall) :
    (q.mover name c).load w + (q.moves name c).toNat = q.load w := by
  have hmove : (q.move name).load w + (q.hasNext name).toNat = q.load w := by
    unfold hasNext
    split
    next hmoving => exact load_move h hmoving
    next hnone =>
      unfold Queues.move
      split
      next hmoving => exact absurd hmoving (hnone _ _)
      · rfl
  cases c with
  | start due => exact load_startMove due
  | stop => rfl
  | move reply =>
    cases reply with
    | ok => exact hmove
    | refused => rfl
    | lost => exact hmove

omit [Keyed τ] in
/-- A task that has been taken is to be taken no more. -/
theorem load_lpop {q' : Queues ν τ} (h : q.lpop name = some (x, q')) :
    q'.load w + (w x + 1) = q.load w := by
  have hpending := census_lpop (w := fun a => w a.2 + 1) h
  obtain ⟨a, -, heq⟩ := Option.map_eq_some_iff.1 h
  cases heq
  unfold load
  unfold census at hpending
  dsimp only at hpending ⊢
  omega

omit [Keyed τ] in
theorem lpop_isSome_iff : (q.lpop name).isSome ↔ ∃ a ∈ q.pending, a.1 = name := by
  unfold Queues.lpop
  simp

/-- A mover that starts again has something to move if its set has a member. -/
theorem hasNext_start {a : ν × τ} (ha : a ∈ q.delayed) :
    ((q.stopMove a.1).startMove a.1 [key a.2]).hasNext a.1 := by
  obtain ⟨b, hb⟩ : ∃ b, q.delayed.find? (fun b => address b = (a.1, key a.2)) = some b :=
    Option.isSome_iff_exists.1 (List.find?_isSome.2 ⟨a, ha, decide_eq_true rfl⟩)
  have hmember : (q.stopMove a.1).member a.1 (key a.2) = some b.2 := by
    unfold member
    exact congrArg _ hb
  have hidle : (q.stopMove a.1).moving a.1 = none := Function.update_self ..
  simp [hasNext, Queues.startMove, hidle, (List.nodup_singleton _).dedup, hmember]

end Load

/-! ## One task from its set to its worker -/

omit [DecidableEq ν] in
/-- What has another key than a member is the set without the member. -/
theorem filter_address_eq_eraseIdx [DecidableEq ν] {l : List (ν × τ)} (hn : (l.map address).Nodup)
    {k : ℕ} {a : ν × τ} (hk : l[k]? = some a) :
    l.filter (fun b => address b ≠ address a) = l.eraseIdx k := by
  induction l generalizing k with
  | nil => cases hk
  | cons b l ih =>
    obtain ⟨hnot, hn'⟩ := List.nodup_cons.1 hn
    cases k with
    | zero =>
      obtain rfl : b = a := Option.some.inj hk
      have hall : l.filter (fun c => address c ≠ address b) = l := by
        refine List.filter_eq_self.2 fun c hc => decide_eq_true fun heq => hnot ?_
        exact heq ▸ List.mem_map_of_mem hc
      rw [List.filter_cons_of_neg (by simp), hall, List.eraseIdx_cons_zero]
    | succ k =>
      have hk' : l[k]? = some a := hk
      have hne : address b ≠ address a := fun heq =>
        hnot (heq ▸ List.mem_map_of_mem (List.mem_of_getElem? hk'))
      rw [List.filter_cons_of_pos (by simpa using hne), ih hn' hk', List.eraseIdx_cons_succ]

/-- A mover that starts on one member moves it, and it is taken next if nothing else waits. -/
theorem lpop_move {k : ℕ} (hn : (q.delayed.map address).Nodup) (hpending : q.pending = [])
    (hk : q.delayed[k]? = some (name, x)) :
    ∃ q', (((q.stopMove name).startMove name [key x]).move name).lpop name = some (x, q') ∧
      q'.delayed = q.delayed.eraseIdx k ∧ q'.pending = [] := by
  have hmem : (name, x) ∈ q.delayed := List.mem_of_getElem? hk
  have hmember : (q.stopMove name).member name (key x) = some x := by
    obtain ⟨b, hb⟩ : ∃ b, q.delayed.find? (fun b => address b = (name, key x)) = some b :=
      Option.isSome_iff_exists.1 (List.find?_isSome.2 ⟨_, hmem, decide_eq_true rfl⟩)
    have heq : b = (name, x) := by
      have haddress : address b = (name, key x) := by simpa using List.find?_some hb
      exact List.inj_on_of_nodup_map hn (List.mem_of_find?_eq_some hb) hmem haddress
    show (q.delayed.find? _).map Prod.snd = some x
    rw [hb, heq]
    rfl
  have hidle : (q.stopMove name).moving name = none := Function.update_self ..
  have hstart : (q.stopMove name).startMove name [key x] =
      { q.stopMove name with
        moving := Function.update (q.stopMove name).moving name (some [x]) } := by
    unfold Queues.startMove
    rw [hidle]
    simp [(List.nodup_singleton _).dedup, hmember]
  have hmove : ((q.stopMove name).startMove name [key x]).move name =
      { ((q.stopMove name).startMove name [key x]).transfer name x with
        moving := Function.update ((q.stopMove name).startMove name [key x]).moving name
          (some []) } := by
    rw [hstart]
    unfold Queues.move
    simp only [Function.update_self]
  refine ⟨{ ((q.stopMove name).startMove name [key x]).move name with pending := [] }, ?_, ?_, rfl⟩
  · rw [hmove, hstart]
    simp [Queues.lpop, transfer, stopMove, hpending]
  · rw [hmove, hstart]
    exact filter_address_eq_eraseIdx hn hk

/-! ## Tasks with one key -/

/-- The number of tasks with a key. -/
def tokensOf (q : Queues ν τ) (k : ℕ) : ℕ := q.census fun a => if key a.2 = k then 1 else 0

variable {k : ℕ}

omit [DecidableEq ν] in
/-- No task that waits has the key. -/
theorem all_of_tokensOf (h : q.tokensOf k = 0) : q.All fun x => key x ≠ k := by
  obtain ⟨hdelayed, hpending⟩ := Nat.add_eq_zero_iff.1 h
  refine ⟨fun a ha hkey => ?_, fun a ha hkey => ?_⟩
  · exact absurd (weigh_eq_zero_iff.1 hdelayed a ha) (by rw [if_pos hkey]; decide)
  · exact absurd (weigh_eq_zero_iff.1 hpending a ha) (by rw [if_pos hkey]; decide)

omit [DecidableEq ν] in
/-- A set does not have a task that does not wait. -/
theorem not_mem_of_tokensOf (h : q.tokensOf k = 0) : (name, k) ∉ q.delayed.map address := by
  intro hmem
  obtain ⟨a, ha, heq⟩ := List.mem_map.1 hmem
  exact (all_of_tokensOf h).1 a ha (Prod.ext_iff.1 heq).2

theorem tokensOf_zadd (h : q.tokensOf (key x) = 0) (name : ν) :
    (q.zadd name x).tokensOf k = q.tokensOf k + if key x = k then 1 else 0 :=
  census_zadd (not_mem_of_tokensOf h)

theorem tokensOf_lpop {q' : Queues ν τ} (h : q.lpop name = some (x, q')) :
    q.tokensOf k = q'.tokensOf k + if key x = k then 1 else 0 :=
  census_lpop h

end Queues

end Redis
