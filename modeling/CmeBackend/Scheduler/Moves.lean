import CmeBackend.Lib.Batches
import CmeBackend.Scheduler.Movers

/-!
# What a mover moves

One call of `moveFromZsetToList` (`scheduler.service.ts`) with nothing in between, and calls one
after the other. The mover walks the answer of `ZRANGE ... WITHSCORES`, which has each member and its
score behind it, in steps of two, and ends at the first score in the future.

* `moveLoop_eq`: the loop moves the items of its range that are due, from the first one on.
* `moveFromZsetToList_eq`: so a call works off one batch (`Batches.batch`) of the set.
* `mover_step_law`: what a call moves, and what calls at any times have moved.
-/

namespace Cme.Scheduler.Moves

open Batches

/-! ## The code -/

/-- An element of an answer. The text of a score is given as its number. -/
inductive Cell where
  | member (member : String)
  | score (score : ℚ)

/-- The answer of `ZRANGE ... WITHSCORES`. -/
def withScores (items : List Item) : List Cell :=
  items.flatMap fun i => [.member i.member, .score i.score]

/-- The sorted set and the list. -/
structure Keys where
  zset : Zset
  pending : List String

/-- `MULTI`, `RPUSH`, `ZREM`, `EXEC` -/
def Keys.move (s : Keys) (member : String) : Keys := ⟨s.zset.zrem member, s.pending ++ [member]⟩

/-- The loop, over the values of `i`. -/
def moveLoop (now : ℤ) (results : List Cell) : List ℕ → Keys → Keys
  | [], s => s
  | i :: is, s =>
    match results[i]?, results[i + 1]? with
    | some (.member member), some (.score score) =>
      if parseInt score > now then s else moveLoop now results is (s.move member)
    -- Every member has its score behind it.
    | _, _ => s

/-- The values of `i` in `for (let i = 0; i < length; i += 2)`. -/
def evens (length : ℕ) : List ℕ := List.range' 0 ((length + 1) / 2) 2

def moveFromZsetToList (start stop : ℕ) (now : ℤ) (s : Keys) : Keys :=
  let results := withScores (s.zset.zrange start stop)
  moveLoop now results (evens results.length) s

/-! ## The loop -/

theorem withScores_cons (i : Item) (items : List Item) :
    withScores (i :: items) = .member i.member :: .score i.score :: withScores items := rfl

theorem length_withScores (items : List Item) : (withScores items).length = 2 * items.length := by
  induction items with
  | nil => rfl
  | cons i items ih =>
    simp only [withScores_cons, List.length_cons, ih]
    omega

theorem getElem?_withScores (items : List Item) (k : ℕ) :
    (withScores items)[2 * k]? = items[k]?.map (fun i => .member i.member) ∧
      (withScores items)[2 * k + 1]? = items[k]?.map (fun i => .score i.score) := by
  induction items generalizing k with
  | nil => exact ⟨rfl, rfl⟩
  | cons i items ih =>
    rw [withScores_cons]
    cases k with
    | zero => exact ⟨rfl, rfl⟩
    | succ k => exact ih k

/-- A score that has come. -/
def due (now : ℤ) (i : Item) : Bool := parseInt i.score ≤ now

/-- The items are moved one after the other. -/
def Keys.moveAll (s : Keys) (items : List Item) : Keys :=
  items.foldl (fun s i => s.move i.member) s

/-- From the index of an item on, the loop moves what is due up to the first item that is not. -/
theorem moveLoop_eq (now : ℤ) (items : List Item) (m : ℕ) (k : ℕ) (s : Keys)
    (hm : k + m = items.length) :
    moveLoop now (withScores items) (List.range' (2 * k) m 2) s =
      s.moveAll ((items.drop k).takeWhile (due now)) := by
  induction m generalizing k s with
  | zero =>
    rw [List.drop_of_length_le (by omega)]
    rfl
  | succ m ih =>
    obtain ⟨hmember, hscore⟩ := getElem?_withScores items k
    have hk : k < items.length := by omega
    rw [List.getElem?_eq_getElem hk] at hmember hscore
    rw [List.range'_succ, moveLoop, hmember, hscore, List.drop_eq_getElem_cons hk]
    simp only [Option.map_some]
    by_cases hdue : parseInt items[k].score > now
    · have hnot : due now items[k] = false := decide_eq_false (not_le.2 hdue)
      rw [if_pos hdue, List.takeWhile_cons_of_neg (by simp [hnot])]
      rfl
    · have hyes : due now items[k] = true := decide_eq_true (not_lt.1 hdue)
      rw [if_neg hdue, List.takeWhile_cons_of_pos hyes]
      exact ih (k + 1) _ (by omega)

/-- Items that come first in the set leave it as it is behind them. -/
theorem moveAll_of_append {s : Keys} {moved kept : List Item}
    (h : moved ++ kept = s.zset.items) :
    (s.moveAll moved).pending = s.pending ++ moved.map Item.member ∧
      (s.moveAll moved).zset.items = kept := by
  induction moved generalizing s with
  | nil => exact ⟨(List.append_nil _).symm, h.symm⟩
  | cons i moved ih =>
    have hkept : (s.move i.member).zset.items = moved ++ kept := by
      have hnodup := s.zset.nodup
      rw [← h, List.cons_append, List.map_cons, List.nodup_cons] at hnodup
      show s.zset.items.filter _ = _
      rw [← h, List.cons_append, List.filter_cons_of_neg (by simp)]
      refine List.filter_eq_self.2 fun j hj => decide_eq_true ?_
      rintro heq
      exact hnodup.1 (heq ▸ List.mem_map_of_mem hj)
    obtain ⟨hpending, hitems⟩ := ih hkept.symm
    refine ⟨?_, hitems⟩
    show ((s.move i.member).moveAll moved).pending = _
    rw [hpending, List.map_cons]
    exact List.append_assoc _ [i.member] _

/-- A call works off one batch of the set. -/
theorem moveFromZsetToList_eq (stop : ℕ) (now : ℤ) (s : Keys) :
    (moveFromZsetToList 0 stop now s).pending =
        s.pending ++ (batch (stop + 1) (due now) s.zset.items).map Item.member ∧
      (moveFromZsetToList 0 stop now s).zset.items = rest (stop + 1) (due now) s.zset.items := by
  have hevens : evens (withScores (s.zset.zrange 0 stop)).length =
      List.range' (2 * 0) (s.zset.zrange 0 stop).length 2 := by
    unfold evens
    rw [length_withScores]
    congr 1
    omega
  unfold moveFromZsetToList
  dsimp only
  rw [hevens, moveLoop_eq now _ _ 0 s (by omega)]
  exact moveAll_of_append (batch_append_rest _ _ _)

/-! ## The law -/

/-- The scores are times in milliseconds. -/
def IntegerScores (items : List Item) : Prop := ∀ i ∈ items, ∃ n : ℤ, i.score = n

/-- The members that are due among the first 21. -/
def dueOf (now : ℤ) (items : List Item) : List Item := (items.take 21).filter (·.score ≤ now)

/-- What one call does. -/
structure Moved (now : ℤ) (s s' : Keys) : Prop where
  pending : s'.pending = s.pending ++ (dueOf now s.zset.items).map Item.member
  kept : s'.zset.items =
    s.zset.items.filter fun i => i.member ∉ (dueOf now s.zset.items).map Item.member

/-- Calls at the times `ts`, with nothing added to the set. -/
def calls (ts : List ℤ) (s : Keys) : Keys :=
  ts.foldl (fun s now => moveFromZsetToList 0 20 now s) s

/-- At the time `now`, the time of each item has come. -/
def NotBefore (now : ℤ) (items : List Item) : Prop := ∀ i ∈ items, i.score ≤ now

/-- What calls at the times `ts` do: the members that one of them moves, `batches`, are the first ones
of the set, in their order and once each, and none of them is moved before its time. -/
structure MovedInTime (ts : List ℤ) (s s' : Keys) (batches : List (List Item)) : Prop where
  pending : s'.pending = s.pending ++ batches.flatten.map Item.member
  order : batches.flatten ++ s'.zset.items = s.zset.items
  once : (batches.flatten.map Item.member).Nodup
  inTime : List.Forall₂ NotBefore ts batches

@[simp] theorem parseInt_int (n : ℤ) : parseInt n = n := by
  unfold parseInt
  split <;> simp

/-- What is cut off a score makes it no later than an integer that it is not after. -/
theorem parseInt_le {score : ℚ} {t : ℤ} (h : score ≤ t) : parseInt score ≤ t := by
  unfold parseInt
  split
  · exact Int.ceil_le.2 h
  · exact Int.floor_le_iff.2 (h.trans_lt (by exact_mod_cast lt_add_one t))

section Law

variable {s : Keys} {now : ℤ} {i : Item}

theorem due_iff (h : IntegerScores s.zset.items) (hi : i ∈ s.zset.items) :
    due now i = true ↔ i.score ≤ now := by
  obtain ⟨n, hn⟩ := h i hi
  unfold due
  rw [hn, parseInt_int, decide_eq_true_eq, Int.cast_le]

theorem front_due (h : IntegerScores s.zset.items) : Front (due now) s.zset.items := by
  refine s.zset.sorted.imp_of_mem fun hi hj hle hdue => ?_
  exact (due_iff h hi).2 (hle.trans ((due_iff h hj).1 hdue))

theorem batch_eq_dueOf (h : IntegerScores s.zset.items) :
    batch 21 (due now) s.zset.items = dueOf now s.zset.items := by
  rw [batch_eq_filter (front_due h)]
  refine List.filter_congr fun i hi => ?_
  rw [Bool.eq_iff_iff, due_iff h (List.mem_of_mem_take hi), decide_eq_true_eq]

theorem moved (h : IntegerScores s.zset.items) (now : ℤ) :
    Moved now s (moveFromZsetToList 0 20 now s) := by
  obtain ⟨hpending, hitems⟩ := moveFromZsetToList_eq 20 now s
  have hsplit := batch_append_rest 21 (due now) s.zset.items
  rw [batch_eq_dueOf h] at hpending hsplit
  refine ⟨hpending, ?_⟩
  rw [hitems]
  have hnodup := s.zset.nodup
  rw [← hsplit, List.map_append] at hnodup
  obtain ⟨-, -, hne⟩ := List.nodup_append.1 hnodup
  have hmoved : (dueOf now s.zset.items).filter
      (fun i => i.member ∉ (dueOf now s.zset.items).map Item.member) = [] :=
    List.filter_eq_nil_iff.2 fun i hi => by simpa using ⟨i, hi, rfl⟩
  have hkept : (rest 21 (due now) s.zset.items).filter
      (fun i => i.member ∉ (dueOf now s.zset.items).map Item.member) =
      rest 21 (due now) s.zset.items :=
    List.filter_eq_self.2 fun i hi => decide_eq_true fun hmem =>
      hne _ hmem _ (List.mem_map_of_mem hi) rfl
  calc rest 21 (due now) s.zset.items
      = (dueOf now s.zset.items ++ rest 21 (due now) s.zset.items).filter
          fun i => i.member ∉ (dueOf now s.zset.items).map Item.member := by
        rw [List.filter_append, hmoved, hkept, List.nil_append]
    _ = s.zset.items.filter fun i => i.member ∉ (dueOf now s.zset.items).map Item.member := by
        rw [hsplit]

/-- The state after some calls. -/
theorem calls_eq (ts : List ℤ) (s : Keys) :
    (calls ts s).pending = s.pending ++ (batches 21 due ts s.zset.items).flatten.map Item.member ∧
      (calls ts s).zset.items = left 21 due ts s.zset.items := by
  induction ts generalizing s with
  | nil => exact ⟨(List.append_nil _).symm, rfl⟩
  | cons now ts ih =>
    obtain ⟨hpending, hitems⟩ := moveFromZsetToList_eq 20 now s
    obtain ⟨hpendings, hleft⟩ := ih (moveFromZsetToList 0 20 now s)
    rw [hitems] at hpendings hleft
    refine ⟨?_, hleft⟩
    show (calls ts (moveFromZsetToList 0 20 now s)).pending = _
    rw [hpendings, hpending, batches, List.flatten_cons, List.map_append, List.append_assoc]

theorem movedInTime (h : IntegerScores s.zset.items) (ts : List ℤ) :
    MovedInTime ts s (calls ts s) (batches 21 due ts s.zset.items) := by
  obtain ⟨hpending, hitems⟩ := calls_eq ts s
  have horder := batches_append_left 21 due ts s.zset.items
  refine ⟨hpending, hitems ▸ horder, ?_, ?_⟩
  · have hnodup := s.zset.nodup
    rw [← horder, List.map_append] at hnodup
    exact (List.nodup_append.1 hnodup).1
  · refine List.Forall₂.imp ?_ (due_of_batches 21 ts s.zset.items)
    intro now b hb i hi
    obtain ⟨hmem, hdue⟩ := hb i hi
    exact (due_iff h hmem).1 hdue

/-- With enough calls after a time, everything that was due at it has been moved. -/
theorem mem_batches {ts : List ℤ} {t : ℤ}
    (henough : s.zset.items.countP (fun i => i.score ≤ (t : ℚ)) ≤ 21 * ts.countP (t ≤ ·))
    (hi : i ∈ s.zset.items) (hscore : i.score ≤ t) :
    i ∈ (batches 21 due ts s.zset.items).flatten := by
  have hfront : Front (fun i => decide (i.score ≤ (t : ℚ))) s.zset.items :=
    s.zset.sorted.imp fun hle h => decide_eq_true (hle.trans (of_decide_eq_true h))
  have hlate : ∀ now : ℤ, decide (t ≤ now) = true → ∀ i : Item, decide (i.score ≤ (t : ℚ)) = true →
      due now i = true := fun now hlate i hi =>
    decide_eq_true ((parseInt_le (of_decide_eq_true hi)).trans (of_decide_eq_true hlate))
  have hleft := @countP_left _ _ 21 _ s.zset.items due _ hfront hlate ts
  have hnone : (left 21 due ts s.zset.items).countP (fun i => decide (i.score ≤ (t : ℚ))) = 0 := by
    omega
  rw [← batches_append_left 21 due ts s.zset.items] at hi
  rcases List.mem_append.1 hi with hmoved | hkept
  · exact hmoved
  · exact absurd (decide_eq_true hscore) (List.countP_eq_zero.1 hnone i hkept)

end Law

/-- A call appends the members that are due among the first 21 to the list, in the order of their
scores, removes them from the set and no others. Over any calls, the members that have been moved are
the first ones of the set, once each and not before their times; and after enough calls, everything
that was due is among them. -/
theorem mover_step_law (s : Keys) (h : IntegerScores s.zset.items) :
    (∀ now, Moved now s (moveFromZsetToList 0 20 now s)) ∧
    ∀ ts, ∃ batches, MovedInTime ts s (calls ts s) batches ∧
      ∀ t : ℤ, s.zset.items.countP (fun i => i.score ≤ (t : ℚ)) ≤ 21 * ts.countP (t ≤ ·) →
        ∀ i ∈ s.zset.items, i.score ≤ t → i ∈ batches.flatten :=
  ⟨moved h, fun ts => ⟨_, movedInTime h ts, fun _ henough _ hi => mem_batches henough hi⟩⟩

/-- Two units are ready, and one is not. -/
def sampleKeys : Keys where
  zset :=
    { items := [⟨"a", 10⟩, ⟨"b", 20⟩, ⟨"c", 30⟩]
      nodup := by decide
      sorted := by decide }
  pending := ["z"]

theorem mover_step_law_sample :
    (moveFromZsetToList 0 20 20 sampleKeys).pending = ["z", "a", "b"] ∧
      ∃ batches, MovedInTime [20, 35] sampleKeys (calls [20, 35] sampleKeys) batches := by
  have hint : IntegerScores sampleKeys.zset.items := by
    intro i hi
    rcases List.mem_cons.1 hi with rfl | hi
    · exact ⟨10, rfl⟩
    rcases List.mem_cons.1 hi with rfl | hi
    · exact ⟨20, rfl⟩
    · obtain rfl := List.mem_singleton.1 hi
      exact ⟨30, rfl⟩
  obtain ⟨batches, hmoved, -⟩ := (mover_step_law sampleKeys hint).2 [20, 35]
  exact ⟨by decide +kernel, batches, hmoved⟩

end Cme.Scheduler.Moves
