import CmeBackend.Lib.Scan
import CmeBackend.Map.Sequence

/-!
# The search for a free tile

`findRandomUnusedTileLocation` (`villages.service.ts`) from every position of a block. The loop
forward ends before it compares the last corner `(x2, y2)`. The loop backward is to end at the first
corner, but its condition has `y` compared with `x1`: it ends at `(x1, x1)`, which may be a later
position of the block, the first corner, or none that it meets. In the last case it leaves the block
where no tile is in its way.

* `search_ends`: the loops are scans of the rows of the block, forward and backward.
* `Meets`: the loop backward meets `(x1, x1)`.
* `forward_spec`, `backward_spec`: how the loops end.
* `search_sound_iff`: when a result lies in the block and is free.
* `search_complete_iff`: when no result means that no position of the block is free.
-/

namespace Cme.Map

open Scan Sequence

variable {b : MapBlock} {mapTiles : List (ℤ × ℤ)} {start p q : ℤ × ℤ}

/-- `initialPosition` -/
def initialPosition (b : MapBlock) (random : ℚ × ℚ) : ℤ × ℤ :=
  (randomIntegerBetween random.1 b.x1 b.x2, randomIntegerBetween random.2 b.y1 b.y2)

/-- A column of the block, in any row. -/
def MapBlock.InColumns (b : MapBlock) (p : ℤ × ℤ) : Prop := b.x1 ≤ p.1 ∧ p.1 ≤ b.x2

/-- The order of the rows, and of the positions of a row. -/
def byRows (p : ℤ × ℤ) : ℤ ×ₗ ℤ := toLex (p.2, p.1)

/-- The opposite order. -/
def byRowsBack (p : ℤ × ℤ) : ℤ ×ₗ ℤ := toLex (-p.2, -p.1)

theorem byRows_lt : byRows p < byRows q ↔ p.2 < q.2 ∨ p.2 = q.2 ∧ p.1 < q.1 :=
  Prod.Lex.toLex_lt_toLex

theorem byRows_le : byRows p ≤ byRows q ↔ p.2 < q.2 ∨ p.2 = q.2 ∧ p.1 ≤ q.1 :=
  Prod.Lex.toLex_le_toLex

theorem byRowsBack_lt : byRowsBack p < byRowsBack q ↔ byRows q < byRows p := by
  rw [byRows_lt, byRowsBack, byRowsBack, Prod.Lex.toLex_lt_toLex]
  omega

theorem byRowsBack_le : byRowsBack p ≤ byRowsBack q ↔ byRows q ≤ byRows p := by
  rw [← not_lt, byRowsBack_lt, not_lt]

/-! ## The loops are scans -/

theorem successor_right (b : MapBlock) : Successor b.InColumns byRows b.right where
  closed p hp := by
    unfold MapBlock.right MapBlock.InColumns at *
    split
    · dsimp only
      omega
    · dsimp only
      omega
  lt p _ := right_lt b p
  gap p q hp hq hlt := by
    rw [byRows_lt] at hlt
    rw [byRows_le]
    unfold MapBlock.right MapBlock.InColumns at *
    split
    · dsimp only
      omega
    · dsimp only
      omega
  inj p q _ _ heq := by
    obtain ⟨hy, hx⟩ := Prod.mk.inj (toLex_inj.1 heq)
    exact Prod.ext hx hy

theorem successor_left (b : MapBlock) : Successor b.InColumns byRowsBack b.left where
  closed p hp := by
    unfold MapBlock.left MapBlock.InColumns at *
    split
    · dsimp only
      omega
    · dsimp only
      omega
  lt p _ := left_lt b p
  gap p q hp hq hlt := by
    rw [byRowsBack_lt, byRows_lt] at hlt
    rw [byRowsBack_le, byRows_le]
    unfold MapBlock.left MapBlock.InColumns at *
    split
    · dsimp only
      omega
    · dsimp only
      omega
  inj p q _ _ heq := by
    obtain ⟨hy, hx⟩ := Prod.mk.inj (toLex_inj.1 heq)
    exact Prod.ext (neg_inj.1 hx) (neg_inj.1 hy)

/-- A loop that ends is a scan, and its result says where. -/
theorem search_ends {next : ℤ × ℤ → ℤ × ℤ} {last : ℤ × ℤ} {fuel : ℕ} {found : Found}
    (h : search next last mapTiles fuel p = some found) :
    ∃ q, Ends next (· = last) (· ∈ mapTiles) p q ∧
      found = if q = last then .last else .unused q := by
  induction fuel generalizing p with
  | zero => cases h
  | succ fuel ih =>
    unfold search at h
    split at h
    next hlast =>
      cases h
      exact ⟨p, .here (.inl hlast), (if_pos hlast).symm⟩
    next hlast =>
      split at h
      next hmem =>
        obtain ⟨q, hq, hfound⟩ := ih h
        exact ⟨q, .next hlast hmem hq, hfound⟩
      next hfree =>
        cases h
        exact ⟨p, .here (.inr hfree), (if_neg hlast).symm⟩

/-! ## How the loops end -/

/-- The loop backward meets `(x1, x1)`: it is a position of the block up to the start, or the
position before a block of one column. -/
def Meets (b : MapBlock) (start : ℤ × ℤ) : Prop :=
  (b.y1 ≤ b.x1 ∧ b.x1 ≤ start.2) ∨ (b.x1 = b.x2 ∧ b.x1 = b.y1 - 1)

/-- The loop forward, from the start. -/
def forward (b : MapBlock) (mapTiles : List (ℤ × ℤ)) (fuel : ℕ) (start : ℤ × ℤ) : Option Found :=
  search b.right (b.x2, b.y2) mapTiles fuel start

/-- The loop backward, from the start. -/
def backward (b : MapBlock) (mapTiles : List (ℤ × ℤ)) (fuel : ℕ) (start : ℤ × ℤ) : Option Found :=
  search b.left (b.x1, b.x1) mapTiles fuel start

theorem MapBlock.Contains.inColumns (h : b.Contains p) : b.InColumns p := h.1

/-- The loop forward finds a free position before the last corner, if there is one. -/
theorem forward_spec (hs : b.Contains start) :
    (forward b mapTiles (mapTiles.length + 1) start = some .last ∧
      ∀ p, b.Contains p → byRows start ≤ byRows p → p ≠ (b.x2, b.y2) → p ∈ mapTiles) ∨
    ∃ p, forward b mapTiles (mapTiles.length + 1) start = some (.unused p) ∧
      b.Contains p ∧ p ∉ mapTiles ∧ byRows start ≤ byRows p ∧ p ≠ (b.x2, b.y2) := by
  have hright := successor_right b
  obtain ⟨found, hfound⟩ := Option.isSome_iff_exists.1
    (@loops_end (b.x2, b.y2) start mapTiles b).1
  obtain ⟨q, hends, rfl⟩ := search_ends hfound
  obtain ⟨⟨hx1, hx2⟩, hy1, hy2⟩ := hs
  have hstart : b.InColumns start := ⟨hx1, hx2⟩
  have hcorner : byRows start ≤ byRows (b.x2, b.y2) := by
    rw [byRows_le]
    dsimp only
    omega
  have hq := hends.le_of_ends hright hstart (r := (b.x2, b.y2)) ⟨hx1.trans hx2, le_rfl⟩ hcorner
    (.inl rfl)
  have hqcolumns := hends.mem hright hstart
  have hle := hends.le hright hstart
  by_cases hlast : q = (b.x2, b.y2)
  · refine .inl ⟨hfound.trans (by rw [if_pos hlast]), fun p hp hsp hne => ?_⟩
    refine (hends.passed hright hstart hp.inColumns hsp ?_).2
    have hpx : p.1 ≠ b.x2 ∨ p.2 ≠ b.y2 := by
      by_contra hboth
      rw [not_or, not_not, not_not] at hboth
      exact hne (Prod.ext hboth.1 hboth.2)
    obtain ⟨⟨_, _⟩, _, _⟩ := hp
    rw [hlast, byRows_lt]
    dsimp only
    omega
  · refine .inr ⟨q, hfound.trans (by rw [if_neg hlast]), ⟨hqcolumns, ?_⟩, ?_, hle, hlast⟩
    · rw [byRows_le] at hq hle
      dsimp only at hq
      omega
    · exact hends.final.resolve_left hlast

/-- The loop backward finds a free position up to the start, if there is one after `(x1, x1)`.
Otherwise it meets `(x1, x1)`, or it leaves the block. -/
theorem backward_spec (hs : b.Contains start) (ht : ∀ q ∈ mapTiles, b.Contains q) :
    (Meets b start ∧ backward b mapTiles (mapTiles.length + 1) start = some .last ∧
      ∀ p, b.Contains p → byRows (b.x1, b.x1) < byRows p → byRows p ≤ byRows start →
        p ∈ mapTiles) ∨
    (∃ p, backward b mapTiles (mapTiles.length + 1) start = some (.unused p) ∧
      b.Contains p ∧ p ∉ mapTiles ∧ byRows p ≤ byRows start ∧
      (Meets b start → byRows (b.x1, b.x1) < byRows p)) ∨
    (¬Meets b start ∧
      backward b mapTiles (mapTiles.length + 1) start = some (.unused (b.x2, b.y1 - 1)) ∧
      ∀ p, b.Contains p → byRows p ≤ byRows start → p ∈ mapTiles) := by
  have hleft := successor_left b
  obtain ⟨found, hfound⟩ := Option.isSome_iff_exists.1
    (@loops_end (b.x1, b.x1) start mapTiles b).2
  obtain ⟨q, hends, rfl⟩ := search_ends hfound
  obtain ⟨⟨hx1, hx2⟩, hy1, hy2⟩ := hs
  have hstart : b.InColumns start := ⟨hx1, hx2⟩
  have hfinal := hends.final
  have hqcolumns := hends.mem hleft hstart
  have hle := hends.le hleft hstart
  rw [byRowsBack_le] at hle
  have hpassed : ∀ p, b.InColumns p → byRows p ≤ byRows start → byRows q < byRows p →
      p ≠ (b.x1, b.x1) ∧ p ∈ mapTiles := fun p hp hps hqp =>
    hends.passed hleft hstart hp (byRowsBack_le.2 hps) (byRowsBack_lt.2 hqp)
  -- The position before the block has no tile, so the loop goes no further.
  have hout : (b.x2, b.y1 - 1) ∉ mapTiles := fun hmem => by
    have hrow := (ht _ hmem).2.1
    dsimp only at hrow
    omega
  have hq : byRows (b.x2, b.y1 - 1) ≤ byRows q := byRowsBack_le.1 <|
    hends.le_of_ends hleft hstart (r := (b.x2, b.y1 - 1)) ⟨hx1.trans hx2, le_rfl⟩
      (byRowsBack_le.2 (byRows_le.2 (by dsimp only; omega))) (.inr hout)
  obtain ⟨_, _⟩ := hqcolumns
  have hmeets : Meets b start → byRows (b.x1, b.x1) ≤ byRows q := by
    rintro (hrow | hcolumn)
    · exact byRowsBack_le.1 <| hends.le_of_ends hleft hstart (r := (b.x1, b.x1))
        ⟨le_rfl, hx1.trans hx2⟩
        (byRowsBack_le.2 (byRows_le.2 (by dsimp only; omega))) (.inl rfl)
    · rw [byRows_le] at hq ⊢
      dsimp only at hq ⊢
      omega
  by_cases hlast : q = (b.x1, b.x1)
  · refine .inl ⟨?_, hfound.trans (by rw [if_pos hlast]), fun p hp hlt hps => ?_⟩
    · rw [hlast, byRows_le] at hq hle
      unfold Meets
      dsimp only at hq hle
      omega
    · exact (hpassed p hp.inColumns hps (hlast ▸ hlt)).2
  · have hunused := hfound.trans (congrArg some (if_neg hlast))
    by_cases hblock : b.y1 ≤ q.2
    · refine .inr (.inl ⟨q, hunused, ⟨⟨‹_›, ‹_›⟩, hblock, ?_⟩, hfinal.resolve_left hlast, hle, ?_⟩)
      · rw [byRows_le] at hle
        omega
      · intro hm
        refine lt_of_le_of_ne (hmeets hm) fun heq => hlast ?_
        obtain ⟨hy, hx⟩ := Prod.mk.inj (toLex_inj.1 heq)
        exact Prod.ext hx.symm hy.symm
    · obtain rfl : q = (b.x2, b.y1 - 1) := by
        rw [byRows_le] at hq
        dsimp only at hq
        exact Prod.ext (by dsimp only; omega) (by dsimp only; omega)
      refine .inr (.inr ⟨fun hm => ?_, hunused, fun p hp hps => ?_⟩)
      · have hmle := hmeets hm
        rw [byRows_le] at hmle
        dsimp only at hmle hblock
        refine hlast (Prod.ext ?_ ?_)
        all_goals
          dsimp only
          unfold Meets at hm
          omega
      · refine (hpassed p hp.inColumns hps ?_).2
        obtain ⟨_, _, _⟩ := hp
        rw [byRows_lt]
        dsimp only
        omega

/-! ## The result -/

/-- `Math.random()` may give every integer of a range. -/
theorem exists_randomIntegerBetween {n min max : ℤ} (h1 : min ≤ n) (h2 : n ≤ max) :
    ∃ random : ℚ, (0 ≤ random ∧ random < 1) ∧ randomIntegerBetween random min max = n := by
  have hpos : (0 : ℚ) < max - min + 1 := by
    have hle : (0 : ℚ) ≤ ((max - min : ℤ) : ℚ) := by exact_mod_cast (by omega : 0 ≤ max - min)
    push_cast at hle
    linarith
  refine ⟨(n - min : ℤ) / (max - min + 1), ⟨?_, ?_⟩, ?_⟩
  · exact div_nonneg (by exact_mod_cast (by omega : 0 ≤ n - min)) hpos.le
  · rw [div_lt_one hpos]
    exact_mod_cast (by omega : n - min < max - min + 1)
  · unfold randomIntegerBetween
    rw [div_mul_cancel₀ _ hpos.ne', ← Int.cast_add, Int.floor_intCast]
    omega

/-- Every position of a block may be the start. -/
theorem exists_initialPosition (hs : b.Contains start) :
    ∃ random, Uniform random ∧ initialPosition b random = start := by
  obtain ⟨⟨hx1, hx2⟩, hy1, hy2⟩ := hs
  obtain ⟨r, hr, hrx⟩ := exists_randomIntegerBetween hx1 hx2
  obtain ⟨r', hr', hry⟩ := exists_randomIntegerBetween hy1 hy2
  exact ⟨(r, r'), ⟨hr, hr'⟩, Prod.ext hrx hry⟩

/-- A position that a loop compares with the tiles, where the loop backward meets `(x1, x1)`. -/
def Compared (b : MapBlock) (start p : ℤ × ℤ) : Prop :=
  byRows start ≤ byRows p ∧ p ≠ (b.x2, b.y2) ∨
    byRows (b.x1, b.x1) < byRows p ∧ byRows p ≤ byRows start

section Find

variable {random : ℚ × ℚ}

/-- The loop forward has found a position. -/
theorem find_of_forward
    (h : forward b mapTiles (mapTiles.length + 1) (initialPosition b random) = some (.unused p)) :
    findRandomUnusedTileLocation b mapTiles random = some p := by
  simp only [forward, initialPosition] at h
  simp only [findRandomUnusedTileLocation, h]

/-- Only the loop backward has found a position. -/
theorem find_of_backward
    (hf : forward b mapTiles (mapTiles.length + 1) (initialPosition b random) = some .last)
    (h : backward b mapTiles (mapTiles.length + 1) (initialPosition b random) = some (.unused p)) :
    findRandomUnusedTileLocation b mapTiles random = some p := by
  simp only [forward, backward, initialPosition] at hf h
  simp only [findRandomUnusedTileLocation, hf, h]

/-- Both loops have met their ends. -/
theorem find_of_last
    (hf : forward b mapTiles (mapTiles.length + 1) (initialPosition b random) = some .last)
    (h : backward b mapTiles (mapTiles.length + 1) (initialPosition b random) = some .last) :
    findRandomUnusedTileLocation b mapTiles random = none := by
  simp only [forward, backward, initialPosition] at hf h
  simp only [findRandomUnusedTileLocation, hf, h]

end Find

/-- The three results: a free position, none, or the position before the block. -/
theorem find_spec {random : ℚ × ℚ} (hs : b.Contains start) (ht : ∀ q ∈ mapTiles, b.Contains q)
    (hstart : initialPosition b random = start) :
    (∃ p, findRandomUnusedTileLocation b mapTiles random = some p ∧ b.Contains p ∧ p ∉ mapTiles ∧
      (byRows start ≤ byRows p ∧ p ≠ (b.x2, b.y2) ∨
        byRows p ≤ byRows start ∧ (Meets b start → byRows (b.x1, b.x1) < byRows p))) ∨
    (findRandomUnusedTileLocation b mapTiles random = none ∧ Meets b start ∧
      ∀ p, b.Contains p → Compared b start p → p ∈ mapTiles) ∨
    (findRandomUnusedTileLocation b mapTiles random = some (b.x2, b.y1 - 1) ∧ ¬Meets b start ∧
      (∀ p, b.Contains p → byRows start ≤ byRows p → p ≠ (b.x2, b.y2) → p ∈ mapTiles) ∧
      ∀ p, b.Contains p → byRows p ≤ byRows start → p ∈ mapTiles) := by
  subst hstart
  rcases forward_spec hs with ⟨hf, hused⟩ | ⟨p, hf, hp, hfree, hle, hne⟩
  · rcases backward_spec hs ht with
      ⟨hmeets, hback, hback'⟩ | ⟨p, hback, hp, hfree, hle, hlt⟩ | ⟨hmeets, hback, hback'⟩
    · refine .inr (.inl ⟨find_of_last hf hback, hmeets, fun p hp hcompared => ?_⟩)
      rcases hcompared with ⟨hle, hne⟩ | ⟨hlt, hle⟩
      · exact hused p hp hle hne
      · exact hback' p hp hlt hle
    · exact .inl ⟨p, find_of_backward hf hback, hp, hfree, .inr ⟨hle, hlt⟩⟩
    · exact .inr (.inr ⟨find_of_backward hf hback, hmeets, hused, hback'⟩)
  · exact .inl ⟨p, find_of_forward hf, hp, hfree, .inl ⟨hle, hne⟩⟩

/-! ## Soundness -/

/-- A result lies in the block, and no tile is there. -/
def Sound (b : MapBlock) (mapTiles : List (ℤ × ℤ)) (random : ℚ × ℚ) : Prop :=
  ∀ p, findRandomUnusedTileLocation b mapTiles random = some p → b.Contains p ∧ p ∉ mapTiles

/-- The last corner is not before the start, which is in the block. -/
theorem eq_corner (hs : b.Contains start) (h : byRows (b.x2, b.y2) ≤ byRows start) :
    start = (b.x2, b.y2) := by
  obtain ⟨⟨_, _⟩, _, _⟩ := hs
  rw [byRows_le] at h
  dsimp only at h
  exact Prod.ext (by dsimp only; omega) (by dsimp only; omega)

/-- From every start in a block, a result lies in the block and is free exactly if the loop backward
meets `(x1, x1)`, or a position other than the last corner is free, or the start is the last corner
and it is free. -/
theorem search_sound_iff (hs : b.Contains start) (ht : ∀ q ∈ mapTiles, b.Contains q) :
    (∃ random, Uniform random ∧ initialPosition b random = start) ∧
    ∀ random, initialPosition b random = start →
      (Sound b mapTiles random ↔ Meets b start ∨
        ∃ p, b.Contains p ∧ p ∉ mapTiles ∧ (p ≠ (b.x2, b.y2) ∨ start = (b.x2, b.y2))) := by
  refine ⟨exists_initialPosition hs, fun random hstart => ?_⟩
  rcases find_spec hs ht hstart with
    ⟨p, hfind, hp, hfree, hplace⟩ | ⟨hfind, hmeets, -⟩ | ⟨hfind, hmeets, hused, hused'⟩
  · refine iff_of_true (fun q hq => ?_) (.inr ⟨p, hp, hfree, ?_⟩)
    · cases hfind.symm.trans hq
      exact ⟨hp, hfree⟩
    · rcases hplace with ⟨-, hne⟩ | ⟨hle, -⟩
      · exact .inl hne
      · refine or_iff_not_imp_left.2 fun heq => eq_corner hs ?_
        rwa [not_not.1 heq] at hle
  · exact iff_of_true (fun q hq => by cases hfind.symm.trans hq) (.inl hmeets)
  · refine iff_of_false (fun hsound => ?_) ?_
    · have hrow := (hsound _ hfind).1.2.1
      dsimp only at hrow
      omega
    · rintro (hm | ⟨p, hp, hfree, hne⟩)
      · exact hmeets hm
      · rcases le_total (byRows start) (byRows p) with hle | hle
        · rcases hne with hne | hcorner
          · exact hfree (hused p hp hle hne)
          · refine hfree (hused' p hp ?_)
            rw [hcorner] at hle ⊢
            rw [eq_corner hp hle]
        · exact hfree (hused' p hp hle)

/-- A block with a free position. -/
theorem search_sound_iff_sample : Sound ⟨0, 0, 9, 9⟩ [(4, 4)] (2 / 5, 2 / 5) :=
  ((@search_sound_iff ⟨0, 0, 9, 9⟩ [(4, 4)] (4, 4) (by decide) (by decide)).2 _ (by decide +kernel)).2
    (.inr ⟨(0, 0), by decide, by decide, .inl (by decide)⟩)

/-- The block (1, 5) to (3, 6), where only the last corner is free: from its first corner the loop
backward goes to (3, 4). -/
theorem leaves_block :
    (∀ q ∈ [(1, 5), (2, 5), (3, 5), (1, 6), (2, 6)], MapBlock.Contains ⟨1, 5, 3, 6⟩ q) ∧
      initialPosition ⟨1, 5, 3, 6⟩ (0, 0) = (1, 5) ∧
      findRandomUnusedTileLocation ⟨1, 5, 3, 6⟩ [(1, 5), (2, 5), (3, 5), (1, 6), (2, 6)] (0, 0) =
        some (3, 4) ∧
      ¬Sound ⟨1, 5, 3, 6⟩ [(1, 5), (2, 5), (3, 5), (1, 6), (2, 6)] (0, 0) := by
  refine ⟨by decide, by decide +kernel, by decide +kernel, fun hsound => ?_⟩
  exact absurd (hsound (3, 4) (by decide +kernel)).1 (by decide)

/-! ## Completeness -/

/-- Both loops end, and there is no result only if every position of the block has a tile. -/
def Complete (b : MapBlock) (mapTiles : List (ℤ × ℤ)) (random : ℚ × ℚ) : Prop :=
  (∃ fuel, (forward b mapTiles fuel (initialPosition b random)).isSome) ∧
    (∃ fuel, (backward b mapTiles fuel (initialPosition b random)).isSome) ∧
    (findRandomUnusedTileLocation b mapTiles random = none → ∀ p, b.Contains p → p ∈ mapTiles)

/-- From every start in a block the search is complete exactly if the loop backward does not meet
`(x1, x1)`, or a position is free that the loops compare, or none is free. -/
theorem search_complete_iff (hs : b.Contains start) (ht : ∀ q ∈ mapTiles, b.Contains q) :
    (∃ random, Uniform random ∧ initialPosition b random = start) ∧
    ∀ random, initialPosition b random = start →
      (Complete b mapTiles random ↔ (Meets b start →
        (∃ p, b.Contains p ∧ p ∉ mapTiles ∧ Compared b start p) ∨
          ∀ p, b.Contains p → p ∈ mapTiles)) := by
  refine ⟨exists_initialPosition hs, fun random hstart => ?_⟩
  have hloops := fun last p => @loops_end last p mapTiles b
  have hends : Complete b mapTiles random ↔
      (findRandomUnusedTileLocation b mapTiles random = none → ∀ p, b.Contains p → p ∈ mapTiles) :=
    ⟨fun h => h.2.2, fun h => ⟨⟨_, (hloops _ _).1⟩, ⟨_, (hloops _ _).2⟩, h⟩⟩
  rw [hends]
  rcases find_spec hs ht hstart with
    ⟨p, hfind, hp, hfree, hplace⟩ | ⟨hfind, hmeets, hused⟩ | ⟨hfind, hmeets, -⟩
  · refine iff_of_true (fun hnone => by cases hfind.symm.trans hnone) fun hmeets => ?_
    refine .inl ⟨p, hp, hfree, hplace.imp id fun hback => ⟨hback.2 hmeets, hback.1⟩⟩
  · rw [imp_iff_right hfind, imp_iff_right hmeets]
    refine (or_iff_right ?_).symm
    rintro ⟨p, hp, hfree, hcompared⟩
    exact hfree (hused p hp hcompared)
  · exact iff_of_true (fun hnone => by cases hfind.symm.trans hnone) fun hm => absurd hm hmeets

/-- A block with a free position after the start. -/
theorem search_complete_iff_sample : Complete ⟨0, 0, 9, 9⟩ [(4, 4)] (2 / 5, 2 / 5) :=
  ((@search_complete_iff ⟨0, 0, 9, 9⟩ [(4, 4)] (4, 4) (by decide) (by decide)).2 _ (by decide +kernel)).2
    fun _ => .inl ⟨(5, 4), by decide, by decide, .inl ⟨by decide, by decide⟩⟩

/-- A block of one position, and a block of four of which both corners are free. -/
theorem corners_missed :
    (findRandomUnusedTileLocation ⟨0, 0, 0, 0⟩ [] (0, 0) = none ∧ ¬Complete ⟨0, 0, 0, 0⟩ [] (0, 0)) ∧
      findRandomUnusedTileLocation ⟨0, 0, 1, 1⟩ [(1, 0), (0, 1)] (1 / 2, 0) = none ∧
      ¬Complete ⟨0, 0, 1, 1⟩ [(1, 0), (0, 1)] (1 / 2, 0) := by
  refine ⟨⟨by decide +kernel, fun h => ?_⟩, by decide +kernel, fun h => ?_⟩
  · exact absurd (h.2.2 (by decide +kernel) (0, 0) (by decide)) (by decide)
  · exact absurd (h.2.2 (by decide +kernel) (0, 0) (by decide)) (by decide)

end Cme.Map
