import CmeBackend.Lib.Numerals
import CmeBackend.Map.Entities
import Mathlib.Data.Int.ConditionallyCompleteOrder
import Mathlib.Data.Set.Prod

/-!
# Rows around a point

`GET /villages` and `GET /map-tiles` (`villages.controller.ts`, `map-tiles.controller.ts`, and
`findAllAround` and `findRectangle` of their services), which are the same but for the table. The
parameters of the query are texts. Nothing converts them, so `x - offset` is a difference of numbers,
and `x + offset` is one text after the other.

The coordinates are columns of the type `int`, so the database reads integers (`Sql.int4in`), and
refuses a query with another parameter.

* `selected`, `around`: the coordinates that are selected, and the coordinates that are asked for.
* `selected_eq_around_iff`: when they are the same.
* `area_selected_iff`: the requests that give the area.
-/

namespace Cme.Map.Areas

open Js Number

variable {ρ : Type}

/-! ## The code -/

/-- The query parameters. `none`: undefined. -/
structure GetVillagesRectangle where
  x1 : Option (List Char)
  y1 : Option (List Char)
  x2 : Option (List Char)
  y2 : Option (List Char)
  offset : Option (List Char)

/-- `Between(min, max)` -/
def between (min max n : ℤ) : Bool := min ≤ n ∧ n ≤ max

/-- The database reads a parameter as an `int`, which is the type of the columns. `none`: it refuses
the query. -/
def bound (parameter : List Char) : Option ℤ := Sql.int4in parameter

/-- `x_min` -/
def lowerBound (R : Rounding) (x offset : List Char) : Number :=
  if (R.sub x offset).lt (.fin 0) then .fin 0 else R.sub x offset

/-- `findAllAround`, for rows with their positions. A number is sent as its text. -/
def findAllAround (R : Rounding) (position : ρ → ℤ × ℤ) (rows : List ρ) (x y offset : List Char) :
    Option (List ρ) := do
  let x_min ← bound (lowerBound R x offset).text
  let x_max ← bound (x ++ offset)
  let y_min ← bound (lowerBound R y offset).text
  let y_max ← bound (y ++ offset)
  return rows.filter fun r =>
    between x_min x_max (position r).1 ∧ between y_min y_max (position r).2

def findRectangle (position : ρ → ℤ × ℤ) (rows : List ρ) (x1 y1 x2 y2 : List Char) :
    Option (List ρ) := do
  let x_min ← bound x1
  let x_max ← bound x2
  let y_min ← bound y1
  let y_max ← bound y2
  return rows.filter fun r =>
    between x_min x_max (position r).1 ∧ between y_min y_max (position r).2

/-- A parameter that is not falsy. -/
def given (parameter : Option (List Char)) : Option (List Char) := parameter.filter (· ≠ [])

/-- `index` of both controllers -/
def index (R : Rounding) (position : ρ → ℤ × ℤ) (rows : List ρ) (q : GetVillagesRectangle) :
    Option (List ρ) :=
  match given q.x1, given q.y1, given q.x2, given q.y2, given q.offset with
  | some x1, some y1, some x2, some y2, _ => findRectangle position rows x1 y1 x2 y2
  | some x1, some y1, _, _, some offset => findAllAround R position rows x1 y1 offset
  | _, _, _, _, _ => some rows

/-! ## The area -/

/-- The request asks for the point (`x1`, `y1`) with an `offset`. -/
def request (x1 y1 offset : Numeral) : GetVillagesRectangle :=
  ⟨some x1.text, some y1.text, none, none, some offset.text⟩

/-- The coordinates that are asked for. -/
def around (c offset : Numeral) : Set ℤ := { n | |(n : ℚ) - c.value| ≤ offset.value }

instance (c offset : Numeral) (n : ℤ) : Decidable (n ∈ around c offset) :=
  inferInstanceAs (Decidable (|(n : ℚ) - c.value| ≤ offset.value))

/-- The request selects the rows of the area, whatever rows there are. -/
def AreaSelected (R : Rounding) (position : ρ → ℤ × ℤ) (x1 y1 offset : Numeral) : Prop :=
  ∀ rows : List ρ, index R position rows (request x1 y1 offset) =
    some (rows.filter fun r => (position r).1 ∈ around x1 offset ∧ (position r).2 ∈ around y1 offset)

/-! ## What is selected -/

/-- The database reads the upper bound. -/
def Reads (c offset : Numeral) : Prop :=
  c.IsInt ∧ offset.IsInt ∧ offset.neg = false ∧ Sql.IsInt4 (c.append offset).toInt

instance (c offset : Numeral) : Decidable (Reads c offset) :=
  inferInstanceAs (Decidable (_ ∧ _ ∧ _ ∧ _))

/-- The coordinates that are selected. -/
def selected (c offset : Numeral) : Set ℤ :=
  Set.Icc (max 0 (c.toInt - offset.toInt)) (c.append offset).toInt

instance (c offset : Numeral) (n : ℤ) : Decidable (n ∈ selected c offset) :=
  inferInstanceAs (Decidable (_ ∧ _))

section Selected

variable {R : Rounding} {position : ρ → ℤ × ℤ} {x1 y1 c offset : Numeral} {n : ℤ}

theorem text_ne_nil (c : Numeral) : c.text ≠ [] := by
  obtain ⟨d, ds, hds, -⟩ := c.body_head_isDigit
  unfold Numeral.text
  rw [hds]
  split <;> simp

theorem given_text (c : Numeral) : given (some c.text) = some c.text := by
  simp [given, text_ne_nil]

theorem upperBound_eq (c offset : Numeral) :
    bound (c.text ++ offset.text) =
      if Reads c offset then some (c.append offset).toInt else none :=
  Numeral.int4in_append c offset

/-- What is appended to a coordinate does not make it smaller. -/
theorem Reads.bounds (h : Reads c offset) :
    |c.toInt| ≤ 2 ^ 31 ∧ c.toInt < 2 ^ 31 ∧ 0 ≤ offset.toInt ∧ offset.toInt ≤ 2 ^ 31 := by
  obtain ⟨-, -, hneg, hlow, hhigh⟩ := h
  obtain ⟨hc, hoffset⟩ := c.whole.le_value_append offset.whole
  revert hlow hhigh
  unfold Numeral.toInt Numeral.append
  rw [hneg]
  cases c.neg <;> simp only [Bool.false_eq_true, if_true, if_false] <;> intro hlow hhigh <;>
    refine ⟨abs_le.2 ⟨?_, ?_⟩, ?_, ?_, ?_⟩ <;> omega

/-- The lower bound is read whenever the upper bound is. -/
theorem lowerBound_eq (R : Rounding) (h : Reads c offset) :
    bound (lowerBound R c.text offset.text).text = some (max 0 (c.toInt - offset.toInt)) := by
  obtain ⟨habs, hlt, hpos, hoffset⟩ := h.bounds
  have hsub : R.sub c.text offset.text = .fin (c.toInt - offset.toInt : ℤ) :=
    R.sub_text h.1 h.2.1 (by omega) (abs_le.2 ⟨by omega, by omega⟩)
  have hlower : lowerBound R c.text offset.text =
      .fin ((max 0 (c.toInt - offset.toInt)).toNat : ℕ) := by
    unfold lowerBound
    rw [hsub]
    by_cases hneg : c.toInt - offset.toInt < 0
    · have hmax : (max 0 (c.toInt - offset.toInt)).toNat = 0 := by omega
      rw [hmax, if_pos]
      · rfl
      · simpa [Number.lt] using hneg
    · have hmax : c.toInt - offset.toInt = (max 0 (c.toInt - offset.toInt)).toNat := by omega
      rw [if_neg (by simpa [Number.lt] using hneg)]
      exact congrArg Number.fin (by exact_mod_cast hmax)
  have hnat : (max 0 (c.toInt - offset.toInt)).toNat < 2 ^ 31 := by omega
  unfold bound
  rw [hlower, Number.text_natCast (hnat.trans (by norm_num)), Sql.int4in_toDigits hnat]
  congr 1
  omega

/-- A request is refused, or it selects by the coordinates. -/
theorem index_request (rows : List ρ) :
    index R position rows (request x1 y1 offset) =
      if Reads x1 offset ∧ Reads y1 offset then
        some (rows.filter fun r =>
          (position r).1 ∈ selected x1 offset ∧ (position r).2 ∈ selected y1 offset)
      else none := by
  unfold index request
  simp only [given_text]
  show findAllAround R position rows x1.text y1.text offset.text = _
  unfold findAllAround
  rw [upperBound_eq, upperBound_eq]
  by_cases hx : Reads x1 offset
  · by_cases hy : Reads y1 offset
    · rw [lowerBound_eq R hx, lowerBound_eq R hy]
      simp [hx, hy, between, selected, Set.mem_Icc]
    · simp [hy]
  · simp [hx]

/-- Of rows at every point, a request selects the area if the coordinates are right. -/
theorem areaSelected_iff_prod (hposition : Function.Surjective position) :
    AreaSelected R position x1 y1 offset ↔ Reads x1 offset ∧ Reads y1 offset ∧
      selected x1 offset ×ˢ selected y1 offset = around x1 offset ×ˢ around y1 offset := by
  unfold AreaSelected
  simp only [index_request]
  constructor
  · intro h
    have hreads : Reads x1 offset ∧ Reads y1 offset := by
      by_contra hnot
      have hnil := h []
      rw [if_neg hnot] at hnil
      cases hnil
    refine ⟨hreads.1, hreads.2, Set.ext fun p => ?_⟩
    obtain ⟨r, rfl⟩ := hposition p
    have hone := h [r]
    rw [if_pos hreads] at hone
    have hmem := congrArg (r ∈ ·) (Option.some.inj hone)
    simpa using hmem
  · rintro ⟨hx, hy, heq⟩ rows
    rw [if_pos ⟨hx, hy⟩]
    refine congrArg some (List.filter_congr fun r _ => ?_)
    have hmem := Set.ext_iff.1 heq (position r)
    simp only [Set.mem_prod] at hmem
    exact decide_eq_decide.2 hmem

end Selected

/-! ## When the coordinates are the right ones -/

section Coordinates

variable {c offset : Numeral}

theorem around_eq (h : Reads c offset) :
    around c offset = Set.Icc (c.toInt - offset.toInt) (c.toInt + offset.toInt) := by
  ext n
  show |(n : ℚ) - c.value| ≤ offset.value ↔ _
  rw [Numeral.value_eq_toInt h.1, Numeral.value_eq_toInt h.2.1, Set.mem_Icc, ← Int.cast_sub,
    ← Int.cast_abs, Int.cast_le, abs_le]
  constructor <;> intro hn <;> omega

theorem around_nonempty (h : Reads c offset) : (around c offset).Nonempty := by
  rw [around_eq h]
  exact ⟨c.toInt, by have hpos := h.bounds.2.2.1; constructor <;> omega⟩

/-- The coordinates that are selected are those of the area. -/
theorem selected_eq_around_iff (h : Reads c offset) :
    selected c offset = around c offset ↔ offset.toInt = 0 ∧ c.toInt = 0 := by
  have hpos := h.bounds.2.2.1
  rw [around_eq h, eq_comm]
  unfold selected
  rw [Set.Icc_eq_Icc_iff (by omega), Numeral.toInt_append]
  have hvalue : (offset.whole.value : ℤ) = offset.toInt := by
    unfold Numeral.toInt
    rw [h.2.2.1]
    rfl
  rw [hvalue]
  constructor
  · rintro ⟨hlow, hhigh⟩
    have hc : 0 ≤ c.toInt := by omega
    have hpow : (10 : ℤ) ≤ 10 ^ offset.whole.length :=
      le_self_pow₀ (by norm_num) offset.whole.length_pos.ne'
    have hle : c.toInt * 10 ≤ c.toInt * 10 ^ offset.whole.length :=
      mul_le_mul_of_nonneg_left hpow hc
    cases hneg : c.neg with
    | false =>
      -- The digits of the offset come after those of the coordinate.
      rw [hneg] at hhigh
      simp only [Bool.false_eq_true, if_false] at hhigh
      omega
    | true =>
      have hzero : c.toInt ≤ 0 := by
        unfold Numeral.toInt
        rw [hneg]
        simp
      rw [hneg, if_pos rfl] at hhigh
      omega
  · rintro ⟨hoffset, hc⟩
    simp [hoffset, hc]

end Coordinates

/-! ## The requests that give the area -/

/-- The offset is 0, and the point is the origin, and none of them has a fraction. -/
def Covered (x1 y1 offset : Numeral) : Prop :=
  (x1.IsInt ∧ y1.IsInt ∧ offset.IsInt) ∧ offset.neg = false ∧ offset.value = 0 ∧
    x1.value = 0 ∧ y1.value = 0

section Requests

variable {R : Rounding} {position : ρ → ℤ × ℤ} {x1 y1 c offset : Numeral}

/-- Zeros are read. -/
theorem reads_of_zero (hc : c.IsInt) (hoffset : offset.IsInt) (hneg : offset.neg = false)
    (hczero : c.toInt = 0) (hzero : offset.toInt = 0) : Reads c offset := by
  have hvalue : (offset.whole.value : ℤ) = 0 := by
    unfold Numeral.toInt at hzero
    rwa [hneg] at hzero
  have happend : (c.append offset).toInt = 0 := by
    rw [Numeral.toInt_append, hczero, hvalue]
    simp
  exact ⟨hc, hoffset, hneg, by rw [happend]; decide⟩

theorem areaSelected_iff_covered (hposition : Function.Surjective position) :
    AreaSelected R position x1 y1 offset ↔ Covered x1 y1 offset := by
  have hzero : ∀ {n : Numeral}, n.IsInt → (n.value = 0 ↔ n.toInt = 0) := fun hn => by
    rw [Numeral.value_eq_toInt hn, Int.cast_eq_zero]
  rw [areaSelected_iff_prod hposition]
  constructor
  · rintro ⟨hx, hy, heq⟩
    have hne := (around_nonempty hx).prod (around_nonempty hy)
    obtain ⟨hsx, hsy⟩ := (Set.prod_eq_prod_iff_of_nonempty (heq ▸ hne)).1 heq
    obtain ⟨hoffset, hx0⟩ := (selected_eq_around_iff hx).1 hsx
    obtain ⟨-, hy0⟩ := (selected_eq_around_iff hy).1 hsy
    exact ⟨⟨hx.1, hy.1, hx.2.1⟩, hx.2.2.1, (hzero hx.2.1).2 hoffset, (hzero hx.1).2 hx0,
      (hzero hy.1).2 hy0⟩
  · rintro ⟨⟨hx, hy, hoffset⟩, hneg, hoffset0, hx0, hy0⟩
    rw [hzero hoffset] at hoffset0
    rw [hzero hx] at hx0
    rw [hzero hy] at hy0
    have hrx := reads_of_zero hx hoffset hneg hx0 hoffset0
    have hry := reads_of_zero hy hoffset hneg hy0 hoffset0
    refine ⟨hrx, hry, ?_⟩
    rw [(selected_eq_around_iff hrx).2 ⟨hoffset0, hx0⟩, (selected_eq_around_iff hry).2 ⟨hoffset0, hy0⟩]

/-- The coordinates of a village. -/
def villageAt (v : Village) : ℤ × ℤ := (v.x, v.y)

/-- **The area.** A request around a point selects the villages of the area, or the tiles of it,
whatever rows there are, exactly if it is `Covered`: the upper bounds are the texts of the
coordinates with the text of the offset after them, and no lower bound is negative. -/
theorem area_selected_iff (R : Rounding) (x1 y1 offset : Numeral) :
    (AreaSelected R villageAt x1 y1 offset ↔ Covered x1 y1 offset) ∧
      (AreaSelected R MapTile.at x1 y1 offset ↔ Covered x1 y1 offset) :=
  ⟨areaSelected_iff_covered fun p => ⟨⟨0, none, p.1, p.2, 0, 0⟩, rfl⟩,
    areaSelected_iff_covered fun p => ⟨⟨0, p.1, p.2, .empty, none, none, none, none⟩, rfl⟩⟩

end Requests

/-! ## Around (5, 5) -/

/-- Numbers that are not rounded, as integers are not. -/
def sampleRounding : Rounding := ⟨.fin, fun _ _ => rfl⟩

/-- `5` -/
def five : Numeral := ⟨false, ⟨['5'], by decide, List.forall_mem_singleton.2 rfl⟩, none⟩

def sampleVillage : Village := ⟨1, some 1, 30, 30, 0, 0⟩

theorem area_exceeded :
    index sampleRounding villageAt [sampleVillage] (request five five five) = some [sampleVillage] ∧
      ¬AreaSelected sampleRounding villageAt five five five := by
  have hindex : index sampleRounding villageAt [sampleVillage] (request five five five) =
      some [sampleVillage] := by decide +kernel
  refine ⟨hindex, fun h => ?_⟩
  have hnone := h [sampleVillage]
  rw [hindex] at hnone
  revert hnone
  decide +kernel

end Cme.Map.Areas
