import Mathlib.Data.List.DropRight
import Mathlib.Tactic.Ring

/-!
# Fixed-point decimals

A number of units, of which `10 ^ places` make one whole, as a decimal text: `format places w`
is the text of `w` units, `parse places s` the units of the text `s`, or `none` if `s` is not a
decimal or has a digit below the unit.

`parse_format`: reading a formatted number back gives the number. `parse` accepts more than
`format` writes: a missing whole part or fraction, leading zeros, and trailing zeros of the
fraction.
-/

namespace Decimal

open Nat (toDigits ofDigitChars)

/-- `cs` without its trailing zeros. -/
def trimZeros (cs : List Char) : List Char := cs.rdropWhile (· == '0')

/-- The units of a decimal text without a sign. -/
def parseAbs (places : Nat) (cs : List Char) : Option Nat :=
  let whole := cs.takeWhile (· != '.')
  let fraction := trimZeros ((cs.dropWhile (· != '.')).drop 1)
  if cs ≠ [] ∧ cs ≠ ['.'] ∧ whole.all Char.isDigit ∧ fraction.all Char.isDigit ∧
      fraction.length ≤ places then
    some (ofDigitChars 10 whole 0 * 10 ^ places +
      ofDigitChars 10 fraction 0 * 10 ^ (places - fraction.length))
  else none

/-- The units of a decimal text, with an optional leading minus sign. -/
def parse (places : Nat) (s : String) : Option Int :=
  match s.toList with
  | '-' :: cs => (parseAbs places cs).map fun n : Nat => -(n : Int)
  | cs => (parseAbs places cs).map fun n : Nat => (n : Int)

/-- The fraction digits of `n < 10 ^ places` units, at least one. -/
def fractionText (places n : Nat) : List Char :=
  match trimZeros ((toDigits 10 n).leftpad places '0') with
  | [] => ['0']
  | cs => cs

/-- The decimal text of `n` units. -/
def formatAbs (places n : Nat) : List Char :=
  toDigits 10 (n / 10 ^ places) ++ '.' :: fractionText places (n % 10 ^ places)

/-- The decimal text of `w` units. -/
def format (places : Nat) (w : Int) : String :=
  String.ofList (if w < 0 then '-' :: formatAbs places w.natAbs else formatAbs places w.natAbs)

/-! ## Trailing zeros -/

theorem trimZeros_append_replicate (cs : List Char) :
    trimZeros cs ++ List.replicate (cs.length - (trimZeros cs).length) '0' = cs := by
  have hz : (cs.reverse.takeWhile (· == '0')).reverse =
      List.replicate (cs.length - (trimZeros cs).length) '0' := by
    have hlen := congrArg List.length (List.takeWhile_append_dropWhile (p := (· == '0')) (l := cs.reverse))
    simp only [List.length_append, List.length_reverse] at hlen
    refine List.eq_replicate_iff.2 ⟨?_, fun c hc => ?_⟩
    · simp only [trimZeros, List.rdropWhile, List.length_reverse]; omega
    · simpa using List.mem_takeWhile_imp (List.mem_reverse.1 hc)
  rw [← hz, trimZeros, List.rdropWhile, ← List.reverse_append, List.takeWhile_append_dropWhile,
    List.reverse_reverse]

theorem length_trimZeros_le (cs : List Char) : (trimZeros cs).length ≤ cs.length := by
  have h := congrArg List.length (trimZeros_append_replicate cs)
  rw [List.length_append] at h
  omega

theorem mem_of_mem_trimZeros {cs : List Char} {c : Char} (h : c ∈ trimZeros cs) : c ∈ cs := by
  rw [← trimZeros_append_replicate cs]
  exact List.mem_append_left _ h

/-- A fraction has the value of its trimmed digits at their place. -/
theorem ofDigitChars_trimZeros (cs : List Char) :
    ofDigitChars 10 (trimZeros cs) 0 * 10 ^ (cs.length - (trimZeros cs).length) =
      ofDigitChars 10 cs 0 := by
  conv_rhs => rw [← trimZeros_append_replicate cs]
  rw [Nat.ofDigitChars_append, Nat.ofDigitChars_replicate_zero, Nat.mul_comm]

/-! ## The round trip -/

section RoundTrip

variable {places : Nat}

theorem isDigit_toDigits {n : Nat} {c : Char} (h : c ∈ toDigits 10 n) : c.isDigit = true :=
  Nat.isDigit_of_mem_toDigits (by decide) (by decide) h

theorem ne_dot_of_isDigit {c : Char} (h : c.isDigit = true) : (c != '.') = true := by
  rw [bne_iff_ne]; rintro rfl; exact absurd h (by decide)

theorem mem_leftpad {n : Nat} {c : Char} (h : c ∈ (toDigits 10 n).leftpad places '0') :
    c.isDigit = true := by
  rcases List.mem_append.1 h with h | h
  · rw [List.eq_of_mem_replicate h]; decide
  · exact isDigit_toDigits h

/-- The padded digits of `n < 10 ^ places` are `places` digits with the value `n`. -/
theorem leftpad_spec {n : Nat} (hp : 0 < places) (hn : n < 10 ^ places) :
    ((toDigits 10 n).leftpad places '0').length = places ∧
      ofDigitChars 10 ((toDigits 10 n).leftpad places '0') 0 = n := by
  have hl : (toDigits 10 n).length ≤ places := (Nat.length_toDigits_le_iff (by decide) hp).2 hn
  refine ⟨by rw [List.length_leftpad]; omega, ?_⟩
  rw [List.leftpad, Nat.ofDigitChars_append, Nat.ofDigitChars_replicate_zero, Nat.mul_zero,
    Nat.ofDigitChars_ten_toDigits]

/-- The fraction text is digits, and trimmed it has the value `n` at its place. -/
theorem fractionText_spec {n : Nat} (hp : 0 < places) (hn : n < 10 ^ places) :
    (∀ c ∈ fractionText places n, c.isDigit = true) ∧
      (trimZeros (fractionText places n)).length ≤ places ∧
      ofDigitChars 10 (trimZeros (fractionText places n)) 0 *
        10 ^ (places - (trimZeros (fractionText places n)).length) = n := by
  obtain ⟨hlen, hval⟩ := leftpad_spec hp hn
  have htrim := ofDigitChars_trimZeros ((toDigits 10 n).leftpad places '0')
  have hle := length_trimZeros_le ((toDigits 10 n).leftpad places '0')
  rw [hlen, hval] at htrim
  rw [hlen] at hle
  have hdig : ∀ c ∈ trimZeros ((toDigits 10 n).leftpad places '0'), c.isDigit = true :=
    fun c hc => mem_leftpad (mem_of_mem_trimZeros hc)
  unfold fractionText
  split
  · -- No digit is left: `n = 0`, and the text is one zero, which `trimZeros` takes away again.
    rename_i h0
    rw [h0] at htrim
    rw [show trimZeros ['0'] = [] by decide]
    exact ⟨by simp, Nat.zero_le _, htrim⟩
  · have hid : trimZeros (trimZeros ((toDigits 10 n).leftpad places '0')) =
        trimZeros ((toDigits 10 n).leftpad places '0') := List.rdropWhile_idempotent _ _
    rw [hid]
    exact ⟨hdig, hle, htrim⟩

theorem parseAbs_formatAbs (hp : 0 < places) (n : Nat) :
    parseAbs places (formatAbs places n) = some n := by
  have hmod : n % 10 ^ places < 10 ^ places := Nat.mod_lt _ (Nat.pow_pos (by decide))
  obtain ⟨hdig, hlen, hval⟩ := fractionText_spec hp hmod
  have hwhole : ∀ c ∈ toDigits 10 (n / 10 ^ places), (c != '.') = true :=
    fun c hc => ne_dot_of_isDigit (isDigit_toDigits hc)
  have htake : (formatAbs places n).takeWhile (· != '.') = toDigits 10 (n / 10 ^ places) := by
    rw [formatAbs, List.takeWhile_append_of_pos hwhole]; simp
  have hdrop : ((formatAbs places n).dropWhile (· != '.')).drop 1 =
      fractionText places (n % 10 ^ places) := by
    rw [formatAbs, List.dropWhile_append_of_pos hwhole]; simp
  have hne : toDigits 10 (n / 10 ^ places) ≠ [] := Nat.toDigits_ne_nil
  have hshape : formatAbs places n ≠ [] ∧ formatAbs places n ≠ ['.'] := by
    unfold formatAbs
    cases hd : toDigits 10 (n / 10 ^ places) with
    | nil => exact absurd hd hne
    | cons c cs => simp
  unfold parseAbs
  simp only [htake, hdrop]
  rw [if_pos, hval, Nat.ofDigitChars_ten_toDigits, Nat.div_add_mod']
  refine ⟨hshape.1, hshape.2, List.all_eq_true.2 fun c hc => isDigit_toDigits hc,
    List.all_eq_true.2 fun c hc => hdig c (mem_of_mem_trimZeros hc), hlen⟩

/-- A text without a sign starts with a digit. -/
theorem formatAbs_head (n : Nat) : ∃ c cs, formatAbs places n = c :: cs ∧ c ≠ '-' := by
  unfold formatAbs
  cases hd : toDigits 10 (n / 10 ^ places) with
  | nil => exact absurd hd Nat.toDigits_ne_nil
  | cons c cs =>
    refine ⟨c, _, rfl, ?_⟩
    rintro rfl
    exact absurd (isDigit_toDigits (n := n / 10 ^ places) (hd ▸ List.mem_cons_self)) (by decide)

/-- **Round trip.** Reading the text of `w` units gives `w`. -/
theorem parse_format (hp : 0 < places) (w : Int) : parse places (format places w) = some w := by
  unfold parse format
  rw [String.toList_ofList]
  by_cases hw : w < 0
  · rw [if_pos hw]
    simp only [parseAbs_formatAbs hp, Option.map_some, Option.some.injEq]
    omega
  · rw [if_neg hw]
    have habs := parseAbs_formatAbs hp w.natAbs
    obtain ⟨c, cs, hcs, hc⟩ := @formatAbs_head places w.natAbs
    rw [hcs] at habs ⊢
    split
    · rename_i h; exact absurd (List.cons.inj h).1 hc
    · rw [habs]; simp only [Option.map_some, Option.some.injEq]; omega

end RoundTrip

example : parse 18 "-1.50" = some (-1500000000000000000) := by decide
example : format 2 (-105) = "-1.05" := by decide

end Decimal
