import CmeBackend.Lib.Js
import CmeBackend.Lib.Sql
import Mathlib.Tactic.FieldSimp
import Mathlib.Tactic.Linarith
import Mathlib.Tactic.Positivity

/-!
# Decimal numerals

A decimal numeral as a value (`Numeral`): perhaps a minus sign, digits, and perhaps a point with more
digits. Its text is what a JavaScript program gets where it expects a number and nothing has
converted it, so `-` reads two of them as numbers and `+` writes one after the other.

* `parse_text`: the program reads the text of a numeral as its value.
* `int4in_append`: a database reads two texts, one after the other, as one integer (`append`), or
  refuses them.
* `text_natCast`: the text of a natural number that the program has computed.
-/

namespace Js

open Number

/-! ## Digits -/

theorem ofDigits_concat (cs : List Char) (c : Char) :
    ofDigits 10 (cs ++ [c]) = ofDigits 10 cs * 10 + digitValue c := by
  simp [ofDigits]

theorem ofDigits_append (cs ds : List Char) :
    ofDigits 10 (cs ++ ds) = ofDigits 10 cs * 10 ^ ds.length + ofDigits 10 ds := by
  induction ds using List.reverseRecOn with
  | nil => simp [ofDigits]
  | append_singleton ds d ih =>
    rw [← List.append_assoc, ofDigits_concat, ofDigits_concat, ih, List.length_append,
      List.length_singleton, pow_succ]
    ring

/-- The value of decimal digits. -/
theorem ofDigitChars_eq {cs : List Char} (h : ∀ c ∈ cs, c.isDigit = true) :
    Nat.ofDigitChars 10 cs 0 = ofDigits 10 cs := by
  induction cs using List.reverseRecOn with
  | nil => rfl
  | append_singleton cs c ih =>
    have hc : digitValue c = c.toNat - '0'.toNat := if_pos (h c (by simp))
    rw [Nat.ofDigitChars_append, ih fun d hd => h d (List.mem_append_left _ hd), ofDigits_concat, hc,
      Nat.ofDigitChars_cons, Nat.ofDigitChars_nil, mul_comm]

/-- Digits, and at least one. -/
structure Digits where
  chars : List Char
  ne_nil : chars ≠ []
  isDigit : ∀ c ∈ chars, c.isDigit = true

namespace Digits

def value (ds : Digits) : ℕ := ofDigits 10 ds.chars

def length (ds : Digits) : ℕ := ds.chars.length

def append (ds es : Digits) : Digits where
  chars := ds.chars ++ es.chars
  ne_nil := by simp [ds.ne_nil]
  isDigit c hc := (List.mem_append.1 hc).elim (ds.isDigit c) (es.isDigit c)

theorem length_pos (ds : Digits) : 0 < ds.length := List.length_pos_iff.2 ds.ne_nil

theorem head_isDigit (ds : Digits) : ∃ c cs, ds.chars = c :: cs ∧ c.isDigit = true := by
  obtain ⟨c, cs, hcs⟩ := List.exists_cons_of_ne_nil ds.ne_nil
  exact ⟨c, cs, hcs, ds.isDigit c (hcs ▸ List.mem_cons_self)⟩

theorem span (ds : Digits) :
    ds.chars.takeWhile Char.isDigit = ds.chars ∧ ds.chars.dropWhile Char.isDigit = [] := by
  have hspan := @Sql.span_digits _ [] ds.isDigit (by simp)
  rwa [List.append_nil] at hspan

theorem value_append (ds es : Digits) :
    (ds.append es).value = ds.value * 10 ^ es.length + es.value :=
  ofDigits_append _ _

/-- What comes before it or after it does not make a number smaller. -/
theorem le_value_append (ds es : Digits) :
    ds.value ≤ (ds.append es).value ∧ es.value ≤ (ds.append es).value := by
  rw [value_append]
  have hle : ds.value ≤ ds.value * 10 ^ es.length :=
    Nat.le_mul_of_pos_right _ (Nat.pow_pos (by decide))
  omega

end Digits

/-! ## Numerals -/

structure Numeral where
  neg : Bool
  whole : Digits
  fraction : Option Digits

namespace Numeral

/-- The text without the sign. -/
def body (n : Numeral) : List Char :=
  n.whole.chars ++ match n.fraction with
    | none => []
    | some fraction => '.' :: fraction.chars

def text (n : Numeral) : List Char := if n.neg then '-' :: n.body else n.body

/-- The value without the sign. -/
def magnitude (n : Numeral) : ℚ :=
  match n.fraction with
  | none => n.whole.value
  | some fraction => n.whole.value + fraction.value / 10 ^ fraction.length

def value (n : Numeral) : ℚ := if n.neg then -n.magnitude else n.magnitude

/-- Without a fraction. -/
def IsInt (n : Numeral) : Prop := n.fraction = none

instance (n : Numeral) : Decidable n.IsInt :=
  decidable_of_iff (n.fraction.isNone = true) Option.isNone_iff_eq_none

/-- The value of a numeral without a fraction. -/
def toInt (n : Numeral) : ℤ := if n.neg then -n.whole.value else n.whole.value

/-- The digits of `m` after those of `n`. -/
def append (n m : Numeral) : Numeral := ⟨n.neg, n.whole.append m.whole, m.fraction⟩

theorem value_eq_toInt {n : Numeral} (h : n.IsInt) : n.value = n.toInt := by
  unfold value toInt magnitude
  rw [h]
  split <;> simp

theorem toInt_append (n m : Numeral) :
    (n.append m).toInt =
      n.toInt * 10 ^ m.whole.length + if n.neg then -(m.whole.value : ℤ) else m.whole.value := by
  unfold toInt append
  simp only [Digits.value_append]
  split <;> push_cast <;> ring

/-! ## Reading in the program -/

/-- A character of a numeral. -/
def IsPlain (c : Char) : Prop := c.isDigit = true ∨ c = '.' ∨ c = '-'

instance (c : Char) : Decidable (IsPlain c) := inferInstanceAs (Decidable (_ ∨ _ ∨ _))

theorem isWhite_of_isPlain {c : Char} (h : IsPlain c) : isWhite c = false := by
  rcases h with h | rfl | rfl
  · have hlist : ['\t', '\n', '\x0b', '\x0c', '\r', ' ', '\u00a0', '\u1680', '\u2028', '\u2029',
        '\u202f', '\u205f', '\u3000', '\ufeff'].all (!Char.isDigit ·) = true := by decide
    have hle : c.toNat ≤ 57 := (Char.isDigit_iff_toNat.1 h).2
    have hrange : ¬('\u2000' ≤ c) := fun hle' => by
      have hnat : 8192 ≤ c.toNat := hle'
      omega
    unfold isWhite
    rw [Bool.or_eq_false_iff, decide_eq_false hrange]
    refine ⟨decide_eq_false fun hmem => ?_, rfl⟩
    have hnot := List.all_eq_true.1 hlist c hmem
    rw [h] at hnot
    cases hnot
  · decide
  · decide

theorem trim_eq {cs : List Char} (h : ∀ c ∈ cs, IsPlain c) : trim cs = cs := by
  have hdrop : ∀ ds : List Char, (∀ c ∈ ds, IsPlain c) → ds.dropWhile isWhite = ds := by
    intro ds hds
    cases ds with
    | nil => rfl
    | cons d ds => simp [isWhite_of_isPlain (hds d List.mem_cons_self)]
  unfold trim
  rw [hdrop cs h, hdrop cs.reverse fun c hc => h c (List.mem_reverse.1 hc), List.reverse_reverse]

/-- A text that starts with a digit and has no letter in it. -/
theorem parse_of_digit {c : Char} {cs : List Char} (hc : c.isDigit = true)
    (h : ∀ d ∈ cs, IsPlain d) : parse (c :: cs) = parseDecimal (c :: cs) := by
  have hplain : ∀ d ∈ c :: cs, IsPlain d :=
    List.forall_mem_cons.2 ⟨.inl hc, h⟩
  have hletter : ∀ d : Char, ¬IsPlain d → ∀ {t : Char} {ds : List Char}, c :: cs ≠ t :: d :: ds :=
    fun d hd t ds heq => hd (hplain d (heq ▸ by simp))
  unfold parse
  rw [trim_eq hplain]
  split
  next heq => cases heq
  next heq => exact absurd heq (hletter 'x' (by decide))
  next heq => exact absurd heq (hletter 'X' (by decide))
  next heq => exact absurd heq (hletter 'o' (by decide))
  next heq => exact absurd heq (hletter 'O' (by decide))
  next heq => exact absurd heq (hletter 'b' (by decide))
  next heq => exact absurd heq (hletter 'B' (by decide))
  next heq =>
    cases heq
    exact absurd hc (by decide)
  next heq =>
    cases heq
    exact absurd hc (by decide)
  next => rfl

theorem parse_neg {cs : List Char} (h : ∀ d ∈ cs, IsPlain d) :
    parse ('-' :: cs) = (parseDecimal cs).neg := by
  have hplain : ∀ d ∈ '-' :: cs, IsPlain d := List.forall_mem_cons.2 ⟨.inr (.inr rfl), h⟩
  unfold parse
  rw [trim_eq hplain]
  rfl

theorem isPlain_body {n : Numeral} : ∀ c ∈ n.body, IsPlain c := by
  intro c hc
  unfold body at hc
  rcases List.mem_append.1 hc with hc | hc
  · exact .inl (n.whole.isDigit c hc)
  · split at hc
    · cases hc
    next fraction _ =>
      rcases List.mem_cons.1 hc with rfl | hc
      · exact .inr (.inl rfl)
      · exact .inl (fraction.isDigit c hc)

theorem body_head_isDigit (n : Numeral) : ∃ c cs, n.body = c :: cs ∧ c.isDigit = true := by
  obtain ⟨c, cs, hcs, hc⟩ := n.whole.head_isDigit
  unfold body
  rw [hcs]
  exact ⟨c, _, List.cons_append, hc⟩

/-- The body of a numeral is read as its value. -/
theorem parseDecimal_body (n : Numeral) : parseDecimal n.body = .fin n.magnitude := by
  have hinfinity : n.body ≠ "Infinity".toList := by
    obtain ⟨c, cs, hcs, hc⟩ := n.body_head_isDigit
    intro heq
    rw [hcs] at heq
    have hhead : c = 'I' := (List.cons.inj heq).1
    rw [hhead] at hc
    exact absurd hc (by decide)
  have hzero : parseExponent [] = some 0 := rfl
  unfold parseDecimal
  rw [if_neg hinfinity]
  unfold body magnitude
  cases n.fraction with
  | none =>
    obtain ⟨htake, hdrop⟩ := n.whole.span
    simp only [htake, hdrop, hzero, n.whole.ne_nil, false_and, if_false, List.append_nil,
      List.length_nil, Nat.cast_zero, sub_zero, zpow_zero, mul_one]
    rfl
  | some fraction =>
    have hspan := @Sql.span_digits _ ('.' :: fraction.chars) n.whole.isDigit
      fun c hc => by cases hc; rfl
    obtain ⟨htake, hdrop⟩ := fraction.span
    have hten : (10 : ℚ) ≠ 0 := by norm_num
    simp only [hspan.1, hspan.2, htake, hdrop, hzero, n.whole.ne_nil, false_and, if_false,
      ofDigits_append, zpow_sub₀ hten, zpow_natCast, zpow_zero, Digits.value, Digits.length]
    push_cast
    congr 1
    field_simp

/-- **Reading.** The text of a numeral is read as its value. -/
theorem parse_text (n : Numeral) : parse n.text = .fin n.value := by
  unfold text value
  split
  · rw [parse_neg isPlain_body, parseDecimal_body]
    rfl
  · obtain ⟨c, cs, hcs, hc⟩ := n.body_head_isDigit
    have hplain : ∀ d ∈ c :: cs, IsPlain d := hcs ▸ isPlain_body
    rw [hcs, parse_of_digit hc (List.forall_mem_cons.1 hplain).2, ← hcs, parseDecimal_body]

/-! ## Reading in the database -/

/-- An integer, with a rest that does not go on with it. -/
theorem int4in_text_append {n : Numeral} (h : n.IsInt) {rest : List Char}
    (hrest : ∀ c ∈ rest.head?, c.isDigit = false) :
    Sql.int4in (n.text ++ rest) =
      if rest.all Sql.isSpace ∧ Sql.IsInt4 n.toInt then some n.toInt else none := by
  have hbody : n.body = n.whole.chars := by
    unfold body
    rw [h]
    exact List.append_nil _
  have hvalue : Nat.ofDigitChars 10 n.whole.chars 0 = n.whole.value :=
    ofDigitChars_eq n.whole.isDigit
  unfold text toInt
  rw [hbody]
  split
  · rw [List.cons_append, Sql.int4in_neg,
      Sql.readInt4_append n.whole.ne_nil n.whole.isDigit hrest, hvalue, neg_one_mul]
  · rw [Sql.int4in_append n.whole.ne_nil n.whole.isDigit,
      Sql.readInt4_append n.whole.ne_nil n.whole.isDigit hrest, hvalue, one_mul]

/-- A point or a sign among the digits. -/
theorem int4in_eq_none {n : Numeral} (h : n.IsInt) {c : Char} (hc : c = '.' ∨ c = '-')
    (rest : List Char) : Sql.int4in (n.text ++ c :: rest) = none := by
  have hdigit : c.isDigit = false ∧ Sql.isSpace c = false := by
    rcases hc with rfl | rfl <;> decide
  rw [int4in_text_append h fun d hd => by cases hd; exact hdigit.1]
  simp [hdigit.2]

/-- A fraction is refused, whatever comes after it. -/
theorem int4in_of_fraction {n : Numeral} (h : ¬n.IsInt) (rest : List Char) :
    Sql.int4in (n.text ++ rest) = none := by
  obtain ⟨fraction, hfraction⟩ := Option.ne_none_iff_exists'.1 h
  let whole : Numeral := ⟨n.neg, n.whole, none⟩
  have htext : n.text = whole.text ++ '.' :: fraction.chars := by
    unfold text body
    rw [hfraction]
    split <;> simp [whole, *]
  rw [htext, List.append_assoc, List.cons_append]
  have hwhole : whole.IsInt := rfl
  exact int4in_eq_none hwhole (.inl rfl) _

/-- **Two numerals, one after the other.** They are read as one integer, or refused. -/
theorem int4in_append (n m : Numeral) :
    Sql.int4in (n.text ++ m.text) =
      if n.IsInt ∧ m.IsInt ∧ m.neg = false ∧ Sql.IsInt4 (n.append m).toInt then
        some (n.append m).toInt
      else none := by
  by_cases hn : n.IsInt
  · cases hneg : m.neg with
    | true =>
      have htext : m.text = '-' :: m.body := if_pos hneg
      rw [htext, int4in_eq_none hn (.inr rfl)]
      simp
    | false =>
      have htext : n.text ++ m.text = (n.append m).text := by
        unfold text append body
        rw [hneg, hn]
        split <;> simp [Digits.append, *]
      rw [htext, ← List.append_nil (n.append m).text]
      by_cases hm : m.IsInt
      · have happend : (n.append m).IsInt := hm
        rw [int4in_text_append happend (by simp)]
        simp [hn, hm]
      · have happend : ¬(n.append m).IsInt := hm
        rw [int4in_of_fraction happend]
        simp [hm]
  · rw [int4in_of_fraction hn]
    simp [hn]

end Numeral

/-! ## Texts of natural numbers -/

namespace Number

theorem trailingZeros_dvd (fuel n : ℕ) : 10 ^ trailingZeros fuel n ∣ n := by
  induction fuel generalizing n with
  | zero => simp [trailingZeros]
  | succ fuel ih =>
    unfold trailingZeros
    split
    next h =>
      obtain ⟨m, hm⟩ := Nat.dvd_of_mod_eq_zero h.2
      have hdiv : n / 10 = m := by omega
      rw [hdiv, pow_succ, mul_comm, hm]
      exact Nat.mul_dvd_mul_left 10 (ih m)
    · simp

/-- Zeros are appended. -/
theorem toDigits_mul_pow {m : ℕ} (hm : 0 < m) (z : ℕ) :
    Nat.toDigits 10 (m * 10 ^ z) = Nat.toDigits 10 m ++ List.replicate z '0' := by
  induction z with
  | zero => simp
  | succ z ih =>
    have hpos : 0 < m * 10 ^ z := by positivity
    have hzero : (0 : ℕ) < 10 := by decide
    have hlast := Nat.toDigits_append_toDigits (b := 10) (by decide) hpos hzero
    have heq : m * 10 ^ (z + 1) = 10 * (m * 10 ^ z) + 0 := by ring
    rw [heq, ← hlast, ih, Nat.toDigits_zero, List.append_assoc, List.replicate_succ']

/-- A natural number below `10 ^ 21` is written with all of its digits. -/
theorem text_natCast {n : ℕ} (h : n < 10 ^ 21) : text (.fin n) = Nat.toDigits 10 n := by
  show digits n = _
  rcases Nat.eq_zero_or_pos n with rfl | hpos
  · rfl
  · obtain ⟨m, hm⟩ := trailingZeros_dvd (Nat.log2 n + 1) n
    have hplaces : places 1 = 0 := by decide
    have hne : (n : ℚ) ≠ 0 := by exact_mod_cast hpos.ne'
    have hnonneg : ¬((n : ℚ) < 0) := not_lt.2 (Nat.cast_nonneg n)
    unfold digits
    simp only [hne, hnonneg, if_false, Rat.den_natCast, Rat.num_natCast, Int.natAbs_natCast, hplaces,
      pow_zero, mul_one, Nat.div_one]
    generalize trailingZeros (Nat.log2 n + 1) n = z at hm
    have hdiv : n / 10 ^ z = m := Nat.div_eq_of_eq_mul_right (by positivity) hm
    have hm0 : 0 < m := Nat.pos_of_ne_zero fun hzero => by simp [hm, hzero] at hpos
    have htext : Nat.toDigits 10 n = Nat.toDigits 10 m ++ List.replicate z '0' := by
      rw [hm, mul_comm, toDigits_mul_pow hm0]
    have hlength : (Nat.toDigits 10 m).length + z ≤ 21 := by
      have hle := (Nat.length_toDigits_le_iff (b := 10) (by decide) (by decide : 0 < 21)).2 h
      rwa [htext, List.length_append, List.length_replicate] at hle
    rw [hdiv, htext]
    unfold layout
    rw [if_pos ⟨by omega, by omega⟩]
    congr 2
    omega

end Number

/-! ## Rounding -/

/-- The number of a program that is nearest to a rational number. -/
structure Rounding where
  round : ℚ → Number
  /-- Integers up to `2 ^ 53` are numbers. -/
  exact : ∀ n : ℤ, |n| ≤ 2 ^ 53 → round n = .fin n

namespace Rounding

def apply (R : Rounding) : Number → Number
  | .fin x => R.round x
  | a => a

/-- `x - y`, of two texts -/
def sub (R : Rounding) (x y : List Char) : Number :=
  R.apply ((R.apply (parse x)).sub (R.apply (parse y)))

/-- Integers are subtracted as they are. -/
theorem sub_text (R : Rounding) {n m : Numeral} (hn : n.IsInt) (hm : m.IsInt)
    (hn' : |n.toInt| ≤ 2 ^ 52) (hm' : |m.toInt| ≤ 2 ^ 52) :
    R.sub n.text m.text = .fin (n.toInt - m.toInt : ℤ) := by
  have hdiff : |n.toInt - m.toInt| ≤ 2 ^ 53 := by
    have hle := abs_sub n.toInt m.toInt
    omega
  unfold sub
  rw [Numeral.parse_text, Numeral.parse_text, Numeral.value_eq_toInt hn, Numeral.value_eq_toInt hm]
  show R.apply ((R.round n.toInt).sub (R.round m.toInt)) = _
  rw [R.exact _ (by omega), R.exact _ (by omega), sub_int]
  exact R.exact _ hdiff

end Rounding

end Js
