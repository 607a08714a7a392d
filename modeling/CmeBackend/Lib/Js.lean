import Mathlib.Data.Rat.Floor
import Mathlib.Data.Rat.Cast.Order

/-!
# JavaScript numbers

`Number` is a number of a JavaScript program, with the operators and the functions of `Math` on it,
and the conversions to and from a text.

* Finite numbers are exact rationals. Rounding to binary64 is not modelled, nor is the sign of zero.
* `Math` has the two functions whose results the language leaves to the implementation.
-/

namespace Js

inductive Number where
  | nan
  | inf (neg : Bool)
  | fin (x : ℚ)
  deriving DecidableEq

namespace Number

instance : Coe ℤ Number := ⟨fun n => .fin n⟩

def neg : Number → Number
  | .nan => .nan
  | .inf s => .inf !s
  | .fin x => .fin (-x)

def add : Number → Number → Number
  | .fin x, .fin y => .fin (x + y)
  | .fin _, .inf s | .inf s, .fin _ => .inf s
  | .inf s, .inf t => if s = t then .inf s else .nan
  | _, _ => .nan

def sub (a b : Number) : Number := add a b.neg

/-- Infinity times a number. -/
def scaleInf (s : Bool) (x : ℚ) : Number :=
  if x = 0 then .nan else if x < 0 then .inf !s else .inf s

def mul : Number → Number → Number
  | .fin x, .fin y => .fin (x * y)
  | .fin x, .inf s | .inf s, .fin x => scaleInf s x
  | .inf s, .inf t => .inf (s != t)
  | _, _ => .nan

def div : Number → Number → Number
  | .fin x, .fin y => if y = 0 then scaleInf false x else .fin (x / y)
  | .fin _, .inf _ => .fin 0
  | .inf s, .fin y => if y < 0 then .inf !s else .inf s
  | _, _ => .nan

def lt : Number → Number → Bool
  | .fin x, .fin y => x < y
  | .fin _, .inf t => !t
  | .inf s, .fin _ => s
  | .inf s, .inf t => s && !t
  | _, _ => false

def le : Number → Number → Bool
  | .fin x, .fin y => x ≤ y
  | .fin _, .inf t => !t
  | .inf s, .fin _ => s
  | .inf s, .inf t => s || !t
  | _, _ => false

/-- `===` -/
def strictEq : Number → Number → Bool
  | .nan, .nan => false
  | a, b => a = b

/-- `Math.round`: half up. -/
def round : Number → Number
  | .fin x => .fin (x + 1 / 2).floor
  | a => a

/-- `Math.floor` -/
def floor : Number → Number
  | .fin x => .fin x.floor
  | a => a

/-- `Math.min` -/
def min (a b : Number) : Number :=
  if a = .nan ∨ b = .nan then .nan else if a.le b then a else b

/-- The integer that a number is, if it is one. -/
def toInt? : Number → Option ℤ
  | .fin x => if x.den = 1 then some x.num else none
  | _ => none

@[simp] theorem toInt?_int (n : ℤ) : toInt? (.fin n) = some n := by simp [toInt?]

@[simp] theorem sub_int (m n : ℤ) : sub (.fin m) (.fin n) = .fin (m - n : ℤ) := by
  simp [sub, neg, add, sub_eq_add_neg]

@[simp] theorem lt_int (m n : ℤ) : lt (.fin m) (.fin n) = decide (m < n) := by
  simp [lt]

@[simp] theorem le_int (m n : ℤ) : le (.fin m) (.fin n) = decide (m ≤ n) := by
  simp [le]

/-- The smaller of a number and an integer is at most the integer. -/
theorem le_of_min_int {x : Number} {n : ℤ} {q : ℚ} (h : x.min (.fin n) = .fin q) : q ≤ n := by
  unfold min at h
  split at h
  · cases h
  split at h
  next hle =>
    subst h
    simpa [le] using hle
  · cases h
    exact le_rfl

/-- The smaller of a number that is rounded down and an integer is an integer. -/
theorem exists_int_of_min {x : Number} {n : ℤ} {q : ℚ} (h : x.floor.min (.fin n) = .fin q) :
    ∃ k : ℤ, q = k ∧ k ≤ n := by
  have hle := le_of_min_int h
  unfold min at h
  split at h
  · cases h
  split at h
  · cases x with
    | fin y =>
      cases h
      exact ⟨⌊y⌋, rfl, by exact_mod_cast hle⟩
    | _ => cases h
  · cases h
    exact ⟨n, rfl, le_rfl⟩

/-! ### Numbers as texts -/

/-- The number of trailing zeros of `n`, up to `fuel`. -/
def trailingZeros : (fuel n : ℕ) → ℕ
  | 0, _ => 0
  | fuel + 1, n => if n ≠ 0 ∧ n % 10 = 0 then trailingZeros fuel (n / 10) + 1 else 0

/-- The least `j` such that `den` divides `10 ^ j`. A number has one, its denominator is a power of
two. -/
def places (den : ℕ) : ℕ :=
  ((List.range (Nat.log2 den + 1)).find? fun j => 10 ^ j % den == 0).getD (Nat.log2 den + 1)

/-- The text of the positive number `s * 10 ^ (n - k)`, where `k` is the number of the digits `ds`
of `s`. -/
def layout (ds : List Char) (n : ℤ) : List Char :=
  let k := ds.length
  if k ≤ n ∧ n ≤ 21 then ds ++ List.replicate (n - k).toNat '0'
  else if 0 < n ∧ n ≤ 21 then ds.take n.toNat ++ '.' :: ds.drop n.toNat
  else if -6 < n ∧ n ≤ 0 then '0' :: '.' :: (List.replicate (-n).toNat '0' ++ ds)
  else
    let e := n - 1
    let mantissa := if k = 1 then ds else ds.take 1 ++ '.' :: ds.drop 1
    mantissa ++ 'e' :: (if e < 0 then '-' else '+') :: Nat.toDigits 10 e.natAbs

/-- The text of a finite number. -/
def digits (x : ℚ) : List Char :=
  if x = 0 then ['0'] else
    let j := places x.den
    let s := x.num.natAbs * 10 ^ j / x.den
    let z := trailingZeros (Nat.log2 s + 1) s
    let ds := Nat.toDigits 10 (s / 10 ^ z)
    let text := layout ds (ds.length + z - j)
    if x < 0 then '-' :: text else text

/-- `String(a)` -/
def text : Number → List Char
  | .nan => "NaN".toList
  | .inf false => "Infinity".toList
  | .inf true => "-Infinity".toList
  | .fin x => digits x

def isWhite (c : Char) : Bool :=
  c ∈ ['\t', '\n', '\x0b', '\x0c', '\r', ' ', '\u00a0', '\u1680', '\u2028', '\u2029', '\u202f',
    '\u205f', '\u3000', '\ufeff'] || ('\u2000' ≤ c && c ≤ '\u200a')

def trim (cs : List Char) : List Char :=
  ((cs.dropWhile isWhite).reverse.dropWhile isWhite).reverse

/-- The value of a digit of a base up to 16. -/
def digitValue (c : Char) : ℕ :=
  if c.isDigit then c.toNat - '0'.toNat
  else if 'a' ≤ c ∧ c ≤ 'f' then c.toNat - 'a'.toNat + 10
  else if 'A' ≤ c ∧ c ≤ 'F' then c.toNat - 'A'.toNat + 10
  else 16

def ofDigits (base : ℕ) (cs : List Char) : ℕ := cs.foldl (fun n c => n * base + digitValue c) 0

/-- `0x`, `0o` and `0b` literals without their prefix. -/
def parseRadix (base : ℕ) (cs : List Char) : Number :=
  if cs ≠ [] ∧ cs.all (digitValue · < base) then .fin (ofDigits base cs) else .nan

/-- The exponent part of a decimal literal. -/
def parseExponent : List Char → Option ℤ
  | [] => some 0
  | e :: cs =>
    if e ≠ 'e' ∧ e ≠ 'E' then none else
      let (s, ds) := match cs with
        | '-' :: ds => ((-1 : ℤ), ds)
        | '+' :: ds => (1, ds)
        | ds => (1, ds)
      if ds ≠ [] ∧ ds.all Char.isDigit then some (s * ofDigits 10 ds) else none

/-- A decimal literal without a sign. -/
def parseDecimal (cs : List Char) : Number :=
  if cs = "Infinity".toList then .inf false else
    let whole := cs.takeWhile Char.isDigit
    let rest := cs.dropWhile Char.isDigit
    let (fraction, rest) := match rest with
      | '.' :: rest => (rest.takeWhile Char.isDigit, rest.dropWhile Char.isDigit)
      | rest => ([], rest)
    match parseExponent rest with
    | some e =>
      if whole = [] ∧ fraction = [] then .nan
      else .fin (ofDigits 10 (whole ++ fraction) * (10 : ℚ) ^ (e - fraction.length))
    | none => .nan

/-- `Number(text)` -/
def parse (text : List Char) : Number :=
  match trim text with
  | [] => .fin 0
  | '0' :: 'x' :: cs | '0' :: 'X' :: cs => parseRadix 16 cs
  | '0' :: 'o' :: cs | '0' :: 'O' :: cs => parseRadix 8 cs
  | '0' :: 'b' :: cs | '0' :: 'B' :: cs => parseRadix 2 cs
  | '-' :: cs => (parseDecimal cs).neg
  | '+' :: cs => parseDecimal cs
  | cs => parseDecimal cs

theorem apostrophe_not_mem_toDigits (n : ℕ) : '\'' ∉ Nat.toDigits 10 n := by
  intro h
  have := Nat.isDigit_of_mem_toDigits (by decide) (by decide) h
  simp at this

theorem apostrophe_not_mem_layout {ds : List Char} (h : '\'' ∉ ds) (n : ℤ) :
    '\'' ∉ layout ds n := by
  have htake : ∀ k, '\'' ∉ ds.take k := fun k hk => h (List.mem_of_mem_take hk)
  have hdrop : ∀ k, '\'' ∉ ds.drop k := fun k hk => h (List.mem_of_mem_drop hk)
  have htail : '\'' ∉ ds.tail := fun hk => h (List.mem_of_mem_tail hk)
  simp only [layout]
  split_ifs <;> simp_all [List.mem_replicate, apostrophe_not_mem_toDigits]

theorem apostrophe_not_mem_digits (x : ℚ) : '\'' ∉ digits x := by
  unfold digits
  split
  · decide
  · dsimp only
    split <;> simp [apostrophe_not_mem_layout, apostrophe_not_mem_toDigits]

/-- No number has an apostrophe in its text. -/
theorem apostrophe_not_mem_text : (x : Number) → '\'' ∉ x.text
  | .nan => by decide
  | .inf false => by decide
  | .inf true => by decide
  | .fin x => apostrophe_not_mem_digits x

end Number

/-- The functions whose results are approximations that the implementation chooses. -/
structure Math where
  sqrt : Number → Number
  /-- `x ** (3 / 2)` -/
  pow32 : Number → Number
  /-- An exponent that is not an odd integer gives no negative infinity. -/
  pow32_ne : ∀ x, pow32 x ≠ .inf true

end Js
