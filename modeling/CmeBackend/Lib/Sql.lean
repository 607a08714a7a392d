import Mathlib.Data.Rat.Floor
import Mathlib.Data.Rat.Cast.Order
import Mathlib.Tactic.Linarith

/-!
# SQL texts and numbers

How a database that follows the standard reads a text: a quote opens a string literal, two quotes
inside it are one quote of its content, and one quote ends it. `lex` gives the literals and every
character outside them.

* `source_of_lex`: no character is lost, so a text is the source of its tokens.
* `lex_splice`: a text between two quotes is read as the literal with that content exactly if it has
  no quote of its own.

Comments, quoted identifiers and other forms of literals are not tokens of their own here.

`toInteger` is the cast of an exact number that is stored in a column of type `int`, and `rint` that
of a floating-point number. `int4in` reads the text of a parameter that is compared with such a column.
-/

namespace Sql

inductive Token where
  | literal (content : List Char)
  | other (c : Char)
  deriving DecidableEq

mutual

/-- The tokens of a text. `none`: a literal does not end. -/
def lex : List Char → Option (List Token)
  | [] => some []
  | '\'' :: cs => (lexLiteral cs).map fun (content, ts) => .literal content :: ts
  | c :: cs => (lex cs).map (.other c :: ·)

/-- The content of the literal that is open, and the tokens after it. -/
def lexLiteral : List Char → Option (List Char × List Token)
  | [] => none
  | '\'' :: '\'' :: cs => (lexLiteral cs).map fun (content, ts) => ('\'' :: content, ts)
  | '\'' :: cs => (lex cs).map fun ts => ([], ts)
  | c :: cs => (lexLiteral cs).map fun (content, ts) => (c :: content, ts)

end

/-- The content of a literal as it is written. -/
def double (content : List Char) : List Char :=
  content.flatMap fun c => if c = '\'' then ['\'', '\''] else [c]

def Token.source : Token → List Char
  | literal content => '\'' :: (double content ++ ['\''])
  | other c => [c]

/-- The cast of a `numeric` to an `int`: half away from zero. -/
def toInteger (x : ℚ) : ℤ := if x < 0 then -(-x + 1 / 2).floor else (x + 1 / 2).floor

/-- Rounding half up keeps an integer. -/
theorem floor_add_half (n : ℤ) : ⌊(n : ℚ) + 1 / 2⌋ = n := by
  rw [Int.floor_eq_iff]
  constructor <;> grind

@[simp] theorem toInteger_int (n : ℤ) : toInteger n = n := by
  unfold toInteger
  split
  · have hneg : ⌊-(n : ℚ) + 1 / 2⌋ = -n := by
      rw [← Int.cast_neg, floor_add_half]
    show -⌊-(n : ℚ) + 1 / 2⌋ = n
    rw [hneg, neg_neg]
  · exact floor_add_half n

/-- Only what is more than a half below zero is cast to a negative integer. -/
theorem toInteger_nonneg_iff {x : ℚ} : 0 ≤ toInteger x ↔ -(1 / 2) < x := by
  unfold toInteger
  split
  next hneg =>
    show 0 ≤ -⌊-x + 1 / 2⌋ ↔ _
    rw [neg_nonneg, ← Int.lt_add_one_iff, Int.floor_lt]
    constructor <;> intro h <;> grind
  next hpos =>
    show 0 ≤ ⌊x + 1 / 2⌋ ↔ _
    rw [Int.floor_nonneg]
    constructor <;> intro h <;> grind

/-- The cast of a `double precision` to an `int`: half to even. -/
def rint (x : ℚ) : ℤ :=
  if x - ⌊x⌋ < 1 / 2 then ⌊x⌋
  else if 1 / 2 < x - ⌊x⌋ then ⌊x⌋ + 1
  else if ⌊x⌋ % 2 = 0 then ⌊x⌋ else ⌊x⌋ + 1

/-- What is cast is at most a half away. -/
theorem abs_rint_sub_le (x : ℚ) : |(rint x : ℚ) - x| ≤ 1 / 2 := by
  have hle := Int.floor_le x
  have hlt := Int.lt_floor_add_one x
  rw [abs_le]
  unfold rint
  split
  · constructor <;> linarith
  · split
    · push_cast
      constructor <;> linarith
    · split
      · constructor <;> linarith
      · push_cast
        constructor <;> linarith

/-! ## Texts of integers -/

/-- `isspace` -/
def isSpace (c : Char) : Bool := c ∈ [' ', '\t', '\n', '\x0b', '\x0c', '\r']

/-- The range of the type `int`. -/
def IsInt4 (n : ℤ) : Prop := -2 ^ 31 ≤ n ∧ n < 2 ^ 31

instance (n : ℤ) : Decidable (IsInt4 n) := inferInstanceAs (Decidable (_ ∧ _))

/-- The digits after a sign, with nothing but blanks after them. -/
def readInt4 (sign : ℤ) (cs : List Char) : Option ℤ :=
  let digits := cs.takeWhile Char.isDigit
  let n := sign * Nat.ofDigitChars 10 digits 0
  if digits ≠ [] ∧ (cs.dropWhile Char.isDigit).all isSpace ∧ IsInt4 n then some n else none

/-- The integer of a text. `none`: the text is refused. -/
def int4in (text : List Char) : Option ℤ :=
  match text.dropWhile isSpace with
  | '-' :: cs => readInt4 (-1) cs
  | '+' :: cs => readInt4 1 cs
  | cs => readInt4 1 cs

theorem isSpace_of_isDigit {c : Char} (h : c.isDigit = true) : isSpace c = false := by
  have hlist : [' ', '\t', '\n', '\x0b', '\x0c', '\r'].all (!Char.isDigit ·) = true := by decide
  refine decide_eq_false fun hmem => ?_
  have hnot := List.all_eq_true.1 hlist c hmem
  rw [h] at hnot
  cases hnot

section Digits

variable {ds rest : List Char} {sign : ℤ}

theorem span_digits (hds : ∀ c ∈ ds, c.isDigit = true)
    (hrest : ∀ c ∈ rest.head?, c.isDigit = false) :
    (ds ++ rest).takeWhile Char.isDigit = ds ∧ (ds ++ rest).dropWhile Char.isDigit = rest := by
  have hnone : rest.takeWhile Char.isDigit = [] ∧ rest.dropWhile Char.isDigit = rest := by
    cases rest with
    | nil => exact ⟨rfl, rfl⟩
    | cons c cs => simp [hrest c rfl]
  rw [List.takeWhile_append_of_pos hds, List.dropWhile_append_of_pos hds, hnone.1, hnone.2,
    List.append_nil]
  exact ⟨rfl, rfl⟩

theorem readInt4_append (hne : ds ≠ []) (hds : ∀ c ∈ ds, c.isDigit = true)
    (hrest : ∀ c ∈ rest.head?, c.isDigit = false) :
    readInt4 sign (ds ++ rest) =
      if rest.all isSpace ∧ IsInt4 (sign * Nat.ofDigitChars 10 ds 0) then
        some (sign * Nat.ofDigitChars 10 ds 0)
      else none := by
  obtain ⟨htake, hdrop⟩ := span_digits hds hrest
  unfold readInt4
  simp only [htake, hdrop, hne, ne_eq, not_false_eq_true, true_and]

theorem int4in_neg (cs : List Char) : int4in ('-' :: cs) = readInt4 (-1) cs := rfl

/-- A text that starts with a digit has no sign. -/
theorem int4in_append (hne : ds ≠ []) (hds : ∀ c ∈ ds, c.isDigit = true) :
    int4in (ds ++ rest) = readInt4 1 (ds ++ rest) := by
  obtain ⟨d, ds, rfl⟩ := List.exists_cons_of_ne_nil hne
  have hd := hds d List.mem_cons_self
  have hdrop : (d :: ds ++ rest).dropWhile isSpace = d :: ds ++ rest := by
    simp [isSpace_of_isDigit hd]
  unfold int4in
  rw [hdrop]
  split
  next heq =>
    cases heq
    exact absurd hd (by decide)
  next heq =>
    cases heq
    exact absurd hd (by decide)
  next => rfl

end Digits

/-- A natural number in the range is read as it is written. -/
theorem int4in_toDigits {n : ℕ} (h : n < 2 ^ 31) : int4in (Nat.toDigits 10 n) = some (n : ℤ) := by
  have hds : ∀ c ∈ Nat.toDigits 10 n, c.isDigit = true :=
    fun c hc => Nat.isDigit_of_mem_toDigits (by decide) (by decide) hc
  have hrange : IsInt4 n := ⟨by omega, by omega⟩
  rw [← List.append_nil (Nat.toDigits 10 n), int4in_append Nat.toDigits_ne_nil hds,
    readInt4_append Nat.toDigits_ne_nil hds (by simp), Nat.ofDigitChars_ten_toDigits, one_mul,
    if_pos ⟨rfl, hrange⟩]

/-! ## What the tokens say about the text -/

theorem length_double (content : List Char) :
    (double content).length = content.length + content.count '\'' := by
  induction content with
  | nil => rfl
  | cons c cs ih =>
    by_cases hc : c = '\''
    · subst hc
      simp only [double, List.flatMap_cons, if_true, List.length_append, List.length_cons,
        List.count_cons_self] at ih ⊢
      rw [ih, List.length_nil]
      omega
    · simp only [double, List.flatMap_cons, if_neg hc, List.length_append, List.length_cons,
        List.count_cons_of_ne hc] at ih ⊢
      rw [ih, List.length_nil]
      omega

/-- Only a content without a quote is written as it is. -/
theorem not_mem_of_double {content : List Char} (h : double content = content) :
    '\'' ∉ content := by
  have hlen := congrArg List.length h
  rw [length_double] at hlen
  exact List.count_eq_zero.1 (by omega)

mutual

/-- The tokens of a text make up the text. -/
theorem source_of_lex : (cs : List Char) → ∀ {ts}, lex cs = some ts → ts.flatMap Token.source = cs
  | [], ts, h => by
    obtain rfl : [] = ts := by simpa [lex] using h
    rfl
  | c :: cs, ts, h => by
    by_cases hc : c = '\''
    · subst hc
      obtain ⟨⟨content, us⟩, hl, rfl⟩ := Option.map_eq_some_iff.1 h
      have := source_of_lexLiteral cs hl
      simpa [Token.source] using this
    · obtain ⟨us, hl, rfl⟩ := Option.map_eq_some_iff.1 (by simpa [lex, hc] using h)
      simpa [Token.source] using source_of_lex cs hl

theorem source_of_lexLiteral : (cs : List Char) → ∀ {content ts},
    lexLiteral cs = some (content, ts) → double content ++ '\'' :: ts.flatMap Token.source = cs
  | [], _, _, h => by simp [lexLiteral] at h
  | [c], content, ts, h => by
    by_cases hc : c = '\''
    · subst hc
      obtain ⟨rfl, rfl⟩ : [] = content ∧ [] = ts := by simpa [lexLiteral, lex] using h
      rfl
    · simp [lexLiteral] at h
  | c :: d :: cs, content, ts, h => by
    by_cases hc : c = '\''
    · subst hc
      by_cases hd : d = '\''
      · subst hd
        obtain ⟨⟨rest, us⟩, hl, heq⟩ := Option.map_eq_some_iff.1 h
        obtain ⟨rfl, rfl⟩ := Prod.mk.inj heq
        have := source_of_lexLiteral cs hl
        simpa [double] using this
      · have h' : (lex (d :: cs)).map (fun ts => (([] : List Char), ts)) = some (content, ts) := by
          simpa [lexLiteral, hd] using h
        obtain ⟨us, hl, heq⟩ := Option.map_eq_some_iff.1 h'
        obtain ⟨rfl, rfl⟩ := Prod.mk.inj heq
        simpa [double] using source_of_lex (d :: cs) hl
    · obtain ⟨rest, hl, rfl⟩ : ∃ rest, lexLiteral (d :: cs) = some (rest, ts) ∧ c :: rest = content := by
        simpa [lexLiteral, hc] using h
      have := source_of_lexLiteral (d :: cs) hl
      simpa [double, hc] using this

end

/-! ## A text between two quotes -/

section Splice

variable {pre text post : List Char}

/-- Characters outside literals are read one by one. -/
theorem lex_append (h : '\'' ∉ pre) (cs : List Char) :
    lex (pre ++ cs) = (lex cs).map (pre.map Token.other ++ ·) := by
  induction pre with
  | nil => simp
  | cons c pre ih =>
    have hc : c ≠ '\'' := fun hc => h (hc ▸ List.mem_cons_self)
    have hpre : '\'' ∉ pre := fun hmem => h (List.mem_cons_of_mem _ hmem)
    have hlex : lex (c :: (pre ++ cs)) = (lex (pre ++ cs)).map (Token.other c :: ·) := by
      simp [lex]
    rw [List.cons_append, hlex, ih hpre, Option.map_map]
    rfl

theorem lex_of_not_mem (h : '\'' ∉ post) : lex post = some (post.map .other) := by
  have := lex_append h []
  simpa [lex] using this

/-- A content without a quote ends at the closing quote. -/
theorem lexLiteral_append (htext : '\'' ∉ text) (hpost : '\'' ∉ post) :
    lexLiteral (text ++ '\'' :: post) = some (text, post.map .other) := by
  induction text with
  | nil =>
    have := lex_of_not_mem hpost
    cases post with
    | nil => simp [lexLiteral, lex]
    | cons d post =>
      have hd : d ≠ '\'' := fun hd => hpost (hd ▸ List.mem_cons_self)
      simp [lexLiteral, hd, this]
  | cons c text ih =>
    have hc : c ≠ '\'' := fun hc => htext (hc ▸ List.mem_cons_self)
    have := ih fun hmem => htext (List.mem_cons_of_mem _ hmem)
    simp [lexLiteral, hc, this]

/-- A text between two quotes is read as one literal with that content exactly if it has no quote. -/
theorem lex_splice (hpre : '\'' ∉ pre) (hpost : '\'' ∉ post) :
    lex (pre ++ '\'' :: (text ++ '\'' :: post)) =
        some (pre.map .other ++ .literal text :: post.map .other) ↔
      '\'' ∉ text := by
  constructor
  · intro h
    have hsource := source_of_lex _ h
    have hother : ∀ cs : List Char, (cs.map Token.other).flatMap Token.source = cs := fun cs => by
      simp [List.flatMap_map, Token.source]
    apply not_mem_of_double
    simpa [hother, Token.source] using hsource
  · intro htext
    rw [lex_append hpre]
    simp [lex, lexLiteral_append htext hpost]

end Splice

end Sql
