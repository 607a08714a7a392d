import Mathlib.Algebra.BigOperators.Group.List.Basic
import Mathlib.Algebra.Order.BigOperators.Group.List
import Mathlib.Data.List.Nodup
import Mathlib.Tactic.Ring

/-!
# Tables with a serial primary key

`Table ρ` is a database table: its rows in insertion order, the next value of its `serial`
primary key, and the two facts the database keeps (no two rows share a key, and every key in
use is below the next one). A table without them cannot be built, so a statement about the row
with a key is about one row.

`Table.total w` is the sum of a weight over the rows. `total_insert` and `total_update` say what
one statement does to it, so that a balance over an unbounded table is kept up one row at a time.
-/

/-- Rows with an integer primary key. -/
class Keyed (ρ : Type) where
  key : ρ → Nat

export Keyed (key)

/-- The rows of a table, with the invariant of its primary key. -/
structure Table (ρ : Type) [Keyed ρ] where
  rows : List ρ
  next : Nat
  nodup : (rows.map key).Nodup
  lt_next : ∀ r ∈ rows, key r < next

namespace Table

variable {ρ : Type} [Keyed ρ]

def empty : Table ρ where
  rows := []
  next := 1
  nodup := List.nodup_nil
  lt_next := by simp

/-- `INSERT`: the new row gets the next key. -/
def insert (t : Table ρ) (mk : Nat → ρ) (hk : ∀ n, key (mk n) = n := by intro _; rfl) :
    Table ρ where
  rows := t.rows ++ [mk t.next]
  next := t.next + 1
  nodup := by
    simp only [List.map_append, List.map_cons, List.map_nil, hk]
    refine List.nodup_append.2 ⟨t.nodup, List.nodup_singleton _, fun a ha b hb => ?_⟩
    obtain ⟨r, hr, rfl⟩ := List.mem_map.1 ha
    rw [List.mem_singleton.1 hb]
    exact Nat.ne_of_lt (t.lt_next r hr)
  lt_next := by
    intro r hr
    rcases List.mem_append.1 hr with h | h
    · exact Nat.lt_succ_of_lt (t.lt_next r h)
    · rw [List.mem_singleton.1 h, hk]; exact Nat.lt_succ_self _

/-- The row `r` after an update by `f` of the row with key `k`. -/
def patch (k : Nat) (f : ρ → ρ) (r : ρ) : ρ := if key r = k then f r else r

theorem key_patch {k : Nat} {f : ρ → ρ} (hf : ∀ r, key (f r) = key r) (r : ρ) :
    key (patch k f r) = key r := by
  unfold patch; split
  · exact hf r
  · rfl

@[simp] theorem patch_self (f : ρ → ρ) (r : ρ) : patch (key r) f r = f r := by simp [patch]

theorem patch_ne {k : Nat} {f : ρ → ρ} {r : ρ} (h : key r ≠ k) : patch k f r = r := by
  simp [patch, h]

/-- `UPDATE ... WHERE id = k`: the row with key `k`, if there is one, becomes `f` of itself. -/
def update (t : Table ρ) (k : Nat) (f : ρ → ρ)
    (hf : ∀ r, key (f r) = key r := by intro _; rfl) : Table ρ where
  rows := t.rows.map (patch k f)
  next := t.next
  nodup := by
    rw [List.map_map, show key ∘ patch k f = key from funext (key_patch hf)]
    exact t.nodup
  lt_next := by
    intro r hr
    obtain ⟨r₀, h₀, rfl⟩ := List.mem_map.1 hr
    rw [key_patch hf]
    exact t.lt_next r₀ h₀

/-- `UPDATE` of every row. -/
def map (t : Table ρ) (f : ρ → ρ) (hf : ∀ r, key (f r) = key r := by intro _; rfl) : Table ρ where
  rows := t.rows.map f
  next := t.next
  nodup := by
    rw [List.map_map, show key ∘ f = key from funext hf]
    exact t.nodup
  lt_next := by
    intro r hr
    obtain ⟨r₀, h₀, rfl⟩ := List.mem_map.1 hr
    rw [hf]
    exact t.lt_next r₀ h₀

/-- `DELETE ... WHERE id = k` -/
def delete (t : Table ρ) (k : Nat) : Table ρ where
  rows := t.rows.filter (key · ≠ k)
  next := t.next
  nodup := t.nodup.sublist (List.filter_sublist.map _)
  lt_next := fun r hr => t.lt_next r (List.mem_of_mem_filter hr)

/-- `DELETE ... WHERE p` -/
def deleteWhere (t : Table ρ) (p : ρ → Bool) : Table ρ where
  rows := t.rows.filter (!p ·)
  next := t.next
  nodup := t.nodup.sublist (List.filter_sublist.map _)
  lt_next := fun r hr => t.lt_next r (List.mem_of_mem_filter hr)

/-- The row with key `k`. -/
def get? (t : Table ρ) (k : Nat) : Option ρ := t.rows.find? (key · == k)

/-- The sum of the weight `w` over the rows. -/
def total (t : Table ρ) (w : ρ → Int) : Int := (t.rows.map w).sum

/-! ## Rows -/

section Rows

variable {t : Table ρ} {k : Nat} {f : ρ → ρ} {r r' : ρ}

/-- A key names one row. -/
theorem eq_of_key (hr : r ∈ t.rows) (hr' : r' ∈ t.rows) (h : key r = key r') : r = r' :=
  List.inj_on_of_nodup_map t.nodup hr hr' h

theorem get?_eq_some : t.get? k = some r ↔ r ∈ t.rows ∧ key r = k := by
  constructor
  · intro h
    exact ⟨List.mem_of_find?_eq_some h, by simpa using List.find?_some h⟩
  · rintro ⟨hr, rfl⟩
    cases hf : t.get? (key r) with
    | none =>
      have := List.find?_eq_none.1 hf r hr
      simp at this
    | some r' =>
      have hk : key r' = key r := by simpa using List.find?_some hf
      rw [eq_of_key (List.mem_of_find?_eq_some hf) hr hk]

theorem mem_insert {mk : Nat → ρ} {hk : ∀ n, key (mk n) = n} :
    r ∈ (t.insert mk hk).rows ↔ r ∈ t.rows ∨ r = mk t.next := by
  simp [insert]

theorem mem_update {hf : ∀ r, key (f r) = key r} :
    r ∈ (t.update k f hf).rows ↔ ∃ r₀ ∈ t.rows, patch k f r₀ = r := by
  simp [update]

/-- A row with another key is not touched. -/
theorem mem_update_of_ne {hf : ∀ r, key (f r) = key r} (hr : r ∈ t.rows) (h : key r ≠ k) :
    r ∈ (t.update k f hf).rows :=
  mem_update.2 ⟨r, hr, patch_ne h⟩

/-- An update is what it does to the row with its key. -/
theorem update_congr {g : ρ → ρ} (hf : ∀ r, key (f r) = key r) (hg : ∀ r, key (g r) = key r)
    (h : ∀ r ∈ t.rows, key r = k → f r = g r) : t.update k f hf = t.update k g hg := by
  have hrows : t.rows.map (patch k f) = t.rows.map (patch k g) := by
    refine List.map_congr_left fun r hr => ?_
    unfold patch
    split
    next hk => exact h r hr hk
    next => rfl
  unfold update
  simp only [hrows]

/-- An update that gives its row the values it has changes nothing. -/
theorem update_of_eq (hf : ∀ r, key (f r) = key r) (h : ∀ r ∈ t.rows, key r = k → f r = r) :
    t.update k f hf = t := by
  have hrows : t.rows.map (patch k f) = t.rows := by
    refine (List.map_congr_left fun r hr => ?_).trans (List.map_id _)
    unfold patch
    split
    next hk => exact h r hr hk
    next => rfl
  unfold update
  simp only [hrows]

theorem rows_update_of_eq (hf : ∀ r, key (f r) = key r)
    (h : ∀ r ∈ t.rows, key r = k → f r = r) : (t.update k f hf).rows = t.rows :=
  congrArg rows (update_of_eq hf h)

/-- What holds of the updated row and of the other rows holds of all of them. -/
theorem forall_mem_update (hf : ∀ r, key (f r) = key r) {P : ρ → Prop} (hr : r ∈ t.rows)
    (hk : key r = k) (hrow : P (f r)) (hrest : ∀ x ∈ t.rows, key x ≠ k → P x) :
    ∀ x ∈ (t.update k f hf).rows, P x := by
  intro x hx
  obtain ⟨y, hy, rfl⟩ := mem_update.1 hx
  by_cases h : key y = k
  · have heq : y = r := eq_of_key hy hr (h.trans hk.symm)
    subst heq hk
    rwa [patch_self]
  · rw [patch_ne h]
    exact hrest y hy h

/-- Looking a row up by a column that the update keeps finds the updated row. -/
theorem find?_update (hf : ∀ r, key (f r) = key r) {p : ρ → Bool} (hp : ∀ r, p (f r) = p r) :
    (t.update k f hf).rows.find? p = (t.rows.find? p).map (patch k f) := by
  have hpp : ∀ r, p (patch k f r) = p r := by
    intro r; unfold patch; split
    · exact hp r
    · rfl
  simp only [update, List.find?_map]
  congr 2
  exact funext hpp

theorem get?_update (hf : ∀ r, key (f r) = key r) (i : Nat) :
    (t.update k f hf).get? i = (t.get? i).map (patch k f) :=
  find?_update hf fun r => by rw [hf]

theorem isSome_get?_update (i : Nat) (hf : ∀ r, key (f r) = key r := by intro _; rfl) :
    ((t.update k f hf).get? i).isSome = (t.get? i).isSome := by
  rw [get?_update hf, Option.isSome_map]

/-- A column that an update keeps. -/
theorem map_get?_update {β : Type} {g : ρ → β} (hg : ∀ r, g (f r) = g r) (i : Nat)
    (hf : ∀ r, key (f r) = key r := by intro _; rfl) :
    ((t.update k f hf).get? i).map g = (t.get? i).map g := by
  rw [get?_update hf, Option.map_map]
  congr 1
  funext r
  show g (patch k f r) = g r
  unfold patch
  split
  · exact hg r
  · rfl

theorem get?_update_of_ne {i : Nat} (h : i ≠ k)
    (hf : ∀ r, key (f r) = key r := by intro _; rfl) :
    (t.update k f hf).get? i = t.get? i := by
  rw [get?_update hf]
  cases hr : t.get? i with
  | none => rfl
  | some r => rw [Option.map_some, patch_ne ((get?_eq_some.1 hr).2.trans_ne h)]

theorem get?_update_self (h : t.get? k = some r)
    (hf : ∀ r, key (f r) = key r := by intro _; rfl) :
    (t.update k f hf).get? k = some (f r) := by
  obtain rfl : key r = k := (get?_eq_some.1 h).2
  rw [get?_update hf, h, Option.map_some, patch_self]

/-- The key of the next row is free. -/
theorem get?_next : t.get? t.next = none := by
  refine List.find?_eq_none.2 fun r hr hkey => ?_
  have hlt := t.lt_next r hr
  have heq : key r = t.next := by simpa using hkey
  omega

theorem get?_insert_self {mk : Nat → ρ} {hk : ∀ n, key (mk n) = n} :
    (t.insert mk hk).get? t.next = some (mk t.next) :=
  get?_eq_some.2 ⟨mem_insert.2 (.inr rfl), hk _⟩

theorem get?_insert_of_ne {mk : Nat → ρ} {hk : ∀ n, key (mk n) = n} (h : k ≠ t.next) :
    (t.insert mk hk).get? k = t.get? k := by
  have hne : (key (mk t.next) == k) = false := by simpa [hk] using Ne.symm h
  unfold get? insert
  simp [List.find?_append, hne]

theorem get?_map (hf : ∀ r, key (f r) = key r) (i : Nat) :
    (t.map f hf).get? i = (t.get? i).map f := by
  unfold get? map
  rw [List.find?_map]
  congr 2
  funext r
  exact congrArg (· == i) (hf r)

end Rows

/-! ## Totals -/

section Totals

variable {t : Table ρ} {k : Nat} {f : ρ → ρ} {r : ρ} {w : ρ → Int}

@[simp] theorem total_insert {mk : Nat → ρ} {hk : ∀ n, key (mk n) = n} :
    (t.insert mk hk).total w = t.total w + w (mk t.next) := by
  simp [total, insert]

theorem total_congr {w' : ρ → Int} (h : ∀ r ∈ t.rows, w r = w' r) : t.total w = t.total w' := by
  unfold total; rw [List.map_congr_left h]

/-- The sum over a list in which only the item `r` changes its weight. -/
theorem sum_patch {rs : List ρ} (hn : (rs.map key).Nodup) (hr : r ∈ rs) :
    ((rs.map (patch (key r) f)).map w).sum = (rs.map w).sum - w r + w (f r) := by
  induction rs with
  | nil => simp at hr
  | cons x rs ih =>
    obtain ⟨hx, hn'⟩ := List.nodup_cons.1 hn
    rcases List.mem_cons.1 hr with rfl | hr'
    · have hrest : rs.map (patch (key r) f) = rs := by
        conv_rhs => rw [← List.map_id rs]
        refine List.map_congr_left fun y hy => patch_ne fun h => hx ?_
        exact h ▸ List.mem_map_of_mem hy
      simp only [List.map_cons, patch_self, hrest, List.sum_cons]
      ring
    · have hne : key x ≠ key r := fun h => hx (h ▸ List.mem_map_of_mem hr')
      simp only [List.map_cons, patch_ne hne, List.sum_cons, ih hn' hr']
      ring

/-- An update changes a total by the change of the weight of its row. -/
theorem total_update {hf : ∀ r, key (f r) = key r} (hr : r ∈ t.rows) (hk : key r = k) :
    (t.update k f hf).total w = t.total w - w r + w (f r) := by
  subst hk
  exact sum_patch t.nodup hr

theorem total_nonneg (h : ∀ r ∈ t.rows, 0 ≤ w r) : 0 ≤ t.total w :=
  List.sum_nonneg fun _ hx => by
    obtain ⟨r, hr, rfl⟩ := List.mem_map.1 hx
    exact h r hr

theorem total_add (w w' : ρ → Int) : t.total (fun r => w r + w' r) = t.total w + t.total w' :=
  List.sum_map_add

theorem total_sub (w w' : ρ → Int) : t.total (fun r => w r - w' r) = t.total w - t.total w' := by
  have hadd := @total_add _ _ t (fun r => w r - w' r) w'
  have hcancel : (fun r => w r - w' r + w' r) = w := funext fun r => sub_add_cancel _ _
  rw [hcancel] at hadd
  omega

theorem total_le_total {w' : ρ → Int} (h : ∀ r ∈ t.rows, w r ≤ w' r) : t.total w ≤ t.total w' :=
  List.sum_le_sum h

/-- A sum of totals is the total of the sums. -/
theorem sum_total {ι : Type} (l : List ι) (w : ι → ρ → Int) :
    (l.map fun i => t.total (w i)).sum = t.total fun r => (l.map fun i => w i r).sum := by
  induction l with
  | nil => simp [total]
  | cons i l ih =>
    simp only [List.map_cons, List.sum_cons]
    rw [ih, total_add]

/-- A sum over the rows to which one row at most contributes. -/
theorem total_ite_key (n : Int) :
    t.total (fun r => if k = key r then n else 0) = if (t.get? k).isSome then n else 0 := by
  have hsum : ∀ rs : List ρ, (rs.map key).Nodup →
      (rs.map fun r => if k = key r then n else 0).sum =
        if (rs.find? (key · == k)).isSome then n else 0 := by
    intro rs hn
    induction rs with
    | nil => rfl
    | cons r rs ih =>
      obtain ⟨hr, hn'⟩ := List.nodup_cons.1 hn
      rw [List.map_cons, List.sum_cons, List.find?_cons, ih hn']
      by_cases hk : key r = k
      · have hrest : rs.find? (key · == k) = none :=
          List.find?_eq_none.2 fun x hx hxk =>
            hr (List.mem_map.2 ⟨x, hx, (beq_iff_eq.1 hxk).trans hk.symm⟩)
        simp [hk, hrest]
      · rw [if_neg (Ne.symm hk), beq_false_of_ne hk, zero_add]
  exact hsum t.rows t.nodup

end Totals

end Table

/-! ## Lists of pairs -/

section Lookup

variable {α β : Type} [BEq α] [LawfulBEq α] {l : List (α × β)} {a : α} {b : β}

/-- What is found under a key is one of the pairs. -/
theorem mem_of_lookup (h : l.lookup a = some b) : (a, b) ∈ l := by
  obtain ⟨l₁, l₂, rfl, -⟩ := List.lookup_eq_some_iff.1 h
  exact List.mem_append_right _ List.mem_cons_self

/-- Where no two pairs share a key, a pair is what is found under its key. -/
theorem lookup_of_mem (hn : (l.map Prod.fst).Nodup) (h : (a, b) ∈ l) : l.lookup a = some b := by
  obtain ⟨l₁, l₂, rfl⟩ := List.mem_iff_append.1 h
  refine List.lookup_eq_some_iff.2 ⟨l₁, l₂, rfl, fun p hp => ?_⟩
  rw [List.map_append, List.map_cons] at hn
  have hne := List.disjoint_of_nodup_append hn (List.mem_map_of_mem hp)
  simp only [bne_iff_ne, ne_eq]
  rintro rfl
  exact hne List.mem_cons_self

omit [LawfulBEq α] in
theorem lookup_map_snd {γ : Type} (f : β → γ) :
    (l.map fun p => (p.1, f p.2)).lookup a = (l.lookup a).map f := by
  induction l with
  | nil => rfl
  | cons p rest ih =>
    rw [List.map_cons, List.lookup_cons, List.lookup_cons, ih]
    cases a == p.1 <;> rfl

/-- What is found under a key is the first of the pairs with the key. -/
theorem lookup_eq_filter [DecidableEq α] :
    l.lookup a = ((l.filter fun p => p.1 = a).map Prod.snd).head? := by
  induction l with
  | nil => rfl
  | cons p rest ih =>
    rw [List.lookup_cons, ih]
    by_cases h : p.1 = a
    · simp [h]
    · simp [h, beq_false_of_ne (Ne.symm h)]

end Lookup
