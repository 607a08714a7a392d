import CmeBackend.Villages.Resources

/-!
# What a village holds of a resource type

The total of a resource type in a village as a sum over the table, and what the statements of the
services do to it. Rows may be saved from what was loaded (`totalOf_saveEntities`), and inserted
(`totalOf_insertCount`).
-/

namespace Cme

variable {C : Catalog}

instance : Keyed (Entity C) := ⟨fun e => e.loaded.id⟩

/-- A village has at most one row of a type. -/
theorem Db.OneRowPerType.length_le {d : Db C} (h : d.OneRowPerType) (v : ℕ) (t : C.Ref) :
    (d.rowsOfType v t).length ≤ 1 := by
  have hsub : (d.rowsOfType v t).Sublist d.villagesResourceTypes.rows :=
    List.filter_sublist.trans List.filter_sublist
  have hpair := h.sublist hsub
  have hmem : ∀ r ∈ d.rowsOfType v t, r.villageId = some v ∧ r.resourceType = t := by
    intro r hr
    obtain ⟨hrow, ht⟩ := List.mem_filter.1 hr
    exact ⟨(Db.mem_rowsOf.1 hrow).2, of_decide_eq_true ht⟩
  match d.rowsOfType v t, hpair, hmem with
  | [], _, _ => exact Nat.zero_le _
  | [_], _, _ => exact le_rfl
  | r :: r' :: rest, hpair, hmem =>
    obtain ⟨hv, ht⟩ := hmem r List.mem_cons_self
    obtain ⟨hv', ht'⟩ := hmem r' (List.mem_cons_of_mem _ List.mem_cons_self)
    refine absurd ?_ (List.rel_of_pairwise_cons hpair List.mem_cons_self)
    simp [hv, hv', ht, ht']

/-- What a row adds to the total of a type in a village. -/
def amountOf (v : ℕ) (t : C.Ref) (r : VillageResourceType C) : ℤ :=
  if r.villageId = some v ∧ r.resourceType = t then r.count else 0

/-- What the save of an entity adds to the total, if its row is as it was loaded. -/
def Entity.gain (v : ℕ) (t : C.Ref) (e : Entity C) : ℤ :=
  if e.loaded.villageId = some v ∧ e.loaded.resourceType = t then e.count - e.loaded.count else 0

namespace Db

variable {d : Db C} {v w : ℕ} {t u : C.Ref}

theorem totalOf_eq_total : d.totalOf v t = d.villagesResourceTypes.total (amountOf v t) := by
  unfold totalOf rowsOfType rowsOf Table.total
  rw [List.filter_filter]
  induction d.villagesResourceTypes.rows with
  | nil => rfl
  | cons r rest ih =>
    rw [List.map_cons, List.sum_cons, List.filter_cons, ← ih]
    by_cases h : r.villageId = some v ∧ r.resourceType = t
    · simp [amountOf, h]
    · rw [amountOf, if_neg h, zero_add, if_neg]
      simpa [and_comm] using h

theorem totalOf_insertCount (n : ℤ) :
    (d.insertCount w u n).totalOf v t = d.totalOf v t + if w = v ∧ u = t then n else 0 := by
  rw [totalOf_eq_total, totalOf_eq_total]
  show (d.villagesResourceTypes.insert _).total _ = _
  rw [Table.total_insert]
  simp only [amountOf, Option.some.injEq]

theorem rowsOfType_setCounts {f : VillageResourceType C → ℤ} :
    (d.setCounts f).rowsOfType v t =
      (d.rowsOfType v t).map fun r => { r with count := f r } := by
  unfold rowsOfType
  rw [rowsOf_setCounts, List.filter_map]
  rfl

/-- A new row is one more of its type. -/
theorem rowsOfType_insertCount (n : ℤ) :
    ∃ r, (d.insertCount w u n).rowsOfType v t =
      d.rowsOfType v t ++ if w = v ∧ u = t then [r] else [] := by
  refine ⟨⟨d.villagesResourceTypes.next, some w, u, n⟩, ?_⟩
  unfold rowsOfType rowsOf
  show ((d.villagesResourceTypes.rows ++ [_]).filter _).filter _ = _
  rw [List.filter_append, List.filter_append]
  congr 1
  by_cases hw : w = v
  · by_cases hu : u = t <;> simp [hw, hu]
  · simp [hw]

/-! ### Statements with a list of values -/

section AddToCounts

variable {values : List (ℕ × ℚ)}

/-- The rows of a type that is not listed do not change, nor do those of other villages. -/
theorem rowsOfType_addToCounts_of_none (h : v = w → values.lookup t.id = none) :
    (d.addToCounts w values).rowsOfType v t = d.rowsOfType v t := by
  unfold rowsOfType addToCounts
  rw [rowsOf_setCounts, List.filter_map]
  refine (List.map_congr_left fun r hr => ?_).trans (List.map_id _)
  obtain ⟨hrow, ht⟩ := List.mem_filter.1 hr
  obtain rfl : r.resourceType = t := by simpa using ht
  by_cases hw : v = w
  · simp [h hw]
  · have hne : r.villageId ≠ some w := fun heq =>
      hw (Option.some.inj ((mem_rowsOf.1 hrow).2.symm.trans heq))
    simp [hne]

/-- The row of a type that is listed grows by its value. -/
theorem rowsOfType_addToCounts {r : VillageResourceType C} {n : ℤ}
    (hr : d.rowsOfType v t = [r]) (h : values.lookup t.id = some (n : ℚ)) :
    (d.addToCounts v values).rowsOfType v t = [{ r with count := r.count + n }] := by
  have hmem : r ∈ d.rowsOfType v t := hr ▸ List.mem_singleton_self r
  obtain ⟨hrow, ht⟩ := List.mem_filter.1 hmem
  obtain rfl : r.resourceType = t := by simpa using ht
  have hcount : Sql.toInteger (r.count + n) = r.count + n := by
    exact_mod_cast Sql.toInteger_int (r.count + n)
  unfold rowsOfType at hr ⊢
  unfold addToCounts
  rw [rowsOf_setCounts, List.filter_map]
  refine (congrArg (List.map _) hr).trans ?_
  simp [(mem_rowsOf.1 hrow).2, h, hcount]

end AddToCounts

/-! ### Saves of entities -/

/-- A row after the save of entities. -/
def savedRow (es : List (Entity C)) (r : VillageResourceType C) : VillageResourceType C :=
  { r with count := match es.find? (·.loaded.id = r.id) with
    | some e => e.count
    | none => r.count }

theorem rows_saveEntities (es : List (Entity C)) :
    (d.saveEntities es).villagesResourceTypes.rows =
      d.villagesResourceTypes.rows.map (savedRow es) := rfl

/-- A save of one more entity writes one more row. -/
theorem savedRow_cons (e : Entity C) (es : List (Entity C)) :
    savedRow (e :: es) =
      Table.patch e.loaded.id (fun r => { r with count := e.count }) ∘ savedRow es := by
  funext r
  show savedRow (e :: es) r = if r.id = e.loaded.id then _ else savedRow es r
  unfold savedRow
  by_cases h : e.loaded.id = r.id
  · rw [if_pos h.symm]
    simp [h]
  · rw [if_neg fun heq => h heq.symm]
    simp [h]

/-- Entities whose rows are as they were loaded add what they gain. -/
theorem totalOf_saveEntities {es : List (Entity C)} (hn : (es.map key).Nodup)
    (hfresh : ∀ e ∈ es, e.loaded ∈ d.villagesResourceTypes.rows) :
    (d.saveEntities es).totalOf v t = d.totalOf v t + (es.map (Entity.gain v t)).sum := by
  rw [totalOf_eq_total, totalOf_eq_total]
  unfold Table.total
  rw [rows_saveEntities]
  induction es with
  | nil =>
    rw [List.map_nil, List.sum_nil, add_zero, List.map_map]
    rfl
  | cons e es ih =>
    obtain ⟨hnot, hn'⟩ := List.nodup_cons.1 hn
    obtain ⟨hmem, hrest⟩ := List.forall_mem_cons.1 hfresh
    have hsame : savedRow es e.loaded = e.loaded := by
      have hnone : es.find? (·.loaded.id = e.loaded.id) = none := by
        refine List.find?_eq_none.2 fun e' he' heq => hnot ?_
        have hid : key e' = key e := of_decide_eq_true heq
        exact hid ▸ List.mem_map_of_mem he'
      unfold savedRow
      rw [hnone]
    have hnodup : ((d.villagesResourceTypes.rows.map (savedRow es)).map key).Nodup := by
      rw [List.map_map]
      exact d.villagesResourceTypes.nodup
    have hrow : e.loaded ∈ d.villagesResourceTypes.rows.map (savedRow es) :=
      List.mem_map.2 ⟨_, hmem, hsame⟩
    have hsum := Table.sum_patch (f := fun r => { r with count := e.count })
      (w := amountOf v t) hnodup hrow
    rw [savedRow_cons, ← List.map_map, List.map_cons, List.sum_cons]
    refine hsum.trans ?_
    rw [ih hn' hrest]
    unfold amountOf Entity.gain
    dsimp only
    split <;> ring

section Village

variable {f : VillageResourceType C → ℤ}

/-- The rows of a village after each of them is saved. -/
theorem rowsOf_saveEntities_self :
    (d.saveEntities ((d.rowsOf v).map fun r => ⟨r, f r⟩)).rowsOf v =
      (d.rowsOf v).map fun r => { r with count := f r } := by
  rw [saveEntities, rowsOf_setCounts]
  refine List.map_congr_left fun r hr => ?_
  rw [List.find?_map]
  have hfind : (d.rowsOf v).find? ((fun e : Entity C => decide (e.loaded.id = r.id)) ∘
      fun r => ⟨r, f r⟩) = some r := by
    cases hf : (d.rowsOf v).find? _ with
    | none => exact absurd (List.find?_eq_none.1 hf r hr) (by simp)
    | some r' =>
      have hid : r'.id = r.id := by simpa using List.find?_some hf
      rw [Table.eq_of_key (mem_rowsOf.1 (List.mem_of_find?_eq_some hf)).1 (mem_rowsOf.1 hr).1 hid]
  rw [hfind]
  rfl

/-- The rows of the other villages are not saved. -/
theorem rowsOf_saveEntities_of_ne (hne : w ≠ v) :
    (d.saveEntities ((d.rowsOf v).map fun r => ⟨r, f r⟩)).rowsOf w = d.rowsOf w := by
  rw [saveEntities, rowsOf_setCounts]
  refine (List.map_congr_left fun r hr => ?_).trans (List.map_id _)
  have hnone : ((d.rowsOf v).map fun r => (⟨r, f r⟩ : Entity C)).find? (·.loaded.id = r.id) =
      none := by
    refine List.find?_eq_none.2 fun e he heq => hne ?_
    obtain ⟨r', hr', rfl⟩ := List.mem_map.1 he
    have hid : r'.id = r.id := of_decide_eq_true heq
    obtain rfl := Table.eq_of_key (mem_rowsOf.1 hr').1 (mem_rowsOf.1 hr).1 hid
    exact Option.some.inj ((mem_rowsOf.1 hr).2.symm.trans (mem_rowsOf.1 hr').2)
  rw [hnone]
  rfl

end Village

end Db

end Cme
