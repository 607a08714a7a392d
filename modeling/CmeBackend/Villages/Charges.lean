import CmeBackend.Villages.Resources

/-!
# What a village is charged

An abstract payment: the counts of one village fall by a price, and nothing else changes. The
statements of the services that subtract listed amounts are such a payment
(`subtractFromCounts_eq_charge`). What they subtract are values by the ids of the types
(`valuesOf`), which the services look up by the names of the types.
-/

namespace Cme

variable {C : Catalog} {d : Db C} {villageId : ℕ} {t : C.Ref} {price : C.Ref → ℤ}

/-- The counts of a village without a price. -/
def Db.charge (d : Db C) (villageId : ℕ) (price : C.Ref → ℤ) : Db C :=
  d.setCounts fun r =>
    if r.villageId = some villageId then r.count - price r.resourceType else r.count

/-- A village has paid a price out of what it held. -/
structure Paid (d d' : Db C) (villageId : ℕ) (price : C.Ref → ℤ) : Prop where
  charged : d' = d.charge villageId price
  falls : ∀ t, d'.countOf villageId t = d.countOf villageId t - price t
  nonneg : ∀ t, price t ≠ 0 → 0 ≤ d'.countOf villageId t

/-- The village has one row of a resource type. -/
def Db.HasOneRow (d : Db C) (villageId : ℕ) (t : C.Ref) : Prop :=
  (d.rowsOfType villageId t).length = 1

/-- A statement that subtracts the amounts of a price. -/
theorem subtractFromCounts_eq_charge {values : List (ℕ × ℚ)}
    (hlisted : ∀ (t : C.Ref) (amount : ℚ), values.lookup t.id = some amount → price t = amount)
    (hother : ∀ t : C.Ref, values.lookup t.id = none → price t = 0) :
    d.subtractFromCounts villageId values = d.charge villageId price := by
  unfold Db.subtractFromCounts Db.addToCounts Db.charge
  refine congrArg d.setCounts (funext fun r => ?_)
  rw [lookup_map_snd]
  split
  · cases h : values.lookup r.resourceType.id with
    | none =>
      rw [hother _ h, sub_zero]
      rfl
    | some amount =>
      have hvalue : (r.count : ℚ) + -amount = ((r.count - price r.resourceType : ℤ) : ℚ) := by
        rw [← hlisted _ _ h]
        push_cast
        ring
      show Sql.toInteger (r.count + -amount) = _
      rw [hvalue, Sql.toInteger_int]
  · rfl

/-! ## Lists of values -/

section Values

variable {κ : Type} {rows : List (VillageResourceType C)} {name : κ → String} {amount : κ → ℚ}
  {costs : List κ} {a : ℚ}

/-- The values of a statement: for each cost that is named after the type of a row, the id of the
type and the amount. -/
def valuesOf (rows : List (VillageResourceType C)) (name : κ → String) (amount : κ → ℚ)
    (costs : List κ) : List (ℕ × ℚ) :=
  costs.filterMap fun cost =>
    (rows.find? (·.resourceType.type = name cost)).map fun r => (r.resourceType.id, amount cost)

/-- The amount for a type is that of a cost with its name. -/
theorem mem_of_lookup_valuesOf (h : (valuesOf rows name amount costs).lookup t.id = some a) :
    ∃ cost ∈ costs, name cost = t.type ∧ amount cost = a ∧ ∃ r ∈ rows, r.resourceType = t := by
  obtain ⟨cost, hcost, hpay⟩ := List.mem_filterMap.1 (mem_of_lookup h)
  obtain ⟨r, hr, heq⟩ := Option.map_eq_some_iff.1 hpay
  obtain ⟨hid, hamount⟩ := Prod.mk.inj heq
  obtain rfl := Catalog.Ref.eq_of_id hid
  have hname := List.find?_some hr
  rw [decide_eq_true_eq] at hname
  exact ⟨cost, hcost, hname.symm, hamount, r, List.mem_of_find?_eq_some hr, rfl⟩

/-- A type without an amount has no row, or no cost with its name. -/
theorem name_ne_of_lookup_valuesOf (h : (valuesOf rows name amount costs).lookup t.id = none)
    {r : VillageResourceType C} (hr : r ∈ rows) (ht : r.resourceType = t) {cost : κ}
    (hcost : cost ∈ costs) : name cost ≠ t.type := by
  intro hname
  have hsome : (rows.find? (·.resourceType.type = name cost)).isSome :=
    List.find?_isSome.2 ⟨r, hr, decide_eq_true (by rw [ht, hname])⟩
  obtain ⟨found, hfound⟩ := Option.isSome_iff_exists.1 hsome
  have htype := List.find?_some hfound
  rw [decide_eq_true_eq, hname] at htype
  have hpay : (t.id, amount cost) ∈ valuesOf rows name amount costs := by
    refine List.mem_filterMap.2 ⟨cost, hcost, ?_⟩
    rw [hfound, Option.map_some, Catalog.Ref.eq_of_type htype]
  simpa using List.lookup_eq_none_iff.1 h _ hpay

end Values

/-! ## Payments -/

theorem countOf_charge (hrow : price t ≠ 0 → (d.rowOf villageId t).isSome) :
    (d.charge villageId price).countOf villageId t = d.countOf villageId t - price t := by
  cases hr : d.rowOf villageId t with
  | none =>
    have hfree : price t = 0 := by
      by_contra hne
      rw [hr] at hrow
      cases hrow hne
    rw [hfree, sub_zero, Db.countOf, Db.countOf, Db.charge, Db.rowOf_setCounts, hr]
    rfl
  | some r =>
    obtain ⟨hmem, rfl⟩ := Db.rowOf_eq_some hr
    rw [Db.charge, Db.countOf_setCounts hr, Db.countOf_of_rowOf hr,
      if_pos (Db.mem_rowsOf.1 hmem).2]

theorem Db.HasOneRow.isSome_rowOf (h : d.HasOneRow villageId t) :
    (d.rowOf villageId t).isSome := by
  have hpos : 0 < (d.rowsOfType villageId t).length := by
    rw [h]
    exact Nat.one_pos
  obtain ⟨r, hr⟩ := List.exists_mem_of_length_pos hpos
  obtain ⟨hmem, htype⟩ := List.mem_filter.1 hr
  exact List.find?_isSome.2 ⟨r, hmem, decide_eq_true (congrArg _ (of_decide_eq_true htype))⟩

/-- The row of a type is the only one. -/
theorem Db.HasOneRow.rowOf_eq {r : VillageResourceType C} (hr : r ∈ d.rowsOf villageId)
    (h : d.HasOneRow villageId r.resourceType) : d.rowOf villageId r.resourceType = some r := by
  obtain ⟨found, hfound⟩ := Option.isSome_iff_exists.1 h.isSome_rowOf
  obtain ⟨hmem, htype⟩ := Db.rowOf_eq_some hfound
  obtain ⟨only, honly⟩ := List.length_eq_one_iff.1 h
  have heq : ∀ r' ∈ d.rowsOf villageId, r'.resourceType = r.resourceType → r' = only := by
    intro r' hr' htype'
    have hmem' : r' ∈ d.rowsOfType villageId r.resourceType :=
      List.mem_filter.2 ⟨hr', decide_eq_true htype'⟩
    rw [honly] at hmem'
    exact List.mem_singleton.1 hmem'
  rw [hfound, heq found hmem htype, heq r hr rfl]

/-- A village that holds a price pays it. -/
theorem paid_charge
    (hholds : ∀ t, price t ≠ 0 → (d.rowOf villageId t).isSome ∧ price t ≤ d.countOf villageId t) :
    Paid d (d.charge villageId price) villageId price where
  charged := rfl
  falls t := countOf_charge fun ht => (hholds t ht).1
  nonneg t ht := by
    rw [countOf_charge fun ht => (hholds t ht).1]
    exact sub_nonneg.2 (hholds t ht).2

end Cme
