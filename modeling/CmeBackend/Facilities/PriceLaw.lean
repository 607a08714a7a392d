import CmeBackend.Facilities.Levels

/-!
# Prices are positive and grow

What the facilities cost at the levels that are requested: 0 by a creation, and the next level by an
upgrade that is permitted. Except for the storage vault at level 0, each price is a list of positive
integers, and grows with the level (`price_law_iff`).

The storage vault has prices from level 1 on, and a creation requests level 0. The price that it
finds there is empty, so a vault costs nothing.

* `computeResCost` is linear in the level: `amount * (2 + 5 * level) / 2`. So an amount that is even
  has an integer price at each level (`computeResCost_even`).
* The lists of prices have even amounts, except for the first level of the vault, which no one
  requests (`even_baseCosts`), and do not fall from level to level (`baseCosts_le`).
-/

namespace Cme.Facilities.PriceLaw

open GameRules

variable {type : String} {level level' : ℤ} {prices prices' : FacilityTypePrices}

/-! ## The law -/

/-- The levels that are requested for a type. A facility is created at level 1. -/
inductive Requested (type : FacilityType) : ℤ → Prop where
  | creation : Requested type 0
  | upgrade {facility : Facility} (htype : facility.facilityType = type.name)
      (hpos : 1 ≤ facility.level) (hcheck : checkLevel facility = .ok ()) :
      Requested type (facility.level + 1)

/-- A price that has to be paid. -/
structure Priced (costs : List FacilityTypeResPrice) : Prop where
  nonempty : costs ≠ []
  amounts : ∀ cost ∈ costs, ∃ n : ℕ, 0 < n ∧ cost.amount = n

/-- The resources that are in both prices cost more in the second one. -/
def Dearer (costs costs' : List FacilityTypeResPrice) : Prop :=
  ∀ cost ∈ costs, ∀ cost' ∈ costs', cost.resourcesType = cost'.resourcesType →
    cost.amount < cost'.amount

/-! ## The formula -/

theorem computeResCost_eq (amount : ℚ) (level : ℚ) :
    computeResCost amount level = amount * (2 + 5 * level) / 2 := by
  unfold computeResCost
  ring

theorem computeResCost_even {amount : ℕ} (heven : 2 ∣ amount) (hpos : 0 < amount)
    (hlevel : 0 ≤ level) : ∃ n : ℕ, 0 < n ∧ computeResCost amount level = n := by
  obtain ⟨half, rfl⟩ := heven
  obtain ⟨l, rfl⟩ := Int.eq_ofNat_of_zero_le hlevel
  refine ⟨half * (2 + 5 * l), Nat.mul_pos (by omega) (by omega), ?_⟩
  rw [computeResCost_eq]
  push_cast
  ring

theorem computeResCost_lt {amount amount' : ℕ} (hpos : 0 < amount) (hle : amount ≤ amount')
    (hlevel : 0 ≤ level) (hlt : level < level') :
    computeResCost amount level < computeResCost amount' level' := by
  have hpos : (0 : ℚ) < amount := by exact_mod_cast hpos
  have hle : (amount : ℚ) ≤ amount' := by exact_mod_cast hle
  have hlevel : (0 : ℚ) ≤ level := by exact_mod_cast hlevel
  have hlt : (level : ℚ) < level' := by exact_mod_cast hlt
  rw [computeResCost_eq, computeResCost_eq]
  have hgrow : (amount : ℚ) * (2 + 5 * level) < amount * (2 + 5 * level') :=
    mul_lt_mul_of_pos_left (by linarith) hpos
  have hbase : (amount : ℚ) * (2 + 5 * level') ≤ amount' * (2 + 5 * level') :=
    mul_le_mul_of_nonneg_right hle (by linarith)
  linarith

/-! ## The lists of prices -/

/-- The amounts are positive, and even but for the first level of the storage vault. -/
theorem even_baseCosts (h : baseCosts type level = some prices) (hlevel : level ≠ 1) :
    ∀ p ∈ prices, 0 < p.2 ∧ 2 ∣ p.2 := by
  have hvault : ∀ l ∈ storageVaultPrices, l.1 ≠ 1 → ∀ p ∈ l.2, 0 < p.2 ∧ 2 ∣ p.2 := by decide
  have hothers : ∀ l ∈ facilityTypePricesDescriptors, ∀ p ∈ l.2, 0 < p.2 ∧ 2 ∣ p.2 := by decide
  unfold baseCosts at h
  split at h
  · exact hvault _ (mem_of_lookup h) hlevel
  · exact hothers _ (mem_of_lookup h)

theorem ne_nil_of_baseCosts (h : baseCosts type level = some prices) : prices ≠ [] := by
  have hvault : ∀ l ∈ storageVaultPrices, l.2 ≠ [] := by decide
  have hothers : ∀ l ∈ facilityTypePricesDescriptors, l.2 ≠ [] := by decide
  unfold baseCosts at h
  split at h
  · exact hvault _ (mem_of_lookup h)
  · exact hothers _ (mem_of_lookup h)

/-- No level of the storage vault is cheaper than a level below it. -/
theorem storageVaultPrices_le : ∀ l ∈ storageVaultPrices, ∀ l' ∈ storageVaultPrices, l.1 < l'.1 →
    ∀ p ∈ l.2, ∀ p' ∈ l'.2, p.1 = p'.1 → p.2 ≤ p'.2 := by
  decide +kernel

theorem baseCosts_le (h : baseCosts type level = some prices)
    (h' : baseCosts type level' = some prices') (hlt : level < level') :
    ∀ p ∈ prices, ∀ p' ∈ prices', p.1 = p'.1 → p.2 ≤ p'.2 := by
  have hnodup := nodup_baseCosts h
  unfold baseCosts at h h'
  split at h
  next hdescriptor =>
    rw [hdescriptor] at h'
    exact storageVaultPrices_le _ (mem_of_lookup h) _ (mem_of_lookup h') hlt
  next hnone =>
    -- The list does not depend on the level.
    rw [hnone] at h'
    obtain rfl := Option.some.inj (h.symm.trans h')
    intro p hp p' hp' heq
    exact (congrArg Prod.snd (List.inj_on_of_nodup_map hnodup hp hp' heq)).le

/-- Every upgrade finds a list of prices, and so does a creation, except for the vault. -/
theorem isSome_baseCosts {type : FacilityType} (h : Requested type level)
    (hpaid : ¬(type = .storageVault ∧ level = 0)) : (baseCosts type.name level).isSome := by
  cases type with
  | storageVault =>
    cases h with
    | creation => exact absurd ⟨rfl, rfl⟩ hpaid
    | @upgrade facility htype hpos hcheck =>
      have hlast : Saves.lastLevel facility.facilityType = some 20 := by
        rw [htype]
        decide
      have hlt := Saves.lt_of_checkLevel hcheck hlast
      have hall : ∀ i < 20, (storageVaultPrices.lookup (((i : ℕ) : ℤ) + 1)).isSome := by
        decide
      have hlisted := hall facility.level.toNat (by omega)
      rwa [Int.toNat_of_nonneg (by omega)] at hlisted
  | cropland => rfl
  | sawmill => rfl
  | ironMine => rfl
  | monkeyCoinMine => rfl
  | barrack => rfl

/-! ## What is requested -/

theorem Requested.nonneg {type : FacilityType} (h : Requested type level) : 0 ≤ level := by
  cases h with
  | creation => exact le_rfl
  | upgrade htype hpos hcheck => omega

theorem Requested.ne_one {type : FacilityType} (h : Requested type level) : level ≠ 1 := by
  cases h with
  | creation => decide
  | upgrade htype hpos hcheck => omega

/-- Each amount of a price comes from a list. -/
theorem mem_computeBuildingCost {cost : FacilityTypeResPrice} :
    cost ∈ computeBuildingCost type level ↔ ∃ prices, baseCosts type level = some prices ∧
      ∃ p ∈ prices, cost = ⟨p.1, computeResCost p.2 level⟩ := by
  unfold computeBuildingCost
  cases h : baseCosts type level with
  | none => simp
  | some prices => simp [eq_comm]

/-- From level 2 on, and for creations, the amounts are positive integers. -/
theorem exists_amount (hlevel : 0 ≤ level) (hne : level ≠ 1) :
    ∀ cost ∈ computeBuildingCost type level, ∃ n : ℕ, 0 < n ∧ cost.amount = n := by
  intro cost hcost
  obtain ⟨prices, hprices, p, hp, rfl⟩ := mem_computeBuildingCost.1 hcost
  obtain ⟨hpos, heven⟩ := even_baseCosts hprices hne p hp
  exact computeResCost_even heven hpos hlevel

theorem priced {type : FacilityType} (h : Requested type level)
    (hpaid : ¬(type = .storageVault ∧ level = 0)) :
    Priced (computeBuildingCost type.name level) where
  nonempty := by
    obtain ⟨prices, hprices⟩ := Option.isSome_iff_exists.1 (isSome_baseCosts h hpaid)
    unfold computeBuildingCost
    rw [hprices]
    exact mt List.map_eq_nil_iff.1 (ne_nil_of_baseCosts hprices)
  amounts := exists_amount h.nonneg h.ne_one

/-- Prices grow with the level that is requested. -/
theorem dearer {type : FacilityType} (h : Requested type level) (hlt : level < level') :
    Dearer (computeBuildingCost type.name level) (computeBuildingCost type.name level') := by
  intro cost hcost cost' hcost' heq
  obtain ⟨prices, hprices, p, hp, rfl⟩ := mem_computeBuildingCost.1 hcost
  obtain ⟨prices', hprices', p', hp', rfl⟩ := mem_computeBuildingCost.1 hcost'
  obtain ⟨hpos, -⟩ := even_baseCosts hprices h.ne_one p hp
  exact computeResCost_lt hpos (baseCosts_le hprices hprices' hlt p hp p' hp' heq) h.nonneg hlt

/-- At each level that is requested, the price has to be paid and is below the prices of the higher
levels, unless it is the price of a new storage vault. -/
theorem price_law_iff (type : FacilityType) (level : ℤ) (h : Requested type level) :
    (Priced (computeBuildingCost type.name level) ∧
      ∀ level', Requested type level' → level < level' →
        Dearer (computeBuildingCost type.name level) (computeBuildingCost type.name level')) ↔
      ¬(type = .storageVault ∧ level = 0) := by
  constructor
  · rintro ⟨hpriced, -⟩ ⟨rfl, rfl⟩
    exact hpriced.nonempty (by decide)
  · intro hpaid
    exact ⟨priced h hpaid, fun level' _ hlt => dearer h hlt⟩

theorem price_law_iff_sample :
    Requested .barrack (1 + 1) ∧
      ((Priced (computeBuildingCost FacilityType.barrack.name (1 + 1)) ∧
        ∀ level', Requested .barrack level' → 1 + 1 < level' →
          Dearer (computeBuildingCost FacilityType.barrack.name (1 + 1))
            (computeBuildingCost FacilityType.barrack.name level')) ↔
        ¬(FacilityType.barrack = .storageVault ∧ (1 : ℤ) + 1 = 0)) := by
  have h : Requested .barrack (1 + 1) :=
    @Requested.upgrade .barrack ⟨1, 1, "barrack", 1⟩ rfl le_rfl (by decide)
  exact ⟨h, price_law_iff .barrack (1 + 1) h⟩

/-- A new storage vault costs nothing. -/
theorem vault_free :
    Requested .storageVault 0 ∧ computeBuildingCost FacilityType.storageVault.name 0 = [] ∧
      ¬(Priced (computeBuildingCost FacilityType.storageVault.name 0) ∧
        ∀ level', Requested .storageVault level' → 0 < level' →
          Dearer (computeBuildingCost FacilityType.storageVault.name 0)
            (computeBuildingCost FacilityType.storageVault.name level')) := by
  have hempty : computeBuildingCost FacilityType.storageVault.name 0 = [] := by decide
  exact ⟨.creation, hempty, fun h => h.1.nonempty hempty⟩

end Cme.Facilities.PriceLaw
