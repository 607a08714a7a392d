import CmeBackend.Storage.Transfer

/-!
# Withdrawals from a vault

`transferResourcesToStorage` (`resources-ms-storage.service.ts`) makes one check for both
directions: that the village has what is requested. For a withdrawal the vault has to have it, and
the village gets it.

* `withdrawal_eq_ok_iff`: what a withdrawal has to pass.
* `depends_on_vault_iff`: where the answer is that of the vault alone.
-/

namespace Cme.Storage

variable {C : Catalog} {d : Db C} {v f : ℕ} {village : Village} {facility : Facility} {t : C.Ref}
  {r : VillageResourceType C} {n : ℤ}

/-- A withdrawal of `n` of the type `t`. -/
def withdrawal (t : C.Ref) (n : ℤ) : Request := ⟨.withdraw, t.type, n⟩

/-- The vault row is there, and holds at least `n`. -/
def VaultHolds (d : Db C) (facilityId : ℕ) (n : ℤ) : Prop :=
  ∃ storage, storageOf d facilityId = some storage ∧ n ≤ storage.count

/-- The one row of a type is the row that the check finds. -/
theorem rowOf_of_singleton (h : d.rowsOfType v t = [r]) : d.rowOf v t = some r := by
  have hmem : r ∈ d.rowsOfType v t := h ▸ List.mem_singleton_self r
  cases hrow : d.rowOf v t with
  | none =>
    refine absurd (List.find?_eq_none.1 hrow r (List.mem_filter.1 hmem).1) ?_
    have ht : r.resourceType = t := of_decide_eq_true (List.mem_filter.1 hmem).2
    simp [ht]
  | some r' =>
    obtain ⟨hr', ht⟩ := Db.rowOf_eq_some hrow
    have hmem' : r' ∈ d.rowsOfType v t := List.mem_filter.2 ⟨hr', by simpa using ht⟩
    rw [h, List.mem_singleton] at hmem'
    rw [hmem']

/-- A withdrawal succeeds exactly if the vault and the village both have what is requested. -/
theorem withdrawal_eq_ok_iff (hv : d.villages.get? v = some village)
    (hf : d.facilities.get? f = some facility) (hrow : d.rowsOfType v t = [r]) (hn : 1 ≤ n) :
    (∃ transferred, transferResourcesToStorageOwnVillages d v f (withdrawal t n) =
      .ok transferred) ↔ VaultHolds d f n ∧ n ≤ r.count := by
  have hrowOf := rowOf_of_singleton hrow
  simp only [transferResourcesToStorageOwnVillages_eq_ok]
  constructor
  · rintro ⟨_, facility', t', m, hpasses, -⟩
    obtain rfl : t' = t := Catalog.Ref.eq_of_type hpasses.type_eq
    obtain ⟨r', hr', hle⟩ := hpasses.enough
    obtain rfl := Option.some.inj (hrowOf.symm.trans hr')
    refine ⟨?_, hle⟩
    have hallowed := hpasses.allowed
    unfold VaultHolds
    cases hs : storageOf d f with
    | none =>
      rw [hs] at hallowed
      cases hallowed
    | some s =>
      rw [hs] at hallowed
      cases hallowed with
      | withdraw _ hle => exact ⟨s, rfl, hle⟩
  · rintro ⟨⟨s, hs, hheld⟩, hle⟩
    refine ⟨_, facility, t, n, ⟨⟨village, hv⟩, hf, rfl, ⟨r, hrowOf, hle⟩, ?_⟩, rfl⟩
    rw [hs]
    exact .withdraw (by omega) hheld

/-- A withdrawal, of the vault's resource or another one, succeeds exactly if the vault holds it, in
exactly those cases in which the village has as much already, or the vault does not hold it. -/
theorem depends_on_vault_iff (hv : d.villages.get? v = some village)
    (hf : d.facilities.get? f = some facility)
    (hrow : d.rowsOfType v t = [r]) (hn : 1 ≤ n) :
    ((∃ transferred, transferResourcesToStorageOwnVillages d v f (withdrawal t n) =
      .ok transferred) ↔ VaultHolds d f n) ↔ (VaultHolds d f n → n ≤ r.count) := by
  rw [withdrawal_eq_ok_iff hv hf hrow hn]
  exact and_iff_left_iff_imp

/-- Village 1 has no mkc, and its vault holds 5000. -/
def sampleVault : Db sampleCatalog :=
  { sampleDb with
    villagesResourceTypes :=
      { rows := [⟨1, some 1, food, 1000⟩, ⟨2, some 1, mkc, 0⟩]
        next := 3
        nodup := by decide
        lt_next := by decide }
    villagesStorageResourceTypes :=
      { rows := [⟨1, 1, mkc, 5000⟩]
        next := 2
        nodup := by decide
        lt_next := by decide } }

/-- 6000 mkc, which the vault does not hold. -/
theorem depends_on_vault_iff_sample :
    (∃ transferred, transferResourcesToStorageOwnVillages sampleVault 1 1 (withdrawal mkc 6000) =
      .ok transferred) ↔ VaultHolds sampleVault 1 6000 := by
  have hiff := @depends_on_vault_iff sampleCatalog sampleVault 1 1 ⟨1, some 1, 0, 0, 0, 0⟩
    ⟨1, 1, "storage_vault", 1⟩ mkc ⟨2, some 1, mkc, 0⟩ 6000 rfl rfl rfl (by decide)
  refine hiff.2 ?_
  rintro ⟨storage, hs, hle⟩
  obtain rfl := Option.some.inj hs
  exact absurd hle (by decide)

/-- 100 mkc, which the vault holds, and the village does not. -/
theorem withdrawal_refused :
    VaultHolds sampleVault 1 100 ∧
      ¬∃ transferred, transferResourcesToStorageOwnVillages sampleVault 1 1 (withdrawal mkc 100) =
        .ok transferred := by
  refine ⟨⟨⟨1, 1, mkc, 5000⟩, rfl, by decide⟩, ?_⟩
  have hiff := @withdrawal_eq_ok_iff sampleCatalog sampleVault 1 1 ⟨1, some 1, 0, 0, 0, 0⟩
    ⟨1, 1, "storage_vault", 1⟩ mkc ⟨2, some 1, mkc, 0⟩ 100 rfl rfl rfl (by decide)
  exact fun h => absurd (hiff.1 h).2 (by decide)

end Cme.Storage
