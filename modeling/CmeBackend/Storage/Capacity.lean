import CmeBackend.Lib.Runs
import CmeBackend.Storage.Transfer

/-!
# The capacity of a vault

* `WithinCapacity`: a storage vault holds at least nothing and at most the `maximum_storage` of its
  level. `NoOverdraft`: no count of the village is negative.
* `FitsVault`, `FitsVillage`: what `transferResourcesToStorage` does not check. It compares neither
  the first deposit with the capacity nor a negative count with anything, and it reads one row of
  the village.
* `step_within_iff`: a request that passes keeps the limits exactly if it meets these.
-/

namespace Cme.Storage

open GameRules Runs

variable {C : Catalog} {d d₀ : Db C} {v f : ℕ} {req : Request} {facility : Facility} {t : C.Ref}
  {n m capacity : ℤ} {k : TransferType}

/-- `maximum_storage` of the current level of a facility. -/
def maximumStorage? (d : Db C) (facilityId : ℕ) : Option ℤ := do
  let facility ← d.facilities.get? facilityId
  let facilityDescriptor ← findFacilityDescriptorByType facility.facilityType
  let level ← facilityDescriptor.level? facility.level
  return level.maximumStorage

/-- The facility is a storage vault that holds at least 0 and at most its capacity. -/
def WithinCapacity (d : Db C) (facilityId : ℕ) : Prop :=
  ∃ capacity, maximumStorage? d facilityId = some capacity ∧ 0 ≤ storedCount d facilityId ∧
    storedCount d facilityId ≤ capacity

/-- No count of the village is negative. -/
def NoOverdraft (d : Db C) (villageId : ℕ) : Prop := ∀ r ∈ d.rowsOf villageId, 0 ≤ r.count

/-! ## The conditions -/

/-- A deposit takes no more out of the vault than there is, and the first one puts no more into it
than its capacity. A withdrawal puts no more into it than there is room for. -/
def FitsVault (d : Db C) (f : ℕ) (capacity n : ℤ) : TransferType → Prop
  | .deposit => -storedCount d f ≤ n ∧ (storageOf d f = none → n ≤ capacity)
  | .withdraw => -n ≤ capacity - storedCount d f
  | .other _ => -storedCount d f ≤ n ∧ n ≤ capacity - storedCount d f

/-- No row of the type has less than a deposit takes from it, which is at most the room in the
vault, or than a withdrawal of a negative count takes from it. -/
def FitsVillage (d : Db C) (v f : ℕ) (t : C.Ref) (capacity n : ℤ) (k : TransferType) : Prop :=
  ∀ r ∈ d.rowsOfType v t,
    (if k = .deposit then min n (capacity - storedCount d f) else -n) ≤ r.count

/-- The condition under which a request keeps the limits. -/
def WithinLimits (v f : ℕ) (d : Db C) (req : Request) : Prop :=
  ∀ facility t n capacity, Passes d v f req facility t n → maximumStorage? d f = some capacity →
    FitsVault d f capacity req.resource.count req.transferType ∧
      (NoOverdraft d v → FitsVillage d v f t capacity req.resource.count req.transferType)

/-! ## Steps -/

theorem Passes.storedCount_step (h : Passes d v f req facility t n) :
    storedCount (step v f d req) f = storedCount d f + req.transferType.intoVault n := by
  obtain rfl := h.facility_id
  rw [step_of_passes h, storedCount_move]

/-- No request changes the capacity. -/
theorem maximumStorage?_step : maximumStorage? (step v f d req) f = maximumStorage? d f := by
  rcases step_cases d v f req with heq | ⟨facility, t, n, hp⟩
  · rw [heq]
  · rw [maximumStorage?, step_of_passes hp, facilities_move, maximumStorage?]

/-- The rows of the type that is moved are the only ones that can become negative. -/
theorem Passes.noOverdraft_step_iff (hp : Passes d v f req facility t n) (h : NoOverdraft d v) :
    NoOverdraft (step v f d req) v ↔
      ∀ r ∈ d.rowsOfType v t, 0 ≤ r.count + req.transferType.intoVillage n := by
  unfold NoOverdraft Db.rowsOfType
  rw [step_of_passes hp, rowsOf_move, ← hp.type_eq, rowsOf_saveResources_one,
    ← intoVillage_eq_added, List.forall_mem_map]
  constructor
  · intro hall r hr
    have hcount := hall r (List.mem_filter.1 hr).1
    rwa [if_pos (by simpa using (List.mem_filter.1 hr).2)] at hcount
  · intro hall r hr
    show 0 ≤ r.count + _
    split
    next ht => exact hall r (List.mem_filter.2 ⟨hr, by simpa using ht⟩)
    next => simpa using h r hr

/-- The capacity is that of the level which the checks have read. -/
theorem maximumStorage?_eq {b : StorageFacilityBuilding} {l : StorageLevel}
    (hf : d.facilities.get? f = some facility)
    (hb : findFacilityDescriptorByType facility.facilityType = some b)
    (hl : b.level? facility.level = some l) : maximumStorage? d f = some l.maximumStorage := by
  simp [maximumStorage?, hf, hb, hl]

/-- A request puts into a vault what keeps it within its capacity, and what a deposit takes from the
village is at most the room that there was. -/
theorem Allowed.fits_iff (h : Allowed facility (storageOf d f) k n m)
    (hf : d.facilities.get? f = some facility) (hmax : maximumStorage? d f = some capacity)
    (h0 : 0 ≤ storedCount d f) :
    ((0 ≤ storedCount d f + k.intoVault m ∧ storedCount d f + k.intoVault m ≤ capacity) ↔
      FitsVault d f capacity n k) ∧
      (FitsVault d f capacity n k →
        -k.intoVillage m = if k = .deposit then min n (capacity - storedCount d f) else -n) := by
  generalize hs : storageOf d f = storage at h
  cases h with
  | withdraw hpos hn =>
    have hstored := storedCount_of_some hs
    have hfits : FitsVault d f capacity n .withdraw ↔ -n ≤ capacity - storedCount d f := Iff.rfl
    rw [hfits, TransferType.intoVault_withdraw]
    exact ⟨by omega, fun _ => rfl⟩
  | first hb =>
    have hstored := storedCount_of_none hs
    have hfits : FitsVault d f capacity n .deposit ↔ 0 ≤ n ∧ n ≤ capacity := by
      simp [FitsVault, hs, hstored]
    rw [hfits, TransferType.intoVault_deposit, TransferType.intoVillage_deposit, if_pos rfl]
    exact ⟨by omega, fun h => by omega⟩
  | deposit hb hl hlt =>
    have hstored := storedCount_of_some hs
    have hcapacity := Option.some.inj ((maximumStorage?_eq hf hb hl).symm.trans hmax)
    have hfits : FitsVault d f capacity n .deposit ↔ -storedCount d f ≤ n := by
      simp [FitsVault, hs]
    rw [hfits, TransferType.intoVault_deposit, TransferType.intoVillage_deposit, if_pos rfl]
    exact ⟨by omega, fun _ => by omega⟩
  | other =>
    rw [FitsVault, TransferType.intoVault_other]
    exact ⟨by omega, fun _ => rfl⟩

/-- The conditions are exact: for a vault within its capacity, a request keeps it so, and the counts
of the village above 0 if they were, if and only if it meets them. -/
theorem step_within_iff (h : WithinCapacity d f) :
    (WithinCapacity (step v f d req) f ∧ (NoOverdraft d v → NoOverdraft (step v f d req) v)) ↔
      WithinLimits v f d req := by
  obtain ⟨capacity, hmax, h0, hle⟩ := h
  have hiff : ∀ {facility t n}, Passes d v f req facility t n →
      ((WithinCapacity (step v f d req) f ∧ (NoOverdraft d v → NoOverdraft (step v f d req) v)) ↔
        FitsVault d f capacity req.resource.count req.transferType ∧
          (NoOverdraft d v →
            FitsVillage d v f t capacity req.resource.count req.transferType)) := by
    intro facility t n hp
    obtain ⟨hvault, hvillage⟩ := hp.allowed.fits_iff hp.facility_exists hmax h0
    have hwithin : WithinCapacity (step v f d req) f ↔
        FitsVault d f capacity req.resource.count req.transferType := by
      rw [← hvault, WithinCapacity, maximumStorage?_step, hp.storedCount_step, hmax]
      simp
    rw [hwithin]
    refine and_congr_right fun hfits => imp_congr_right fun hcounts => ?_
    rw [hp.noOverdraft_step_iff hcounts, FitsVillage, ← hvillage hfits]
    exact forall₂_congr fun r _ => by omega
  constructor
  · intro hstep facility t n capacity' hp hmax'
    obtain rfl := Option.some.inj (hmax.symm.trans hmax')
    exact (hiff hp).1 hstep
  · intro hcond
    rcases step_cases d v f req with heq | ⟨facility, t, n, hp⟩
    · rw [heq]
      exact ⟨⟨capacity, hmax, h0, hle⟩, id⟩
    · exact (hiff hp).2 (hcond facility t n capacity hp hmax)

/-! ## Runs -/

/-- **Capacity and no overdraft.** In a run of requests that all meet the conditions, a vault that
is within its capacity stays so, and the counts of the village stay above 0 if they start so. -/
theorem vault_within_capacity (h0 : WithinCapacity d₀ f)
    (h : Reach (graph (step v f)) (WithinLimits v f) d₀ d) :
    WithinCapacity d f ∧ (NoOverdraft d₀ v → NoOverdraft d v) := by
  refine h.inv (I := fun d => WithinCapacity d f ∧ (NoOverdraft d₀ v → NoOverdraft d v))
    ⟨h0, id⟩ ?_
  intro d req d' ⟨hwithin, hcounts⟩ hok hstep
  obtain ⟨hwithin', hcounts'⟩ := (step_within_iff hwithin).2 hok
  rw [show d' = _ from hstep]
  exact ⟨hwithin', fun hstart => hcounts' (hcounts hstart)⟩

/-- Every vault has room. -/
theorem maximumStorage?_pos (h : maximumStorage? d f = some capacity) : 0 < capacity := by
  obtain ⟨facility, -, h⟩ := Option.bind_eq_some_iff.1 h
  obtain ⟨b, hb, h⟩ := Option.bind_eq_some_iff.1 h
  obtain ⟨l, hl, h⟩ := Option.bind_eq_some_iff.1 h
  obtain rfl := Option.some.inj h
  exact maximumStorage_pos (List.mem_of_find?_eq_some hb) _ (mem_of_lookup hl)

/-- A vault without a vault row is within its capacity. -/
theorem withinCapacity_of_none (hs : storageOf d f = none)
    (hmax : maximumStorage? d f = some capacity) : WithinCapacity d f := by
  refine ⟨capacity, hmax, ?_⟩
  rw [storedCount_of_none hs]
  exact ⟨le_rfl, (maximumStorage?_pos hmax).le⟩

theorem withinLimits_sampleDeposit : WithinLimits 1 1 sampleDb (sampleDeposit 10000) := by
  intro facility t n capacity hp hmax
  obtain rfl := hp.eq_mkc rfl
  obtain rfl : 10000 = capacity := Option.some.inj hmax
  refine ⟨⟨by decide, fun _ => le_rfl⟩, fun _ => ?_⟩
  unfold FitsVillage
  decide

theorem vault_within_capacity_sample :
    WithinCapacity (step 1 1 sampleDb (sampleDeposit 10000)) 1 ∧
      (NoOverdraft sampleDb 1 → NoOverdraft (step 1 1 sampleDb (sampleDeposit 10000)) 1) :=
  vault_within_capacity (withinCapacity_of_none rfl rfl)
    (Reach.refl.next _ withinLimits_sampleDeposit)

/-- The first deposit puts 20000 mkc into a vault for 10000. -/
theorem first_deposit_above_capacity :
    ¬∀ (C : Catalog) (v f : ℕ) (d₀ d : Db C), WithinCapacity d₀ f →
      Reach (graph (step v f)) (fun _ req => req.transferType.Declared) d₀ d →
        WithinCapacity d f ∧ (NoOverdraft d₀ v → NoOverdraft d v) := by
  intro hall
  have hdeposit : Reach (graph (step 1 1)) (fun _ req => req.transferType.Declared) sampleDb
      (step 1 1 sampleDb (sampleDeposit 20000)) := Reach.refl.next _ (.inl rfl)
  obtain ⟨⟨capacity, hmax, -, hle⟩, -⟩ :=
    hall _ 1 1 _ _ (withinCapacity_of_none rfl rfl) hdeposit
  obtain rfl : 10000 = capacity := Option.some.inj hmax
  exact absurd hle (by decide +kernel)

end Cme.Storage
