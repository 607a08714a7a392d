import CmeBackend.Exchanges.Conservation

/-!
# The units that a village has

`villageHasEnoughMilitaryResources` compares every entry with the row of its type, in a callback
whose result nobody reads. So it finds that every village has enough, and the exchange takes what is
requested from the rows of the sender.

* `Enough`: no entry requests more than a row of its type has.
* `availability_iff`: the answer, and what it is for, are right exactly in this case.
-/

namespace Cme.Exchanges

open Js

variable {C : Catalog} {d : Db C} {c : CheckedMilitary C} {req : Request}
  {rows : List (VillageResourceType C)} {resources : List SentMilitary}

/-- Every requested count is at most that of the village's rows of the type. -/
def Enough (rows : List (VillageResourceType C)) (resources : List SentMilitary) : Prop :=
  ∀ resource ∈ resources, ∀ r ∈ rows, r.resourceType.id = resource.id → resource.count ≤ r.count

instance : Decidable (Enough rows resources) :=
  inferInstanceAs (Decidable (∀ resource ∈ resources, ∀ r ∈ rows, _ → _))

/-- The answer is the same for every village that has the rows. -/
theorem villageHasEnoughMilitaryResources_eq_true
    (h : ∀ resource ∈ resources, (findResource rows resource).isSome) :
    villageHasEnoughMilitaryResources rows resources = .ok true := by
  induction resources with
  | nil => rfl
  | cons resource rest ih =>
    obtain ⟨hfirst, hrest⟩ := List.forall_mem_cons.1 h
    obtain ⟨r, hr⟩ := Option.isSome_iff_exists.1 hfirst
    unfold findResource at hr
    rw [villageHasEnoughMilitaryResources, hr]
    exact ih hrest

/-- The answer is right exactly for the villages that have enough. -/
theorem answer_right_iff (h : ∀ resource ∈ resources, (findResource rows resource).isSome) :
    (villageHasEnoughMilitaryResources rows resources = .ok true ↔ Enough rows resources) ↔
      Enough rows resources := by
  rw [villageHasEnoughMilitaryResources_eq_true h]
  exact ⟨fun hiff => hiff.1 rfl, fun henough => iff_of_true rfl henough⟩

/-- The rows of the sender after an exchange. -/
theorem rowsOf_senderLeft (h : Accepted d req c) :
    (d.saveEntities c.senderLeft).rowsOf c.sender.village.id =
      (d.rowsOf c.sender.village.id).map fun r =>
        { r with count := r.count - firstOf c.formatted r.resourceType } := by
  rw [CheckedMilitary.senderLeft, h.rows, Db.rowsOf_saveEntities_self]
  simp only [removeMiliteryResourcesToVillage_eq]

theorem firstOf_le (h : Enough rows resources) {r : VillageResourceType C} (hr : r ∈ rows)
    (hcount : 0 ≤ r.count) : firstOf resources r.resourceType ≤ r.count := by
  unfold firstOf
  cases hfirst : (countsOf resources r.resourceType).head? with
  | none => exact hcount
  | some n =>
    obtain ⟨resource, hmem, rfl⟩ := List.mem_map.1 (List.mem_of_mem_head? hfirst)
    obtain ⟨hresource, hid⟩ := List.mem_filter.1 hmem
    exact h resource hresource r hr (of_decide_eq_true hid).symm

/-- No row of the sender is negative after an exchange if there was enough. -/
theorem senderLeft_nonneg (h : Accepted d req c)
    (henough : Enough (d.rowsOf c.sender.village.id) c.formatted)
    (hrows : ∀ r ∈ d.rowsOf c.sender.village.id, 0 ≤ r.count) :
    ∀ r ∈ (d.saveEntities c.senderLeft).rowsOf c.sender.village.id, 0 ≤ r.count := by
  intro r hr
  rw [rowsOf_senderLeft h] at hr
  obtain ⟨r₀, hr₀, rfl⟩ := List.mem_map.1 hr
  exact sub_nonneg.2 (firstOf_le henough hr₀ (hrows r₀ hr₀))

/-- The answer is right exactly if the village has enough, and then no accepted exchange leaves a
row of the sender negative. -/
theorem availability_iff (C : Catalog) :
    (∀ (rows : List (VillageResourceType C)) (resources : List SentMilitary),
      (∀ resource ∈ resources, (findResource rows resource).isSome) →
      ((villageHasEnoughMilitaryResources rows resources = .ok true ↔ Enough rows resources) ↔
        Enough rows resources)) ∧
    ∀ (M : Math) (speedOf : C.Ref → Option ℚ) (req : Request) (d : Db C) (c : CheckedMilitary C),
      checkMilitary M speedOf req (d.findVillage req.senderVillageId)
        (d.findVillage req.receiverVillageId) = .ok c →
      (∀ r ∈ d.rowsOf c.sender.village.id, 0 ≤ r.count) →
      ((villageHasEnoughMilitaryResources (d.rowsOf c.sender.village.id) c.formatted = .ok true ↔
          Enough (d.rowsOf c.sender.village.id) c.formatted) ∧
        (∀ r ∈ (d.saveEntities c.senderLeft).rowsOf c.sender.village.id, 0 ≤ r.count) ↔
      Enough (d.rowsOf c.sender.village.id) c.formatted) := by
  refine ⟨fun rows resources h => answer_right_iff h, ?_⟩
  intro M speedOf req d c hcheck hrows
  have haccepted := checkMilitary_eq_ok hcheck
  rw [answer_right_iff haccepted.found]
  exact and_iff_left_of_imp fun henough => senderLeft_nonneg haccepted henough hrows

/-- Five of 30 stone hunters. -/
theorem availability_iff_sample : ∃ c, sampleCheck sampleOnce = .ok c ∧
    (villageHasEnoughMilitaryResources (sampleDb.rowsOf c.sender.village.id) c.formatted =
      .ok true ↔ Enough (sampleDb.rowsOf c.sender.village.id) c.formatted) ∧
    ∀ r ∈ (sampleDb.saveEntities c.senderLeft).rowsOf c.sender.village.id, 0 ≤ r.count := by
  obtain ⟨c, hc⟩ : ∃ c, sampleCheck sampleOnce = .ok c := exists_of_isOk (by decide +kernel)
  have hmem : c ∈ (sampleCheck sampleOnce).toOption := by rw [hc]; rfl
  have hrows : ∀ c ∈ (sampleCheck sampleOnce).toOption,
      ∀ r ∈ sampleDb.rowsOf c.sender.village.id, 0 ≤ r.count := by decide +kernel
  have henough : ∀ c ∈ (sampleCheck sampleOnce).toOption,
      Enough (sampleDb.rowsOf c.sender.village.id) c.formatted := by decide +kernel
  exact ⟨c, hc, ((availability_iff sampleCatalog).2 Attacks.sampleMath _ (sampleRequest sampleOnce)
    sampleDb c hc (hrows c hmem)).2 (henough c hmem)⟩

/-- 31 of 30 stone hunters are found to be there, and -1 are left. -/
theorem one_too_many : ∃ c ∈ (sampleCheck [⟨"stone_hunter", 31⟩]).toOption,
    villageHasEnoughMilitaryResources (sampleDb.rowsOf 1) c.formatted = .ok true ∧
      ¬Enough (sampleDb.rowsOf 1) c.formatted ∧
      ((sampleDb.saveEntities c.senderLeft).rowsOf 1).map (·.count) = [1000, -1] := by
  decide +kernel

end Cme.Exchanges
