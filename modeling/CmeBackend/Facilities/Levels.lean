import CmeBackend.Facilities.Reverts

/-!
# Levels of facilities that have a last level

The level of a barrack and of a storage vault stays between 1 and the last level that its descriptor
defines, in every run (`levels_capped`). An upgrade compares the level it has loaded with the last
one, and saves the next; the other operations save a level they have loaded. So no facility that is
still to be saved has a level that its descriptor does not define.

* `lastLevel`: the last level of the descriptor of a type.
* `Capped`: what is so of a row, and of every facility that a worker will save (`Worker.Capped`).
-/

namespace Cme.Facilities.Saves

open GameRules Production Redis Runs

variable {C : Catalog} {d d' : GameDb C} {s : State C} {w : Worker C} {k : ℕ} {now : ℤ} {e : Env}
  {type : String} {level : ℤ}

/-! ## The descriptors -/

/-- The last level that the descriptor of a type defines. -/
def lastLevel (type : String) : Option ℤ :=
  match findFacilityDescriptorByType type with
  | some descriptor => descriptor.levels.getLast?.map Prod.fst
  | none => (relatedMilitaryBuildingDescriptors type).map fun unit => unit.maxTier

/-- The types that have a last level have twenty. -/
theorem lastLevel_eq_some {last : ℤ} (h : lastLevel type = some last) : last = 20 := by
  unfold lastLevel at h
  split at h
  next descriptor hdescriptor =>
    obtain ⟨-, rfl⟩ := eq_of_descriptor hdescriptor
    exact (Option.some.inj h).symm
  next hnone =>
    unfold relatedMilitaryBuildingDescriptors at h
    split at h
    · exact (Option.some.inj h).symm
    · cases h

/-- The types of buildings have no last level. -/
theorem lastLevel_of_building (h : findBuildingType type = .building) : lastLevel type = none := by
  unfold findBuildingType at h
  split at h
  · cases h
  next hnone =>
    split at h
    next hmem =>
      have hne : type ≠ barrackDescriptor.name := by
        rintro rfl
        revert hmem
        decide
      unfold lastLevel
      rw [Option.not_isSome_iff_eq_none.1 hnone]
      dsimp only
      rw [relatedMilitaryBuildingDescriptors, if_neg hne]
      rfl
    · cases h

/-- `checkIfFacilityNextLevel` compares with the last level. -/
theorem lt_lastLevel {last : ℤ} (h : checkIfFacilityNextLevel type level = some true)
    (hlast : lastLevel type = some last) : level < last := by
  unfold checkIfFacilityNextLevel at h
  unfold lastLevel at hlast
  split at h
  next descriptor hdescriptor =>
    rw [hdescriptor] at hlast
    dsimp only at hlast
    rw [hlast] at h
    simpa using h
  next hnone =>
    rw [hnone] at hlast
    obtain ⟨unit, hunit, rfl⟩ := Option.map_eq_some_iff.1 hlast
    rw [hunit] at h
    simpa using h

/-- A facility is at a level that the descriptor of its type defines. -/
def Capped (f : Facility) : Prop :=
  ∀ last, lastLevel f.facilityType = some last → 1 ≤ f.level ∧ f.level ≤ last

instance (f : Facility) : Decidable (Capped f) :=
  inferInstanceAs (Decidable (∀ last ∈ lastLevel f.facilityType, 1 ≤ f.level ∧ f.level ≤ last))

/-- The lookups of the level of a facility, in the creation of orders and in the transfer to the
vault, find something. -/
structure Defined (f : Facility) : Prop where
  tier : f.facilityType = barrackDescriptor.name →
    (barrackDescriptor.tiers.find? fun t => t.tier = f.level).isSome
  level : ∀ b, findFacilityDescriptorByType f.facilityType = some b → (b.level? f.level).isSome

theorem isSome_find?_tier {maxTier : ℕ} (hpos : 1 ≤ level) (hle : level ≤ maxTier) :
    ((formatAllLevelsForBarrackDescriptor maxTier).find? fun t => t.tier = level).isSome := by
  refine List.find?_isSome.2
    ⟨⟨level.toNat - 1 + 1, getUnitUntilLevel (level.toNat - 1 + 1)⟩, ?_, ?_⟩
  · exact List.mem_map.2 ⟨level.toNat - 1, List.mem_range.2 (by omega), rfl⟩
  · exact decide_eq_true (show ((level.toNat - 1 + 1 : ℕ) : ℤ) = level by omega)

theorem isSome_level? (hpos : 1 ≤ level) (hle : level ≤ 20) :
    (storageVault.level? level).isSome := by
  have hall : ∀ i < 20, (storageVault.level? ((i : ℕ) + 1)).isSome := by decide
  have hlevel := hall (level.toNat - 1) (by omega)
  rwa [show ((level.toNat - 1 : ℕ) : ℤ) + 1 = level by omega] at hlevel

theorem Capped.defined {f : Facility} (h : Capped f) : Defined f where
  tier htype := by
    have hlast : lastLevel f.facilityType = some 20 := by
      rw [htype]
      decide
    obtain ⟨hpos, hle⟩ := h 20 hlast
    exact isSome_find?_tier hpos hle
  level b hb := by
    obtain ⟨-, rfl⟩ := eq_of_descriptor hb
    have hlast : lastLevel f.facilityType = some 20 := by
      unfold lastLevel
      rw [hb]
      rfl
    obtain ⟨hpos, hle⟩ := h 20 hlast
    exact isSome_level? hpos hle

/-! ## What is saved -/

/-- A new facility is at level 1. -/
theorem capped_new (id villageId : ℕ) (type : String) : Capped ⟨id, 1, type, villageId⟩ := by
  intro last hlast
  rw [lastLevel_eq_some hlast]
  exact ⟨le_rfl, show (1 : ℤ) ≤ 20 by decide⟩

/-- The check of an upgrade leaves room for the next level. -/
theorem lt_of_checkLevel {f : Facility} {last : ℤ} (hcheck : checkLevel f = .ok ())
    (hlast : lastLevel f.facilityType = some last) : f.level < last := by
  unfold checkLevel at hcheck
  split at hcheck
  next hbuilding =>
    rw [lastLevel_of_building hbuilding] at hlast
    cases hlast
  · split at hcheck
    · cases hcheck
    · cases hcheck
    next hnext => exact lt_lastLevel hnext hlast

theorem capped_next {f : Facility} (h : Capped f) (hcheck : checkLevel f = .ok ()) :
    Capped { f with level := f.level + 1 } := by
  intro last hlast
  obtain ⟨hpos, -⟩ := h last hlast
  have hlt := lt_of_checkLevel hcheck hlast
  show 1 ≤ f.level + 1 ∧ f.level + 1 ≤ last
  omega

/-- What a worker will save. -/
def Worker.Capped (w : Worker C) : Prop :=
  ∀ now facility p, w.saved now = some (facility, p) → Saves.Capped facility

/-! ## Runs -/

/-- No facility that is stored or will be saved has a level that its descriptor does not define. -/
structure AllCapped (s : State C) : Prop where
  rows : ∀ f ∈ s.db.facilities.rows, Capped f
  workers : ∀ w ∈ s.workers, w.Capped

namespace AllCapped

/-- A facility that is loaded. -/
theorem loaded (h : AllCapped s) {withVillage : Bool} {id : ℕ} {facility : LoadedFacility C}
    (hfind : s.db.findFacility withVillage id = some facility) : Capped facility.facility :=
  h.rows _ (Table.get?_eq_some.1 (GameDb.findFacility_eq_some hfind).1).1

/-- A call that goes through. -/
theorem rows_commit (h : AllCapped s) (hw : w.Capped) (hcommit : w.commit now s.db = some d') :
    ∀ f ∈ d'.facilities.rows, Capped f := by
  have hsave : ∀ {facility p}, w.saved now = some (facility, p) →
      ∀ f ∈ d'.facilities.rows, Capped f := by
    intro facility p hsaved f hf
    rw [(saved_of_commit hsaved hcommit).1] at hf
    let save (f : Facility) : Facility :=
      { f with level := facility.level, facilityType := facility.facilityType }
    obtain ⟨f₀, hf₀, rfl⟩ : ∃ r ∈ s.db.facilities.rows, Table.patch facility.id save r = f :=
      List.mem_map.1 hf
    unfold Table.patch
    split
    · exact hw now facility p hsaved
    · exact h.rows f₀ hf₀
  cases w with
  | building c =>
    cases hcommit
    intro f hf
    rcases Table.mem_insert.1 hf with hf | rfl
    · rw [facilities_pay] at hf
      exact h.rows f hf
    · exact capped_new _ _ _
  | upgrading _ | ordering _ | saving _ _ _ _ => exact hsave rfl
  | stamping _ _ | queueing _ _ | selecting _ _ | loading _ _ _ | requeueing _ _ | ended =>
    cases hcommit
    exact h.rows

/-- A worker that goes on saves a facility only if it has just loaded it. -/
theorem capped_next (h : AllCapped s) (w : Worker C) : (w.next s.db).Capped := by
  intro now facility p hsaved
  cases w with
  | loading resourceType token sel =>
    have hloaded : (Worker.loaded s.db resourceType token sel).saved now = some (facility, p) :=
      hsaved
    unfold Worker.loaded at hloaded
    split at hloaded
    next hfind =>
      cases hloaded
      exact h.loaded hfind
    · cases hloaded
  | selecting resourceType token =>
    have hselected : (Worker.selected resourceType token (readRows (selectRows s.db token)) :
        Worker C).saved now = some (facility, p) := hsaved
    unfold Worker.selected at hselected
    split at hselected
    · split at hselected <;> cases hselected
    · cases hselected
  | saving resourceType token sel loaded =>
    have hdelivered : (Worker.delivered resourceType token sel : Worker C).saved now =
        some (facility, p) := hsaved
    unfold Worker.delivered at hdelivered
    split at hdelivered <;> cases hdelivered
  | _ => cases hsaved

theorem capped_ended : (.ended : Worker C).Capped := fun _ _ _ hsaved => by cases hsaved

theorem advance (h : AllCapped s) (hk : s.workers[k]? = some w) (reply : Reply) (now : ℤ) :
    AllCapped (s.advance k reply now w) := by
  have hw := h.workers w (List.mem_of_getElem? hk)
  unfold State.advance
  split
  next hcommit =>
    exact ⟨h.rows_commit hw hcommit, Weights.forall_mem_set h.workers (h.capped_next w)⟩
  next hcommit =>
    exact ⟨h.rows_commit hw hcommit, Weights.forall_mem_set h.workers capped_ended⟩
  · exact ⟨h.rows, Weights.forall_mem_set h.workers capped_ended⟩

/-- A new worker. -/
theorem spawn (h : AllCapped s) (hw : w.Capped) : AllCapped (s.spawn w) :=
  ⟨h.rows, List.forall_mem_append.2 ⟨h.workers, List.forall_mem_singleton.2 hw⟩⟩

theorem step (h : AllCapped s) (a : Action) : AllCapped (step e s a) := by
  have hnone : ∀ {w : Worker C}, (∀ now, w.saved now = none) → w.Capped := by
    intro w hsaved now facility p hsome
    rw [hsaved] at hsome
    cases hsome
  cases a with
  | build facility userId =>
    simp only [Saves.step]
    split
    · exact h.spawn (hnone fun _ => rfl)
    · exact h
  | upgrade facilityId userId =>
    simp only [Saves.step]
    split
    next c hc =>
      have hup := checkUpgrade_eq_ok hc
      refine h.spawn fun now facility p hsaved => ?_
      cases hsaved
      exact Saves.capped_next (h.loaded hup.facility) hup.level
    · exact h
  | order order =>
    simp only [Saves.step]
    split
    next c hc =>
      refine h.spawn fun now facility p hsaved => ?_
      cases hsaved
      exact h.loaded (checkOrder_eq_ok hc).facility
    · exact h
  | stamp facilityIds now => exact h.spawn (hnone fun _ => rfl)
  | move resourceType c => exact ⟨h.rows, h.workers⟩
  | pop resourceType reply =>
    simp only [Saves.step]
    split
    next token q hpop =>
      have hnew : AllCapped (s.spawn (.selecting resourceType.name token)) :=
        h.spawn (hnone fun _ => rfl)
      exact ⟨hnew.rows, hnew.workers⟩
    · exact ⟨h.rows, h.workers⟩
    · exact h
  | call k reply now =>
    simp only [Saves.step]
    split
    next hk => exact h.advance hk reply now
    · exact h
  | stop k => exact ⟨h.rows, Weights.forall_mem_set h.workers capped_ended⟩

end AllCapped

/-- In every run the level of a facility whose type has a last level stays between 1 and the last
level, and the lookups of the level find something. -/
theorem levels_capped {queues : Queues String OrderToken}
    (h : Reach (graph (step e)) always (start d queues) s)
    (hcapped : ∀ f ∈ d.facilities.rows, Capped f) :
    ∀ f ∈ s.db.facilities.rows, Capped f ∧ Defined f := by
  have hall : AllCapped s := by
    refine h.inv (I := AllCapped) ⟨hcapped, fun w hw => absurd hw List.not_mem_nil⟩ ?_
    rintro s a s' hs - rfl
    exact hs.step a
  exact fun f hf => ⟨hall.rows f hf, (hall.rows f hf).defined⟩

theorem levels_capped_sample :
    (after false sampleTwice).db.facilities.rows = [⟨3, 2, "barrack", 1⟩] ∧
      ∀ f ∈ (after false sampleTwice).db.facilities.rows, Capped f ∧ Defined f :=
  ⟨by decide +kernel, levels_capped (Reach.refl.foldl _) (by decide +kernel)⟩

end Cme.Facilities.Saves
