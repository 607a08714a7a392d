import CmeBackend.Attacks.Create

/-!
# What an accepted attack sends

The format of an entry of `unitSent` that is documented at the column (`attack.entity.ts`):
`clubman: { unitTypeId: 5, unitTypeName: 'clubman', count: 3 }`. `create` does not check it.

* `Documented`: an entry in this format, with the resource type and the number that it denotes.
* `Sound`: an entry that sends units which the village has and which are taken from it.
* `sound_iff`: the entries of an accepted attack are sound exactly if they are in the format.
-/

namespace Cme.Attacks

open Js GameRules

variable {C : Catalog}

/-- The key, `unitTypeName` and `unitTypeId` of an entry denote the resource type `t`, and its
`count` is the integer `n`. -/
structure Documented (name : String) (unit : Json) (t : C.Ref) (n : ℤ) : Prop where
  type : t.type = name
  unitTypeName : unit.get "unitTypeName" = some (.str name)
  unitTypeId : unit.get "unitTypeId" = some (.num (.fin t.id))
  count : unit.get "count" = some (.num (.fin n))

/-- An entry in the documented format. -/
def WellFormatted (C : Catalog) (name : String) (unit : Json) : Prop :=
  ∃ (t : C.Ref) (n : ℤ), Documented name unit t n

/-- An entry denotes a positive number of units of one type that the village has before the request,
and the village's rows of the type have this number less after it. -/
def Sound (d d' : Db C) (villageId : ℕ) (name : String) (unit : Json) : Prop :=
  ∃ (t : C.Ref) (n : ℤ), Documented name unit t n ∧
    (∃ m : MilitaryResource, m.name = name) ∧ 0 < n ∧ n ≤ d.countOf villageId t ∧
    ∀ r ∈ d.rowsOf villageId, r.resourceType = t →
      { r with count := r.count - n } ∈ d'.rowsOf villageId

/-! ## The format -/

variable {d : Db C} {villageId : ℕ} {name : String} {unit : Json} {units : Fields} {t : C.Ref} {n : ℤ}

theorem Documented.truthy (h : Documented name unit t n) : unit.truthy = true := by
  obtain ⟨fs, rfl⟩ := Json.eq_obj_of_get h.count
  rfl

theorem Documented.roundTrip (h : Documented name unit t n) : Documented name unit.roundTrip t n := by
  obtain ⟨fs, rfl⟩ := Json.eq_obj_of_get h.count
  have hget : ∀ {property v}, Json.get (.obj fs) property = some v →
      Json.get (Json.roundTrip (.obj fs)) property = some v.roundTrip := by
    intro property v hv
    show (Json.roundTripMembers fs).lookup property = _
    rw [Json.lookup_roundTripMembers, show fs.lookup property = some v from hv]
    rfl
  exact ⟨h.type, hget h.unitTypeName, hget h.unitTypeId, hget h.count⟩

/-- Another count makes another number of the same type. -/
theorem Documented.setCount (h : Documented name unit t n) (k : ℤ) :
    Documented name (unit.set "count" (.num (.fin k))) t k := by
  obtain ⟨fs, rfl⟩ := Json.eq_obj_of_get h.count
  refine ⟨h.type, ?_, ?_, Fields.lookup_set⟩
  · exact (Fields.lookup_set_of_ne (by decide)).trans h.unitTypeName
  · exact (Fields.lookup_set_of_ne (by decide)).trans h.unitTypeId

/-! ## The subtraction -/

/-- The rows of the types that are not sent keep their counts. -/
theorem leftDuringAttack_of_none {r : VillageResourceType C}
    (h : units.lookup r.resourceType.type = none) : leftDuringAttack units r = .fin r.count := by
  simp only [leftDuringAttack, h]

/-- The rows of a type that is sent in the documented format have the number less. -/
theorem leftDuringAttack_of_documented {r : VillageResourceType C}
    (hlookup : units.lookup r.resourceType.type = some unit) (h : Documented name unit t n) :
    leftDuringAttack units r = .fin (r.count - n : ℤ) := by
  simp only [leftDuringAttack, hlookup, h.truthy, if_true, h.count, Json.toNumber?_num,
    Option.getD_some, Number.sub_int]

/-- What `leftDuringAttack` leaves of a row if the entries are in the documented format. -/
def unitsLeft (units : Fields) (r : VillageResourceType C) : ℤ :=
  ((leftDuringAttack units r).toInt?).getD r.count

theorem unitsLeft_of_documented {r : VillageResourceType C}
    (hlookup : units.lookup r.resourceType.type = some unit) (h : Documented name unit t n) :
    unitsLeft units r = r.count - n := by
  rw [unitsLeft, leftDuringAttack_of_documented hlookup h, Number.toInt?_int]
  rfl

theorem leftDuringAttack_eq_unitsLeft (hunits : ∀ u ∈ units, WellFormatted C u.1 u.2)
    (r : VillageResourceType C) : leftDuringAttack units r = .fin (unitsLeft units r) := by
  cases hl : units.lookup r.resourceType.type with
  | none => simp [unitsLeft, leftDuringAttack_of_none hl]
  | some unit =>
    obtain ⟨t, n, hdoc⟩ := hunits _ (mem_of_lookup hl)
    rw [leftDuringAttack_of_documented hl hdoc, unitsLeft_of_documented hl hdoc]

/-- The save goes through if the entries are in the documented format. -/
theorem saveCounts_eq (hunits : ∀ u ∈ units, WellFormatted C u.1 u.2) :
    saveCounts d villageId (leftDuringAttack units) =
      d.setCounts fun r => if r.villageId = some villageId then unitsLeft units r else r.count := by
  have hall : (d.rowsOf villageId).all fun r => (leftDuringAttack units r).toInt?.isSome := by
    apply List.all_eq_true.2
    intro r _
    rw [leftDuringAttack_eq_unitsLeft hunits, Number.toInt?_int]
    rfl
  rw [saveCounts, if_pos hall]
  rfl

/-- The other tables have no part in the save of the counts. -/
theorem rowsOf_depart {c : Clock} {attackerVillage defenderVillage : Village} {travelTime : Number}
    (v : ℕ) :
    (depart c d attackerVillage defenderVillage units travelTime).db.rowsOf v =
      (saveCounts d attackerVillage.id (leftDuringAttack units)).rowsOf v := by
  have hinsert : ∀ time, (insertAttack d attackerVillage defenderVillage units time).rowsOf
      attackerVillage.id = d.rowsOf attackerVillage.id := fun _ => rfl
  simp only [depart, saveCounts, hinsert]
  split <;> rfl

/-! ## Acceptance -/

/-- The type whose availability was checked is the one that the entry denotes. -/
theorem Available.eq_of_documented {t' : C.Ref} {x : Number} {m : MilitaryResource}
    (h : Available d villageId name unit t' x m) (hdoc : Documented name unit t n) :
    t' = t ∧ x = .fin n := by
  have hid := h.unitTypeId.symm.trans hdoc.unitTypeId
  have hcount := h.count
  rw [hdoc.count] at hcount
  exact ⟨Catalog.Ref.eq_of_id (by simpa using hid), (Option.some.inj hcount).symm⟩

/-- The count of an entry that the filter leaves is positive. -/
theorem Documented.pos (h : Documented name unit t n) (hkept : isKept (name, unit)) : 0 < n := by
  have hle : Number.le (.fin n) (.fin (0 : ℤ)) = decide (n ≤ 0) := Number.le_int n 0
  rw [Int.cast_zero] at hle
  simpa [isKept, h.count, hle] using hkept

/-- An entry that has passed the check is within what the village has. -/
theorem Available.le_countOf {m : MilitaryResource}
    (h : Available d villageId name unit t (.fin n) m) :
    ∃ r, d.rowOf villageId t = some r ∧ n ≤ d.countOf villageId t := by
  obtain ⟨r, hr, hlt⟩ := h.enough
  refine ⟨r, hr, ?_⟩
  rw [Db.countOf_of_rowOf hr]
  simpa using hlt

/-- **Attack acceptance.** The entries of an accepted attack are sound exactly if the entries that
were sent with a count above 0 are in the documented format. -/
theorem sound_iff {M : Math} {dev : Bool} {c : Clock} {dto : CreateAttackDto} {dep : Departure C}
    (h : create M dev c d dto = .ok dep) :
    (∀ u ∈ dep.token.attackerUnitsInfoByType, Sound d dep.db dto.attackerVillageId u.1 u.2) ↔
      ∀ u ∈ dto.unitSent.entries, isKept u → WellFormatted C u.1 u.2 := by
  obtain ⟨attackerVillage, defenderVillage, travelTime, ha, -, -, havailable, rfl⟩ := create_eq_ok h
  constructor
  · intro hsound u hu hkept
    obtain ⟨t, n, hdoc, -⟩ := hsound u (List.mem_filter.2 ⟨hu, hkept⟩)
    exact ⟨t, n, hdoc⟩
  · intro hformat u hu
    have hunits : ∀ u ∈ dto.keptUnits, WellFormatted C u.1 u.2 := fun u hu =>
      hformat u (List.mem_filter.1 hu).1 (List.mem_filter.1 hu).2
    obtain ⟨t, n, hdoc⟩ := hunits u hu
    obtain ⟨t', x, m, hav⟩ := havailable u hu
    obtain ⟨rfl, rfl⟩ := hav.eq_of_documented hdoc
    obtain ⟨-, -, hle⟩ := hav.le_countOf
    refine ⟨t', n, hdoc, ⟨m, hav.name⟩, hdoc.pos (List.mem_filter.1 hu).2, hle, fun r hr ht => ?_⟩
    -- The row's type is the key of the entry, so it is this entry that is subtracted.
    have hlookup : dto.keptUnits.lookup r.resourceType.type = some u.2 := by
      rw [ht, hdoc.type]
      exact lookup_of_mem dto.keptUnits_nodup hu
    rw [rowsOf_depart, ha, saveCounts_eq hunits, Db.rowsOf_setCounts]
    refine List.mem_map.2 ⟨r, hr, ?_⟩
    rw [if_pos (Db.mem_rowsOf.1 hr).2, unitsLeft_of_documented hlookup hdoc]

theorem sound_iff_sample :
    ∃ dep, create sampleMath false sampleClock sampleDb (sampleRequest sampleHunters) = .ok dep ∧
      ((∀ u ∈ dep.token.attackerUnitsInfoByType, Sound sampleDb dep.db 1 u.1 u.2) ↔
        ∀ u ∈ (sampleRequest sampleHunters).unitSent.entries, isKept u →
          WellFormatted sampleCatalog u.1 u.2) := by
  obtain ⟨dep, h⟩ := accepted_sampleHunters
  exact ⟨dep, h, sound_iff h⟩

/-- 500 stone hunters leave a village that has 30 of them: the id of the entry is that of food. -/
theorem food_sent_as_hunters :
    ¬∀ (C : Catalog) (M : Math) (dev : Bool) (c : Clock) (d : Db C) (dto : CreateAttackDto)
      (dep : Departure C), create M dev c d dto = .ok dep →
        ∀ u ∈ dep.token.attackerUnitsInfoByType, Sound d dep.db dto.attackerVillageId u.1 u.2 := by
  intro hall
  obtain ⟨dep, h⟩ := accepted_sampleFoodAsHunters
  obtain ⟨_, _, _, -, -, -, -, rfl⟩ := create_eq_ok h
  have hmem : ("stone_hunter", Json.obj sampleFoodAsHunters) ∈
      (sampleRequest sampleFoodAsHunters).keptUnits := by
    refine List.mem_filter.2 ⟨List.mem_singleton_self _, ?_⟩
    decide +kernel
  obtain ⟨t, n, hdoc, -⟩ := hall _ _ _ _ _ _ _ h _ hmem
  -- No type has the name of the key and the id of the entry.
  have hid : t.id = 1 := by
    have hget : Json.get (.obj sampleFoodAsHunters) "unitTypeId" = some (.num (.fin 1)) := rfl
    simpa [hget] using hdoc.unitTypeId.symm
  obtain rfl : t = food := Catalog.Ref.eq_of_id hid
  exact absurd hdoc.type (by decide)

end Cme.Attacks
