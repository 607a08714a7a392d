import CmeBackend.Villages.Totals

/-!
# New villages

The rows that a new village gets (`villages.service.ts`): those of `create`, for a user, and those of
`generateAutomatedVillages`, which keeps a copy of them that belongs to no village. Each is one
transaction.
-/

namespace Cme

variable {C : Catalog}

/-- The columns of a new row of `villages`. -/
structure NewVillage where
  userId : Option ℕ
  x : ℤ
  y : ℤ
  createdAt : ℤ
  truceEndsAt : ℤ

/-- The resource types of a new village. -/
def baseTypes (C : Catalog) : List C.Ref :=
  C.types.rows.attach.filter fun t => t.val.type ∈ ["food", "iron", "wood", "mkc"]

/-- What a village of a user starts with, its first village or another one. -/
def startingCount (isNew : Bool) (type : String) : ℤ :=
  if type = "mkc" then if isNew then 200000 else 0
  else if isNew then 100 else 0

/-- `automatedVillageInitialResources` -/
def automatedVillageInitialResources (type : String) : ℤ := if type = "mkc" then 1000 else 3000

namespace Db

def insertVillage (d : Db C) (v : NewVillage) : Db C :=
  { d with villages := d.villages.insert fun id =>
      { id, userId := v.userId, x := v.x, y := v.y, createdAt := v.createdAt
        truceEndsAt := v.truceEndsAt } }

/-- Rows of a village, one for each element of a list. -/
def insertCounts (d : Db C) (villageId : ℕ) (counts : List (C.Ref × ℤ)) : Db C :=
  counts.foldl (fun d p => d.insertCount villageId p.1 p.2) d

/-- A row of the history of an automated village. -/
def insertHistoryCount (d : Db C) (t : C.Ref) (count : ℤ) : Db C :=
  { d with villagesResourceTypes := d.villagesResourceTypes.insert fun id =>
      { id, villageId := none, resourceType := t, count } }

/-- `VillagesService.create` -/
def createVillage (d : Db C) (v : NewVillage) (isNew : Bool) : Db C :=
  (d.insertVillage v).insertCounts d.villages.next
    ((baseTypes C).map fun t => (t, startingCount isNew t.type))

/-- One block of `generateAutomatedVillages` -/
def generateVillage (d : Db C) (v : NewVillage) : Db C :=
  let created := (d.insertVillage { v with userId := none }).insertCounts d.villages.next
    ((baseTypes C).map fun t => (t, automatedVillageInitialResources t.type))
  (baseTypes C).foldl
    (fun d t => d.insertHistoryCount t (automatedVillageInitialResources t.type)) created

end Db

namespace Db

variable {d : Db C}

/-- The rows of a village are not in the table of the villages. -/
@[simp] theorem villages_insertCounts {v : ℕ} (counts : List (C.Ref × ℤ)) :
    (d.insertCounts v counts).villages = d.villages := by
  unfold insertCounts
  induction counts generalizing d with
  | nil => rfl
  | cons p rest ih => exact ih

@[simp] theorem villages_createVillage (v : NewVillage) (isNew : Bool) :
    (d.createVillage v isNew).villages = (d.insertVillage v).villages :=
  villages_insertCounts _

@[simp] theorem villages_generateVillage (v : NewVillage) :
    (d.generateVillage v).villages = (d.insertVillage { v with userId := none }).villages := by
  have hhistory : ∀ (ts : List C.Ref) (d : Db C), (ts.foldl (fun d t =>
      d.insertHistoryCount t (automatedVillageInitialResources t.type)) d).villages =
        d.villages := by
    intro ts
    induction ts with
    | nil => exact fun _ => rfl
    | cons t rest ih => exact fun d => ih _
  exact (hhistory _ _).trans (villages_insertCounts _)

end Db

/-! ## One row for each type -/

/-- A village has no row of a type. -/
def Db.NoRow (d : Db C) (v id : ℕ) : Prop := ∀ r ∈ d.rowsOf v, r.resourceType.id ≠ id

instance (d : Db C) (v id : ℕ) : Decidable (d.NoRow v id) := inferInstanceAs (Decidable (∀ r ∈ _, _))

/-- The villages of the rows are in use, as the foreign key has it. -/
def Db.InUse (d : Db C) : Prop :=
  ∀ r ∈ d.villagesResourceTypes.rows, ∀ v ∈ r.villageId, v < d.villages.next

namespace Db

variable {d : Db C} {v w : ℕ} {t : C.Ref} {f : VillageResourceType C → ℤ}

theorem oneRowPerType_setCounts : (d.setCounts f).OneRowPerType ↔ d.OneRowPerType := by
  show List.Pairwise _ (d.villagesResourceTypes.rows.map _) ↔ _
  rw [List.pairwise_map]
  rfl

/-- A new row keeps the villages at one row of a type exactly if there was none. -/
theorem oneRowPerType_insertCount_iff (h : d.OneRowPerType) (n : ℤ) :
    (d.insertCount v t n).OneRowPerType ↔ d.NoRow v t.id := by
  show List.Pairwise _ (d.villagesResourceTypes.rows ++ [_]) ↔ _
  rw [List.pairwise_append]
  constructor
  · rintro ⟨-, -, hnew⟩ r hr hid
    obtain ⟨hmem, hv⟩ := mem_rowsOf.1 hr
    exact hnew r hmem _ List.mem_cons_self ⟨by rw [hv]; rfl, hv, Catalog.Ref.eq_of_id hid⟩
  · intro hno
    refine ⟨h, List.pairwise_singleton _ _, fun r hr r' hr' hsame => ?_⟩
    rw [List.mem_singleton.1 hr'] at hsame
    exact hno r (mem_rowsOf.2 ⟨hr, hsame.2.1⟩) (congrArg _ hsame.2.2)

/-- A row of another type leaves a village without a row of a type. -/
theorem NoRow.insertCount {id : ℕ} (h : d.NoRow v id) (hne : t.id ≠ id) (n : ℤ) :
    (d.insertCount w t n).NoRow v id := by
  intro r hr
  obtain ⟨hmem, hv⟩ := mem_rowsOf.1 hr
  rcases Table.mem_insert.1 hmem with hmem | rfl
  · exact h r (mem_rowsOf.2 ⟨hmem, hv⟩)
  · exact hne

/-- Rows of different types that a village does not have. -/
theorem OneRowPerType.insertCounts {counts : List (C.Ref × ℤ)} (h : d.OneRowPerType)
    (hn : (counts.map fun p => p.1.id).Nodup) (hno : ∀ p ∈ counts, d.NoRow v p.1.id) :
    (d.insertCounts v counts).OneRowPerType := by
  induction counts generalizing d with
  | nil => exact h
  | cons p rest ih =>
    obtain ⟨hnot, hn'⟩ := List.nodup_cons.1 hn
    obtain ⟨hp, hrest⟩ := List.forall_mem_cons.1 hno
    refine ih ((oneRowPerType_insertCount_iff h p.2).2 hp) hn' fun q hq => ?_
    exact (hrest q hq).insertCount (fun heq => hnot (List.mem_map.2 ⟨q, hq, heq.symm⟩)) p.2

/-- A village that is not in use has no rows. -/
theorem InUse.noRow (h : d.InUse) (hv : d.villages.next ≤ v) (id : ℕ) : d.NoRow v id := by
  intro r hr
  obtain ⟨hmem, hrv⟩ := mem_rowsOf.1 hr
  exact absurd (h r hmem v hrv) (not_lt.2 hv)

theorem InUse.insertCount (h : d.InUse) (hv : v < d.villages.next) (n : ℤ) :
    (d.insertCount v t n).InUse := by
  intro r hr w hw
  rcases Table.mem_insert.1 hr with hmem | rfl
  · exact h r hmem w hw
  · obtain rfl := Option.some.inj hw
    exact hv

theorem InUse.insertCounts {counts : List (C.Ref × ℤ)} (h : d.InUse) (hv : v < d.villages.next) :
    (d.insertCounts v counts).InUse := by
  induction counts generalizing d with
  | nil => exact h
  | cons p rest ih => exact ih (h.insertCount hv p.2) hv

theorem InUse.setCounts (h : d.InUse) : (d.setCounts f).InUse := by
  intro r hr w hw
  obtain ⟨r₀, hr₀, rfl⟩ := List.mem_map.1 hr
  exact h r₀ hr₀ w hw

/-- The tables of a new village, before its rows. -/
theorem InUse.insertVillage (h : d.InUse) (nv : NewVillage) : (d.insertVillage nv).InUse :=
  fun r hr w hw => Nat.lt_succ_of_lt (h r hr w hw)

/-- The types of a new village differ. -/
theorem nodup_baseTypes (counts : C.Ref → ℤ) :
    (((baseTypes C).map fun t => (t, counts t)).map fun p => p.1.id).Nodup := by
  rw [List.map_map]
  have hattach : (C.types.rows.attach.map fun t => t.val.id).Nodup := by
    rw [show (fun t : C.Ref => t.val.id) = key ∘ Subtype.val from rfl, ← List.map_map,
      List.attach_map_subtype_val]
    exact C.types.nodup
  exact hattach.sublist (List.filter_sublist.map _)

/-- A new village with its rows. -/
theorem oneRow_newVillage (h : d.OneRowPerType) (huse : d.InUse) (nv : NewVillage)
    (counts : C.Ref → ℤ) :
    ((d.insertVillage nv).insertCounts d.villages.next
        ((baseTypes C).map fun t => (t, counts t))).OneRowPerType ∧
      ((d.insertVillage nv).insertCounts d.villages.next
        ((baseTypes C).map fun t => (t, counts t))).InUse := by
  refine ⟨OneRowPerType.insertCounts h (nodup_baseTypes counts) fun p hp => ?_,
    (huse.insertVillage nv).insertCounts (Nat.lt_succ_self _)⟩
  exact huse.noRow le_rfl p.1.id

/-- A row of a history belongs to no village. -/
theorem oneRow_insertHistoryCount (h : d.OneRowPerType) (huse : d.InUse) (n : ℤ) :
    (d.insertHistoryCount t n).OneRowPerType ∧ (d.insertHistoryCount t n).InUse := by
  constructor
  · refine List.pairwise_append.2 ⟨h, List.pairwise_singleton _ _, fun r hr r' hr' hsame => ?_⟩
    obtain ⟨hsome, hv, -⟩ := hsame
    rw [List.mem_singleton.1 hr'] at hv
    rw [hv] at hsome
    cases hsome
  · intro r hr w hw
    rcases Table.mem_insert.1 hr with hmem | rfl
    · exact huse r hmem w hw
    · cases hw

theorem oneRow_generateVillage (h : d.OneRowPerType) (huse : d.InUse) (nv : NewVillage) :
    (d.generateVillage nv).OneRowPerType ∧ (d.generateVillage nv).InUse := by
  have hcreated := oneRow_newVillage h huse { nv with userId := none }
    fun t => automatedVillageInitialResources t.type
  unfold generateVillage
  revert hcreated
  generalize (insertVillage d _).insertCounts _ _ = created
  induction baseTypes C generalizing created with
  | nil => exact id
  | cons t rest ih => exact fun hcreated => ih _ (oneRow_insertHistoryCount hcreated.1 hcreated.2 _)

end Db

end Cme
