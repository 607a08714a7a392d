import CmeBackend.Game.World
import CmeBackend.Lib.Books

/-!
# What the villages hold together

The sum of what all villages hold of a resource type (`held`), and of what all vaults have stored of
it (`stored`). A statement changes the rows of one village, so the sum changes by what it does to the
total of this village (`held_of_one`).

* `Housed`: every row of a village is one of a village that exists.
* `Keeps`: what no step undoes. Villages and rows stay, and a village keeps at one row of a type.
-/

namespace Cme.Game

variable {C : Catalog} {d d' d'' : Db C} {v w : ℕ} {t : C.Ref} {n : ℤ}

def held (d : Db C) (t : C.Ref) : ℤ := d.villages.total fun v => d.totalOf v.id t

/-- What the vaults have stored. -/
def stored (d : Db C) (t : C.Ref) : ℤ :=
  d.villagesStorageResourceTypes.total fun s => if s.resourceType = t then s.count else 0

def Housed (d : Db C) : Prop :=
  ∀ r ∈ d.villagesResourceTypes.rows, ∀ v ∈ r.villageId, (d.villages.get? v).isSome

instance (d : Db C) : Decidable (Housed d) := inferInstanceAs (Decidable (∀ r ∈ _, ∀ v ∈ _, _))

/-! ## Totals -/

/-- A sum in which one summand changes. -/
theorem sum_map_of_one {ids : List ℕ} {g g' : ℕ → ℤ} (hn : ids.Nodup) (hv : v ∈ ids)
    (hself : g' v = g v + n) (hother : ∀ w, w ≠ v → g' w = g w) :
    (ids.map g').sum = (ids.map g).sum + n := by
  induction ids with
  | nil => cases hv
  | cons id ids ih =>
    obtain ⟨hnot, hn'⟩ := List.nodup_cons.1 hn
    simp only [List.map_cons, List.sum_cons]
    rcases List.mem_cons.1 hv with rfl | hv
    · have hrest : ids.map g' = ids.map g :=
        List.map_congr_left fun w hw => hother w fun heq => hnot (heq ▸ hw)
      rw [hrest, hself]
      ring
    · rw [ih hn' hv, hother id fun heq => hnot (heq ▸ hv)]
      ring

theorem held_eq_sum : held d t = ((d.villages.rows.map key).map fun v => d.totalOf v t).sum := by
  unfold held Table.total
  rw [List.map_map]
  rfl

theorem held_congr (hids : d'.villages.rows.map key = d.villages.rows.map key)
    (h : ∀ v, d'.totalOf v t = d.totalOf v t) : held d' t = held d t := by
  rw [held_eq_sum, held_eq_sum, hids]
  simp only [h]

theorem stored_congr
    (h : d'.villagesStorageResourceTypes = d.villagesStorageResourceTypes) :
    stored d' t = stored d t := by
  unfold stored
  rw [h]

/-- The total of one village changes. -/
theorem held_of_one (hids : d'.villages.rows.map key = d.villages.rows.map key)
    (hv : (d.villages.get? v).isSome) (hself : d'.totalOf v t = d.totalOf v t + n)
    (hother : ∀ w, w ≠ v → d'.totalOf w t = d.totalOf w t) : held d' t = held d t + n := by
  obtain ⟨village, hvillage⟩ := Option.isSome_iff_exists.1 hv
  obtain ⟨hmem, rfl⟩ := Table.get?_eq_some.1 hvillage
  rw [held_eq_sum, held_eq_sum, hids]
  exact sum_map_of_one d.villages.nodup (List.mem_map_of_mem hmem) hself hother

theorem totalOf_congr (h : d'.rowsOf v = d.rowsOf v) : d'.totalOf v t = d.totalOf v t := by
  unfold Db.totalOf Db.rowsOfType
  rw [h]

/-- The one row of a type is the one that the services find. -/
theorem totalOf_eq_countOf (h : d.OneRowPerType) : d.totalOf v t = d.countOf v t := by
  have hle := h.length_le v t
  have hhead : d.rowOf v t = (d.rowsOfType v t).head? := by
    unfold Db.rowOf Db.rowsOfType
    rw [List.head?_filter]
    congr 1
    funext r
    have hiff : r.resourceType.id = t.id ↔ r.resourceType = t :=
      ⟨Catalog.Ref.eq_of_id, congrArg Catalog.Ref.id⟩
    simp only [hiff]
  rw [Db.totalOf, Db.countOf, hhead]
  cases hrows : d.rowsOfType v t with
  | nil => rfl
  | cons r rest =>
    rw [hrows] at hle
    obtain rfl : rest = [] := by simpa using hle
    simp

/-! ## What stays -/

/-- Villages stay, rows stay, and no second row of a type comes up. -/
structure Keeps (d d' : Db C) : Prop where
  villages : ∀ v, (d.villages.get? v).isSome → (d'.villages.get? v).isSome
  rows : ∀ v t, (d.rowOf v t).isSome → (d'.rowOf v t).isSome
  oneRow : d.OneRowPerType → Housed d → d'.OneRowPerType ∧ Housed d'

namespace Keeps

theorem refl (d : Db C) : Keeps d d := ⟨fun _ h => h, fun _ _ h => h, fun h h' => ⟨h, h'⟩⟩

theorem trans (h : Keeps d d') (h' : Keeps d' d'') : Keeps d d'' where
  villages v hv := h'.villages v (h.villages v hv)
  rows v t hr := h'.rows v t (h.rows v t hr)
  oneRow hone hhoused :=
    have hkept := h.oneRow hone hhoused
    h'.oneRow hkept.1 hkept.2

/-- Tables with the same villages and rows. -/
theorem of_eq (hrows : d'.villagesResourceTypes = d.villagesResourceTypes)
    (hvillages : ∀ v, (d.villages.get? v).isSome → (d'.villages.get? v).isSome) : Keeps d d' where
  villages := hvillages
  rows v t hr := by
    unfold Db.rowOf Db.rowsOf
    rwa [hrows]
  oneRow hone hhoused := by
    refine ⟨?_, fun r hr v hv => hvillages v (hhoused r (hrows ▸ hr) v hv)⟩
    unfold Db.OneRowPerType
    rwa [hrows]

theorem setCounts (d : Db C) (f : VillageResourceType C → ℤ) : Keeps d (d.setCounts f) where
  villages _ hv := hv
  rows v t hr := by rwa [Db.isSome_rowOf_setCounts]
  oneRow hone hhoused := by
    refine ⟨Db.oneRowPerType_setCounts.2 hone, fun r hr v hv => ?_⟩
    obtain ⟨r₀, hr₀, rfl⟩ := List.mem_map.1 hr
    exact hhoused r₀ hr₀ v hv

/-- A row of a type that a village has none of. -/
theorem insertCount (hv : (d.villages.get? v).isSome) (hno : d.NoRow v t.id) (n : ℤ) :
    Keeps d (d.insertCount v t n) where
  villages _ h := h
  rows w u hr := by
    obtain ⟨r, hr⟩ := Option.isSome_iff_exists.1 hr
    obtain ⟨hmem, hu⟩ := Db.rowOf_eq_some hr
    obtain ⟨hrow, hw⟩ := Db.mem_rowsOf.1 hmem
    refine List.find?_isSome.2 ⟨r, Db.mem_rowsOf.2 ⟨Table.mem_insert.2 (.inl hrow), hw⟩, ?_⟩
    exact decide_eq_true (congrArg Catalog.Ref.id hu)
  oneRow hone hhoused := by
    refine ⟨(Db.oneRowPerType_insertCount_iff hone n).2 hno, fun r hr w hw => ?_⟩
    rcases Table.mem_insert.1 hr with hr | rfl
    · exact hhoused r hr w hw
    · exact Option.some.inj hw ▸ hv

end Keeps

/-- The villages of the rows are in use. -/
theorem Housed.inUse (h : Housed d) : d.InUse := by
  intro r hr v hv
  obtain ⟨village, hvillage⟩ := Option.isSome_iff_exists.1 (h r hr v hv)
  obtain ⟨hmem, rfl⟩ := Table.get?_eq_some.1 hvillage
  exact d.villages.lt_next _ hmem

end Cme.Game
