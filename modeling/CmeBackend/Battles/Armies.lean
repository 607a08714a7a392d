import CmeBackend.Attacks.Acceptance
import CmeBackend.Battles.Manager
import Mathlib.Data.List.Forall2
import Mathlib.Tactic.NormNum

/-!
# Armies

What a map of units in the documented format stands for: a number of each of several types
(`Army`). Every step that an attack takes with its map is an operation on the army.

* `Represents.roundTrip`: a queue hands the army on as it is.
* `Represents.computeCasualties`: the casualties are an army of the same types.
* `Represents.subtract`: the return takes each type's casualties from the number of this type.
* `Represents.sqlValues?`: the values of the query of the return are the numbers of the army.
-/

namespace Cme.Battles

open Js Attacks

variable {C : Catalog}

/-- A number of each of several resource types. -/
structure Army (C : Catalog) where
  units : List (C.Ref × ℤ)
  nodup : (units.map Prod.fst).Nodup

namespace Army

/-- How many of a type an army has. -/
def count (A : Army C) (t : C.Ref) : ℤ := (A.units.lookup t).getD 0

/-- The army in which `f n` stand for every `n` of a type. -/
def mapCounts (A : Army C) (f : ℤ → ℤ) : Army C where
  units := A.units.map fun u => (u.1, f u.2)
  nodup := by
    rw [List.map_map]
    exact A.nodup

theorem count_mapCounts (A : Army C) {f : ℤ → ℤ} (hf : f 0 = 0) (t : C.Ref) :
    (A.mapCounts f).count t = f (A.count t) := by
  rw [count, count, mapCounts, lookup_map_snd]
  cases A.units.lookup t with
  | none => exact hf.symm
  | some n => rfl

theorem count_of_mem {A : Army C} {t : C.Ref} {n : ℤ} (h : (t, n) ∈ A.units) : A.count t = n := by
  rw [count, lookup_of_mem A.nodup h]
  rfl

end Army

/-- The entries of a map denote the numbers of an army, one by one. -/
def Represents (units : Fields) (army : List (C.Ref × ℤ)) : Prop :=
  List.Forall₂ (fun u a => Documented u.1 u.2 a.1 a.2) units army

/-- The number that a map has for a type. -/
def countIn (units : Fields) (t : C.Ref) : ℤ :=
  match (units.lookup t.type).bind (·.get "count") with
  | some (.num x) => x.toInt?.getD 0
  | _ => 0

/-! ## Entries -/

section Entries

variable {name : String} {unit : Json} {t : C.Ref} {n : ℤ}

theorem unitCount?_of_documented (h : Documented name unit t n) :
    unitCount? unit = some (.fin n) := by
  obtain ⟨fs, rfl⟩ := Json.eq_obj_of_get h.count
  show Json.toNumber? (Json.get (.obj fs) "count") = _
  rw [h.count]
  rfl

/-- The casualties among `n` units: the share that the ratio makes, rounded, or all of them. -/
def casualtyCount (ratio : Number) (n : ℤ) : ℤ :=
  match ratio with
  | .fin q => min ⌊(n : ℚ) * q + 1 / 2⌋ n
  | _ => n

theorem casualtyCount_zero (ratio : Number) : casualtyCount ratio 0 = 0 := by
  cases ratio with
  | fin q =>
    have hfloor := Sql.floor_add_half 0
    rw [Int.cast_zero] at hfloor
    simp only [casualtyCount, Int.cast_zero, zero_mul, hfloor, min_self]
  | _ => rfl

/-- Without a ratio below 1 all units are lost. -/
theorem casualtyCount_one (n : ℤ) : casualtyCount (.fin 1) n = n := by
  simp only [casualtyCount, mul_one, Sql.floor_add_half, min_self]

theorem casualtiesOf_documented {ratio : Number} {c : Json} (h : Documented name unit t n)
    (hn : 0 < n) (hratio : ratio ≠ .inf true) (hc : casualtiesOf ratio unit = some c) :
    Documented name c t (casualtyCount ratio n) := by
  obtain ⟨x, hx, rfl⟩ := casualtiesOf_eq_some hc
  rw [unitCount?_of_documented h] at hx
  obtain rfl := Option.some.inj hx
  match ratio with
  | .nan => exact h
  | .inf true => exact absurd rfl hratio
  | .inf false =>
    have hmul : Number.mul (.fin n) (.inf false) = .inf false := by
      have hpos : (0 : ℚ) < n := by exact_mod_cast hn
      simp [Number.mul, Number.scaleInf, hpos.ne', hpos.not_gt]
    rw [hmul]
    exact h
  | .fin q =>
    show Documented name (if Number.le (.fin ⌊(n : ℚ) * q + 1 / 2⌋) (.fin n) then _ else _) t
      (min ⌊(n : ℚ) * q + 1 / 2⌋ n)
    rw [Number.le_int]
    split
    · next hle =>
      rw [min_eq_left (by simpa using hle)]
      exact h.setCount _
    · next hle =>
      rw [min_eq_right (by simpa using le_of_lt (lt_of_not_ge (by simpa using hle)))]
      exact h

theorem sqlValue?_of_documented (h : Documented name unit t n) :
    sqlValue? unit = some (t.id, (n : ℚ)) := by
  simp only [sqlValue?, h.unitTypeId, h.count]
  simp

end Entries

/-! ## Maps -/

section Maps

variable {units : Fields} {army : List (C.Ref × ℤ)}

/-- The types of an army are named by the keys of its map. -/
theorem Represents.keys (h : Represents units army) :
    (army.map Prod.fst).map Catalog.Ref.type = units.map Prod.fst := by
  induction h with
  | nil => rfl
  | cons hdoc _ ih => simp only [List.map_cons, ih, hdoc.type]

/-- Entries in the documented format under different keys are an army. -/
theorem exists_represents (hn : (units.map Prod.fst).Nodup)
    (hunits : ∀ u ∈ units, WellFormatted C u.1 u.2) : ∃ A : Army C, Represents units A.units := by
  have hlist : ∃ army : List (C.Ref × ℤ), Represents units army := by
    clear hn
    induction units with
    | nil => exact ⟨[], .nil⟩
    | cons u rest ih =>
      obtain ⟨⟨t, n, hdoc⟩, hrest⟩ := List.forall_mem_cons.1 hunits
      obtain ⟨army, harmy⟩ := ih hrest
      exact ⟨(t, n) :: army, .cons hdoc harmy⟩
  obtain ⟨army, harmy⟩ := hlist
  exact ⟨⟨army, List.Nodup.of_map _ (harmy.keys ▸ hn)⟩, harmy⟩

/-- A number of the army is that of an entry. -/
theorem Represents.exists_entry (h : Represents units army) {a : C.Ref × ℤ} (ha : a ∈ army) :
    ∃ u ∈ units, Documented u.1 u.2 a.1 a.2 := by
  induction h with
  | nil => cases ha
  | cons hdoc _ ih =>
    rcases List.mem_cons.1 ha with rfl | ha
    · exact ⟨_, List.mem_cons_self, hdoc⟩
    · obtain ⟨u, hu, hdoc⟩ := ih ha
      exact ⟨u, List.mem_cons_of_mem _ hu, hdoc⟩

theorem Represents.roundTrip (h : Represents units army) :
    Represents (Json.roundTripMembers units) army := by
  induction h with
  | nil => exact .nil
  | cons hdoc _ ih => exact .cons hdoc.roundTrip ih

theorem Represents.computeCasualties {ratio : Number} {cs : Fields} (h : Represents units army)
    (hpos : ∀ a ∈ army, 0 < a.2) (hratio : ratio ≠ .inf true)
    (hc : computeCasualtiesForTeam units ratio = some cs) :
    Represents cs (army.map fun a => (a.1, casualtyCount ratio a.2)) := by
  have hall := Fields.forall₂_mapValues? hc
  clear hc
  induction h generalizing cs with
  | nil =>
    cases hall
    exact .nil
  | cons hdoc _ ih =>
    cases hall with
    | cons hcu hrest =>
      obtain ⟨hpos, hpos'⟩ := List.forall_mem_cons.1 hpos
      obtain ⟨hname, hcu⟩ := hcu
      exact .cons (hname ▸ casualtiesOf_documented hdoc hpos hratio hcu) (ih hpos' hrest)

/-- The number in the map is the number of the army. -/
theorem Represents.countIn (h : Represents units army) (t : C.Ref) :
    countIn units t = (army.lookup t).getD 0 := by
  unfold Battles.countIn
  induction h with
  | nil => rfl
  | @cons u a _ _ hdoc _ ih =>
    obtain ⟨name, unit⟩ := u
    obtain ⟨t', n⟩ := a
    by_cases heq : t = t'
    · subst heq
      have hname : t.type = name := hdoc.type
      simp [hname, hdoc.count]
    · have hname : t.type ≠ name := fun hname =>
        heq (Catalog.Ref.eq_of_type (hname.trans hdoc.type.symm))
      simp only [List.lookup_cons, beq_eq_false_iff_ne.2 hname, beq_eq_false_iff_ne.2 heq]
      exact ih

theorem Represents.sqlValues? (h : Represents units army) :
    sqlValues? units = some (army.map fun a => (a.1.id, (a.2 : ℚ))) := by
  induction h with
  | nil => rfl
  | cons hdoc _ ih => simp only [Battles.sqlValues?, sqlValue?_of_documented hdoc, ih, List.map_cons]

/-- The value of a type in the query of the return is the number of the army. -/
theorem lookup_sqlValues (army : List (C.Ref × ℤ)) (t : C.Ref) :
    (army.map fun a => (a.1.id, (a.2 : ℚ))).lookup t.id = (army.lookup t).map fun n => (n : ℚ) := by
  induction army with
  | nil => rfl
  | cons a rest ih =>
    obtain ⟨t', n⟩ := a
    by_cases heq : t = t'
    · subst heq
      simp
    · have hid : t.id ≠ t'.id := fun hid => heq (Catalog.Ref.eq_of_id hid)
      simp only [List.map_cons, List.lookup_cons, beq_eq_false_iff_ne.2 hid,
        beq_eq_false_iff_ne.2 heq, ih]

end Maps

/-! ## The loop over the casualties -/

section Subtract

/-- The entry after those with other keys is the one that is found. -/
theorem lookup_append_cons {pre units : Fields} {name : String} {unit : Json}
    (h : name ∉ pre.map Prod.fst) : (pre ++ (name, unit) :: units).lookup name = some unit := by
  refine List.lookup_eq_some_iff.2 ⟨pre, units, rfl, fun p hp => ?_⟩
  simp only [bne_iff_ne, ne_eq]
  rintro rfl
  exact h (List.mem_map_of_mem hp)

theorem set_append_cons {pre units : Fields} {name : String} {unit v : Json}
    (h : name ∉ pre.map Prod.fst) :
    Fields.set name v (pre ++ (name, unit) :: units) = pre ++ (name, v) :: units := by
  induction pre with
  | nil => simp [Fields.set]
  | cons p pre ih =>
    obtain ⟨n, w⟩ := p
    simp only [List.map_cons, List.mem_cons, not_or] at h
    simp only [List.cons_append, Fields.set, if_neg (Ne.symm h.1), ih h.2]

/-- One round of the loop: the casualty is taken from the entry with the name of its type. -/
theorem subtractCasualty_eq {pre units : Fields} {name : String} {unit casualty : Json} {t : C.Ref}
    {n k : ℤ} (hpre : name ∉ pre.map Prod.fst) (hunit : Documented name unit t n)
    (hcasualty : Documented name casualty t k) :
    subtractCasualty (pre ++ (name, unit) :: units) casualty =
      some (pre ++ (name, unit.set "count" (.num (.fin (n - k : ℤ)))) :: units) := by
  obtain ⟨fs, rfl⟩ := Json.eq_obj_of_get hcasualty.count
  have hname : propertyName? (Json.get (.obj fs) "unitTypeName") = some name := by
    rw [hcasualty.unitTypeName]
    simp [propertyName?, Json.toText?]
  have hproperty : Json.property? (.obj fs) "unitTypeName" =
      some (Json.get (.obj fs) "unitTypeName") := rfl
  simp only [subtractCasualty, hproperty, hname, unitCount?_of_documented hcasualty,
    lookup_append_cons hpre, unitCount?_of_documented hunit, Option.bind_eq_bind, Option.bind_some,
    set_append_cons hpre, Number.sub_int]
  rfl

/-- The entries before `pre` are done. -/
theorem subtractCasualties_append {units cs pre left : Fields} {army : List (C.Ref × ℤ)} {f : ℤ → ℤ}
    (hunits : Represents units army) (hcs : Represents cs (army.map fun a => (a.1, f a.2)))
    (hn : ((pre ++ units).map Prod.fst).Nodup)
    (h : subtractCasualties (pre ++ units) cs = some left) :
    ∃ rest, left = pre ++ rest ∧ Represents rest (army.map fun a => (a.1, a.2 - f a.2)) := by
  induction hunits generalizing pre cs with
  | nil =>
    cases hcs
    cases h
    exact ⟨[], rfl, .nil⟩
  | @cons u a units army hdoc _ ih =>
    cases hcs with
    | @cons c _ cs _ hc hcs =>
      obtain ⟨name, unit⟩ := u
      obtain ⟨name', casualty⟩ := c
      obtain rfl : name' = name := hc.type.symm.trans hdoc.type
      have hpre : name' ∉ pre.map Prod.fst := by
        rw [List.map_append, List.map_cons] at hn
        exact fun hmem => List.disjoint_of_nodup_append hn hmem List.mem_cons_self
      obtain ⟨next, hnext, h⟩ := Option.bind_eq_some_iff.1 h
      rw [subtractCasualty_eq hpre hdoc hc] at hnext
      obtain rfl := Option.some.inj hnext
      rw [List.append_cons] at h
      obtain ⟨rest, rfl, hrest⟩ := ih hcs (by simpa using hn) h
      exact ⟨_, List.append_assoc _ _ _, .cons (hdoc.setCount _) hrest⟩

/-- The loop leaves of each type what the casualties of the type leave. -/
theorem Represents.subtract {units cs left : Fields} {A : Army C} {f : ℤ → ℤ}
    (hunits : Represents units A.units) (hcs : Represents cs (A.mapCounts f).units)
    (h : subtractCasualties units cs = some left) :
    Represents left (A.mapCounts fun n => n - f n).units := by
  have hn : (([] ++ units).map Prod.fst).Nodup := by
    rw [List.nil_append, ← hunits.keys]
    exact A.nodup.map fun t t' heq => Catalog.Ref.eq_of_type heq
  have hloop : subtractCasualties ([] ++ units) cs = some left := h
  obtain ⟨rest, rfl, hrest⟩ := subtractCasualties_append hunits hcs hn hloop
  exact hrest

end Subtract

end Cme.Battles
