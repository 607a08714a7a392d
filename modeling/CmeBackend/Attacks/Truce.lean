import CmeBackend.Attacks.Steps
import CmeBackend.Lib.Protection
import CmeBackend.Lib.Runs

/-!
# The truce of a village

Runs of attacks that are sent one after the other. A village that is attacked in its first three
days is under truce for half an hour, and it loses its truce by sending an attack. Both go through
the one column `truce_ends_at`.

* `Times`: the value of `Date.now()` at each step of `AttacksService.create`. `launch_eq`: at equal
  times the request is `create`.
* `step_follows`: an accepted attack is an act on the truces of the villages.
* `truce_protects`: the truce of a young village holds.
-/

namespace Cme.Attacks.Truce

open Js GameRules Runs Protection

variable {C : Catalog}

/-- `Date.now()` when the villages are loaded, when the attack is saved, when the attacker loses the
truce, when the age of the defender's village is compared, and when it gains a truce. -/
structure Times where
  attackerLoaded : ℤ
  defenderLoaded : ℤ
  departed : ℤ
  lost : ℤ
  compared : ℤ
  gained : ℤ
  attackerLoaded_le : attackerLoaded ≤ defenderLoaded
  defenderLoaded_le : defenderLoaded ≤ departed
  departed_le : departed ≤ lost
  lost_le : lost ≤ compared
  compared_le : compared ≤ gained

/-- The defender's village is younger than three days. -/
def young (a : CheckedAttack C) (t : Times) : Bool :=
  t.compared < a.defenderVillage.createdAt + truceEligibilityPeriod

/-- The truce of the defender, whose end is computed after the comparison. -/
def gainTruce (a : CheckedAttack C) (t : Times) (d : Db C) : Db C :=
  if young a t then
    { d with
      villages := d.villages.update a.defenderVillage.id fun v =>
        { v with truceEndsAt := t.gained + truceDuration } }
  else d

/-- `AttacksService.create`: the attack, and the tables after it. -/
def launch (M : Math) (dev : Bool) (t : Times) (d : Db C) (dto : CreateAttackDto) :
    Except AttackError (CheckedAttack C × Db C) := do
  let a ← check M dev t.defenderLoaded d dto
  let d := a.insert t.departed d
  let d := (a.left.map d.saveEntities).getD d
  let d := a.loseTruce t.attackerLoaded t.lost d
  return (a, gainTruce a t d)

/-- An accepted attack. -/
structure Launch where
  attackerVillageId : ℕ
  defenderVillageId : ℕ
  times : Times
  /-- The defender's village was young when the truces were updated. -/
  young : Bool

structure State (C : Catalog) where
  db : Db C
  launches : List Launch

inductive Action (C : Catalog) where
  | create (t : Times) (dto : CreateAttackDto)
  /-- What other operations make of the tables. -/
  | other (d : Db C)

def step (M : Math) (dev : Bool) (s : State C) : Action C → State C
  | .create t dto =>
    match launch M dev t s.db dto with
    | .ok (a, d) =>
      { db := d
        launches := s.launches ++ [⟨a.attackerVillage.id, a.defenderVillage.id, t, young a t⟩] }
    | .error _ => s
  | .other d => { s with db := d }

/-- Other operations do not write `truce_ends_at`. New villages have new ids. -/
def KeepsTruces (s : State C) : Action C → Prop
  | .create _ _ => True
  | .other d => s.db.villages.next ≤ d.villages.next ∧
    ∀ v' ∈ d.villages.rows, v'.id < s.db.villages.next →
      ∃ v ∈ s.db.villages.rows, v.id = v'.id ∧ v.truceEndsAt = v'.truceEndsAt

instance (s : State C) : (a : Action C) → Decidable (KeepsTruces s a)
  | .create _ _ => isTrue trivial
  | .other _ => inferInstanceAs (Decidable (_ ∧ _))

/-- Of two attacks on a village that was young when the first one updated its truce, the second one
is let through half an hour later at least, unless the village has sent an attack in between. -/
def Protected (launches : List Launch) : Prop :=
  ∀ (i j : ℕ) (l l' : Launch), i < j → launches[i]? = some l → launches[j]? = some l' →
    l'.defenderVillageId = l.defenderVillageId → l.young →
    (∀ (n : ℕ) (x : Launch), i < n → n < j → launches[n]? = some x →
      x.attackerVillageId ≠ l.defenderVillageId) →
    l.times.gained + truceDuration ≤ l'.times.defenderLoaded

/-! ## One attack -/

variable {M : Math} {dev : Bool} {t : Times} {d d' : Db C} {dto : CreateAttackDto}
  {a : CheckedAttack C} {s : State C}

/-- The end of the truce of a village. -/
def deadline (d : Db C) (villageId : ℕ) : Option ℤ :=
  (d.villages.get? villageId).map Village.truceEndsAt

/-- An accepted attack acts on the truce of its defender. -/
def Launch.act (l : Launch) : Act ℕ ℤ where
  source := l.attackerVillageId
  target := l.defenderVillageId
  checked := l.times.defenderLoaded
  shield := if l.young then some (l.times.gained + truceDuration) else none

theorem check_eq_ok {now : ℤ} (h : check M dev now d dto = .ok a) :
    d.villages.get? dto.attackerVillageId = some a.attackerVillage ∧
      d.villages.get? dto.defenderVillageId = some a.defenderVillage ∧
      checkVillages a.attackerVillage a.defenderVillage now = .ok () ∧
      a.rows = d.rowsOf a.attackerVillage.id := by
  obtain ⟨attackerVillage, ha, h⟩ := bind_eq_ok.1 h
  obtain ⟨defenderVillage, hd, h⟩ := bind_eq_ok.1 h
  obtain ⟨⟨⟩, hv, h⟩ := bind_eq_ok.1 h
  obtain ⟨unitSent, -, h⟩ := bind_eq_ok.1 h
  split at h
  · cases h
  obtain ⟨slowestSpeed, -, h⟩ := bind_eq_ok.1 h
  cases h
  exact ⟨findOneOrFail_eq_ok ha, findOneOrFail_eq_ok hd, hv, rfl⟩

/-- With the steps in between at one time, the calls are `create`. -/
theorem launch_eq (c : Clock) (hloaded : c.loaded ≤ c.departed)
    (hdeparted : c.departed ≤ c.updated) :
    (launch M dev ⟨c.loaded, c.loaded, c.departed, c.updated, c.updated, c.updated, Int.le_refl _,
      hloaded, hdeparted, Int.le_refl _, Int.le_refl _⟩ d dto).map Prod.snd =
        (create M dev c d dto).map Departure.db := by
  rw [create_eq_check]
  unfold launch
  cases hcheck : check M dev c.loaded d dto with
  | error e => rfl
  | ok a =>
    obtain ⟨-, -, -, hrows⟩ := check_eq_ok hcheck
    refine congrArg Except.ok ((depart_eq c hrows).trans ?_).symm
    show a.gainTruce c.updated _ = gainTruce a _ _
    unfold gainTruce CheckedAttack.gainTruce young
    simp only [decide_eq_true_eq]

/-- An attack is let through if the defender's village is not under truce. -/
theorem truceEndsAt_le_of_checkVillages {attackerVillage defenderVillage : Village} {now : ℤ}
    (h : checkVillages attackerVillage defenderVillage now = .ok ()) :
    defenderVillage.truceEndsAt ≤ now := by
  unfold checkVillages at h
  split at h
  · cases h
  · cases h
  · split at h
    · cases h
    · split at h
      · cases h
      next htruce => simpa [Village.inTrucePeriod] using htruce

theorem deadline_eq_some {v : Village} (h : d.villages.get? v.id = some v) :
    deadline d v.id = some v.truceEndsAt := by
  rw [deadline, h]
  rfl

theorem deadline_loseTruce {loaded now : ℤ} {k : ℕ} (h : k ≠ a.attackerVillage.id) :
    deadline (a.loseTruce loaded now d) k = deadline d k := by
  unfold CheckedAttack.loseTruce
  split
  · exact congrArg (Option.map Village.truceEndsAt) (Table.get?_update_of_ne h)
  · rfl

theorem deadline_gainTruce_of_ne {k : ℕ} (h : k ≠ a.defenderVillage.id) :
    deadline (gainTruce a t d) k = deadline d k := by
  unfold gainTruce
  split
  · exact congrArg (Option.map Village.truceEndsAt) (Table.get?_update_of_ne h)
  · rfl

theorem deadline_gainTruce {e : ℤ} (h : deadline d a.defenderVillage.id = some e) :
    deadline (gainTruce a t d) a.defenderVillage.id =
      some (if young a t then t.gained + truceDuration else e) := by
  unfold gainTruce
  split
  · obtain ⟨v, hv, -⟩ := Option.map_eq_some_iff.1 h
    exact congrArg (Option.map Village.truceEndsAt) (Table.get?_update_self hv)
  · exact h

/-- An accepted attack is let through by the truce of its defender, which it may renew, and it may
end that of its attacker. -/
theorem launch_follows (h : launch M dev t d dto = .ok (a, d')) :
    Follows (deadline d) (Launch.act ⟨a.attackerVillage.id, a.defenderVillage.id, t, young a t⟩)
      (deadline d') := by
  obtain ⟨a', hcheck, h⟩ := bind_eq_ok.1 h
  obtain ⟨hattacker, hdefender, hvillages, -⟩ := check_eq_ok hcheck
  cases h
  have hother : a.attackerVillage.id ≠ a.defenderVillage.id := by
    intro heq
    have hids : dto.attackerVillageId = dto.defenderVillageId :=
      (Table.get?_eq_some.1 hattacker).2.symm.trans (heq.trans (Table.get?_eq_some.1 hdefender).2)
    rw [hids, hdefender] at hattacker
    exact checkVillages_eq_ok hvillages (congrArg Village.userId (Option.some.inj hattacker)).symm
  generalize hsaved : (Option.map (a.insert t.departed d).saveEntities a.left).getD
    (a.insert t.departed d) = saved
  have hsame : deadline saved = deadline d := by
    rw [← hsaved]
    cases a.left <;> rfl
  have hdeadline : deadline d a.defenderVillage.id = some a.defenderVillage.truceEndsAt := by
    refine deadline_eq_some ?_
    rwa [← (Table.get?_eq_some.1 hdefender).2] at hdefender
  have hlost : deadline (a.loseTruce t.attackerLoaded t.lost saved) a.defenderVillage.id =
      some a.defenderVillage.truceEndsAt := by
    rw [deadline_loseTruce hother.symm, hsame, hdeadline]
  have hpasses := truceEndsAt_le_of_checkVillages hvillages
  constructor
  · exact hother
  · exact ⟨_, hdeadline, hpasses⟩
  · intro k hk e' he'
    by_cases hkd : k = a.defenderVillage.id
    · subst hkd
      rw [deadline_gainTruce hlost] at he'
      cases he'
      refine ⟨_, hdeadline, ?_⟩
      split
      · -- The new truce ends later than the old one, which was over.
        have hafter : t.defenderLoaded ≤ t.gained :=
          t.defenderLoaded_le.trans (t.departed_le.trans (t.lost_le.trans t.compared_le))
        have hduration : 0 ≤ truceDuration := by decide
        omega
      · exact le_rfl
    · rw [deadline_gainTruce_of_ne hkd, deadline_loseTruce hk, hsame] at he'
      exact ⟨e', he', le_rfl⟩
  · intro shield hshield e' he'
    change shield ∈ (if young a t then some (t.gained + truceDuration) else none) at hshield
    change e' ∈ deadline _ a.defenderVillage.id at he'
    rw [deadline_gainTruce hlost] at he'
    split at hshield
    next hyoung =>
      rw [if_pos hyoung] at he'
      cases hshield
      cases he'
      exact le_rfl
    · cases hshield

/-- An attack is on a village of the table, which keeps its keys. -/
theorem launch_next (h : launch M dev t d dto = .ok (a, d')) :
    d'.villages.next = d.villages.next ∧ a.defenderVillage.id < d.villages.next := by
  obtain ⟨a', hcheck, h⟩ := bind_eq_ok.1 h
  obtain ⟨-, hdefender, -, -⟩ := check_eq_ok hcheck
  cases h
  refine ⟨?_, d.villages.lt_next _ (Table.get?_eq_some.1 hdefender).1⟩
  have hlose : ∀ d : Db C, (a.loseTruce t.attackerLoaded t.lost d).villages.next =
      d.villages.next := fun d => by
    unfold CheckedAttack.loseTruce
    split <;> rfl
  have hgain : ∀ d : Db C, (gainTruce a t d).villages.next = d.villages.next := fun d => by
    unfold gainTruce
    split <;> rfl
  rw [hgain, hlose]
  cases a.left <;> rfl

/-! ## Runs -/

/-- The truces of the villages cover the attacks, which have been let through by them. -/
structure Sheltered (s : State C) : Prop where
  covers : Covers (deadline s.db) (s.launches.map Launch.act)
  spaced : Spaced (s.launches.map Launch.act)
  targets : ∀ l ∈ s.launches, l.defenderVillageId < s.db.villages.next

theorem sheltered_start (d : Db C) : Sheltered ⟨d, []⟩ where
  covers := covers_nil _
  spaced := spaced_nil
  targets := fun _ hl => absurd hl List.not_mem_nil

theorem Sheltered.step (h : Sheltered s) {x : Action C} (hx : KeepsTruces s x) :
    Sheltered (step M dev s x) := by
  cases x with
  | create t dto =>
    simp only [Truce.step]
    split
    next a d' hlaunch =>
      have hfollows := launch_follows hlaunch
      refine ⟨?_, ?_, fun l hl => ?_⟩
      · rw [List.map_append]
        exact h.covers.follows hfollows
      · rw [List.map_append]
        exact h.spaced.follows h.covers hfollows
      · obtain ⟨hnext, hdefender⟩ := launch_next hlaunch
        show l.defenderVillageId < d'.villages.next
        rw [hnext]
        rcases List.mem_append.1 hl with hl | hl
        · exact h.targets l hl
        · exact List.mem_singleton.1 hl ▸ hdefender
    · exact h
  | other d =>
    obtain ⟨hnext, hkept⟩ := hx
    refine ⟨h.covers.mono ?_, h.spaced, fun l hl => Nat.lt_of_lt_of_le (h.targets l hl) hnext⟩
    intro b hb e' he'
    obtain ⟨l, hl, rfl⟩ := List.mem_map.1 hb
    obtain ⟨v', hv', rfl⟩ := Option.map_eq_some_iff.1 he'
    obtain ⟨hmem, hid⟩ := Table.get?_eq_some.1 hv'
    change v'.id = l.defenderVillageId at hid
    obtain ⟨v, hv, hvid, htruce⟩ := hkept v' hmem (hid ▸ h.targets l hl)
    refine ⟨v.truceEndsAt, ?_, htruce.le⟩
    exact Option.map_eq_some_iff.2 ⟨v, Table.get?_eq_some.2 ⟨hv, hvid.trans hid⟩, rfl⟩

/-- The launches are spaced as acts. -/
theorem protected_of_spaced {launches : List Launch} (h : Spaced (launches.map Launch.act)) :
    Protected launches := by
  have hact : ∀ {n : ℕ} {x : Launch}, launches[n]? = some x →
      x.act ∈ (launches.map Launch.act)[n]? := by
    intro n x hx
    rw [List.getElem?_map, hx]
    rfl
  intro i j l l' hij hl hl' htarget hyoung hrests
  refine h i j hij l.act (hact hl) l'.act (hact hl') htarget ?_ _ (if_pos hyoung)
  intro n hi hj b hb
  rw [List.getElem?_map] at hb
  obtain ⟨x, hx, rfl⟩ := Option.map_eq_some_iff.1 hb
  exact hrests n x hi hj hx

/-- The truce of a young village holds in every run. -/
theorem truce_protects {as : List (Action C)} (h : Meets (step M dev) KeepsTruces ⟨d, []⟩ as) :
    Protected (as.foldl (step M dev) ⟨d, []⟩).launches := by
  have hrun := h.inv (sheltered_start d) fun _ _ hs hx => hs.step hx
  exact protected_of_spaced hrun.spaced

/-- An attack with 10 stone hunters, all of whose steps are at one time. -/
def sampleAttack (now : ℤ) : Action sampleCatalog :=
  .create ⟨now, now, now, now, now, now, Int.le_refl _, Int.le_refl _, Int.le_refl _,
      Int.le_refl _, Int.le_refl _⟩
    (sampleRequest [("unitTypeId", .num (.fin 5)), ("unitTypeName", .str "stone_hunter"),
      ("count", .num (.fin 10))])

def afterAttacks (as : List (Action sampleCatalog)) : State sampleCatalog :=
  as.foldl (step sampleMath false) ⟨sampleDb, []⟩

/-- An attack, one under the truce, something else, and one after the truce. -/
def sampleAttacks : List (Action sampleCatalog) :=
  [sampleAttack 1000, sampleAttack 2000,
    .other ((afterAttacks [sampleAttack 1000]).db.setCounts fun r => r.count + 1),
    sampleAttack 1801000]

theorem truce_protects_sample :
    (afterAttacks sampleAttacks).launches.map (fun l => (l.young, l.times.gained)) =
        [(true, 1000), (true, 1801000)] ∧
      Protected (afterAttacks sampleAttacks).launches :=
  ⟨by decide +kernel, truce_protects ⟨trivial, trivial, by decide +kernel, trivial, trivial⟩⟩

end Cme.Attacks.Truce
