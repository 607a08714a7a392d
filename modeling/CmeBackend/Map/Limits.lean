import CmeBackend.Lib.Caps
import CmeBackend.Map.Steps

/-!
# The villages of a user

A user may have five villages, and the first one gets a starter grant. Both are decided by what a
request has read before its transaction.

* `Granted`: the flag `new` of a user is cleared with the grant. A request that has read the flag
  before finds a village with the grant once the flag is gone.
* `withinLimits_iff`: the limits hold at every point of a run exactly if every transaction finds them
  as its request has read them.
-/

namespace Cme.Map

open Runs Caps Weights

variable {C : Catalog} {s s' : State C}

/-- How many villages a user has. -/
def villagesOf (d : MapDb C) (userId : ℕ) : ℕ :=
  d.villages.rows.countP fun v => v.userId = some userId

/-- How many villages of a user have the starter grant. -/
def grantsOf (s : State C) (userId : ℕ) : ℕ := s.granted.countP fun p => p.1 = userId

/-- No user has more than five villages, nor more than one starter grant. -/
def WithinLimits (s : State C) : Prop :=
  (∀ userId, villagesOf s.db userId ≤ MAX_VILLAGES_PER_USER) ∧ ∀ userId, grantsOf s userId ≤ 1

/-- The flag `new` of the row of a user. -/
def isNew (d : MapDb C) (userId : ℕ) : Bool := (d.users.get? userId).any User.new

/-- A new village finds less than five villages of its user, and the flag `new` as its request has
read it, if it was set. -/
def KeepsLimits (d : MapDb C) : Transaction → Prop
  | .village _ user => villagesOf d user.id < MAX_VILLAGES_PER_USER ∧ (user.new → isNew d user.id)
  | _ => True

instance (d : MapDb C) : (t : Transaction) → Decidable (KeepsLimits d t)
  | .village _ _ => inferInstanceAs (Decidable (_ ∧ (_ → _)))
  | .tile _ _ | .removal _ _ | .generation _ => isTrue trivial

/-! ## The flag of a user -/

/-- The user that a request has read. -/
def Worker.user? : Worker C → Option User
  | .findVillages _ user | .checkTile _ user _ | .checkVillages _ user _ => some user
  | .transaction (.village _ user) => some user
  | _ => none

/-- Who has the flag has no grant, and who has lost it has one. -/
structure Granted (s : State C) : Prop where
  cleared : ∀ p ∈ s.granted, ¬isNew s.db p.1
  granted : ∀ w ∈ s.workers, ∀ user, w.user? = some user → user.new → ¬isNew s.db user.id →
    0 < grantsOf s user.id

theorem grantsOf_pos_iff {userId : ℕ} : 0 < grantsOf s userId ↔ ∃ p ∈ s.granted, p.1 = userId := by
  simp [grantsOf, List.countP_pos_iff]

namespace Granted

theorem start (d : MapDb C) : Granted (start d) :=
  ⟨fun _ hp => absurd hp List.not_mem_nil, fun _ hw => absurd hw List.not_mem_nil⟩

/-- A flag that is set belongs to a user without a grant. -/
theorem eq_zero_of_isNew (h : Granted s) {userId : ℕ} (hnew : isNew s.db userId) :
    grantsOf s userId = 0 := by
  by_contra hne
  obtain ⟨p, hp, rfl⟩ := grantsOf_pos_iff.1 (Nat.pos_of_ne_zero hne)
  exact h.cleared p hp hnew

/-- A request whose user had the flag finds it exactly if there is no grant yet. -/
theorem isNew_iff (h : Granted s) {w : Worker C} (hw : w ∈ s.workers) {user : User}
    (huser : w.user? = some user) (hnew : user.new) : isNew s.db user.id ↔ grantsOf s user.id = 0 := by
  constructor
  · exact h.eq_zero_of_isNew
  · intro hzero
    by_contra hcleared
    exact absurd (h.granted w hw user huser hnew hcleared) (Nat.not_lt.2 hzero.le)

end Granted

/-- A query finds a user, or goes on with the one it has. -/
theorem user_read {w : Worker C} {d : MapDb C} {random : ℚ × ℚ} {user : User}
    (h : (w.read d random).1.user? = some user) :
    w.user? = some user ∨ d.users.get? user.id = some user := by
  cases w with
  | findUser dto userId =>
    simp only [Worker.read] at h
    split at h
    next found hfound =>
      obtain rfl : found = user := Option.some.inj h
      have hid : found.id = userId := (Table.get?_eq_some.1 hfound).2
      exact .inr (by rw [hid]; exact hfound)
    · cases h
  | checkTile dto user villages =>
    simp only [Worker.read, Worker.check] at h
    split at h
    · exact .inl h
    · cases h
  | checkVillages dto user villages =>
    simp only [Worker.read, Worker.check] at h
    split at h
    · exact .inl h
    · cases h
  | findTile dto =>
    simp only [Worker.read, Worker.check] at h
    split at h <;> cases h
  | findVillage dto =>
    simp only [Worker.read, Worker.check] at h
    split at h <;> cases h
  | generate mapBlocks => cases mapBlocks <;> cases h
  | remove => cases h
  | findVillages dto user => exact .inl h
  | transaction t => exact .inl h
  | ended failure => cases h

/-- The transactions of a cron run have no user. -/
theorem user_started {w : Worker C} {d : MapDb C} {random : ℚ × ℚ} :
    ∀ w' ∈ (w.read d random).2, w'.user? = none := by
  intro w' hw'
  cases w with
  | remove =>
    obtain ⟨v, -, rfl⟩ := List.mem_map.1 hw'
    rfl
  | generate mapBlocks =>
    cases mapBlocks with
    | nil => cases hw'
    | cons mapBlock rest =>
      obtain ⟨p, -, rfl⟩ := List.mem_map.1 hw'
      rfl
  | findUser dto userId =>
    simp only [Worker.read] at hw'
    split at hw' <;> cases hw'
  | _ => cases hw'

/-- The user of a request was that of a request before, or is read from the table. -/
theorem user_step {a : Action C} {w : Worker C} {user : User} (hw : w ∈ (step s a).workers)
    (huser : w.user? = some user) :
    (∃ w₀ ∈ s.workers, w₀.user? = some user) ∨ s.db.users.get? user.id = some user := by
  cases origin hw with
  | kept hw => exact .inl ⟨w, hw, huser⟩
  | read random hw₀ => exact (user_read huser).imp_left fun h => ⟨_, hw₀, h⟩
  | started random hw₀ hw => cases (user_started w hw).symm.trans huser
  | _ => cases huser

/-! ## One step -/

/-- What a transaction does to the flags: that of its user is cleared with a grant. -/
theorem isNew_run {t : Transaction} {d : MapDb C} {now : ℤ} (h : t.run s.db now = some d)
    (userId : ℕ) :
    isNew d userId = (isNew s.db userId && !(s.grants t).any (·.1 = userId)) := by
  have hsame : d.users = s.db.users → isNew d userId = isNew s.db userId := fun husers => by
    rw [isNew, husers, isNew]
  cases t with
  | village dto user =>
    obtain ⟨-, -, -, husers, -⟩ := createVillage_eq_some h
    cases hnew : user.new with
    | false =>
      rw [hnew, if_neg Bool.false_ne_true] at husers
      simp [hsame husers, State.grants, hnew]
    | true =>
      rw [hnew, if_pos rfl] at husers
      by_cases hid : user.id = userId
      · subst hid
        simp only [isNew, husers, Table.get?_update]
        cases hfound : s.db.users.get? user.id with
        | none => rfl
        | some found =>
          have hkey : key found = user.id := (Table.get?_eq_some.1 hfound).2
          simp [State.grants, hnew, Table.patch, hkey]
      · rw [isNew, husers, Table.get?_update_of_ne (Ne.symm hid)]
        simp [isNew, State.grants, hnew, hid]
  | tile dto overlayingVillage =>
    obtain ⟨_, heq, -⟩ := createTile_eq_some h
    have husers : d.users = s.db.users := by rw [heq]
    simp [hsame husers, State.grants]
  | removal tileId villageId =>
    cases h
    simp [isNew, removeVillage, State.grants]
  | generation p =>
    obtain ⟨-, -, -, husers, -⟩ := generateVillage_eq_some h
    simp [hsame husers, State.grants]

theorem Granted.step (h : Granted s) (a : Action C) : Granted (step s a) := by
  rcases step_db s a with ⟨t, d, hcommit, hdb, hgranted⟩ | ⟨-, hframe, hgranted⟩
  · obtain ⟨-, now, hrun⟩ := committing_eq_some hcommit
    have hflag : ∀ userId, isNew (Map.step s a).db userId =
        (isNew s.db userId && !(s.grants t).any (·.1 = userId)) := by
      rw [hdb]
      exact isNew_run hrun
    refine ⟨fun p hp hnew => ?_, fun w hw user huser hnew hcleared => ?_⟩
    · rw [hflag, Bool.and_eq_true] at hnew
      rw [hgranted] at hp
      rcases List.mem_append.1 hp with hp | hp
      · exact h.cleared p hp hnew.1
      · have hany : (s.grants t).any (·.1 = p.1) := List.any_eq_true.2 ⟨p, hp, decide_eq_true rfl⟩
        simp [hany] at hnew
    · have hold : ¬isNew s.db user.id → 0 < grantsOf s user.id := by
        intro hnot
        rcases user_step hw huser with ⟨w₀, hw₀, huser₀⟩ | hfound
        · exact h.granted w₀ hw₀ user huser₀ hnew hnot
        · exact absurd (by rw [isNew, hfound]; exact hnew) hnot
      unfold grantsOf at hold ⊢
      rw [hgranted, List.countP_append]
      by_cases hbefore : isNew s.db user.id
      · rw [hflag, hbefore, Bool.true_and, Bool.not_eq_true', Bool.not_eq_false] at hcleared
        obtain ⟨p, hp, hid⟩ := List.any_eq_true.1 hcleared
        exact Nat.add_pos_right _ (List.countP_pos_iff.2 ⟨p, hp, hid⟩)
      · exact Nat.add_pos_left (hold hbefore) _
  · have hflag : ∀ userId, isNew (Map.step s a).db userId = isNew s.db userId := fun userId => by
      rw [isNew, hframe.users, isNew]
    refine ⟨fun p hp => ?_, fun w hw user huser hnew hcleared => ?_⟩
    · rw [hflag]
      exact h.cleared p (hgranted ▸ hp)
    · rw [hflag] at hcleared
      unfold grantsOf
      rw [hgranted]
      rcases user_step hw huser with ⟨w₀, hw₀, huser₀⟩ | hfound
      · exact h.granted w₀ hw₀ user huser₀ hnew hcleared
      · exact absurd (by rw [isNew, hfound]; exact hnew) hcleared

/-- A new village keeps its user within the limits exactly if there is room, and no grant before. -/
theorem withinLimits_village_iff {dto : CreateVillageDto} {user : User} {d : MapDb C} {now : ℤ}
    (h : WithinLimits s) (hrun : createVillage s.db dto user now = some d) (hdb : s'.db = d)
    (hgranted : s'.granted = s.granted ++ s.grants (.village dto user)) :
    WithinLimits s' ↔ villagesOf s.db user.id < MAX_VILLAGES_PER_USER ∧
      (user.new → grantsOf s user.id = 0) := by
  obtain ⟨-, hvillages, -⟩ := createVillage_eq_some hrun
  have hcount : (∀ userId, villagesOf s'.db userId ≤ MAX_VILLAGES_PER_USER) ↔
      villagesOf s.db user.id < MAX_VILLAGES_PER_USER := by
    unfold villagesOf
    rw [hdb, hvillages]
    have hcapped : Capped (fun _ : ℕ => MAX_VILLAGES_PER_USER)
        (fun userId (v : Village) => decide (v.userId = some userId)) s.db.villages.rows := h.1
    refine (capped_concat_iff hcapped).trans ?_
    simp
  have hgrant : (∀ userId, grantsOf s' userId ≤ 1) ↔ (user.new → grantsOf s user.id = 0) := by
    unfold grantsOf
    rw [hgranted]
    cases hnew : user.new with
    | false =>
      refine iff_of_true (fun userId => ?_) fun hcontra => by cases hcontra
      have hnil : s.grants (.village dto user) = [] := by simp [State.grants, hnew]
      rw [hnil, List.append_nil]
      exact h.2 userId
    | true =>
      have hpair : s.grants (.village dto user) = [(user.id, s.db.villages.next)] := by
        simp [State.grants, hnew]
      rw [hpair]
      have hcapped : Capped (fun _ : ℕ => 1) (fun userId (p : ℕ × ℕ) => decide (p.1 = userId))
          s.granted := h.2
      refine (capped_concat_iff hcapped).trans ?_
      simp
  exact and_congr hcount hgrant

/-- A step keeps the limits exactly if its transaction finds what its request has read. -/
theorem withinLimits_step_iff (hg : Granted s) (h : WithinLimits s) (a : Action C) :
    WithinLimits (step s a) ↔ Commits KeepsLimits s a := by
  rcases step_db s a with ⟨t, d, hcommit, hdb, hgranted⟩ | ⟨hnone, hframe, hgranted⟩
  · obtain ⟨hworker, now, hrun⟩ := committing_eq_some hcommit
    rw [commits_iff hcommit]
    -- The other transactions have no part in what the users have.
    have hsame : (∀ userId, villagesOf d userId = villagesOf s.db userId) → s.grants t = [] →
        WithinLimits (step s a) := by
      intro hvillages hnil
      refine ⟨fun userId => ?_, fun userId => ?_⟩
      · rw [hdb, hvillages]
        exact h.1 userId
      · rw [grantsOf, hgranted, hnil, List.append_nil]
        exact h.2 userId
    cases t with
    | village dto user =>
      rw [withinLimits_village_iff h hrun hdb hgranted]
      exact and_congr_right fun _ => forall_congr' fun hnew => (hg.isNew_iff hworker rfl hnew).symm
    | tile dto overlayingVillage =>
      obtain ⟨_, heq, -⟩ := createTile_eq_some hrun
      exact iff_of_true (hsame (fun userId => by rw [heq]; rfl) rfl) trivial
    | removal tileId villageId =>
      cases hrun
      exact iff_of_true (hsame (fun _ => rfl) rfl) trivial
    | generation p =>
      obtain ⟨-, hvillages, -⟩ := generateVillage_eq_some hrun
      refine iff_of_true (hsame (fun userId => ?_) rfl) trivial
      rw [villagesOf, hvillages, countP_concat]
      rfl
  · refine iff_of_true ⟨fun userId => ?_, fun userId => ?_⟩ (commits_of_none hnone)
    · rw [villagesOf, hframe.villages]
      exact h.1 userId
    · rw [grantsOf, hgranted]
      exact h.2 userId

/-! ## Runs -/

/-- No user ever has more than five villages or more than one starter grant exactly if every village
of the run is inserted as the checks of its request have found. -/
theorem withinLimits_iff {d : MapDb C} (h : ∀ userId, villagesOf d userId ≤ MAX_VILLAGES_PER_USER)
    (as : List (Action C)) :
    (∀ bs, bs <+: as → WithinLimits (bs.foldl step (start d))) ↔
      Meets step (Commits KeepsLimits) (start d) as :=
  holds_iff_meets (I := Granted) (Granted.start d) (fun _ a hs => hs.step a)
    ⟨h, fun _ => Nat.zero_le 1⟩ (fun _ a hg hs => withinLimits_step_iff hg hs a) as

/-! ## Two requests at once -/

/-- User 1 is new. User 2 has four villages, and 35000 of food, of wood and of iron. -/
def sampleUsers : MapDb sampleCatalog where
  villages :=
    { rows := [⟨1, some 2, 0, 0, 0, 0⟩, ⟨2, some 2, 1, 0, 0, 0⟩, ⟨3, some 2, 2, 0, 0, 0⟩,
        ⟨4, some 2, 3, 0, 0, 0⟩]
      next := 5
      nodup := by decide
      lt_next := by decide }
  villagesResourceTypes :=
    { rows := [⟨1, some 1, food, 35000⟩, ⟨2, some 1, wood, 35000⟩, ⟨3, some 1, iron, 35000⟩]
      next := 4
      nodup := by decide
      lt_next := by decide }
  facilities := Table.empty
  villagesStorageResourceTypes := Table.empty
  attacks := Table.empty
  users :=
    { rows := [⟨1, true⟩, ⟨2, false⟩]
      next := 3
      nodup := by decide
      lt_next := by decide }
  columns := fun _ => ⟨"", false⟩
  mapTiles := Table.empty
  mapBlocks := []
  automatedVillageHistory := Table.empty

/-- The queries of a request that passes its checks. -/
def queries (k : ℕ) : List (Action sampleCatalog) := List.replicate 4 (.read k (0, 0))

/-- Two requests of a user, of which each reads before the other one commits. -/
def sampleOverlap (userId : ℕ) : List (Action sampleCatalog) :=
  [.createVillage ⟨"north", 0, 5⟩ userId, .createVillage ⟨"south", 0, 6⟩ userId] ++ queries 0 ++
    queries 1 ++ [.commit 0 0, .commit 1 0]

/-- The same requests, one after the other. -/
def sampleInTurn (userId : ℕ) : List (Action sampleCatalog) :=
  .createVillage ⟨"north", 0, 5⟩ userId :: queries 0 ++ [.commit 0 0] ++
    .createVillage ⟨"south", 0, 6⟩ userId :: queries 1 ++ [.commit 1 0]

theorem sampleUsers_within (userId : ℕ) : villagesOf sampleUsers userId ≤ MAX_VILLAGES_PER_USER :=
  Nat.le_trans List.countP_le_length (by decide)

/-- One after the other, user 2 gets one village more, and the second request is refused. -/
theorem withinLimits_iff_sample :
    villagesOf ((sampleInTurn 2).foldl step (start sampleUsers)).db 2 = 5 ∧
      ∀ bs, bs <+: sampleInTurn 2 → WithinLimits (bs.foldl step (start sampleUsers)) :=
  ⟨by decide +kernel, (withinLimits_iff sampleUsers_within _).2 (by decide +kernel)⟩

/-- At once, user 2 gets two villages more, and user 1 two starter grants. -/
theorem limits_exceeded :
    (villagesOf ((sampleOverlap 2).foldl step (start sampleUsers)).db 2 = 6 ∧
      ¬WithinLimits ((sampleOverlap 2).foldl step (start sampleUsers))) ∧
    grantsOf ((sampleOverlap 1).foldl step (start sampleUsers)) 1 = 2 ∧
      ¬WithinLimits ((sampleOverlap 1).foldl step (start sampleUsers)) :=
  ⟨⟨by decide +kernel, fun h => absurd (h.1 2) (by decide +kernel)⟩, by decide +kernel,
    fun h => absurd (h.2 1) (by decide +kernel)⟩

end Cme.Map
