import CmeBackend.Guilds.Deletion
import CmeBackend.Lib.Caps

/-!
# The members of a guild

Sequences of requests to `GuildService`, each of which ends before the next one, with its deletions.

* `Sound`: a guild has one admin, a user has one row of a guild at most, and none after leaving it.
* `KeepsSound`: what has to be so of a request, and of the tables it finds.
* `memberships_sound_iff`: the condition for all runs.
-/

namespace Cme.Guilds

open Runs

inductive Request where
  | create (dto : CreateGuildDto) (userId : ℕ) (x : Creation)
  | invite (dto : InviteMembersToGuildDto) (userId : ℕ) (save : Reply)
  | leave (guildId userId : ℕ) (removal : Reply) (deletion : Deletion)
  | remove (guildId requesterId : ℕ) (deletion : Deletion)
  /-- Other operations write `users`. -/
  | users (users : Table Map.User)

structure State where
  db : GuildDb
  /-- The user and the guild of the last request, if it was a `leave` that has succeeded. -/
  left : Option (ℕ × ℕ)

/-- No request has come yet. -/
def start (db : GuildDb) : State := ⟨db, none⟩

def step (s : State) : Request → State
  | .create dto userId x => ⟨(create s.db dto userId x).1, none⟩
  | .invite dto userId save => ⟨(invite s.db dto userId save).1, none⟩
  | .leave guildId userId removal deletion =>
    ⟨(leave s.db guildId userId removal deletion).1,
      match (leave s.db guildId userId removal deletion).2 with
      | .ok _ => some (userId, guildId)
      | .error _ => none⟩
  | .remove guildId requesterId deletion => ⟨(remove s.db guildId requesterId deletion).1, none⟩
  | .users users => ⟨{ s.db with users }, none⟩

/-- A row that makes its user the admin of the guild. -/
def isAdminOf (guildId : ℕ) (m : GuildMembers) : Bool := m.guildId = guildId ∧ m.isAdmin

/-- A row that makes the user a member of the guild. -/
def isMember (guildId userId : ℕ) (m : GuildMembers) : Bool :=
  m.guildId = guildId ∧ m.userId = userId

/-- How many rows of `guilds_users` there are of a kind. -/
def GuildDb.count (d : GuildDb) (p : GuildMembers → Bool) : ℕ := d.guildMembers.rows.countP p

structure Sound (s : State) : Prop where
  oneAdmin : ∀ guild ∈ s.db.guilds.rows, s.db.count (isAdminOf guild.id) = 1
  once : ∀ guildId userId, s.db.count (isMember guildId userId) ≤ 1
  left : ∀ userId guildId, s.left = some (userId, guildId) →
    s.db.count (isMember guildId userId) = 0

/-- `guild_id integer NOT NULL REFERENCES guilds (id)` -/
def Linked (d : GuildDb) : Prop :=
  ∀ m ∈ d.guildMembers.rows, ∃ guild ∈ d.guilds.rows, guild.id = m.guildId

/-- Both deletions go through, in the order that the foreign key needs. -/
def Deletion.Complete (x : Deletion) : Prop :=
  x.order = .membersFirst ∧ x.members ≠ .refused ∧ x.guild ≠ .refused

/-- The creator of a guild is found and becomes its admin. An invitation names no member. The
deletions of a member who leaves, or of a guild, go through in the right order, or those of a guild
that is removed do nothing at all. -/
def KeepsSound (d : GuildDb) : Request → Prop
  | .create _ userId x => x.guild = .refused ∨
    x.guild = .ok ∧ (d.users.get? userId).isSome ∧ x.user ∧ x.member ≠ .refused
  | .invite dto userId save => save ≠ .refused → ∀ p, checkInvite d dto userId = .ok p →
    ∀ user ∈ p.2, d.count (isMember p.1.id user.id) = 0
  | .leave guildId userId removal deletion => ∀ p, checkLeave d guildId userId = .ok p →
    if p.2.isAdmin then deletion.Complete else removal ≠ .refused
  | .remove guildId requesterId deletion => ∀ guild, checkRemove d guildId requesterId = .ok guild →
    deletion.members = .refused ∨ deletion.Complete
  | .users _ => True

instance (x : Deletion) : Decidable x.Complete := inferInstanceAs (Decidable (_ ∧ _))

instance decidableForallOk {ε α : Type} {p : α → Prop} [DecidablePred p] :
    (x : Except ε α) → Decidable (∀ a, x = .ok a → p a)
  | .error _ => isTrue fun _ h => nomatch h
  | .ok a => decidable_of_iff (p a) ⟨fun h _ ha => Except.ok.inj ha ▸ h, fun h => h a rfl⟩

instance (d : GuildDb) : (r : Request) → Decidable (KeepsSound d r)
  | .create _ _ _ => inferInstanceAs (Decidable (_ ∨ _ ∧ _))
  | .invite _ _ _ => inferInstanceAs (Decidable (_ → ∀ _, _ = _ → _))
  | .leave _ _ _ _ | .remove _ _ _ => inferInstanceAs (Decidable (∀ _, _ = _ → _))
  | .users _ => isTrue trivial

theorem Sound.capped {s : State} (h : Sound s) : Caps.Capped (fun _ : ℕ × ℕ => 1)
    (fun p => isMember p.1 p.2) s.db.guildMembers.rows :=
  fun p => h.once p.1 p.2

/-! ## More members -/

variable {d : GuildDb} {s : State} {guildId userId : ℕ} {p : GuildMembers → Bool}

theorem count_saveMember (guildId userId : ℕ) (isAdmin : Bool) (p : GuildMembers → Bool) :
    (d.saveMember guildId userId isAdmin).count p =
      d.count p + if p ⟨d.guildMembers.next, guildId, userId, isAdmin⟩ then 1 else 0 :=
  Caps.countP_concat p

/-- The rows of an invitation are counted by their users. -/
theorem count_saveMembers (hp : ∀ id userId, p ⟨id, guildId, userId, false⟩ =
    p ⟨0, guildId, userId, false⟩) (users : List Map.User) :
    (d.saveMembers guildId users).count p =
      d.count p + users.countP fun user => p ⟨0, guildId, user.id, false⟩ := by
  unfold GuildDb.saveMembers
  induction users generalizing d with
  | nil => rfl
  | cons user rest ih =>
    rw [List.foldl_cons, ih, count_saveMember, hp, List.countP_cons]
    omega

@[simp] theorem guilds_saveMembers (users : List Map.User) :
    (d.saveMembers guildId users).guilds = d.guilds := by
  unfold GuildDb.saveMembers
  induction users generalizing d with
  | nil => rfl
  | cons user rest ih => exact ih

/-! ## Fewer members -/

@[simp] theorem guilds_deleteMembers (members : Reply) :
    (d.deleteMembers guildId members).guilds = d.guilds := by
  unfold GuildDb.deleteMembers
  split <;> rfl

/-- The rows of other guilds are still counted. -/
theorem count_deleteMembers_of_ne (members : Reply) (hp : ∀ m, p m → m.guildId ≠ guildId) :
    (d.deleteMembers guildId members).count p = d.count p := by
  unfold GuildDb.deleteMembers
  split
  · rfl
  · show List.countP p (List.filter _ _) = _
    rw [List.countP_filter]
    refine List.countP_congr fun m _ => ?_
    have hne := hp m
    simp only [Bool.and_eq_true, Bool.not_eq_true', decide_eq_false_iff_not]
    exact ⟨And.left, fun hm => ⟨hm, hne hm⟩⟩

theorem count_eq_zero_of_not_hasMembers (h : ¬d.HasMembers guildId)
    (hp : ∀ m, p m → m.guildId = guildId) : d.count p = 0 :=
  List.countP_eq_zero.2 fun m hm hpm => h ⟨m, hm, hp m hpm⟩

theorem isAdminOf_guildId {m : GuildMembers} (h : isAdminOf guildId m) : m.guildId = guildId :=
  (of_decide_eq_true h).1

theorem isMember_guildId {m : GuildMembers} (h : isMember guildId userId m) : m.guildId = guildId :=
  (of_decide_eq_true h).1

/-- A guild without members has no admin. -/
theorem not_sound_of_not_hasMembers (hguild : ∃ guild ∈ s.db.guilds.rows, guild.id = guildId)
    (h : ¬s.db.HasMembers guildId) : ¬Sound s := by
  intro hs
  obtain ⟨guild, hmem, rfl⟩ := hguild
  have hone := hs.oneAdmin guild hmem
  rw [count_eq_zero_of_not_hasMembers h fun m => isAdminOf_guildId] at hone
  cases hone

/-! ## One request -/

/-- The tables of a sound state, with another note of who has left. -/
theorem Sound.note {db : GuildDb} {left : Option (ℕ × ℕ)} (h : Sound ⟨db, left⟩) :
    Sound ⟨db, none⟩ :=
  ⟨h.oneAdmin, h.once, fun _ _ hleft => by cases hleft⟩

/-- A new guild has no rows. -/
theorem not_hasMembers_next (h : Linked d) : ¬d.HasMembers d.guilds.next := by
  rintro ⟨m, hm, hguild⟩
  obtain ⟨guild, hmem, hid⟩ := h m hm
  exact absurd (d.guilds.lt_next guild hmem) (Nat.not_lt.2 (hguild ▸ hid ▸ le_rfl))

theorem not_sound_saveGuild (h : Linked d) (name : String) : ¬Sound ⟨d.saveGuild name, none⟩ := by
  have hguild : ∃ guild ∈ (d.saveGuild name).guilds.rows, guild.id = d.guilds.next :=
    ⟨_, Table.mem_insert.2 (.inr rfl), rfl⟩
  exact not_sound_of_not_hasMembers hguild (not_hasMembers_next h)

/-- A guild with its admin. -/
theorem sound_create (hlinked : Linked d) (h : Sound ⟨d, none⟩) (name : String) (userId : ℕ) :
    Sound ⟨(d.saveGuild name).saveMember d.guilds.next userId true, none⟩ := by
  have hnone := not_hasMembers_next hlinked
  constructor
  · intro guild hguild
    rw [count_saveMember]
    show d.count _ + _ = 1
    rcases Table.mem_insert.1 hguild with hguild | rfl
    · have hne : guild.id ≠ d.guilds.next := Nat.ne_of_lt (d.guilds.lt_next guild hguild)
      have hold := h.oneAdmin guild hguild
      simpa [isAdminOf, hne.symm] using hold
    · rw [count_eq_zero_of_not_hasMembers hnone fun m => isAdminOf_guildId]
      simp [isAdminOf]
  · intro guildId userId'
    rw [count_saveMember]
    show d.count _ + _ ≤ 1
    by_cases hguild : guildId = d.guilds.next
    · subst hguild
      rw [count_eq_zero_of_not_hasMembers hnone fun m => isMember_guildId]
      split <;> omega
    · have hold := h.once guildId userId'
      simpa [isMember, Ne.symm hguild] using hold
  · rintro _ _ ⟨⟩

theorem sound_create_iff (hlinked : Linked d) (h : Sound ⟨d, none⟩) (dto : CreateGuildDto)
    (userId : ℕ) (x : Creation) :
    Sound ⟨(create d dto userId x).1, none⟩ ↔ KeepsSound d (.create dto userId x) := by
  obtain ⟨guild, user, member⟩ := x
  unfold create KeepsSound
  have hlost := not_sound_saveGuild hlinked (dto.name.getD "guild")
  cases guild with
  | refused => exact iff_of_true h (.inl rfl)
  | lost => exact iff_of_false hlost (by simp)
  | ok =>
    cases hfound : d.users.get? userId with
    | none => exact iff_of_false hlost (by simp [hfound])
    | some found =>
      cases user with
      | false => exact iff_of_false hlost (by simp)
      | true =>
        have hsaved := sound_create hlinked h (dto.name.getD "guild") found.id
        cases member with
        | refused => exact iff_of_false hlost (by simp)
        | lost => exact iff_of_true hsaved (by simp [hfound])
        | ok => exact iff_of_true hsaved (by simp [hfound])

/-- The users that are found are different ones. -/
theorem countP_findByIds_le_one (ids : List ℕ) (userId : ℕ) :
    (findByIds d ids).countP (fun user => user.id = userId) ≤ 1 := by
  have hkeys := List.nodup_iff_count_le_one.1 d.users.nodup userId
  rw [List.count, List.countP_map] at hkeys
  refine (List.filter_sublist.countP_le).trans (le_of_eq_of_le ?_ hkeys)
  exact List.countP_congr fun user _ => by simp [key, Keyed.key]

/-- An invitation is sound exactly if it names no member. -/
theorem sound_saveMembers_iff (h : Sound ⟨d, none⟩) (guild : Guild) (ids : List ℕ) :
    Sound ⟨d.saveMembers guild.id (findByIds d ids), none⟩ ↔
      ∀ user ∈ findByIds d ids, d.count (isMember guild.id user.id) = 0 := by
  have hcount : ∀ guildId userId,
      (d.saveMembers guild.id (findByIds d ids)).count (isMember guildId userId) =
        d.count (isMember guildId userId) + (findByIds d ids).countP fun user =>
          isMember guildId userId ⟨0, guild.id, user.id, false⟩ :=
    fun guildId userId => count_saveMembers (fun _ _ => rfl) _
  constructor
  · intro hs user huser
    have honce := hs.once guild.id user.id
    have hpos : 0 < (findByIds d ids).countP fun user' =>
        isMember guild.id user.id ⟨0, guild.id, user'.id, false⟩ :=
      List.countP_pos_iff.2 ⟨user, huser, by simp [isMember]⟩
    rw [hcount] at honce
    omega
  · intro hnew
    refine ⟨fun guild' hguild' => ?_, fun guildId userId => ?_, fun _ _ hleft => by cases hleft⟩
    · have hnone : ((findByIds d ids).countP fun user =>
          isAdminOf guild'.id ⟨0, guild.id, user.id, false⟩) = 0 := by
        simp [isAdminOf]
      rw [guilds_saveMembers] at hguild'
      rw [count_saveMembers fun _ _ => rfl, hnone, Nat.add_zero]
      exact h.oneAdmin guild' hguild'
    · rw [hcount]
      by_cases hguild : guild.id = guildId
      · subst hguild
        have hone : ((findByIds d ids).countP fun user =>
            isMember guild.id userId ⟨0, guild.id, user.id, false⟩) ≤ 1 := by
          simpa [isMember] using countP_findByIds_le_one ids userId
        by_cases huser : ∃ user ∈ findByIds d ids, user.id = userId
        · obtain ⟨user, huser, rfl⟩ := huser
          rw [hnew user huser, Nat.zero_add]
          exact hone
        · have hnone : ((findByIds d ids).countP fun user =>
              isMember guild.id userId ⟨0, guild.id, user.id, false⟩) = 0 := by
            simpa [isMember] using huser
          rw [hnone]
          exact h.once guild.id userId
      · have hnone : ((findByIds d ids).countP fun user =>
            isMember guildId userId ⟨0, guild.id, user.id, false⟩) = 0 := by
          simp [isMember, hguild]
        rw [hnone]
        exact h.once guildId userId

theorem sound_invite_iff (h : Sound ⟨d, none⟩) (dto : InviteMembersToGuildDto) (userId : ℕ)
    (save : Reply) :
    Sound ⟨(invite d dto userId save).1, none⟩ ↔ KeepsSound d (.invite dto userId save) := by
  unfold invite KeepsSound
  cases hcheck : checkInvite d dto userId with
  | error e =>
    refine iff_of_true h fun _ p hp => ?_
    rw [hcheck] at hp
    cases hp
  | ok p =>
    obtain ⟨guild, members⟩ := p
    obtain ⟨-, rfl⟩ := checkInvite_eq_ok hcheck
    have hsaved := sound_saveMembers_iff h guild dto.members
    have hnew : (∀ p, checkInvite d dto userId = .ok p → ∀ user ∈ p.2,
          d.count (isMember p.1.id user.id) = 0) ↔
        ∀ user ∈ findByIds d dto.members, d.count (isMember guild.id user.id) = 0 := by
      rw [hcheck]
      exact ⟨fun hall => hall _ rfl, fun hall p hp => by cases hp; exact hall⟩
    dsimp only
    rw [hnew]
    cases save with
    | refused => exact iff_of_true h fun hne => absurd rfl hne
    | lost => exact hsaved.trans (imp_iff_right (by decide)).symm
    | ok => exact hsaved.trans (imp_iff_right (by decide)).symm

/-- A member's row is the only one of the user in the guild. -/
theorem eq_of_isMember (h : ∀ guildId userId, d.count (isMember guildId userId) ≤ 1)
    {m m' : GuildMembers} (hm : m ∈ d.guildMembers.rows) (hm' : m' ∈ d.guildMembers.rows)
    (hmember : isMember guildId userId m) (hmember' : isMember guildId userId m') : m = m' :=
  Caps.eq_of_countP_le_one (h guildId userId) hm hm' hmember hmember'

/-- A member leaves, and the guild keeps its admin. -/
theorem sound_removeMember {user : GuildMembers} (h : Sound ⟨d, none⟩)
    (huser : user ∈ d.guildMembers.rows) (hguild : user.guildId = guildId)
    (hid : user.userId = userId) (hadmin : user.isAdmin = false) :
    Sound ⟨{ d with guildMembers := d.guildMembers.delete user.id }, some (userId, guildId)⟩ := by
  refine ⟨fun guild hmem => ?_, fun guildId' userId' => ?_, ?_⟩
  · rw [← h.oneAdmin guild hmem]
    show List.countP _ (List.filter _ _) = _
    rw [List.countP_filter]
    refine List.countP_congr fun m hm => ?_
    simp only [Bool.and_eq_true, decide_eq_true_eq]
    refine and_iff_left_of_imp fun hisAdmin hkey => ?_
    -- The row that is deleted is not that of an admin.
    have heq : m = user := d.guildMembers.eq_of_key hm huser hkey
    rw [heq] at hisAdmin
    simp [isAdminOf, hadmin] at hisAdmin
  · exact h.capped.sublist List.filter_sublist (guildId', userId')
  · intro userId' guildId' hleft
    cases hleft
    refine List.countP_eq_zero.2 fun m hm hmember => ?_
    obtain ⟨hm, hkey⟩ := List.mem_filter.1 hm
    have huserMember : isMember guildId userId user := decide_eq_true ⟨hguild, hid⟩
    have heq := eq_of_isMember h.once hm huser hmember huserMember
    exact of_decide_eq_true hkey (heq ▸ rfl)

/-- The deletions of a guild keep the tables sound if they do nothing, or all of it. -/
theorem sound_deleteGuild_iff (h : Sound ⟨d, none⟩)
    (hguild : ∃ guild ∈ d.guilds.rows, guild.id = guildId) (hmembers : d.HasMembers guildId)
    (x : Deletion) :
    Sound ⟨d.deleteGuild guildId x, none⟩ ↔ x.members = .refused ∨ x.Complete := by
  obtain ⟨order, members, guild⟩ := x
  by_cases hrefused : members = .refused
  · subst hrefused
    rw [deleteGuild_refused hmembers]
    exact iff_of_true h (.inl rfl)
  have hleft : ¬Sound ⟨d.deleteMembers guildId members, none⟩ := by
    refine not_sound_of_not_hasMembers ?_ (not_hasMembers_deleteMembers hrefused)
    rw [guilds_deleteMembers]
    exact hguild
  cases order with
  | guildFirst =>
    rw [deleteGuild_guildFirst hmembers]
    exact iff_of_false hleft (by simp [hrefused, Deletion.Complete])
  | membersFirst =>
    by_cases hguildRefused : guild = .refused
    · subst hguildRefused
      rw [deleteGuild_guild_refused]
      exact iff_of_false hleft (by simp [hrefused, Deletion.Complete])
    · rw [deleteGuild_membersFirst hrefused hguildRefused]
      refine iff_of_true ?_ (.inr ⟨rfl, hrefused, hguildRefused⟩)
      refine ⟨fun guild' hguild' => ?_, fun guildId' userId => ?_, fun _ _ hleft => by cases hleft⟩
      · obtain ⟨hmem, hne⟩ := List.mem_filter.1 hguild'
        have hcount : d.count (isAdminOf guild'.id) = 1 := h.oneAdmin guild' hmem
        rw [← count_deleteMembers_of_ne .ok fun m hm => ?_] at hcount
        · exact hcount
        · rw [isAdminOf_guildId hm]
          exact of_decide_eq_true hne
      · exact h.capped.sublist List.filter_sublist (guildId', userId)

/-- Who still has a row has not left. -/
theorem not_sound_left {m : GuildMembers} {db : GuildDb} (hm : m ∈ db.guildMembers.rows)
    (hguild : m.guildId = guildId) (huser : m.userId = userId) :
    ¬Sound ⟨db, some (userId, guildId)⟩ := by
  intro hs
  have hnone := List.countP_eq_zero.1 (hs.left userId guildId rfl) m hm
  exact hnone (decide_eq_true ⟨hguild, huser⟩)

/-- An admin leaves, and nobody is left. -/
theorem sound_deleteGuild_left_iff (h : Sound ⟨d, none⟩)
    (hguild : ∃ guild ∈ d.guilds.rows, guild.id = guildId) {m : GuildMembers}
    (hm : m ∈ d.guildMembers.rows) (hmguild : m.guildId = guildId) (huser : m.userId = userId)
    (x : Deletion) :
    Sound ⟨d.deleteGuild guildId x, some (userId, guildId)⟩ ↔ x.Complete := by
  have hiff := sound_deleteGuild_iff h hguild ⟨m, hm, hmguild⟩ x
  obtain ⟨order, members, guild⟩ := x
  constructor
  · intro hs
    rcases hiff.1 hs.note with hrefused | hcomplete
    · obtain rfl : members = .refused := hrefused
      rw [deleteGuild_refused ⟨m, hm, hmguild⟩] at hs
      exact absurd hs (not_sound_left hm hmguild huser)
    · exact hcomplete
  · intro hcomplete
    have hs := hiff.2 (.inr hcomplete)
    obtain ⟨rfl, hmembers, hguild'⟩ := hcomplete
    refine ⟨hs.oneAdmin, hs.once, fun userId' guildId' hleft => ?_⟩
    cases hleft
    show GuildDb.count _ _ = 0
    rw [deleteGuild_membersFirst hmembers hguild']
    refine List.countP_eq_zero.2 fun m' hm' hmember => ?_
    have hkept := (List.mem_filter.1 hm').2
    simp [isMember_guildId hmember] at hkept

theorem sound_leave_iff (h : Sound ⟨d, none⟩) (left : Option (ℕ × ℕ)) (removal : Reply)
    (deletion : Deletion) :
    Sound (step ⟨d, left⟩ (.leave guildId userId removal deletion)) ↔
      KeepsSound d (.leave guildId userId removal deletion) := by
  unfold step leave KeepsSound
  dsimp only
  cases hcheck : checkLeave d guildId userId with
  | error e =>
    exact iff_of_true h fun _ hp => by cases hp
  | ok p =>
    obtain ⟨guild, user⟩ := p
    obtain ⟨hguild, rfl, hm, hmguild, huser⟩ := checkLeave_eq_ok hcheck
    have hkeeps : (∀ p, Except.ok (guild, user) = (Except.ok p : Except Failure _) →
          if p.2.isAdmin then deletion.Complete else removal ≠ .refused) ↔
        if user.isAdmin then deletion.Complete else removal ≠ .refused :=
      ⟨fun hall => hall _ rfl, fun hone p hp => by cases hp; exact hone⟩
    refine Iff.trans ?_ hkeeps.symm
    dsimp only
    by_cases hadmin : user.isAdmin
    · rw [if_pos hadmin, if_pos hadmin]
      exact sound_deleteGuild_left_iff h ⟨guild, hguild, rfl⟩ hm hmguild huser deletion
    · rw [if_neg hadmin, if_neg hadmin]
      unfold GuildDb.removeMember
      split
      next hrefused =>
        exact iff_of_false (not_sound_left hm hmguild huser) (not_not_intro hrefused)
      next hdone =>
        have hnot : user.isAdmin = false := Bool.not_eq_true _ ▸ hadmin
        exact iff_of_true (sound_removeMember h hm hmguild huser hnot) hdone

theorem sound_remove_iff (h : Sound ⟨d, none⟩) (deletion : Deletion) :
    Sound ⟨(remove d guildId userId deletion).1, none⟩ ↔
      KeepsSound d (.remove guildId userId deletion) := by
  unfold remove KeepsSound
  dsimp only
  cases hcheck : checkRemove d guildId userId with
  | error e => exact iff_of_true h fun _ hguild => by cases hguild
  | ok guild =>
    obtain ⟨hguild, rfl, m, hm, hmguild, -⟩ := checkRemove_eq_ok hcheck
    refine (sound_deleteGuild_iff h ⟨guild, hguild, rfl⟩ ⟨m, hm, hmguild⟩ deletion).trans ?_
    constructor
    · intro hkeeps _ _
      exact hkeeps
    · exact fun hall => hall guild rfl

/-! ## The foreign key -/

theorem linked_saveGuild (h : Linked d) (name : String) : Linked (d.saveGuild name) := by
  intro m hm
  obtain ⟨guild, hguild, hid⟩ := h m hm
  exact ⟨guild, Table.mem_insert.2 (.inl hguild), hid⟩

theorem linked_saveMember (h : Linked d) (hguild : ∃ guild ∈ d.guilds.rows, guild.id = guildId)
    (userId : ℕ) (isAdmin : Bool) : Linked (d.saveMember guildId userId isAdmin) := by
  intro m hm
  rcases Table.mem_insert.1 hm with hm | rfl
  · exact h m hm
  · exact hguild

theorem linked_saveMembers (h : Linked d) (hguild : ∃ guild ∈ d.guilds.rows, guild.id = guildId)
    (users : List Map.User) : Linked (d.saveMembers guildId users) := by
  unfold GuildDb.saveMembers
  induction users generalizing d with
  | nil => exact h
  | cons user rest ih => exact ih (linked_saveMember h hguild user.id false) hguild

theorem linked_removeMember (h : Linked d) (id : ℕ) (reply : Reply) :
    Linked (d.removeMember id reply) := by
  unfold GuildDb.removeMember
  split
  · exact h
  · exact fun m hm => h m (List.mem_of_mem_filter hm)

theorem linked_deleteMembers (h : Linked d) (reply : Reply) :
    Linked (d.deleteMembers guildId reply) := by
  unfold GuildDb.deleteMembers
  split
  · exact h
  · exact fun m hm => h m (List.mem_of_mem_filter hm)

theorem linked_removeGuild (h : Linked d) (reply : Reply) :
    Linked (d.removeGuild guildId reply) := by
  unfold GuildDb.removeGuild
  split
  · exact h
  next hgo =>
    intro m hm
    obtain ⟨guild, hguild, hid⟩ := h m hm
    have hne : guild.id ≠ guildId := fun heq => hgo (.inr ⟨m, hm, hid.symm.trans heq⟩)
    exact ⟨guild, List.mem_filter.2 ⟨hguild, decide_eq_true hne⟩, hid⟩

theorem linked_deleteGuild (h : Linked d) (x : Deletion) : Linked (d.deleteGuild guildId x) := by
  unfold GuildDb.deleteGuild
  split
  · exact linked_removeGuild (linked_deleteMembers h x.members) x.guild
  · exact linked_deleteMembers (linked_removeGuild h x.guild) x.members

theorem linked_create (h : Linked d) (dto : CreateGuildDto) (x : Creation) :
    Linked (create d dto userId x).1 := by
  have hsaved := linked_saveGuild h (dto.name.getD "guild")
  have hmember : ∀ userId isAdmin, Linked ((d.saveGuild (dto.name.getD "guild")).saveMember
      d.guilds.next userId isAdmin) :=
    linked_saveMember hsaved ⟨_, Table.mem_insert.2 (.inr rfl), rfl⟩
  unfold create
  dsimp only
  split
  · exact h
  · exact hsaved
  · exact hsaved
  · split
    · exact hsaved
    · split
      · exact hsaved
      · exact hmember _ _
      · exact hmember _ _

theorem linked_step (h : Linked s.db) (r : Request) : Linked (step s r).db := by
  cases r with
  | create dto userId x => exact linked_create h dto x
  | invite dto userId save =>
    simp only [step, invite]
    split
    · exact h
    next guild members hcheck =>
      have hguild := (checkInvite_eq_ok hcheck).1
      split
      · exact h
      · exact linked_saveMembers h ⟨guild, hguild, rfl⟩ members
      · exact linked_saveMembers h ⟨guild, hguild, rfl⟩ members
  | leave guildId userId removal deletion =>
    simp only [step, leave]
    split
    · exact h
    · split
      · exact linked_deleteGuild h deletion
      · exact linked_removeMember h _ removal
  | remove guildId requesterId deletion =>
    simp only [step, remove]
    split
    · exact h
    · exact linked_deleteGuild h deletion
  | users users => exact h

/-! ## Runs -/

theorem sound_step_iff (hlinked : Linked s.db) (h : Sound s) (r : Request) :
    Sound (step s r) ↔ KeepsSound s.db r := by
  have hnote : Sound ⟨s.db, none⟩ := Sound.note h
  cases r with
  | create dto userId x => exact sound_create_iff hlinked hnote dto userId x
  | invite dto userId save => exact sound_invite_iff hnote dto userId save
  | leave guildId userId removal deletion => exact sound_leave_iff hnote s.left removal deletion
  | remove guildId requesterId deletion => exact sound_remove_iff hnote deletion
  | users users =>
    exact iff_of_true ⟨h.oneAdmin, h.once, fun _ _ hleft => by cases hleft⟩ trivial

/-- The memberships are sound at every point of a run exactly if every request keeps them so. -/
theorem memberships_sound_iff (hlinked : Linked d) (h : Sound (start d)) (rs : List Request) :
    (∀ rs', rs' <+: rs → Sound (rs'.foldl step (start d))) ↔
      Meets step (fun s => KeepsSound s.db) (start d) rs :=
  holds_iff_meets (I := fun s => Linked s.db) hlinked (fun _ r hs => linked_step hs r) h
    (fun _ r hl hs => sound_step_iff hl hs r) rs

/-! ## A creation without an admin, a second invitation, and a guild that stays -/

/-- Three users. -/
def threeUsers : GuildDb where
  users :=
    { rows := [⟨1, false⟩, ⟨2, false⟩, ⟨3, false⟩]
      next := 4
      nodup := by decide
      lt_next := by decide }
  guilds := Table.empty
  guildMembers := Table.empty

def afterRequests (rs : List Request) : State := rs.foldl step (start threeUsers)

/-- A guild of the user 1. -/
def sampleCreate : Request := .create ⟨some "hunters"⟩ 1 ⟨.ok, true, .ok⟩

def sampleInvite (members : List ℕ) : Request := .invite ⟨some 1, members⟩ 1 .ok

def sampleLeave (userId : ℕ) : Request := .leave 1 userId .ok ⟨.membersFirst, .ok, .ok⟩

/-- A guild with two more members, of whom one leaves before it is removed. -/
def sampleRequests : List Request :=
  [sampleCreate, sampleInvite [2, 3, 3], sampleLeave 2, .remove 1 1 ⟨.membersFirst, .ok, .ok⟩]

theorem linked_threeUsers : Linked threeUsers := fun _ hm => absurd hm List.not_mem_nil

theorem sound_threeUsers : Sound (start threeUsers) :=
  ⟨fun _ hguild => absurd hguild List.not_mem_nil, fun _ _ => Nat.zero_le 1,
    fun _ _ hleft => by cases hleft⟩

theorem memberships_sound_iff_sample :
    (afterRequests (sampleRequests.take 3)).db.guildMembers.rows.map (·.userId) = [1, 3] ∧
      ∀ rs, rs <+: sampleRequests → Sound (afterRequests rs) :=
  ⟨by decide +kernel, (memberships_sound_iff linked_threeUsers sound_threeUsers sampleRequests).2
    (by decide +kernel)⟩

/-- A guild has no admin if the row of its creator is not saved, as the column `isadmin` of the
migration has it. With a column `isAdmin`, it has none either if it stays when its members are
deleted; and a member who is invited again has two rows, and is still a member after leaving. -/
theorem memberships_unsound :
    ¬Sound (afterRequests [.create ⟨some "hunters"⟩ 1 ⟨.ok, true, .refused⟩]) ∧
    ¬Sound (afterRequests [sampleCreate, .remove 1 1 ⟨.guildFirst, .ok, .ok⟩]) ∧
    ¬Sound (afterRequests [sampleCreate, sampleInvite [2], sampleInvite [2]]) ∧
    ¬Sound (afterRequests [sampleCreate, sampleInvite [2], sampleInvite [2], sampleLeave 2]) := by
  refine ⟨fun h => ?_, fun h => ?_, fun h => ?_, fun h => ?_⟩
  · exact absurd (h.oneAdmin ⟨1, "hunters"⟩ (by decide +kernel)) (by decide +kernel)
  · exact absurd (h.oneAdmin ⟨1, "hunters"⟩ (by decide +kernel)) (by decide +kernel)
  · exact absurd (h.once 1 2) (by decide +kernel)
  · exact absurd (h.left 2 1 (by decide +kernel)) (by decide +kernel)

end Cme.Guilds
