import CmeBackend.Guilds.Service

/-!
# The deletion of a guild

The two deletions of `remove`, and of `leave` by an admin, in both orders, with no call that fails
but for the foreign key of `guilds_users`.

* `gone_deleteGuild_iff`: with members, the deletion of the guild has to come second.
* `deletion_complete_iff`: the requests.
-/

namespace Cme.Guilds

variable {d : GuildDb} {guildId : ℕ}

/-- Neither the guild is left nor a membership row of it. -/
def Gone (d : GuildDb) (guildId : ℕ) : Prop :=
  (∀ guild ∈ d.guilds.rows, guild.id ≠ guildId) ∧ ¬d.HasMembers guildId

instance (d : GuildDb) (guildId : ℕ) : Decidable (Gone d guildId) :=
  inferInstanceAs (Decidable ((∀ guild ∈ _, _) ∧ _))

theorem gone_deleteGuild_iff (h : ∃ guild ∈ d.guilds.rows, guild.id = guildId) (order : Order) :
    Gone (d.deleteGuild guildId ⟨order, .ok, .ok⟩) guildId ↔
      order = .membersFirst ∨ ¬d.HasMembers guildId := by
  have hdeleted : ∀ guild ∈ (d.guilds.delete guildId).rows, guild.id ≠ guildId := by
    intro guild hmem
    exact of_decide_eq_true (List.mem_filter.1 hmem).2
  cases order with
  | membersFirst =>
    refine iff_of_true ?_ (.inl rfl)
    have hnone : ¬(d.deleteMembers guildId .ok).HasMembers guildId :=
      not_hasMembers_deleteMembers (by decide)
    rw [deleteGuild_membersFirst (by decide) (by decide)]
    exact ⟨hdeleted, hnone⟩
  | guildFirst =>
    by_cases hmembers : d.HasMembers guildId
    · rw [deleteGuild_guildFirst hmembers]
      obtain ⟨guild, hmem, hid⟩ := h
      refine iff_of_false (fun hgone => hgone.1 guild hmem hid) ?_
      rintro (horder | hnone)
      · cases horder
      · exact hnone hmembers
    · refine iff_of_true ⟨?_, not_hasMembers_deleteMembers (by decide)⟩ (.inr hmembers)
      have hremoved : d.removeGuild guildId .ok = { d with guilds := d.guilds.delete guildId } :=
        if_neg (not_or.2 ⟨by decide, hmembers⟩)
      show ∀ guild ∈ (d.removeGuild guildId .ok).guilds.rows, guild.id ≠ guildId
      rw [hremoved]
      exact hdeleted

/-- A guild that an admin removes or leaves is gone, with all of its members, exactly if the
deletion of the membership rows reaches the database first. -/
theorem deletion_complete_iff (d : GuildDb) (guildId userId : ℕ) (order : Order) :
    (∀ guild, checkRemove d guildId userId = .ok guild →
      (Gone (remove d guildId userId ⟨order, .ok, .ok⟩).1 guildId ↔ order = .membersFirst)) ∧
    ∀ guild user, checkLeave d guildId userId = .ok (guild, user) → user.isAdmin →
      (Gone (leave d guildId userId .ok ⟨order, .ok, .ok⟩).1 guildId ↔ order = .membersFirst) := by
  constructor
  · intro guild h
    obtain ⟨hguild, rfl, m, hm, hmguild, -⟩ := checkRemove_eq_ok h
    have hmembers : d.HasMembers guild.id := ⟨m, hm, hmguild⟩
    rw [remove, h]
    exact (gone_deleteGuild_iff ⟨guild, hguild, rfl⟩ order).trans
      (or_iff_left (not_not_intro hmembers))
  · intro guild user h hadmin
    obtain ⟨hguild, rfl, hm, hmguild, -⟩ := checkLeave_eq_ok h
    have hmembers : d.HasMembers guild.id := ⟨user, hm, hmguild⟩
    rw [leave, h]
    simp only [hadmin, if_true]
    exact (gone_deleteGuild_iff ⟨guild, hguild, rfl⟩ order).trans
      (or_iff_left (not_not_intro hmembers))

/-- A guild with an admin and a member. -/
def sampleGuild : GuildDb where
  users :=
    { rows := [⟨1, false⟩, ⟨2, false⟩]
      next := 3
      nodup := by decide
      lt_next := by decide }
  guilds :=
    { rows := [⟨1, "guild"⟩]
      next := 2
      nodup := by decide
      lt_next := by decide }
  guildMembers :=
    { rows := [⟨1, 1, 1, true⟩, ⟨2, 1, 2, false⟩]
      next := 3
      nodup := by decide
      lt_next := by decide }

theorem deletion_complete_iff_sample :
    Gone (remove sampleGuild 1 1 ⟨.membersFirst, .ok, .ok⟩).1 1 ∧
      Gone (leave sampleGuild 1 1 .ok ⟨.membersFirst, .ok, .ok⟩).1 1 :=
  ⟨((deletion_complete_iff sampleGuild 1 1 .membersFirst).1 ⟨1, "guild"⟩ (by decide +kernel)).2 rfl,
    ((deletion_complete_iff sampleGuild 1 1 .membersFirst).2 ⟨1, "guild"⟩ ⟨1, 1, 1, true⟩
      (by decide +kernel) rfl).2 rfl⟩

/-- The guild is still there, without members, and the caller is told that it is gone. -/
theorem guild_left_behind :
    (remove sampleGuild 1 1 ⟨.guildFirst, .ok, .ok⟩).2 = .ok ⟨1, "guild"⟩ ∧
      ¬Gone (remove sampleGuild 1 1 ⟨.guildFirst, .ok, .ok⟩).1 1 ∧
      (leave sampleGuild 1 1 .ok ⟨.guildFirst, .ok, .ok⟩).2 = .ok ⟨1, "guild"⟩ ∧
      ¬Gone (leave sampleGuild 1 1 .ok ⟨.guildFirst, .ok, .ok⟩).1 1 := by
  decide +kernel

end Cme.Guilds
