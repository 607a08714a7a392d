import CmeBackend.Lib.Runs
import CmeBackend.Map.Entities

/-!
# Guilds

`GuildService` (`guild.service.ts`) over the tables `guilds` and `guilds_users` as the migrations
create them: no unique constraint keeps a user from having two rows of one guild, and no cascade
takes the members of a guild along.

* How a statement ends is a `Reply`. A request that fails at a query before its first statement
  writes nothing.
* `leave` and `remove` do not wait for their deletions: the two of a whole guild reach the database
  in either order (`Deletion`), and the caller has been told of success.
-/

namespace Cme.Guilds

open Runs

structure Guild where
  id : ℕ
  name : String
  deriving DecidableEq, Repr

/-- A row of `guilds_users`. -/
structure GuildMembers where
  id : ℕ
  guildId : ℕ
  userId : ℕ
  isAdmin : Bool
  deriving DecidableEq, Repr

instance : Keyed Guild := ⟨Guild.id⟩
instance : Keyed GuildMembers := ⟨GuildMembers.id⟩

structure GuildDb where
  users : Table Map.User
  guilds : Table Guild
  guildMembers : Table GuildMembers

/-- How a request ends that does not succeed. -/
inductive Failure where
  /-- `findOneOrFail` -/
  | entityNotFound
  | error (message : String)
  /-- A call that fails. -/
  | failed
  deriving DecidableEq

structure CreateGuildDto where
  name : Option String

structure InviteMembersToGuildDto where
  id : Option ℕ
  members : List ℕ

/-! ## Queries -/

structure LoadedGuild where
  guild : Guild
  guildMembers : List GuildMembers

/-- `guildRepository.findOneOrFail(id, { relations: ['guildMembers'] })`. Without an id it finds the
first guild. -/
def findGuild (d : GuildDb) (id : Option ℕ) : Except Failure LoadedGuild :=
  match (match id with
    | some id => d.guilds.get? id
    | none => d.guilds.rows.head?) with
  | some guild => .ok ⟨guild, d.guildMembers.rows.filter (·.guildId = guild.id)⟩
  | none => .error .entityNotFound

/-- `guild?.guildMembers?.find((member) => member.user.id === userId)` -/
def LoadedGuild.member? (guild : LoadedGuild) (userId : ℕ) : Option GuildMembers :=
  guild.guildMembers.find? (·.userId = userId)

/-- `usersRepository.findByIds(ids)` -/
def findByIds (d : GuildDb) (ids : List ℕ) : List Map.User := d.users.rows.filter (·.id ∈ ids)

/-! ## Statements -/

namespace GuildDb

def saveGuild (d : GuildDb) (name : String) : GuildDb :=
  { d with guilds := d.guilds.insert fun id => { id, name } }

def saveMember (d : GuildDb) (guildId userId : ℕ) (isAdmin : Bool) : GuildDb :=
  { d with guildMembers := d.guildMembers.insert fun id => { id, guildId, userId, isAdmin } }

def saveMembers (d : GuildDb) (guildId : ℕ) (users : List Map.User) : GuildDb :=
  users.foldl (fun d user => d.saveMember guildId user.id false) d

/-- `guildMembersRepository.remove(user)` -/
def removeMember (d : GuildDb) (id : ℕ) (reply : Reply) : GuildDb :=
  if reply = .refused then d else { d with guildMembers := d.guildMembers.delete id }

/-- `guildMembersRepository.delete({ guild })` -/
def deleteMembers (d : GuildDb) (guildId : ℕ) (reply : Reply) : GuildDb :=
  if reply = .refused then d else
    { d with guildMembers := d.guildMembers.deleteWhere (·.guildId = guildId) }

def HasMembers (d : GuildDb) (guildId : ℕ) : Prop :=
  ∃ m ∈ d.guildMembers.rows, m.guildId = guildId

instance (d : GuildDb) (guildId : ℕ) : Decidable (d.HasMembers guildId) :=
  inferInstanceAs (Decidable (∃ m ∈ d.guildMembers.rows, _))

/-- `guildRepository.remove(guild)`, which fails while a row refers to the guild. -/
def removeGuild (d : GuildDb) (guildId : ℕ) (reply : Reply) : GuildDb :=
  if reply = .refused ∨ d.HasMembers guildId then d else
    { d with guilds := d.guilds.delete guildId }

end GuildDb

/-- Which of the two deletions of a guild reaches the database first. -/
inductive Order where
  | membersFirst
  | guildFirst
  deriving DecidableEq

/-- How the two deletions of a guild go. -/
structure Deletion where
  order : Order
  members : Reply
  guild : Reply
  deriving DecidableEq

/-- The membership rows and the guild, neither awaited. -/
def GuildDb.deleteGuild (d : GuildDb) (guildId : ℕ) (x : Deletion) : GuildDb :=
  match x.order with
  | .membersFirst => (d.deleteMembers guildId x.members).removeGuild guildId x.guild
  | .guildFirst => (d.removeGuild guildId x.guild).deleteMembers guildId x.members

/-! ## Requests -/

/-- How the calls of `create` end. -/
structure Creation where
  guild : Reply
  /-- The query for the user goes through. -/
  user : Bool
  member : Reply
  deriving DecidableEq

/-- `GuildService.create` -/
def create (d : GuildDb) (dto : CreateGuildDto) (userId : ℕ) (x : Creation) :
    GuildDb × Except Failure Guild :=
  let guild : Guild := { id := d.guilds.next, name := dto.name.getD "guild" }
  let saved := d.saveGuild guild.name
  match x.guild, d.users.get? userId with
  | .refused, _ => (d, .error .failed)
  | .lost, _ => (saved, .error .failed)
  | .ok, none => (saved, .error .entityNotFound)
  | .ok, some user =>
    if !x.user then (saved, .error .failed) else
      match x.member with
      | .refused => (saved, .error .failed)
      | .lost => (saved.saveMember guild.id user.id true, .error .failed)
      | .ok => (saved.saveMember guild.id user.id true, .ok guild)

/-- The part of `invite` before the rows are saved. -/
def checkInvite (d : GuildDb) (dto : InviteMembersToGuildDto) (userId : ℕ) :
    Except Failure (Guild × List Map.User) := do
  let guild ← findGuild d dto.id
  if (d.users.get? userId).isNone then .error (.error "User is not in this guild") else
    if (guild.member? userId).any (·.isAdmin) then .ok (guild.guild, findByIds d dto.members)
    else .error (.error "Only admin can invite users to guild")

/-- `GuildService.invite` -/
def invite (d : GuildDb) (dto : InviteMembersToGuildDto) (userId : ℕ) (save : Reply) :
    GuildDb × Except Failure Guild :=
  match checkInvite d dto userId with
  | .error e => (d, .error e)
  | .ok (guild, members) =>
    match save with
    | .refused => (d, .error .failed)
    | .lost => (d.saveMembers guild.id members, .error .failed)
    | .ok => (d.saveMembers guild.id members, .ok guild)

/-- The part of `leave` before the deletions: the guild, and the row of the user. -/
def checkLeave (d : GuildDb) (guildId userId : ℕ) : Except Failure (Guild × GuildMembers) := do
  let guild ← findGuild d (some guildId)
  if (d.users.get? userId).isNone then .error (.error "You are not in this guild") else
    match guild.member? userId with
    | none => .error (.error "User is not in this guild")
    | some user => .ok (guild.guild, user)

/-- `GuildService.leave` -/
def leave (d : GuildDb) (guildId userId : ℕ) (removal : Reply) (deletion : Deletion) :
    GuildDb × Except Failure Guild :=
  match checkLeave d guildId userId with
  | .error e => (d, .error e)
  | .ok (guild, user) =>
    (if user.isAdmin then d.deleteGuild guild.id deletion else d.removeMember user.id removal,
      .ok guild)

/-- The part of `remove` before the deletions. -/
def checkRemove (d : GuildDb) (guildId requesterId : ℕ) : Except Failure Guild := do
  let guild ← findGuild d (some guildId)
  if (d.users.get? requesterId).isNone then .error .entityNotFound else
    if (guild.member? requesterId).any (·.isAdmin) then .ok guild.guild
    else .error (.error "You are not admin of this guild")

/-- `GuildService.remove` -/
def remove (d : GuildDb) (guildId requesterId : ℕ) (deletion : Deletion) :
    GuildDb × Except Failure Guild :=
  match checkRemove d guildId requesterId with
  | .error e => (d, .error e)
  | .ok guild => (d.deleteGuild guild.id deletion, .ok guild)

/-! ## What a request has passed -/

variable {d : GuildDb} {guildId userId : ℕ} {guild : Guild}

theorem findGuild_eq_ok {id : Option ℕ} {loaded : LoadedGuild} (h : findGuild d id = .ok loaded) :
    loaded.guild ∈ d.guilds.rows ∧ (∀ i ∈ id, loaded.guild.id = i) ∧
      loaded.guildMembers = d.guildMembers.rows.filter (·.guildId = loaded.guild.id) := by
  unfold findGuild at h
  split at h
  next guild hguild =>
    cases h
    cases id with
    | none => exact ⟨List.mem_of_mem_head? hguild, (fun _ hi => nomatch hi), rfl⟩
    | some i =>
      obtain ⟨hmem, hid⟩ := Table.get?_eq_some.1 hguild
      refine ⟨hmem, fun j hj => ?_, rfl⟩
      cases hj
      exact hid
  · cases h

/-- The row of a user is one of the guild's. -/
theorem member?_eq_some {loaded : LoadedGuild} {m : GuildMembers}
    (hrows : loaded.guildMembers = d.guildMembers.rows.filter (·.guildId = loaded.guild.id))
    (h : loaded.member? userId = some m) :
    m ∈ d.guildMembers.rows ∧ m.guildId = loaded.guild.id ∧ m.userId = userId := by
  have hmem := List.mem_of_find?_eq_some h
  rw [hrows] at hmem
  obtain ⟨hm, hguild⟩ := List.mem_filter.1 hmem
  have huser := List.find?_some h
  exact ⟨hm, of_decide_eq_true hguild, of_decide_eq_true huser⟩

theorem checkInvite_eq_ok {dto : InviteMembersToGuildDto} {members : List Map.User}
    (h : checkInvite d dto userId = .ok (guild, members)) :
    guild ∈ d.guilds.rows ∧ members = findByIds d dto.members := by
  obtain ⟨loaded, hloaded, h⟩ := bind_eq_ok.1 h
  split at h
  · cases h
  · split at h
    · cases h
      exact ⟨(findGuild_eq_ok hloaded).1, rfl⟩
    · cases h

theorem checkLeave_eq_ok {user : GuildMembers}
    (h : checkLeave d guildId userId = .ok (guild, user)) :
    guild ∈ d.guilds.rows ∧ guild.id = guildId ∧ user ∈ d.guildMembers.rows ∧
      user.guildId = guildId ∧ user.userId = userId := by
  obtain ⟨loaded, hloaded, h⟩ := bind_eq_ok.1 h
  obtain ⟨hguild, hid, hrows⟩ := findGuild_eq_ok hloaded
  have hid := hid guildId rfl
  split at h
  · cases h
  · split at h
    · cases h
    next user' hmember =>
      cases h
      obtain ⟨hmem, huserGuild, huser⟩ := member?_eq_some hrows hmember
      exact ⟨hguild, hid, hmem, huserGuild.trans hid, huser⟩

theorem checkRemove_eq_ok (h : checkRemove d guildId userId = .ok guild) :
    guild ∈ d.guilds.rows ∧ guild.id = guildId ∧
      ∃ m ∈ d.guildMembers.rows, m.guildId = guildId ∧ m.isAdmin := by
  obtain ⟨loaded, hloaded, h⟩ := bind_eq_ok.1 h
  obtain ⟨hguild, hid, hrows⟩ := findGuild_eq_ok hloaded
  have hid := hid guildId rfl
  split at h
  · cases h
  · split at h
    next hadmin =>
      cases h
      obtain ⟨m, hm, hadmin⟩ := (Option.any_eq_true _ _).1 hadmin
      obtain ⟨hmem, hguild', -⟩ := member?_eq_some hrows hm
      exact ⟨hguild, hid, m, hmem, hguild'.trans hid, hadmin⟩
    · cases h

/-! ## What the deletions of a guild leave -/

/-- The deletion of the guild comes too early. -/
theorem deleteGuild_guildFirst (h : d.HasMembers guildId) (members guild : Reply) :
    d.deleteGuild guildId ⟨.guildFirst, members, guild⟩ = d.deleteMembers guildId members := by
  simp only [GuildDb.deleteGuild, GuildDb.removeGuild, if_pos (Or.inr h)]

theorem not_hasMembers_deleteMembers {members : Reply} (h : members ≠ .refused) :
    ¬(d.deleteMembers guildId members).HasMembers guildId := by
  rintro ⟨m, hm, hguild⟩
  rw [GuildDb.deleteMembers, if_neg h] at hm
  have hkept := (List.mem_filter.1 hm).2
  simp [hguild] at hkept

/-- The membership rows stay, and the guild with them. -/
theorem deleteGuild_refused (h : d.HasMembers guildId) (order : Order) (guild : Reply) :
    d.deleteGuild guildId ⟨order, .refused, guild⟩ = d := by
  cases order with
  | membersFirst =>
    show d.removeGuild guildId guild = d
    rw [GuildDb.removeGuild, if_pos (.inr h)]
  | guildFirst => exact deleteGuild_guildFirst h .refused guild

theorem deleteGuild_membersFirst {members guild : Reply} (hmembers : members ≠ .refused)
    (hguild : guild ≠ .refused) :
    d.deleteGuild guildId ⟨.membersFirst, members, guild⟩ =
      { d with
        guilds := d.guilds.delete guildId
        guildMembers := d.guildMembers.deleteWhere (·.guildId = guildId) } := by
  have hnone : ¬(d.deleteMembers guildId members).HasMembers guildId :=
    not_hasMembers_deleteMembers hmembers
  simp only [GuildDb.deleteGuild]
  rw [GuildDb.removeGuild, if_neg (not_or.2 ⟨hguild, hnone⟩), GuildDb.deleteMembers,
    if_neg hmembers]

/-- The guild stays without members if only its own deletion fails. -/
theorem deleteGuild_guild_refused {members : Reply} :
    d.deleteGuild guildId ⟨.membersFirst, members, .refused⟩ = d.deleteMembers guildId members := by
  simp only [GuildDb.deleteGuild, GuildDb.removeGuild, true_or, if_true]

end Cme.Guilds
