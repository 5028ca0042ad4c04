import Junjo.Core.Transactions
import Junjo.Events.EventLog
import Junjo.Moderation.Store
import Junjo.Permissions.Tables

/-!
# Groups and their members

The tables of membership writes: groups, their members with roles and overrides, invitations, the
settings and identities that the writes read, and the event log. A member row is kept under its
unique key, with the rows of `MemberRole` and `MemberPermissionOverride` that hang on it.
-/

namespace Junjo

/-- The unique key of a member row. -/
structure MemberKey where
  groupId : Text
  junjoUserId : Text
deriving DecidableEq

/-- An override row, without its key. -/
structure MemberOverride where
  grant : Bool
  context : Option PermissionContext
deriving DecidableEq

structure Member where
  status : MemberStatus
  metadata : JsonValue
  notesPublic : Option Text
  notesPrivate : Option Text
  joinedAt : ℤ
  leftAt : Option ℤ
  bannedUntil : Option ℤ
  version : ℕ
  roles : Finset Text
  /-- By permission key and canonical context. -/
  overrides : Dict (Text × Text) MemberOverride

inductive GroupVisibility where
  | isPublic
  | inviteOnly
  | secret
deriving DecidableEq

structure Group where
  gameId : Text
  kind : Text
  visibility : GroupVisibility
  passcodeHash : Option Text
  defaultRoleId : Option Text
  softDeletedAt : Option ℤ
deriving DecidableEq

structure GroupKindLimits where
  maxMembers : Option ℕ
  maxPerUser : Option ℕ
  deleteWhenEmpty : Bool
deriving DecidableEq

structure Invitation where
  groupId : Text
  targetUserId : Option Text
  expiresAt : Option ℤ
  usedAt : Option ℤ
  usedByUserId : Option Text
deriving DecidableEq

/-! ### Events -/

/-- The member that an event shows. -/
structure PublicMember where
  status : MemberStatus
  roles : Finset Text
  metadata : JsonValue
  notesPublic : Option Text
  notesPrivate : Option Text
  joinedAt : ℤ
  bannedUntil : Option ℤ
  version : ℕ

def toPublicMember (member : Member) (roleIds : Finset Text) : PublicMember :=
  ⟨member.status, roleIds, member.metadata, member.notesPublic, member.notesPrivate,
    member.joinedAt, member.bannedUntil, member.version⟩

inductive MemberChangeField where
  | metadata
  | notes
  | overrides
deriving DecidableEq

inductive MemberEventType where
  | joined (member : PublicMember)
  | left (reason : MemberStatus)
  | banned (reason : Option Text) (bannedUntil : Option ℤ)
  | unbanned
  | updated (changed : List MemberChangeField)
  | roleChanged (added removed : Finset Text) (actorUserId : Option Text)

/-- An event about a member, whom it names by `userId`. -/
structure MemberEvent where
  type : MemberEventType
  key : MemberKey
  userId : Text
  memberVersion : ℕ

inductive GroupEvent where
  | member (event : MemberEvent)
  | deleted (groupId : Text)

/-- The member event that a group event is, when it is about a member. -/
def GroupEvent.about (key : MemberKey) : GroupEvent → Option MemberEvent
  | .member event => if event.key = key then some event else none
  | .deleted _ => none

/-! ### The tables -/

structure MemberDb where
  groups : Dict Text Group
  /-- The limits of the kinds that a game's configuration lists. -/
  kinds : Dict (Text × Text) GroupKindLimits
  /-- The permission mode of each game. -/
  modes : Dict Text PermissionMode
  /-- The group of each role. -/
  roles : Dict Text Text
  /-- The person behind an external id of a game. -/
  identities : Dict (Text × Text) Text
  /-- The expiry of each game ban. -/
  gameBans : Dict Person (Option ℤ)
  members : Dict MemberKey Member
  /-- By code. -/
  invitations : Dict Text Invitation
  eventLog : EventLog GroupEvent

inductive MemberLock where
  | group (groupId : Text)
  | member (key : MemberKey)
  /-- The advisory lock of a person's count in a kind. -/
  | count (gameId kind junjoUserId : Text)
  | invitation (code : Text)
  /-- The game's row of the event counters. -/
  | counter (gameId : Text)
deriving DecidableEq

def MemberLock.conflicts (k l : MemberLock) : Bool := k = l

namespace MemberDb

/-- A store without rows. -/
def empty : MemberDb where
  groups := Dict.empty
  kinds := Dict.empty
  modes := Dict.empty
  roles := Dict.empty
  identities := Dict.empty
  gameBans := Dict.empty
  members := Dict.empty
  invitations := Dict.empty
  eventLog := EventLog.empty

variable (db : MemberDb)

/-! ### Reads -/

/-- A group of a game that is not deleted. -/
def findGroup (gameId id : Text) : Option Group :=
  (db.groups.get? id).filter fun g => g.gameId = gameId && g.softDeletedAt.isNone

def findMember (key : MemberKey) : Option Member := db.members.get? key

def findJunjoUserId (gameId userId : Text) : Option Text := db.identities.get? (gameId, userId)

/-- The limits of a kind, when it is listed. -/
def kindLimits (gameId kind : Text) : Option GroupKindLimits := db.kinds.get? (gameId, kind)

def activeCount (groupId : Text) : ℕ :=
  db.members.entries.countP fun e => e.1.groupId = groupId && e.2.status = .active

/-- How many other groups of the kind, not deleted, a person is active in. -/
def otherMemberships (gameId kind groupId junjoUserId : Text) : ℕ :=
  db.members.entries.countP fun e =>
    e.1.junjoUserId = junjoUserId && e.2.status = .active && e.1.groupId ≠ groupId &&
      (db.groups.get? e.1.groupId).any fun g =>
        g.gameId = gameId && g.kind = kind && g.softDeletedAt.isNone

/-! ### Changes -/

/-- Insert a group; refused when its id is taken. -/
def insertGroup (id : Text) (group : Group) : Option MemberDb :=
  if db.groups.has id then none else some { db with groups := db.groups.set id group }

def updateGroup (id : Text) (data : Group → Group) : Option MemberDb :=
  (db.groups.get? id).map fun g => { db with groups := db.groups.set id (data g) }

/-- Insert a member row; refused when the person has one in the group. -/
def insertMember (key : MemberKey) (member : Member) : Option MemberDb :=
  if db.members.has key then none else some { db with members := db.members.set key member }

/-- Update a member row; refused when there is none. -/
def updateMember (key : MemberKey) (data : Member → Member) : Option MemberDb :=
  (db.members.get? key).map fun m => { db with members := db.members.set key (data m) }

/-- Insert a role of a member; refused when the member has it. -/
def insertMemberRole (key : MemberKey) (roleId : Text) : Option MemberDb :=
  (db.members.get? key).bind fun m =>
    if roleId ∈ m.roles then none
    else some { db with members := db.members.set key { m with roles := insert roleId m.roles } }

/-- Mark an invitation as used, when it is not. -/
def consumeInvitation (code : Text) (usedAt : ℤ) (usedBy : Option Text) : MemberDb :=
  match db.invitations.get? code with
  | some invitation =>
    if invitation.usedAt.isNone then
      let used := { invitation with usedAt := some usedAt, usedByUserId := usedBy }
      { db with invitations := db.invitations.set code used }
    else db
  | none => db

/-- Delete an invitation; refused when there is none. -/
def deleteInvitation (code : Text) : Option MemberDb :=
  if db.invitations.has code then some { db with invitations := db.invitations.delete code }
  else none

def writeEvents (gameId : Text) (events : List GroupEvent) : MemberDb :=
  { db with eventLog := db.eventLog.write gameId events }

end MemberDb

end Junjo
