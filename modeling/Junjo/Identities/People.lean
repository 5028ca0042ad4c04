import Junjo.Core.Statements
import Junjo.Members.Store

/-!
# People and their linked ids

The tables whose rows name a person by internal id, what a person holds in them, and the merge of
two people whose ids are linked. A table is kept under its primary key.
-/

namespace Junjo.Identities

/-! ### Rows -/

structure ExternalIdentity where
  gameId : Text
  junjoUserId : Text
  externalUserId : Text
  linkedAt : ℤ

structure GroupMember extends Member where
  groupId : Text
  junjoUserId : Text

structure AuditEntry where
  gameId : Text
  groupId : Option Text
  actorUserId : Option Text
  action : Text
  targetId : Option Text

structure Invitation where
  groupId : Text
  createdByUserId : Option Text
  usedByUserId : Option Text

structure UserRelationship where
  gameId : Text
  actorJunjoUserId : Text
  targetJunjoUserId : Text
  type : Text

structure FriendTag where
  gameId : Text
  junjoUserId : Text
  name : Text

structure UserRelationshipTag where
  userRelationshipId : Text
  friendTagId : Text
deriving DecidableEq

/-! ### The tables -/

structure PeopleDb where
  /-- The rows of `JunjoUser`. -/
  people : Finset Text
  externalIdentities : Dict Text ExternalIdentity
  groupMembers : Dict Text GroupMember
  auditEntries : Dict Text AuditEntry
  invitations : Dict Text Invitation
  userRelationships : Dict Text UserRelationship
  friendTags : Dict Text FriendTag
  userRelationshipTags : Finset UserRelationshipTag
  /-- The friends list visibility that each person chose. -/
  userVisibilities : Dict Person Text
  gameBans : Dict Text GameBan
  banHistory : Dict Text ModerationHistory
  sanctions : Dict Text Sanction
  sanctionHistory : Dict Text ModerationHistory
  /-- The moderation version of each person with a row. -/
  moderationStates : Dict Person ℕ
  groups : Dict Text Group
  /-- Whether each role is marked as a default. -/
  roles : Dict Text Bool
  /-- The limits of the kinds that a game's configuration lists. -/
  kinds : Dict (Text × Text) GroupKindLimits

namespace PeopleDb

/-- A store without rows. -/
def empty : PeopleDb where
  people := ∅
  externalIdentities := Dict.empty
  groupMembers := Dict.empty
  auditEntries := Dict.empty
  invitations := Dict.empty
  userRelationships := Dict.empty
  friendTags := Dict.empty
  userRelationshipTags := ∅
  userVisibilities := Dict.empty
  gameBans := Dict.empty
  banHistory := Dict.empty
  sanctions := Dict.empty
  sanctionHistory := Dict.empty
  moderationStates := Dict.empty
  groups := Dict.empty
  roles := Dict.empty
  kinds := Dict.empty

variable (db : PeopleDb)

/-! ### What a person holds -/

structure Footprint where
  holdsSomething : Bool
  banned : Bool
deriving DecidableEq

def isEmptyObject : JsonValue → Bool
  | .null => true
  | .obj entries => entries.isEmpty
  | _ => false

/-- The role is the group's default, or marked as one where the group names none. -/
def isDefaultRole (roleId : Text) : Option Text → Bool
  | some defaultRoleId => roleId = defaultRoleId
  | none => db.roles.get? roleId = some true

/-- A ban, or an active membership that is more than plain membership with the default role. -/
def membershipHolds (m : GroupMember) : Bool :=
  m.status = .banned ||
    (m.status = .active &&
      (decide (∃ roleId ∈ m.roles,
          ¬ db.isDefaultRole roleId ((db.groups.get? m.groupId).bind (·.defaultRoleId))) ||
        0 < m.overrides.size || !isEmptyObject m.metadata || m.notesPublic.isSome ||
        m.notesPrivate.isSome))

def bannedInGroup (gameId : Text) (now : ℤ) (m : GroupMember) : Bool :=
  (db.groups.get? m.groupId).map Group.gameId = some gameId && m.status = .banned &&
    isActiveUntil m.bannedUntil now

def loadFootprint (gameId junjoUserId : Text) (now : ℤ) : Footprint :=
  let identities := db.externalIdentities.findMany fun _ i => i.junjoUserId = junjoUserId
  let memberships := db.groupMembers.findMany fun _ m => m.junjoUserId = junjoUserId
  let relationships := db.userRelationships.findMany fun _ r =>
    r.actorJunjoUserId = junjoUserId || r.targetJunjoUserId = junjoUserId
  let tags := db.friendTags.findMany fun _ t => t.junjoUserId = junjoUserId
  let visibility := db.userVisibilities.findMany fun p _ => p.junjoUserId = junjoUserId
  let gameBans := db.gameBans.findMany fun _ b => b.person.junjoUserId = junjoUserId
  let history := db.banHistory.findMany fun _ h => h.person.junjoUserId = junjoUserId
  let sanctions := db.sanctions.findMany fun _ s => s.person.junjoUserId = junjoUserId
  let sanctionHistory := db.sanctionHistory.findMany fun _ h => h.person.junjoUserId = junjoUserId
  let moderated := db.moderationStates.findMany fun p version =>
    p.junjoUserId = junjoUserId && 0 < version
  { banned :=
      gameBans.any (fun b => b.person.gameId = gameId && isActiveUntil b.expiresAt now) ||
        memberships.any (db.bannedInGroup gameId now)
    holdsSomething :=
      1 < identities.length || identities.any (fun i => i.gameId ≠ gameId) ||
        relationships ≠ [] || tags ≠ [] || visibility ≠ [] || gameBans ≠ [] || history ≠ [] ||
        sanctions ≠ [] || sanctionHistory ≠ [] || moderated ≠ [] ||
        memberships.any db.membershipHolds }

/-! ### The plan of a link -/

/-- The live groups of a kind in which one of `people` is active. -/
def activeGroups (gameId kind : Text) (people : List Text) : List Text :=
  (db.groups.entries.filter fun g =>
    g.2.gameId = gameId && g.2.kind = kind && g.2.softDeletedAt.isNone &&
      db.groupMembers.entries.any fun m =>
        m.2.groupId = g.1 && m.2.status = .active && decide (m.2.junjoUserId ∈ people)).map Prod.fst

/-- The kinds of which one person with the memberships of all of `people` would hold too many. -/
def mergedPerUserOverflow (gameId : Text) (people : List Text) : List Text :=
  let kinds := db.kinds.entries.filter fun e => e.1.1 = gameId && match e.2.maxPerUser with
    | some limit => limit < (db.activeGroups gameId e.1.2 people).length
    | none => false
  (kinds.map fun e => e.1.2).insertionSort (· ≤ ·)

inductive LinkError where
  | banned (message : Text)
  | linkRefused (message : Text) (kinds : List Text)
deriving DecidableEq

inductive LinkSide where
  | issuer
  | redeemer
deriving DecidableEq

structure LinkPlan where
  survivorId : Text
  attachedId : Text
  survivor : LinkSide
deriving DecidableEq

def planLink (gameId issuerId redeemerId : Text) (now : ℤ) : Except LinkError LinkPlan :=
  let overflow := db.mergedPerUserOverflow gameId [issuerId, redeemerId]
  let issuer := db.loadFootprint gameId issuerId now
  let redeemer := db.loadFootprint gameId redeemerId now
  if issuer.banned || redeemer.banned then
    .error (.banned (text "ids cannot be linked while either person is banned"))
  else if issuer.holdsSomething && redeemer.holdsSomething then
    .error (.linkRefused (text
      "both ids belong to people with roles, relationships or history; staff must merge them") [])
  else if overflow ≠ [] then
    .error (.linkRefused (text "linking would put this person in more groups of kind " ++
      (text ", ").intercalate overflow ++ text " than allowed") overflow)
  else if redeemer.holdsSomething then .ok ⟨redeemerId, issuerId, .redeemer⟩
  else .ok ⟨issuerId, redeemerId, .issuer⟩

/-! ### The merge -/

/-- `DELETE FROM "JunjoUser"` with the rows that cascade, unless the person has no row. -/
def deletePerson (junjoUserId : Text) : Option PeopleDb :=
  let related (r : UserRelationship) : Bool :=
    r.actorJunjoUserId = junjoUserId || r.targetJunjoUserId = junjoUserId
  let owned (t : FriendTag) : Bool := t.junjoUserId = junjoUserId
  if junjoUserId ∈ db.people then
    some { db with
      people := db.people.erase junjoUserId
      externalIdentities := db.externalIdentities.deleteMany fun _ i => i.junjoUserId = junjoUserId
      groupMembers := db.groupMembers.deleteMany fun _ m => m.junjoUserId = junjoUserId
      auditEntries := db.auditEntries.updateMany (fun _ e => e.actorUserId = some junjoUserId)
        fun e => { e with actorUserId := none }
      userRelationships := db.userRelationships.deleteMany fun _ r => related r
      friendTags := db.friendTags.deleteMany fun _ t => owned t
      userRelationshipTags := db.userRelationshipTags.filter fun t =>
        (db.userRelationships.get? t.userRelationshipId).any related = false ∧
          (db.friendTags.get? t.friendTagId).any owned = false
      userVisibilities := db.userVisibilities.deleteMany fun p _ => p.junjoUserId = junjoUserId
      gameBans := db.gameBans.deleteMany fun _ b => b.person.junjoUserId = junjoUserId
      banHistory := db.banHistory.deleteMany fun _ h => h.person.junjoUserId = junjoUserId
      sanctions := db.sanctions.deleteMany fun _ s => s.person.junjoUserId = junjoUserId
      sanctionHistory := db.sanctionHistory.deleteMany fun _ h => h.person.junjoUserId = junjoUserId
      moderationStates := db.moderationStates.deleteMany fun p _ => p.junjoUserId = junjoUserId }
  else none

variable (survivorId attachedId : Text)

def moveIdentities (now : ℤ) : PeopleDb :=
  { db with
    externalIdentities := db.externalIdentities.updateMany (fun _ i => i.junjoUserId = attachedId)
      fun i => { i with junjoUserId := survivorId, linkedAt := now } }

/-- Whether the person has a membership in the group. -/
def inGroup (junjoUserId groupId : Text) : Bool :=
  db.groupMembers.entries.any fun m => m.2.junjoUserId = junjoUserId && m.2.groupId = groupId

/-- The attached person's memberships in the survivor's groups are dropped, the others moved. -/
def moveMembers : PeopleDb :=
  let attached := db.groupMembers.entries.filter fun m => m.2.junjoUserId = attachedId
  let drop := (attached.filter fun m => db.inGroup survivorId m.2.groupId).map Prod.fst
  let move := (attached.filter fun m => !db.inGroup survivorId m.2.groupId).map Prod.fst
  { db with
    groupMembers := (db.groupMembers.deleteMany fun id _ => decide (id ∈ drop)).updateMany
      (fun id _ => decide (id ∈ move))
      fun m => { m with junjoUserId := survivorId, version := m.version + 1 } }

/-- Columns that name a person by internal id without a foreign key. -/
def repointAttribution : PeopleDb :=
  { db with
    auditEntries := db.auditEntries.updateMany (fun _ e => e.actorUserId = some attachedId)
      fun e => { e with actorUserId := some survivorId }
    gameBans := db.gameBans.updateMany (fun _ b => b.bannedByUserId = some attachedId)
      fun b => { b with bannedByUserId := some survivorId }
    banHistory := db.banHistory.updateMany (fun _ h => h.actorJunjoUserId = some attachedId)
      fun h => { h with actorJunjoUserId := some survivorId }
    invitations :=
      (db.invitations.updateMany (fun _ i => i.createdByUserId = some attachedId)
        fun i => { i with createdByUserId := some survivorId }).updateMany
          (fun _ i => i.usedByUserId = some attachedId)
          fun i => { i with usedByUserId := some survivorId } }

def mergePeople (now : ℤ) : Option PeopleDb :=
  (((db.moveIdentities survivorId attachedId now).moveMembers survivorId attachedId)
    |>.repointAttribution survivorId attachedId).deletePerson attachedId

end PeopleDb

end Junjo.Identities
