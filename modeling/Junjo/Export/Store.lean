import Junjo.Core.IsoDate
import Junjo.Core.JsonText
import Junjo.Core.Keyset

/-!
# The tables of an export

The rows an export reads, with the columns it writes. Rows that belong to another row, such as the
entries of a role, are kept in that row.
-/

namespace Junjo.Export

open IsoDate (Instant)

/-- A `jsonb` column. -/
abbrev Stored := { value : JsonValue // Json.Valid value }

structure Game where
  id : Text
  name : Text
  config : Stored
  networkId : Option Text
  createdAt : Instant
  updatedAt : Instant

structure ExternalIdentity where
  id : Text
  gameId : Text
  junjoUserId : Text
  externalUserId : Text
  linkedAt : Instant
  displayName : Option Text
  displayNameUpdatedAt : Option Instant

structure Group where
  id : Text
  gameId : Text
  kind : Text
  name : Text
  visibility : Text
  metadata : Stored
  defaultRoleId : Option Text
  passcodeHash : Option Text
  parentGroupId : Option Text
  createdAt : Instant
  updatedAt : Instant
  softDeletedAt : Option Instant
  memberActivityAt : Instant

structure RolePermission where
  permissionKey : Text
  value : Bool
  context : Option Stored
  contextKey : Text

structure Role where
  id : Text
  groupId : Text
  name : Text
  priority : ℤ
  color : Option Text
  isDefault : Bool
  metadata : Stored
  createdAt : Instant
  updatedAt : Instant
  rolePermissions : List RolePermission
  parentRoleIds : List Text

structure PermissionOverride where
  permissionKey : Text
  grant : Bool
  setAt : Instant
  setByUserId : Option Text
  context : Option Stored
  contextKey : Text

structure GroupMember where
  id : Text
  groupId : Text
  junjoUserId : Text
  status : Text
  metadata : Stored
  notesPublic : Option Text
  notesPrivate : Option Text
  joinedAt : Instant
  leftAt : Option Instant
  version : ℤ
  bannedUntil : Option Instant
  memberRoleIds : List Text
  permissionOverrides : List PermissionOverride

structure Invitation where
  id : Text
  groupId : Text
  code : Text
  roleId : Option Text
  targetUserId : Option Text
  createdByUserId : Option Text
  createdAt : Instant
  expiresAt : Option Instant
  usedAt : Option Instant
  usedByUserId : Option Text

structure GroupRelationship where
  groupAId : Text
  groupBId : Text
  type : Text
  since : Instant
  setByUserId : Option Text

structure GameBan where
  id : Text
  gameId : Text
  junjoUserId : Text
  bannedAt : Instant
  expiresAt : Option Instant
  reason : Option Text
  bannedByUserId : Option Text
  issuer : Option Text

structure BanHistory where
  id : Text
  gameId : Text
  junjoUserId : Text
  scope : Text
  groupId : Option Text
  kind : Text
  reason : Option Text
  expiresAt : Option Instant
  eventAt : Instant
  actorJunjoUserId : Option Text
  issuer : Option Text

structure Sanction where
  id : Text
  gameId : Text
  junjoUserId : Text
  type : Text
  reason : Option Text
  issuer : Option Text
  issuedByUserId : Option Text
  startedAt : Instant
  expiresAt : Option Instant

structure SanctionHistory where
  id : Text
  gameId : Text
  junjoUserId : Text
  type : Text
  kind : Text
  reason : Option Text
  expiresAt : Option Instant
  eventAt : Instant
  actorJunjoUserId : Option Text
  issuer : Option Text

structure UserRelationship where
  id : Text
  gameId : Text
  actorJunjoUserId : Text
  targetJunjoUserId : Text
  type : Text
  createdAt : Instant
  respondedAt : Option Instant
  metadata : Stored

structure FriendTag where
  id : Text
  gameId : Text
  junjoUserId : Text
  name : Text
  color : Option Text
  createdAt : Instant
  relationshipIds : List Text

structure AuditEntry where
  id : Text
  gameId : Text
  groupId : Option Text
  actorUserId : Option Text
  action : Text
  targetId : Option Text
  payload : Stored
  apiKeyId : Option Text
  createdAt : Instant

/-- The tables. A primary key names one row, the id of a person is not empty, and no text holds the
null character. -/
structure Database where
  games : List Game
  externalIdentities : List ExternalIdentity
  groups : List Group
  roles : List Role
  groupMembers : List GroupMember
  invitations : List Invitation
  groupRelationships : List GroupRelationship
  gameBans : List GameBan
  banHistory : List BanHistory
  sanctions : List Sanction
  sanctionHistory : List SanctionHistory
  userRelationships : List UserRelationship
  friendTags : List FriendTag
  auditEntries : List AuditEntry
  externalIdentities_ids : (externalIdentities.map ExternalIdentity.id).Nodup
  groups_ids : (groups.map Group.id).Nodup
  roles_ids : (roles.map Role.id).Nodup
  groupMembers_ids : (groupMembers.map GroupMember.id).Nodup
  invitations_ids : (invitations.map Invitation.id).Nodup
  groupRelationships_ids : (groupRelationships.map fun r => (r.groupAId, r.groupBId)).Nodup
  gameBans_ids : (gameBans.map GameBan.id).Nodup
  banHistory_ids : (banHistory.map BanHistory.id).Nodup
  sanctions_ids : (sanctions.map Sanction.id).Nodup
  sanctionHistory_ids : (sanctionHistory.map SanctionHistory.id).Nodup
  userRelationships_ids : (userRelationships.map UserRelationship.id).Nodup
  friendTags_ids : (friendTags.map FriendTag.id).Nodup
  auditEntries_ids : (auditEntries.map AuditEntry.id).Nodup
  person_ne_nil : ∀ i ∈ externalIdentities, i.junjoUserId ≠ []
  no_null : ∀ r ∈ groupRelationships, 0 ∉ r.groupAId ∧ 0 ∉ r.groupBId

end Junjo.Export
