import Junjo.Export.Store
import Junjo.Identities.Formats

/-!
# The export of a game

`exportChunks` writes a header, the game, every row of every kind in batches of
`exportBatchSize`, and an end record with the number of records of each kind, one JSON text a line.
-/

namespace Junjo.Export

open IsoDate (Instant toISOString)
open Identities (userIdNamespace)
open Keyset

/-- Rows read per query. -/
def exportBatchSize : ℕ := 1000

/-- The kinds of records between the header and the end record. -/
inductive ExportRecordKind
  | game
  | person
  | group
  | role
  | member
  | invitation
  | relationship
  | ban
  | banHistory
  | sanction
  | sanctionHistory
  | friendship
  | friendRequest
  | block
  | friendTag
  | audit
deriving DecidableEq

namespace ExportRecordKind

/-- `EXPORT_RECORD_KINDS`, in the order they are written. -/
def all : List ExportRecordKind :=
  [game, person, group, role, member, invitation, relationship, ban, banHistory, sanction,
    sanctionHistory, friendship, friendRequest, block, friendTag, audit]

def name : ExportRecordKind → Text
  | game => text "game"
  | person => text "person"
  | group => text "group"
  | role => text "role"
  | member => text "member"
  | invitation => text "invitation"
  | relationship => text "relationship"
  | ban => text "ban"
  | banHistory => text "banHistory"
  | sanction => text "sanction"
  | sanctionHistory => text "sanctionHistory"
  | friendship => text "friendship"
  | friendRequest => text "friendRequest"
  | block => text "block"
  | friendTag => text "friendTag"
  | audit => text "audit"

end ExportRecordKind

/-! ### Values -/

/-- An object with these fields. -/
def object (fields : List (String × JsonValue)) : JsonValue :=
  .obj (fields.map fun field => (text field.1, field.2))

def nullable : Option Text → JsonValue
  | none => .null
  | some t => .str t

def date (d : Instant) : JsonValue := .str (toISOString d)

def iso : Option Instant → JsonValue
  | none => .null
  | some d => date d

def integer (z : ℤ) : JsonValue := .num (Json.integerText z)

/-- Anything but a non-empty object of strings is treated as global. -/
def contextFromStored : Option Stored → Option (List (Text × Text))
  | some ⟨.obj entries, _⟩ =>
    let out := (entries.insertionSort fun a b => a.1 ≤ b.1).filterMap fun entry =>
      match entry.2 with
      | .str value => some (entry.1, value)
      | _ => none
    if out.isEmpty then none else some out
  | _ => none

/-- The `context` field of an entry or override, present only for a contextual row. -/
def rowContextField (context : Option Stored) (contextKey : Text) : List (String × JsonValue) :=
  if contextKey = [] then []
  else
    match contextFromStored context with
    | none => []
    | some out => [("context", .obj (out.map fun entry => (entry.1, .str entry.2)))]

/-! ### Rendered ids -/

/-- Rows by a key, in the order they come. -/
def groupRows {κ α ν : Type} [DecidableEq κ] (key : α → κ) (value : α → ν) (rows : List α) :
    Dict κ (List ν) :=
  rows.foldl (fun groups row =>
    groups.set (key row) ((groups.get? (key row)).getD [] ++ [value row])) Dict.empty

def instantOrder : KeyOrder Instant where
  le a b := a ≤ b
  total a b := by simp [le_total]
  trans a b c := by simpa using fun hab hbc => le_trans hab hbc
  antisymm a b := by simpa using fun hab hba => le_antisymm hab hba

/-- The first listed namespace the person has an id in wins, earliest-linked id first, otherwise
the earliest-linked id. -/
def pickRenderedId (ordered preferred : List Text) : Text :=
  match preferred.findSome? fun ns => ordered.find? fun id => userIdNamespace id = some ns with
  | some id => id
  | none => ordered.headD []

section

variable (collation : KeyOrder Text) (db : Database) (preferred : List Text) (gameId : Text)

/-- `IDENTITY_ORDER` -/
def byLinkedAt (rows : List ExternalIdentity) : List ExternalIdentity :=
  sortBy (instantOrder.lex collation) (fun i => (i.linkedAt, i.id)) rows

/-- The rendered ids of people. People with no id in this game are absent. -/
def renderUserIds (junjoUserIds : List Text) : Dict Text Text :=
  let ids := junjoUserIds.dedup
  if ids.isEmpty then Dict.empty
  else
    let rows := byLinkedAt collation
      (db.externalIdentities.filter fun i => i.gameId = gameId && decide (i.junjoUserId ∈ ids))
    (groupRows ExternalIdentity.junjoUserId ExternalIdentity.externalUserId rows).mapValues
      fun ordered => pickRenderedId ordered preferred

/-! ### Batches -/

/-- One batch of records of a kind, and the cursor of the next. -/
structure Batch where
  records : List JsonValue
  next : Option Text

abbrev BatchReader := Option Text → Batch

def page {α : Type} (rows : List α) (id : α → Text) (toRecords : List α → List JsonValue) : Batch :=
  { records := toRecords rows, next := nextCursor exportBatchSize id rows }

/-- The next rows of a table by id. -/
def pageById {α : Type} (rows : List α) (id : α → Text) (toRecords : List α → List JsonValue) :
    BatchReader := fun after =>
  page ((sortBy collation id (rowsAfter collation id rows after)).take exportBatchSize) id toRecords

/-- Whether a group is one of the game's. -/
def groupInGame (groupId : Text) : Bool := db.groups.any fun g => g.id = groupId && g.gameId = gameId

def identityRecord (i : ExternalIdentity) : JsonValue :=
  object
    [("userId", .str i.externalUserId),
      ("namespace", nullable (userIdNamespace i.externalUserId)),
      ("linkedAt", date i.linkedAt),
      ("displayName", nullable i.displayName),
      ("displayNameUpdatedAt", iso i.displayNameUpdatedAt)]

def personRecord (id : Text) (identities : List JsonValue) : JsonValue :=
  object [("kind", .str (text "person")), ("id", .str id), ("identities", .arr identities)]

/-- Each record carries every id the person holds in this game. -/
def personReader : BatchReader := fun after =>
  let inGame := db.externalIdentities.filter fun i => i.gameId = gameId
  let people := (inGame.map ExternalIdentity.junjoUserId).dedup
  let ids := (sortBy collation id (rowsAfter collation id people after)).take exportBatchSize
  let rows := sortBy (collation.lex (instantOrder.lex collation))
    (fun i => (i.junjoUserId, i.linkedAt, i.id))
    (inGame.filter fun i => decide (i.junjoUserId ∈ ids))
  let byPerson := groupRows ExternalIdentity.junjoUserId identityRecord rows
  { records := ids.map fun id => personRecord id ((byPerson.get? id).getD [])
    next := if ids.length = exportBatchSize then
        match ids.getLast? with
        | some last => if last = [] then none else some last
        | none => none
      else none }

/-- The passcode hash stays out. -/
def groupRecord (g : Group) : JsonValue :=
  object
    [("kind", .str (text "group")), ("id", .str g.id), ("groupKind", .str g.kind),
      ("name", .str g.name), ("visibility", .str g.visibility), ("metadata", g.metadata),
      ("defaultRoleId", nullable g.defaultRoleId), ("parentGroupId", nullable g.parentGroupId),
      ("hasPasscode", .bool g.passcodeHash.isSome), ("createdAt", date g.createdAt),
      ("updatedAt", date g.updatedAt), ("softDeletedAt", iso g.softDeletedAt),
      ("memberActivityAt", date g.memberActivityAt)]

def groupReader : BatchReader :=
  pageById collation (db.groups.filter fun g => g.gameId = gameId) Group.id
    fun list => list.map groupRecord

def roleEntry (p : RolePermission) : JsonValue :=
  object ([("permission", .str p.permissionKey), ("value", .bool p.value)]
    ++ rowContextField p.context p.contextKey)

def roleRecord (r : Role) : JsonValue :=
  let rolePermissions := sortBy (collation.lex collation)
    (fun p => (p.permissionKey, p.contextKey)) r.rolePermissions
  object
    [("kind", .str (text "role")), ("id", .str r.id), ("groupId", .str r.groupId),
      ("name", .str r.name), ("priority", integer r.priority), ("color", nullable r.color),
      ("isDefault", .bool r.isDefault), ("metadata", r.metadata),
      ("entries", .arr (rolePermissions.map roleEntry)),
      ("parents", .arr ((sortBy collation id r.parentRoleIds).map .str)),
      ("createdAt", date r.createdAt), ("updatedAt", date r.updatedAt)]

def roleReader : BatchReader :=
  pageById collation (db.roles.filter fun r => groupInGame db gameId r.groupId) Role.id
    fun list => list.map (roleRecord collation)

def overrideEntry (o : PermissionOverride) : JsonValue :=
  object ([("permission", .str o.permissionKey), ("value", .bool o.grant)]
    ++ rowContextField o.context o.contextKey
    ++ [("setAt", date o.setAt), ("setByPersonId", nullable o.setByUserId)])

def memberRecord (userId : Option Text) (m : GroupMember) : JsonValue :=
  let overrides := sortBy (collation.lex collation)
    (fun o => (o.permissionKey, o.contextKey)) m.permissionOverrides
  object
    [("kind", .str (text "member")), ("id", .str m.id), ("groupId", .str m.groupId),
      ("personId", .str m.junjoUserId), ("userId", nullable userId), ("status", .str m.status),
      ("roles", .arr ((sortBy collation id m.memberRoleIds).map .str)),
      ("overrides", .arr (overrides.map overrideEntry)), ("metadata", m.metadata),
      ("notesPublic", nullable m.notesPublic), ("notesPrivate", nullable m.notesPrivate),
      ("version", integer m.version), ("joinedAt", date m.joinedAt), ("leftAt", iso m.leftAt),
      ("bannedUntil", iso m.bannedUntil)]

def memberReader : BatchReader :=
  pageById collation (db.groupMembers.filter fun m => groupInGame db gameId m.groupId) GroupMember.id
    fun list =>
      let shown := renderUserIds collation db preferred gameId (list.map GroupMember.junjoUserId)
      list.map fun m => memberRecord collation (shown.get? m.junjoUserId) m

def invitationRecord (i : Invitation) : JsonValue :=
  object
    [("kind", .str (text "invitation")), ("id", .str i.id), ("groupId", .str i.groupId),
      ("code", .str i.code), ("roleId", nullable i.roleId),
      ("targetUserId", nullable i.targetUserId), ("createdByPersonId", nullable i.createdByUserId),
      ("createdAt", date i.createdAt), ("expiresAt", iso i.expiresAt), ("usedAt", iso i.usedAt),
      ("usedByPersonId", nullable i.usedByUserId)]

def invitationReader : BatchReader :=
  pageById collation (db.invitations.filter fun i => groupInGame db gameId i.groupId) Invitation.id
    fun list => list.map invitationRecord

def relationshipRecord (r : GroupRelationship) : JsonValue :=
  object
    [("kind", .str (text "relationship")), ("groupAId", .str r.groupAId),
      ("groupBId", .str r.groupBId), ("type", .str r.type), ("since", date r.since),
      ("setByPersonId", nullable r.setByUserId)]

/-- Both ids of a relationship, with a null character between them. -/
def relationshipCursor (r : GroupRelationship) : Text := r.groupAId ++ 0 :: r.groupBId

/-- `after.split("\u0000")` -/
def splitCursor (after : Text) : Text × Text :=
  let pieces := after.splitOn 0
  (pieces.getD 0 [], pieces.getD 1 [])

/-- Directed group relationships; both ends belong to the game. -/
def relationshipReader : BatchReader := fun after =>
  let rows := db.groupRelationships.filter fun r =>
    groupInGame db gameId r.groupAId && after.all fun after =>
      let (afterA, afterB) := splitCursor after
      collation.lt afterA r.groupAId || (r.groupAId = afterA && collation.lt afterB r.groupBId)
  page ((sortBy (collation.lex collation) (fun r => (r.groupAId, r.groupBId)) rows).take
    exportBatchSize) relationshipCursor fun list => list.map relationshipRecord

def banRecord (userId : Option Text) (b : GameBan) : JsonValue :=
  object
    [("kind", .str (text "ban")), ("id", .str b.id), ("personId", .str b.junjoUserId),
      ("userId", nullable userId), ("bannedAt", date b.bannedAt), ("expiresAt", iso b.expiresAt),
      ("reason", nullable b.reason), ("bannedByPersonId", nullable b.bannedByUserId),
      ("issuer", nullable b.issuer)]

def banReader : BatchReader :=
  pageById collation (db.gameBans.filter fun b => b.gameId = gameId) GameBan.id fun list =>
    let shown := renderUserIds collation db preferred gameId (list.map GameBan.junjoUserId)
    list.map fun b => banRecord (shown.get? b.junjoUserId) b

def banHistoryRecord (userId : Option Text) (b : BanHistory) : JsonValue :=
  object
    [("kind", .str (text "banHistory")), ("id", .str b.id), ("personId", .str b.junjoUserId),
      ("userId", nullable userId), ("scope", .str b.scope), ("groupId", nullable b.groupId),
      ("historyKind", .str b.kind), ("reason", nullable b.reason), ("expiresAt", iso b.expiresAt),
      ("eventAt", date b.eventAt), ("actorPersonId", nullable b.actorJunjoUserId),
      ("issuer", nullable b.issuer)]

def banHistoryReader : BatchReader :=
  pageById collation (db.banHistory.filter fun b => b.gameId = gameId) BanHistory.id fun list =>
    let shown := renderUserIds collation db preferred gameId (list.map BanHistory.junjoUserId)
    list.map fun b => banHistoryRecord (shown.get? b.junjoUserId) b

def sanctionRecord (userId : Option Text) (s : Sanction) : JsonValue :=
  object
    [("kind", .str (text "sanction")), ("id", .str s.id), ("personId", .str s.junjoUserId),
      ("userId", nullable userId), ("type", .str s.type), ("reason", nullable s.reason),
      ("issuer", nullable s.issuer), ("issuedByPersonId", nullable s.issuedByUserId),
      ("startedAt", date s.startedAt), ("expiresAt", iso s.expiresAt)]

def sanctionReader : BatchReader :=
  pageById collation (db.sanctions.filter fun s => s.gameId = gameId) Sanction.id fun list =>
    let shown := renderUserIds collation db preferred gameId (list.map Sanction.junjoUserId)
    list.map fun s => sanctionRecord (shown.get? s.junjoUserId) s

def sanctionHistoryRecord (userId : Option Text) (s : SanctionHistory) : JsonValue :=
  object
    [("kind", .str (text "sanctionHistory")), ("id", .str s.id), ("personId", .str s.junjoUserId),
      ("userId", nullable userId), ("type", .str s.type), ("historyKind", .str s.kind),
      ("reason", nullable s.reason), ("expiresAt", iso s.expiresAt), ("eventAt", date s.eventAt),
      ("actorPersonId", nullable s.actorJunjoUserId), ("issuer", nullable s.issuer)]

def sanctionHistoryReader : BatchReader :=
  pageById collation (db.sanctionHistory.filter fun s => s.gameId = gameId) SanctionHistory.id
    fun list =>
      let shown := renderUserIds collation db preferred gameId (list.map SanctionHistory.junjoUserId)
      list.map fun s => sanctionHistoryRecord (shown.get? s.junjoUserId) s

def userRelationshipRecord (kind : ExportRecordKind) (actor target : Option Text)
    (r : UserRelationship) : JsonValue :=
  object
    [("kind", .str kind.name), ("id", .str r.id), ("actorPersonId", .str r.actorJunjoUserId),
      ("actorUserId", nullable actor), ("targetPersonId", .str r.targetJunjoUserId),
      ("targetUserId", nullable target), ("createdAt", date r.createdAt),
      ("respondedAt", iso r.respondedAt), ("metadata", r.metadata)]

/-- Rows of one type originating in this game, directed as stored. -/
def userRelationshipReader (type : Text) (kind : ExportRecordKind) : BatchReader :=
  pageById collation (db.userRelationships.filter fun r => r.gameId = gameId && r.type = type)
    UserRelationship.id fun list =>
      let shown := renderUserIds collation db preferred gameId
        (list.flatMap fun r => [r.actorJunjoUserId, r.targetJunjoUserId])
      list.map fun r => userRelationshipRecord kind (shown.get? r.actorJunjoUserId)
        (shown.get? r.targetJunjoUserId) r

def friendTagRecord (t : FriendTag) : JsonValue :=
  object
    [("kind", .str (text "friendTag")), ("id", .str t.id), ("personId", .str t.junjoUserId),
      ("name", .str t.name), ("color", nullable t.color), ("createdAt", date t.createdAt),
      ("relationshipIds", .arr ((sortBy collation id t.relationshipIds).map .str))]

/-- Tags with the friend rows they are applied to. -/
def friendTagReader : BatchReader :=
  pageById collation (db.friendTags.filter fun t => t.gameId = gameId) FriendTag.id
    fun list => list.map (friendTagRecord collation)

def auditRecord (a : AuditEntry) : JsonValue :=
  object
    [("kind", .str (text "audit")), ("id", .str a.id), ("groupId", nullable a.groupId),
      ("actorPersonId", nullable a.actorUserId), ("action", .str a.action),
      ("targetId", nullable a.targetId), ("payload", a.payload), ("apiKeyId", nullable a.apiKeyId),
      ("createdAt", date a.createdAt)]

def auditReader : BatchReader :=
  pageById collation (db.auditEntries.filter fun a => a.gameId = gameId) AuditEntry.id
    fun list => list.map auditRecord

/-- The reader of each kind but the game's own. -/
def readers : ExportRecordKind → Option BatchReader
  | .game => none
  | .person => some (personReader collation db gameId)
  | .group => some (groupReader collation db gameId)
  | .role => some (roleReader collation db gameId)
  | .member => some (memberReader collation db preferred gameId)
  | .invitation => some (invitationReader collation db gameId)
  | .relationship => some (relationshipReader collation db gameId)
  | .ban => some (banReader collation db preferred gameId)
  | .banHistory => some (banHistoryReader collation db preferred gameId)
  | .sanction => some (sanctionReader collation db preferred gameId)
  | .sanctionHistory => some (sanctionHistoryReader collation db preferred gameId)
  | .friendship => some (userRelationshipReader collation db preferred gameId (text "friend") .friendship)
  | .friendRequest =>
    some (userRelationshipReader collation db preferred gameId (text "request") .friendRequest)
  | .block => some (userRelationshipReader collation db preferred gameId (text "blocked") .block)
  | .friendTag => some (friendTagReader collation db gameId)
  | .audit => some (auditReader collation db gameId)

/-! ### Chunks -/

/-- One JSON text and a line feed. -/
def jsonLine (record : JsonValue) : Text := Json.stringify record ++ [10]

def headerRecord (position : Text) (exportedAt : Instant) : JsonValue :=
  object
    [("kind", .str (text "header")), ("format", .str (text "junjo-export")),
      ("version", .num (text "1")), ("gameId", .str gameId), ("exportedAt", date exportedAt),
      ("position", .str position)]

def gameRecord (game : Game) : JsonValue :=
  object
    [("kind", .str (text "game")), ("id", .str game.id), ("name", .str game.name),
      ("config", game.config), ("networkId", nullable game.networkId),
      ("createdAt", date game.createdAt), ("updatedAt", date game.updatedAt)]

def endRecord (counts : ExportRecordKind → ℕ) : JsonValue :=
  object
    [("kind", .str (text "end")),
      ("counts", .obj (ExportRecordKind.all.map fun kind => (kind.name, .num (decimal (counts kind)))))]

/-- The chunks written so far and the records of each kind in them. -/
structure Progress where
  chunks : List Text
  counts : ExportRecordKind → ℕ

/-- An empty batch writes no chunk. -/
def Progress.addBatch (p : Progress) (kind : ExportRecordKind) (records : List JsonValue) : Progress :=
  { chunks := if records.isEmpty then p.chunks else p.chunks ++ [records.flatMap jsonLine]
    counts := Function.update p.counts kind (p.counts kind + records.length) }

/-- The batches of one kind; none if there are more than `fuel` of them. -/
def exportKind (kind : ExportRecordKind) (read : BatchReader) :
    ℕ → Option Text → Progress → Option Progress
  | 0, _, _ => none
  | fuel + 1, after, p =>
    let batch := read after
    let p := p.addBatch kind batch.records
    match batch.next with
    | none => some p
    | some next => exportKind kind read fuel (some next) p

def exportKinds (fuel : ℕ) : List ExportRecordKind → Progress → Option Progress
  | [], p => some p
  | kind :: kinds, p =>
    match readers collation db preferred gameId kind with
    | none => exportKinds fuel kinds p
    | some read =>
      match exportKind kind read fuel none p with
      | none => none
      | some p => exportKinds fuel kinds p

/-- The chunks of the export, and whether it ended with its end record: the game may not exist. -/
def exportChunks (position : Text) (exportedAt : Instant) (fuel : ℕ) : Option (List Text × Bool) :=
  let header := jsonLine (headerRecord gameId position exportedAt)
  match db.games.find? fun game => game.id = gameId with
  | none => some ([header], false)
  | some game =>
    let counts := Function.update (fun _ => 0) ExportRecordKind.game 1
    let p : Progress := { chunks := [header, jsonLine (gameRecord game)], counts }
    (exportKinds collation db preferred gameId fuel ExportRecordKind.all p).map fun p =>
      (p.chunks ++ [jsonLine (endRecord p.counts)], true)

end

end Junjo.Export
