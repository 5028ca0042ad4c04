import Junjo.Export.RecordsCorrect
import Junjo.Sdk.SseCorrect

/-!
# Events of a group stream

An event that names a group is written to the streams of the group as one object, in a frame of its
own. Heartbeats are comments between the frames.
-/

namespace Junjo.Events

open Export (Stored object nullable integer)
open IsoDate (Instant toISOString)

/-- The types of events. -/
inductive JunjoEventType
  | memberJoined
  | memberLeft
  | memberInvited
  | memberUpdated
  | memberBanned
  | memberUnbanned
  | roleCreated
  | roleChanged
  | roleUpdated
  | roleDeleted
  | permissionGranted
  | permissionRevoked
  | groupUpdated
  | groupDeleted
  | groupRelationshipChanged
  | friendRequestSent
  | friendRequestAccepted
  | friendRequestDeclined
  | friendRequestCancelled
  | friendRemoved
  | friendBlocked
  | friendUnblocked
  | gameUserBanned
  | gameUserUnbanned
  | gameUserSanctioned
  | gameUserUnsanctioned
  | identityUpdated
  | identityLinked
  | identityUnlinked
  | permissionsConfigUpdated
deriving DecidableEq

namespace JunjoEventType

def all : List JunjoEventType :=
  [memberJoined, memberLeft, memberInvited, memberUpdated, memberBanned, memberUnbanned, roleCreated,
    roleChanged, roleUpdated, roleDeleted, permissionGranted, permissionRevoked, groupUpdated,
    groupDeleted, groupRelationshipChanged, friendRequestSent, friendRequestAccepted,
    friendRequestDeclined, friendRequestCancelled, friendRemoved, friendBlocked, friendUnblocked,
    gameUserBanned, gameUserUnbanned, gameUserSanctioned, gameUserUnsanctioned, identityUpdated,
    identityLinked, identityUnlinked, permissionsConfigUpdated]

def name : JunjoEventType → String
  | memberJoined => "member.joined"
  | memberLeft => "member.left"
  | memberInvited => "member.invited"
  | memberUpdated => "member.updated"
  | memberBanned => "member.banned"
  | memberUnbanned => "member.unbanned"
  | roleCreated => "role.created"
  | roleChanged => "role.changed"
  | roleUpdated => "role.updated"
  | roleDeleted => "role.deleted"
  | permissionGranted => "permission.granted"
  | permissionRevoked => "permission.revoked"
  | groupUpdated => "group.updated"
  | groupDeleted => "group.deleted"
  | groupRelationshipChanged => "group.relationship.changed"
  | friendRequestSent => "friend.request.sent"
  | friendRequestAccepted => "friend.request.accepted"
  | friendRequestDeclined => "friend.request.declined"
  | friendRequestCancelled => "friend.request.cancelled"
  | friendRemoved => "friend.removed"
  | friendBlocked => "friend.blocked"
  | friendUnblocked => "friend.unblocked"
  | gameUserBanned => "game.user.banned"
  | gameUserUnbanned => "game.user.unbanned"
  | gameUserSanctioned => "game.user.sanctioned"
  | gameUserUnsanctioned => "game.user.unsanctioned"
  | identityUpdated => "identity.updated"
  | identityLinked => "identity.linked"
  | identityUnlinked => "identity.unlinked"
  | permissionsConfigUpdated => "permissions.config.updated"

end JunjoEventType

/-! ### What events hold -/

/-- A date the language can hold. -/
abbrev ServerDate := { t : Instant // t.natAbs ≤ 8640000000000000 }

def date (d : ServerDate) : JsonValue := .str (toISOString d.val)

def dateOrNull : Option ServerDate → JsonValue
  | none => .null
  | some d => date d

def texts (l : List Text) : JsonValue := .arr (l.map JsonValue.str)

structure PublicMember where
  id : Text
  groupId : Text
  userId : Text
  status : Text
  roles : List Text
  metadata : Stored
  notesPublic : Option Text
  notesPrivate : Option Text
  joinedAt : ServerDate
  bannedUntil : Option ServerDate
  version : ℤ

def PublicMember.json (m : PublicMember) : JsonValue :=
  object [("id", .str m.id), ("groupId", .str m.groupId), ("userId", .str m.userId),
    ("status", .str m.status), ("roles", texts m.roles), ("metadata", m.metadata.val),
    ("notesPublic", nullable m.notesPublic), ("notesPrivate", nullable m.notesPrivate),
    ("joinedAt", date m.joinedAt), ("bannedUntil", dateOrNull m.bannedUntil),
    ("version", integer m.version)]

structure PermissionEntry where
  permission : Text
  value : Bool
  context : Option (Dict Text Text)

def PermissionEntry.json (e : PermissionEntry) : JsonValue :=
  object ([("permission", .str e.permission), ("value", .bool e.value)]
    ++ e.context.toList.map fun context =>
      ("context", .obj (context.mapValues JsonValue.str).entries))

structure PublicRole where
  id : Text
  groupId : Text
  name : Text
  priority : ℤ
  color : Option Text
  isDefault : Bool
  entries : List PermissionEntry
  parents : List Text
  metadata : Stored
  createdAt : ServerDate

/-- Contextual grants are listed only in `entries`. -/
def PublicRole.permissions (r : PublicRole) : List Text :=
  (r.entries.filter fun e => e.value && e.context.isNone).map PermissionEntry.permission

def PublicRole.json (r : PublicRole) : JsonValue :=
  object [("id", .str r.id), ("groupId", .str r.groupId), ("name", .str r.name),
    ("priority", integer r.priority), ("color", nullable r.color), ("isDefault", .bool r.isDefault),
    ("permissions", texts r.permissions), ("entries", .arr (r.entries.map PermissionEntry.json)),
    ("parents", texts r.parents), ("metadata", r.metadata.val), ("createdAt", date r.createdAt)]

structure PublicInvitation where
  id : Text
  groupId : Text
  code : Text
  roleId : Option Text
  targetUserId : Option Text
  createdBy : Option Text
  createdAt : ServerDate
  expiresAt : Option ServerDate
  usedAt : Option ServerDate
  usedBy : Option Text

def PublicInvitation.json (i : PublicInvitation) : JsonValue :=
  object [("id", .str i.id), ("groupId", .str i.groupId), ("code", .str i.code),
    ("roleId", nullable i.roleId), ("targetUserId", nullable i.targetUserId),
    ("createdBy", nullable i.createdBy), ("createdAt", date i.createdAt),
    ("expiresAt", dateOrNull i.expiresAt), ("usedAt", dateOrNull i.usedAt),
    ("usedBy", nullable i.usedBy)]

structure PublicGroup where
  id : Text
  gameId : Text
  kind : Text
  name : Text
  visibility : Text
  metadata : Stored
  defaultRoleId : Option Text
  parentGroupId : Option Text
  memberCount : ℤ
  hasPasscode : Bool
  createdAt : ServerDate
  updatedAt : ServerDate
  softDeletedAt : Option ServerDate

def PublicGroup.json (g : PublicGroup) : JsonValue :=
  object [("id", .str g.id), ("gameId", .str g.gameId), ("kind", .str g.kind), ("name", .str g.name),
    ("visibility", .str g.visibility), ("metadata", g.metadata.val),
    ("defaultRoleId", nullable g.defaultRoleId), ("parentGroupId", nullable g.parentGroupId),
    ("memberCount", integer g.memberCount), ("hasPasscode", .bool g.hasPasscode),
    ("createdAt", date g.createdAt), ("updatedAt", date g.updatedAt),
    ("softDeletedAt", dateOrNull g.softDeletedAt)]

structure PublicGroupRelationship where
  groupAId : Text
  groupBId : Text
  type : Text
  since : ServerDate
  setBy : Option Text

def PublicGroupRelationship.json (r : PublicGroupRelationship) : JsonValue :=
  object [("groupAId", .str r.groupAId), ("groupBId", .str r.groupBId), ("type", .str r.type),
    ("since", date r.since), ("setBy", nullable r.setBy)]

/-- What happened, for the events that name a group. -/
inductive GroupEventBody
  | memberJoined (userId : Text) (member : PublicMember) (memberVersion : ℤ)
  | memberLeft (userId reason : Text) (kickedBy : Option Text) (memberVersion : ℤ)
  | memberInvited (invitation : PublicInvitation)
  | memberUpdated (userId : Text) (changed : List Text) (memberVersion : ℤ)
  | memberBanned (userId : Text) (reason : Option Text) (bannedUntil : Option ServerDate)
      (memberVersion : ℤ)
  | memberUnbanned (userId : Text) (memberVersion : ℤ)
  | roleCreated (role : PublicRole)
  | roleChanged (userId : Text) (added removed : List Text) (actorUserId : Option Text)
      (memberVersion : ℤ)
  | roleUpdated (roleId : Text) (changed : List Text)
  | roleDeleted (roleId : Text)
  | permissionGranted (roleId permission : Text)
  | permissionRevoked (roleId permission : Text)
  | groupUpdated (group : PublicGroup)
  | groupDeleted
  | groupRelationshipChanged (otherGroupId : Text) (relationship : Option PublicGroupRelationship)

namespace GroupEventBody

def type : GroupEventBody → JunjoEventType
  | memberJoined .. => .memberJoined
  | memberLeft .. => .memberLeft
  | memberInvited .. => .memberInvited
  | memberUpdated .. => .memberUpdated
  | memberBanned .. => .memberBanned
  | memberUnbanned .. => .memberUnbanned
  | roleCreated .. => .roleCreated
  | roleChanged .. => .roleChanged
  | roleUpdated .. => .roleUpdated
  | roleDeleted .. => .roleDeleted
  | permissionGranted .. => .permissionGranted
  | permissionRevoked .. => .permissionRevoked
  | groupUpdated .. => .groupUpdated
  | groupDeleted => .groupDeleted
  | groupRelationshipChanged .. => .groupRelationshipChanged

def fields : GroupEventBody → List (String × JsonValue)
  | memberJoined userId member memberVersion =>
    [("userId", .str userId), ("member", member.json), ("memberVersion", integer memberVersion)]
  | memberLeft userId reason kickedBy memberVersion =>
    [("userId", .str userId), ("reason", .str reason)]
      ++ (kickedBy.toList.map fun kickedBy => ("kickedBy", .str kickedBy))
      ++ [("memberVersion", integer memberVersion)]
  | memberInvited invitation => [("invitation", invitation.json)]
  | memberUpdated userId changed memberVersion =>
    [("userId", .str userId), ("changed", texts changed), ("memberVersion", integer memberVersion)]
  | memberBanned userId reason bannedUntil memberVersion =>
    [("userId", .str userId), ("reason", nullable reason), ("bannedUntil", dateOrNull bannedUntil),
      ("memberVersion", integer memberVersion)]
  | memberUnbanned userId memberVersion =>
    [("userId", .str userId), ("memberVersion", integer memberVersion)]
  | roleCreated role => [("role", role.json)]
  | roleChanged userId added removed actorUserId memberVersion =>
    [("userId", .str userId), ("added", texts added), ("removed", texts removed),
      ("actorUserId", nullable actorUserId), ("memberVersion", integer memberVersion)]
  | roleUpdated roleId changed => [("roleId", .str roleId), ("changed", texts changed)]
  | roleDeleted roleId => [("roleId", .str roleId)]
  | permissionGranted roleId permission =>
    [("roleId", .str roleId), ("permission", .str permission)]
  | permissionRevoked roleId permission =>
    [("roleId", .str roleId), ("permission", .str permission)]
  | groupUpdated group => [("group", group.json)]
  | groupDeleted => []
  | groupRelationshipChanged otherGroupId relationship =>
    [("otherGroupId", .str otherGroupId),
      ("relationship", match relationship with
        | none => .null
        | some relationship => relationship.json)]

end GroupEventBody

/-- The digits of a new event's id. -/
def IdDigit (c : Char) : Prop := c ∈ "0123456789abcdef".toList

/-- An event of a group, as a subscriber sees it. -/
structure GroupEvent where
  id : List Char
  occurredAt : ServerDate
  gameId : Text
  groupId : Text
  body : GroupEventBody
  hexId : ∀ c ∈ id, IdDigit c

namespace GroupEvent

def fields (e : GroupEvent) : List (String × JsonValue) :=
  [("id", .str (Utf8.utf16 e.id)), ("occurredAt", date e.occurredAt),
    ("type", .str (text e.body.type.name)), ("gameId", .str e.gameId), ("groupId", .str e.groupId)]
    ++ e.body.fields

def json (e : GroupEvent) : JsonValue := object e.fields

/-- The characters of the event's text. -/
def data (e : GroupEvent) : List Char := Utf8.scalars (Json.stringify e.json)

end GroupEvent

/-! ### What the server writes -/

/-- A heartbeat or an event. -/
inductive StreamItem
  | heartbeat
  | event (e : GroupEvent)

namespace StreamItem

open Sse (Block)

def block : StreamItem → Block
  | heartbeat => { lines := [(.comment "heartbeat".toList, false)], crlf := false }
  | event e =>
    { lines := [(.event e.body.type.name.toList, false), (.data e.data, false), (.id e.id, false)]
      crlf := false }

def event? : StreamItem → Option GroupEvent
  | heartbeat => none
  | event e => some e

end StreamItem

/-- The events of what the server wrote. -/
def eventsOf (items : List StreamItem) : List GroupEvent := items.filterMap StreamItem.event?

/-! ### Texts of events -/

open Json (Valid)
open Export (valid_object valid_arr_map)

@[simp] lemma valid_date (d : ServerDate) : Valid (date d) := Export.valid_str _

@[simp] lemma valid_dateOrNull (d : Option ServerDate) : Valid (dateOrNull d) := by
  cases d with
  | none => simp [dateOrNull, Valid]
  | some d => exact valid_date d

@[simp] lemma valid_texts (l : List Text) : Valid (texts l) := by simp [texts]

@[simp] lemma valid_member (m : PublicMember) : Valid m.json :=
  valid_object (by simp only [List.map]; decide) (by simp)

@[simp] lemma valid_entry (e : PermissionEntry) : Valid e.json := by
  obtain ⟨permission, value, context⟩ := e
  cases context with
  | none =>
    exact valid_object
      (by simp only [List.map, Option.toList, List.append_nil]; decide) (by simp)
  | some context =>
    have hcontext : Valid (.obj (context.mapValues JsonValue.str).entries) := by
      rw [Valid, Export.validEntries_iff]
      refine ⟨(context.mapValues JsonValue.str).nodupKeys, ?_⟩
      intro e he
      obtain ⟨p, -, rfl⟩ := List.mem_map.mp he
      exact Export.valid_str _
    exact valid_object
      (by simp only [List.map, Option.toList, List.cons_append, List.nil_append]; decide)
      (by simp [hcontext])

@[simp] lemma valid_role (r : PublicRole) : Valid r.json :=
  valid_object (by simp only [List.map]; decide) (by simp)

@[simp] lemma valid_invitation (i : PublicInvitation) : Valid i.json :=
  valid_object (by simp only [List.map]; decide) (by simp)

@[simp] lemma valid_group (g : PublicGroup) : Valid g.json :=
  valid_object (by simp only [List.map]; decide) (by simp)

@[simp] lemma valid_relationship (r : PublicGroupRelationship) : Valid r.json :=
  valid_object (by simp only [List.map]; decide) (by simp)

/-- Every event has these fields. -/
def commonKeys : List String := ["id", "occurredAt", "type", "gameId", "groupId"]

/-- Each body holds valid values under names of its own. -/
lemma valid_fields (b : GroupEventBody) :
    ((commonKeys ++ b.fields.map Prod.fst).map text).Nodup ∧ ∀ f ∈ b.fields, Valid f.2 := by
  cases b with
  | memberLeft userId reason kickedBy memberVersion =>
    cases kickedBy <;>
      exact ⟨by simp only [GroupEventBody.fields, Option.toList, List.map, List.cons_append,
        List.nil_append]; decide, by simp [GroupEventBody.fields]⟩
  | groupRelationshipChanged otherGroupId relationship =>
    refine ⟨by simp only [GroupEventBody.fields, List.map]; decide, ?_⟩
    cases relationship <;> simp [GroupEventBody.fields, Valid]
  | _ => exact ⟨by simp only [GroupEventBody.fields, List.map]; decide,
      by simp [GroupEventBody.fields]⟩

namespace GroupEvent

lemma valid_json (e : GroupEvent) : Valid e.json := by
  obtain ⟨hkeys, hvalues⟩ := valid_fields e.body
  refine valid_object ?_ ?_
  · rw [fields, List.map_append]
    exact hkeys
  · intro f hf
    rcases List.mem_append.mp hf with hf | hf
    · simp only [List.mem_cons, List.not_mem_nil, or_false] at hf
      rcases hf with rfl | rfl | rfl | rfl | rfl <;> simp
    · exact hvalues f hf

/-- The text of an event, by its characters: none is a control character. -/
lemma data_spec (e : GroupEvent) :
    Utf8.utf16 e.data = Json.stringify e.json ∧ ∀ c ∈ e.data, 32 ≤ c.toNat := by
  obtain ⟨chars, hchars, hcontrol⟩ := Json.printable_stringify e.valid_json
  have hdata : e.data = chars := by rw [data, hchars, Utf8.scalars_utf16]
  rw [hdata]
  exact ⟨hchars.symm, hcontrol⟩

end GroupEvent

/-- A character that is no control character ends no line. -/
lemma plain_of_ge {c : Char} (h : 32 ≤ c.toNat) : c ≠ '\n' ∧ c ≠ '\r' ∧ c ≠ Char.ofNat 0 := by
  refine ⟨?_, ?_, ?_⟩ <;>
  · rintro rfl
    exact absurd h (by decide)

lemma plain_of_all {l : List Char} (h : (l.all fun c => 32 ≤ c.toNat) = true) {c : Char}
    (hc : c ∈ l) : c ≠ '\n' ∧ c ≠ '\r' ∧ c ≠ Char.ofNat 0 :=
  plain_of_ge (by simpa using List.all_eq_true.mp h c hc)

lemma IdDigit.plain {c : Char} (h : IdDigit c) : c ≠ '\n' ∧ c ≠ '\r' ∧ c ≠ Char.ofNat 0 :=
  plain_of_all (by decide) h

lemma name_plain (type : JunjoEventType) {c : Char} (h : c ∈ type.name.toList) :
    c ≠ '\n' ∧ c ≠ '\r' ∧ c ≠ Char.ofNat 0 :=
  plain_of_all (by cases type <;> decide) h

namespace StreamItem

/-- A line whose value ends no line. -/
lemma oneLine_append {p value : List Char} (hp : (p.all fun c => 32 ≤ c.toNat) = true)
    (hvalue : ∀ c ∈ value, c ≠ '\n' ∧ c ≠ '\r' ∧ c ≠ Char.ofNat 0) :
    ∀ c ∈ p ++ value, c ≠ '\n' ∧ c ≠ '\r' := by
  intro c hc
  rcases List.mem_append.mp hc with hc | hc
  · exact (plain_of_all hp hc).imp_right And.left
  · exact (hvalue c hc).imp_right And.left

lemma wellFormed_block (item : StreamItem) : item.block.WellFormed := by
  cases item with
  | heartbeat =>
    refine ⟨by simp [block], ?_⟩
    intro l hl
    rw [block, List.mem_singleton] at hl
    subst hl
    refine ⟨?_, by simp⟩
    exact oneLine_append (p := [':']) (by decide) fun c hc => plain_of_all (by decide) hc
  | event e =>
    refine ⟨by simp [block], ?_⟩
    intro l hl
    rw [block, List.mem_cons, List.mem_cons, List.mem_singleton] at hl
    rcases hl with rfl | rfl | rfl
    · exact ⟨oneLine_append (by decide) fun c hc => name_plain _ hc, by simp⟩
    · exact ⟨oneLine_append (by decide) fun c hc => plain_of_ge (e.data_spec.2 c hc), by simp⟩
    · refine ⟨oneLine_append (by decide) fun c hc => (e.hexId c hc).plain, ?_⟩
      rintro value heq hzero
      cases heq
      exact (e.hexId _ hzero).plain.2.2 rfl

/-- The frame of an event. -/
def frame (e : GroupEvent) : Sse.Frame Char :=
  { event := some e.body.type.name.toList, data := some e.data, id := some e.id }

/-- The frames of what the server wrote are those of its events. -/
lemma framesOf_items (items : List StreamItem) :
    Sse.framesOf Sse.characters.ascii (Sse.streamChars (items.map block))
      = (eventsOf items).map frame := by
  have hwell : ∀ b ∈ items.map block, b.WellFormed := by
    intro b hb
    obtain ⟨item, -, rfl⟩ := List.mem_map.mp hb
    exact item.wellFormed_block
  rw [Sse.framesOf_streamChars hwell, eventsOf, List.filterMap_map, List.map_filterMap]
  refine List.filterMap_congr ?_
  intro item _
  cases item <;> rfl

end StreamItem

end Junjo.Events
