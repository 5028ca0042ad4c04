import Junjo.Events.GroupEvents

/-!
# Decoding events in the TypeScript SDK

`deserializeEvent` reads the fields of an object by the event's type. A type it does not know is an
error of its own, which `decodeEventData` turns into no event.
-/

namespace Junjo.Sdk

open Events (JunjoEventType)
open IsoDate (Instant)

inductive DecodeError
  | typeError
  | invalidWireData (field : String)
  | unknownEventType
  | malformedJson
deriving DecidableEq

/-- What the SDK hands out. -/
inductive SdkValue
  | undefined
  | json (value : JsonValue)
  | date (t : Instant)
  | items (l : List SdkValue)
  | fields (l : List (Text × SdkValue))

structure JunjoEvent where
  id : Option JsonValue
  gameId : Option JsonValue
  occurredAt : Instant
  type : JunjoEventType
  fields : List (Text × SdkValue)

/-! ### Fields -/

/-- A property of a value that may be undefined. No property read here is one of strings or arrays. -/
def prop (w : Option JsonValue) (name : String) : Except DecodeError (Option JsonValue) :=
  match w with
  | none => .error .typeError
  | some .null => .error .typeError
  | some (.obj entries) => .ok (entries.lookup (text name))
  | some _ => .ok none

def copy : Option JsonValue → SdkValue
  | none => .undefined
  | some value => .json value

/-- `.map` -/
def mapItems (f : JsonValue → Except DecodeError SdkValue) :
    Option JsonValue → Except DecodeError SdkValue
  | some (.arr items) => (items.mapM f).map SdkValue.items
  | _ => .error .typeError

/-- `w ?? []` -/
def orEmpty : Option JsonValue → Option JsonValue
  | none => some (.arr [])
  | some .null => some (.arr [])
  | some value => some value

/-- The context of a permission entry: its fields that are strings, unless there are none. -/
def wireContext : Option JsonValue → Option (List (Text × SdkValue))
  | some (.obj entries) =>
    let out := entries.filterMap fun entry =>
      match entry.2 with
      | .str value => some (entry.1, SdkValue.json (.str value))
      | _ => none
    if out.isEmpty then none else some out
  | _ => none

def deserializePermissionEntry (e : JsonValue) : Except DecodeError SdkValue := do
  let permission ← prop (some e) "permission"
  let value ← prop (some e) "value"
  let context := wireContext (← prop (some e) "context")
  .ok (.fields ([(text "permission", copy permission), (text "value", copy value)]
    ++ context.toList.map fun context => (text "context", .fields context)))

/-- The characters of a text, each as a text of its own. -/
def codePoints : Text → List Text
  | c :: d :: rest =>
    if isHighSurrogate c && isLowSurrogate d then [c, d] :: codePoints rest
    else [c] :: codePoints (d :: rest)
  | [c] => [[c]]
  | [] => []

/-- `[...parents]` -/
def spread : JsonValue → Except DecodeError SdkValue
  | .arr items => .ok (.items (items.map SdkValue.json))
  | .str s => .ok (.items ((codePoints s).map fun c => .json (.str c)))
  | _ => .error .typeError

/-- `Object.entries(w ?? {})` -/
def objectEntries : Option JsonValue → List (Text × JsonValue)
  | some (.obj entries) => entries
  | some (.arr items) => items.mapIdx fun i item => (decimal i, item)
  | some (.str s) => s.mapIdx fun i c => (decimal i, .str [c])
  | _ => []

/-- An object with these fields set. Setting `__proto__` sets no field. -/
def plainObject (entries : List (Text × SdkValue)) : SdkValue :=
  .fields (entries.filter fun e => e.1 ≠ text "__proto__")

def deserializeContextInheritance (w : Option JsonValue) : Except DecodeError SdkValue := do
  let out ← (objectEntries w).mapM fun entry => do
    let inherit ← (objectEntries (← prop (some entry.2) "inherit")).mapM fun e => do
      .ok (e.1, ← spread e.2)
    .ok (entry.1, SdkValue.fields [(text "inherit", plainObject inherit)])
  .ok (plainObject out)

/-- How a field is read. -/
inductive FieldReader
  | copied
  | copiedIfSent
  | copiedOrEmptyObject
  | date
  | dateOrNull
  | mapped
  | mappedOrEmpty
  | entriesOrEmpty

/-- How a field of an event is read. -/
inductive EventReader
  | field (reader : FieldReader)
  | object (fields : List (String × FieldReader))
  | objectOrNull (fields : List (String × FieldReader))
  | contexts

open FieldReader

/-- `deserializeMember` -/
def memberFields : List (String × FieldReader) :=
  [("id", copied), ("groupId", copied), ("userId", copied), ("status", copied), ("roles", mapped),
    ("metadata", copied), ("notesPublic", copied), ("notesPrivate", copied), ("joinedAt", date),
    ("bannedUntil", dateOrNull), ("version", copied), ("displayName", copiedIfSent)]

/-- `deserializeInvitation` -/
def invitationFields : List (String × FieldReader) :=
  [("id", copied), ("groupId", copied), ("code", copied), ("roleId", copied),
    ("targetUserId", copied), ("createdBy", copied), ("createdAt", date), ("expiresAt", dateOrNull),
    ("usedAt", dateOrNull), ("usedBy", copied)]

/-- `deserializeRole` -/
def roleFields : List (String × FieldReader) :=
  [("id", copied), ("groupId", copied), ("name", copied), ("priority", copied), ("color", copied),
    ("isDefault", copied), ("permissions", copied), ("entries", entriesOrEmpty),
    ("parents", mappedOrEmpty), ("metadata", copiedOrEmptyObject), ("createdAt", date)]

/-- `deserializeGroup` -/
def groupFields : List (String × FieldReader) :=
  [("id", copied), ("gameId", copied), ("kind", copied), ("name", copied), ("visibility", copied),
    ("metadata", copied), ("defaultRoleId", copied), ("parentGroupId", copied),
    ("memberCount", copied), ("hasPasscode", copied), ("createdAt", date), ("updatedAt", date),
    ("softDeletedAt", dateOrNull)]

/-- `deserializeGroupRelationship` -/
def relationshipFields : List (String × FieldReader) :=
  [("groupAId", copied), ("groupBId", copied), ("type", copied), ("since", date), ("setBy", copied)]

open EventReader

/-- The fields an event of a type has besides its id, game and time. -/
def eventFields : JunjoEventType → List (String × EventReader)
  | .memberJoined =>
    [("groupId", field copied), ("userId", field copied), ("member", object memberFields),
      ("memberVersion", field copied)]
  | .memberLeft =>
    [("groupId", field copied), ("userId", field copied), ("reason", field copied),
      ("memberVersion", field copied), ("kickedBy", field copiedIfSent)]
  | .memberInvited => [("groupId", field copied), ("invitation", object invitationFields)]
  | .memberUpdated =>
    [("groupId", field copied), ("userId", field copied), ("changed", field mapped),
      ("memberVersion", field copied)]
  | .memberBanned =>
    [("groupId", field copied), ("userId", field copied), ("reason", field copied),
      ("bannedUntil", field dateOrNull), ("memberVersion", field copied)]
  | .memberUnbanned =>
    [("groupId", field copied), ("userId", field copied), ("memberVersion", field copied)]
  | .roleCreated => [("groupId", field copied), ("role", object roleFields)]
  | .roleChanged =>
    [("groupId", field copied), ("userId", field copied), ("added", field mapped),
      ("removed", field mapped), ("actorUserId", field copied), ("memberVersion", field copied)]
  | .roleUpdated =>
    [("groupId", field copied), ("roleId", field copied), ("changed", field mapped)]
  | .roleDeleted => [("groupId", field copied), ("roleId", field copied)]
  | .permissionGranted =>
    [("groupId", field copied), ("roleId", field copied), ("permission", field copied)]
  | .permissionRevoked =>
    [("groupId", field copied), ("roleId", field copied), ("permission", field copied)]
  | .groupUpdated => [("groupId", field copied), ("group", object groupFields)]
  | .groupDeleted => [("groupId", field copied)]
  | .groupRelationshipChanged =>
    [("groupId", field copied), ("otherGroupId", field copied),
      ("relationship", objectOrNull relationshipFields)]
  | .friendRequestSent =>
    [("requestId", field copied), ("actorJunjoUserId", field copied),
      ("targetJunjoUserId", field copied)]
  | .friendRequestAccepted =>
    [("relationshipId", field copied), ("actorJunjoUserId", field copied),
      ("targetJunjoUserId", field copied), ("respondedAt", field date)]
  | .friendRequestDeclined =>
    [("requestId", field copied), ("actorJunjoUserId", field copied),
      ("targetJunjoUserId", field copied)]
  | .friendRequestCancelled =>
    [("requestId", field copied), ("actorJunjoUserId", field copied),
      ("targetJunjoUserId", field copied)]
  | .friendRemoved => [("removedByJunjoUserId", field copied), ("otherJunjoUserId", field copied)]
  | .friendBlocked => [("byJunjoUserId", field copied), ("otherJunjoUserId", field copied)]
  | .friendUnblocked => [("byJunjoUserId", field copied), ("otherJunjoUserId", field copied)]
  | .gameUserBanned =>
    [("junjoUserId", field copied), ("userId", field copied), ("reason", field copied),
      ("expiresAt", field dateOrNull), ("moderationVersion", field copied)]
  | .gameUserUnbanned =>
    [("junjoUserId", field copied), ("userId", field copied), ("moderationVersion", field copied)]
  | .gameUserSanctioned =>
    [("userId", field copied), ("sanctionType", field copied), ("reason", field copied),
      ("expiresAt", field dateOrNull), ("moderationVersion", field copied)]
  | .gameUserUnsanctioned =>
    [("userId", field copied), ("sanctionType", field copied), ("moderationVersion", field copied)]
  | .identityUpdated =>
    [("userId", field copied), ("changedUserId", field copied), ("displayName", field copied),
      ("changed", field mapped)]
  | .identityLinked =>
    [("userId", field copied), ("linkedUserId", field copied), ("identities", field mapped)]
  | .identityUnlinked =>
    [("userId", field copied), ("unlinkedUserId", field copied), ("identities", field mapped)]
  | .permissionsConfigUpdated => [("mode", field copied), ("contexts", contexts)]

/-! ### Events -/

section

variable (dateOf : Option JsonValue → Option Instant)

/-- `dateOf` is the time of `new Date(value)`, unless it is an invalid date. -/
def parseWireDate (value : Option JsonValue) (name : String) : Except DecodeError SdkValue :=
  match dateOf value with
  | none => .error (.invalidWireData name)
  | some t => .ok (.date t)

/-- The value of a field, unless it is not set. -/
def FieldReader.read (name : String) (value : Option JsonValue) :
    FieldReader → Except DecodeError (Option SdkValue)
  | copied => .ok (some (copy value))
  | copiedIfSent => .ok (value.map SdkValue.json)
  | copiedOrEmptyObject =>
    match value with
    | none => .ok (some (.fields []))
    | some .null => .ok (some (.fields []))
    | some value => .ok (some (.json value))
  | date => (parseWireDate dateOf value name).map some
  | dateOrNull =>
    match value with
    | some .null => .ok (some (.json .null))
    | value => (parseWireDate dateOf value name).map some
  | mapped => (mapItems (fun item => .ok (.json item)) value).map some
  | mappedOrEmpty => (mapItems (fun item => .ok (.json item)) (orEmpty value)).map some
  | entriesOrEmpty => (mapItems deserializePermissionEntry (orEmpty value)).map some

/-- The fields of an object, in the order they are read. -/
def readObject (w : Option JsonValue) :
    List (String × FieldReader) → Except DecodeError (List (Text × SdkValue))
  | [] => .ok []
  | (name, reader) :: fields => do
    let value ← reader.read dateOf name (← prop w name)
    let rest ← readObject w fields
    .ok ((value.toList.map fun value => (text name, value)) ++ rest)

def EventReader.read (name : String) (value : Option JsonValue) :
    EventReader → Except DecodeError (Option SdkValue)
  | field reader => reader.read dateOf name value
  | object fields => (readObject dateOf value fields).map fun l => some (.fields l)
  | objectOrNull fields =>
    match value with
    | some .null => .ok (some (.json .null))
    | value => (readObject dateOf value fields).map fun l => some (.fields l)
  | contexts => (deserializeContextInheritance value).map some

def readEvent (w : Option JsonValue) :
    List (String × EventReader) → Except DecodeError (List (Text × SdkValue))
  | [] => .ok []
  | (name, reader) :: fields => do
    let value ← reader.read dateOf name (← prop w name)
    let rest ← readEvent w fields
    .ok ((value.toList.map fun value => (text name, value)) ++ rest)

/-- The type of an event, when the SDK knows it. -/
def eventType? : Option JsonValue → Option JunjoEventType
  | some (.str type) => JunjoEventType.all.find? fun t => text t.name = type
  | _ => none

def deserializeEvent (w : JsonValue) : Except DecodeError JunjoEvent := do
  let id ← prop (some w) "id"
  let gameId ← prop (some w) "gameId"
  match dateOf (← prop (some w) "occurredAt") with
  | none => .error (.invalidWireData "occurredAt")
  | some occurredAt =>
    match eventType? (← prop (some w) "type") with
    | none => .error .unknownEventType
    | some type => .ok { id, gameId, occurredAt, type, fields := ← readEvent dateOf (some w) (eventFields type) }

/-- The event of a frame's data, or no event when its type is unknown. -/
def decodeEventData (data : Text) : Except DecodeError (Option JunjoEvent) :=
  match Json.parse data with
  | none => .error .malformedJson
  | some w =>
    match deserializeEvent dateOf w with
    | .ok event => .ok (some event)
    | .error .unknownEventType => .ok none
    | .error e => .error e

end

end Junjo.Sdk
