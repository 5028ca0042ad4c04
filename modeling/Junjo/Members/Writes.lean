import Junjo.Members.Store
import Junjo.Moderation.Writes

/-!
# Membership writes

The transactions that change members. Each reads its group, and most read the member, before the
transaction begins. In it, those that change who is active lock the group first, and all of them
hold the member's row when they change it. The events of a transaction are logged by its last
statement.
-/

namespace Junjo

inductive BanScope where
  | game
  | group
deriving DecidableEq

inductive KindLimitFailure where
  | groupFull
  | groupLimitReached
deriving DecidableEq

inductive ImportRowError where
  | badRequest (message : Text)
  | notFound (message : Text)
  | banned (scope : BanScope)
  | limit (failure : KindLimitFailure)
deriving DecidableEq

inductive MemberError where
  | notFound (what : Text)
  | badRequest (message : Text)
  | permissionDenied (message : Text)
  | passcodeRequired
  | passcodeInvalid
  | rateLimitExceeded
  | banned (scope : BanScope) (expiresAt : Option ℤ)
  | alreadyMember
  | limit (failure : KindLimitFailure)
  | invitationUsed
  | invitationExpired
  | roleGroupMismatch
  | banNotActive
  | preconditionFailed (message : Text)
  /-- Rows of an import, by their index. -/
  | rows (errors : List (ℕ × ImportRowError))
deriving DecidableEq

/-! ### Requests -/

/-- A person in a group, as a request names them. -/
structure MemberTarget where
  gameId : Text
  groupId : Text
  junjoUserId : Text
  userId : Text
deriving DecidableEq

def MemberTarget.key (target : MemberTarget) : MemberKey := ⟨target.groupId, target.junjoUserId⟩

structure CreateGroupRequest where
  gameId : Text
  /-- The id that the database issues. -/
  fresh : Text
  kind : Text
  visibility : GroupVisibility
  passcodeHash : Option Text
  defaultRoleId : Option Text
  /-- The creator's person and external id. -/
  creator : Option (Text × Text)
  now : ℤ

structure JoinRequest extends MemberTarget where
  passcode : Option Text
  /-- Whether the limits on passcode attempts allow this one. -/
  attemptAllowed : Bool
  /-- The clock at the ban check. -/
  checkedAt : ℤ
  now : ℤ

structure AddRequest extends MemberTarget where
  roleId : Option Text
  actorUserId : Option Text
  checkedAt : ℤ
  now : ℤ

structure RedeemRequest where
  gameId : Text
  code : Text
  junjoUserId : Text
  userId : Text
  checkedAt : ℤ
  now : ℤ

structure DeclineRequest where
  gameId : Text
  code : Text
  /-- The person and the external id that the body names. -/
  person : Option (Text × Text)
  checkedAt : ℤ
  now : ℤ

structure RevokeRequest where
  gameId : Text
  code : Text

structure LeaveRequest extends MemberTarget where
  now : ℤ

structure KickRequest extends MemberTarget where
  ifMatch : Option ℕ
  now : ℤ

structure MemberBanRequest extends MemberTarget where
  reason : Option Text
  expiresAt : Option ℤ
  ifMatch : Option ℕ
  now : ℤ

structure MemberUnbanRequest extends MemberTarget where
  ifMatch : Option ℕ
  now : ℤ

structure MemberPatchRequest extends MemberTarget where
  metadata : Option JsonValue
  notesPublic : Option (Option Text)
  notesPrivate : Option (Option Text)
  ifMatch : Option ℕ

structure MemberRoleRequest extends MemberTarget where
  roleId : Text
  actorUserId : Option Text
  ifMatch : Option ℕ

structure OverrideRequest extends MemberTarget where
  permission : Text
  context : PermissionContext
  ifMatch : Option ℕ

structure ImportRow where
  junjoUserId : Text
  userId : Text
  roleIds : Option (List Text)
  overrides : Option (Dict (Text × Text) MemberOverride)
  metadata : Option JsonValue

structure ImportRequest where
  gameId : Text
  groupId : Text
  members : List ImportRow
  allowBanned : Bool
  actorUserId : Option Text
  now : ℤ

/-- Whether a row is under a ban at a time. -/
def isGroupBanned (member : Option Member) (now : ℤ) : Bool :=
  member.any fun m => m.status = .banned && isActiveUntil m.bannedUntil now

inductive MemberRequest where
  | createGroup (r : CreateGroupRequest)
  | join (r : JoinRequest)
  | add (r : AddRequest)
  /-- The second attempt of an add, with what the first read before its transaction. -/
  | addAgain (r : AddRequest) (limits : Option GroupKindLimits) (checked : Option Member)
      (passed : isGroupBanned checked r.checkedAt = false)
  | accept (r : RedeemRequest)
  | decline (r : DeclineRequest)
  | revoke (r : RevokeRequest)
  | importMembers (r : ImportRequest)
  | leave (r : LeaveRequest)
  | kick (r : KickRequest)
  | kickAdmin (r : LeaveRequest)
  | ban (r : MemberBanRequest)
  | unban (r : MemberUnbanRequest)
  | patch (r : MemberPatchRequest)
  | assignRole (r : MemberRoleRequest)
  | unassignRole (r : MemberRoleRequest)
  | setOverride (r : OverrideRequest) (grant : Bool)
  | clearOverride (r : OverrideRequest)

/-- What a committed write was asked, what its check of a ban or of the status read before its
transaction, the events that it staged, and the row that a revocation found and deletes. -/
structure MemberResult where
  request : MemberRequest
  gameId : Text
  checked : Option Member := none
  events : List GroupEvent := []
  revoked : Option Invitation := none

abbrev MemberTx := Tx MemberDb MemberLock MemberError

/-! ### What a write leaves of a row -/

namespace Member

/-- A row as the database makes it for a new active member. -/
def create (now : ℤ) : Member where
  status := .active
  metadata := .obj []
  notesPublic := none
  notesPrivate := none
  joinedAt := now
  leftAt := none
  bannedUntil := none
  version := 1
  roles := ∅
  overrides := Dict.empty

variable (member : Member)

def activate : Member :=
  { member with status := .active, leftAt := none, bannedUntil := none, version := member.version + 1 }

def depart (status : MemberStatus) (now : ℤ) : Member :=
  { member with status := status, leftAt := some now, version := member.version + 1 }

def ban (bannedUntil : Option ℤ) (leftAt : ℤ) : Member :=
  { member with
    status := .banned
    bannedUntil := bannedUntil
    leftAt := some leftAt
    version := member.version + 1 }

def unban : Member :=
  { member with status := .left, bannedUntil := none, version := member.version + 1 }

def bumpVersion : Member := { member with version := member.version + 1 }

end Member

/-- The columns of a PATCH that its diff against the row found to set. -/
structure MemberPatch where
  metadata : Option JsonValue
  notesPublic : Option (Option Text)
  notesPrivate : Option (Option Text)

namespace MemberPatch

variable (patch : MemberPatch)

def apply (member : Member) : Member :=
  { member with
    metadata := patch.metadata.getD member.metadata
    notesPublic := patch.notesPublic.getD member.notesPublic
    notesPrivate := patch.notesPrivate.getD member.notesPrivate
    version := member.version + 1 }

/-- Metadata is a change whenever it is given, notes are one when they differ. -/
def diff (r : MemberPatchRequest) (member : Member) : MemberPatch where
  metadata := r.metadata
  notesPublic := r.notesPublic.filter fun notes => notes ≠ member.notesPublic
  notesPrivate := r.notesPrivate.filter fun notes => notes ≠ member.notesPrivate

def changed : List MemberChangeField :=
  (if patch.metadata.isSome then [.metadata] else []) ++
    if patch.notesPublic.isSome || patch.notesPrivate.isSome then [.notes] else []

end MemberPatch

/-! ### What an import plans for a row -/

inductive MemberImportStatus where
  | created
  | reactivated
  | updated
  | unchanged
deriving DecidableEq

structure Plan where
  input : ImportRow
  status : MemberImportStatus
  finalRoleIds : Finset Text
  rolesAdded : Finset Text
  rolesRemoved : Finset Text
  overridesSet : List ((Text × Text) × MemberOverride)
  overridesCleared : List (Text × Text)
  metadataChanged : Bool

namespace Plan

/-- `planChanges`, for one row. -/
def make (now : ℤ) (input : ImportRow) (existing : Option Member) : Plan :=
  let keepsBan := isGroupBanned existing now
  let reactivate := existing.any fun m => m.status ≠ .active && !keepsBan
  let priorRoles := (existing.map Member.roles).getD ∅
  let finalRoleIds := (input.roleIds.map List.toFinset).getD priorRoles
  let rolesAdded := finalRoleIds \ priorRoles
  let rolesRemoved := priorRoles \ finalRoleIds
  let priorOverrides := (existing.map Member.overrides).getD Dict.empty
  let overridesSet := match input.overrides with
    | none => []
    | some overrides => overrides.entries.filter fun e =>
        (priorOverrides.get? e.1).map MemberOverride.grant ≠ some e.2.grant
  let overridesCleared := match input.overrides with
    | none => []
    | some overrides => priorOverrides.keys.filter fun slot => !overrides.has slot
  let metadataChanged := input.metadata.any fun metadata =>
    canonicalJson metadata ≠ canonicalJson ((existing.map Member.metadata).getD (.obj []))
  let changed := rolesAdded ≠ ∅ || rolesRemoved ≠ ∅ || overridesSet ≠ [] || overridesCleared ≠ [] ||
    metadataChanged
  { input
    status :=
      if existing.isNone then .created
      else if reactivate then .reactivated
      else if changed then .updated else .unchanged
    finalRoleIds, rolesAdded, rolesRemoved, overridesSet, overridesCleared, metadataChanged }

variable (plan : Plan)

/-- The role and override rows of a member after the batch. -/
def applyRows (member : Member) : Member :=
  let touched := plan.overridesSet.map Prod.fst ++ plan.overridesCleared
  let kept := member.overrides.filter fun e => !touched.contains e.1
  { member with
    roles := member.roles \ plan.rolesRemoved ∪ plan.rolesAdded
    overrides := plan.overridesSet.foldl (fun overrides e => overrides.set e.1 e.2) kept }

/-- The row of an existing member after the batch. -/
def apply (member : Member) : Member :=
  let member := plan.applyRows member
  match plan.status with
  | .reactivated =>
    { member.activate with
      metadata := if plan.metadataChanged then plan.input.metadata.getD (.obj []) else member.metadata }
  | .updated =>
    { member.bumpVersion with
      metadata := if plan.metadataChanged then plan.input.metadata.getD (.obj []) else member.metadata }
  | _ => member

/-- The row that is made for a new member. -/
def createRow (now : ℤ) : Member :=
  plan.applyRows { Member.create now with metadata := plan.input.metadata.getD (.obj []) }

/-- The statements of the batch for one row. -/
def write (key : MemberKey) (now : ℤ) (db : MemberDb) : Option MemberDb :=
  match plan.status with
  | .created => db.insertMember key (plan.createRow now)
  | .unchanged => some db
  | _ => db.updateMember key plan.apply

def isJoin : Bool := plan.status = .created || plan.status = .reactivated

def rolesChanged : Bool := plan.rolesAdded ≠ ∅ || plan.rolesRemoved ≠ ∅

def changed : List MemberChangeField :=
  (if plan.metadataChanged then [.metadata] else []) ++
    if plan.overridesSet ≠ [] || plan.overridesCleared ≠ [] then [.overrides] else []

end Plan

namespace MemberWrites

/-! ### Helpers -/

def findGroup (gameId id : Text) (what : Text) : MemberTx Group := do
  let group ← query fun db => db.findGroup gameId id
  match group with
  | none => throw (.notFound what)
  | some group => pure group

def findMember (key : MemberKey) : MemberTx Member := do
  let member ← query fun db => db.findMember key
  match member with
  | none => throw (.notFound (text "member"))
  | some member => pure member

def assertVersion (expected : Option ℕ) (current : ℕ) : MemberTx Unit :=
  match expected with
  | none => pure ()
  | some v =>
    if v = current then pure ()
    else throw (.preconditionFailed (text "If-Match " ++ ModerationWrites.etagFor v ++
      text " does not match the current version " ++ ModerationWrites.etagFor current))

/-- Lock a group that is not deleted. -/
def lockGroupMembership (groupId : Text) : MemberTx Group := do
  let group ← lockQuery
    (fun db => if db.groups.has groupId then [.group groupId] else []) fun db => db.groups.get? groupId
  match group.filter fun g => g.softDeletedAt.isNone with
  | none => throw (.notFound (text "group"))
  | some group => pure group

def lockMember (key : MemberKey) : MemberTx Member := do
  let member ← lockQuery
    (fun db => if db.members.has key then [.member key] else []) fun db => db.findMember key
  match member with
  | none => throw (.notFound (text "member"))
  | some member => pure member

def lockMemberVersion (key : MemberKey) (expected : Option ℕ) : MemberTx Unit := do
  let member ← lockMember key
  assertVersion expected member.version

/-- Update a row and read it back. -/
def updateMember (key : MemberKey) (data : Member → Member) : MemberTx (Option Member) :=
  write (fun _ => [.member key]) (fun db => (db.findMember key).map data)
    fun db => db.updateMember key data

def insertMember (key : MemberKey) (member : Member) : MemberTx (Option Member) :=
  write (fun _ => [.member key]) (fun _ => some member) fun db => db.insertMember key member

/-- The version after the step. -/
def bumpMemberVersion (key : MemberKey) : MemberTx (Option ℕ) :=
  write (fun _ => [.member key]) (fun db => (db.findMember key).map fun m => m.version + 1)
    fun db => db.updateMember key Member.bumpVersion

/-- The member row that the check of the group's ban read; throws when a ban is active. -/
def checkBanState (gameId : Text) (key : MemberKey) (now : ℤ) : MemberTx (Option Member) := do
  let gameBan ← query fun db => db.gameBans.get? ⟨gameId, key.junjoUserId⟩
  match gameBan.filter fun expiresAt => isActiveUntil expiresAt now with
  | some expiresAt => throw (.banned .game expiresAt)
  | none => do
    let member ← query fun db => db.findMember key
    if isGroupBanned member now then throw (.banned .group (member.bind Member.bannedUntil))
    else pure member

/-- Those of some people who hold the most memberships in other groups of the kind. -/
def limitReached (groupId : Text) (group : Group) (maxPerUser : Option ℕ) (people : List Text) :
    MemberTx (List Text) :=
  match maxPerUser with
  | none => pure []
  | some max => do
    lockQuery (fun _ => people.map (.count group.gameId group.kind)) fun _ => ()
    query fun db => people.filter fun p =>
      max ≤ db.otherMemberships group.gameId group.kind groupId p

/-- Those of some people, the last ones, for whom the group has no room. -/
def withoutRoom (groupId : Text) (maxMembers : Option ℕ) (people : List Text) :
    MemberTx (List Text) :=
  match maxMembers with
  | none => pure []
  | some max => query fun db => people.drop (max - db.activeCount groupId)

/-- The people whose activation would break a limit, with the limit. -/
def kindLimitFailures (groupId : Text) (group : Group) (limits : Option GroupKindLimits)
    (activating : List Text) : MemberTx (List (Text × KindLimitFailure)) :=
  match limits with
  | none => pure []
  | some limits => do
    let people := activating.eraseDups
    let reached ← limitReached groupId group limits.maxPerUser people
    let full ← withoutRoom groupId limits.maxMembers (people.filter fun p => p ∉ reached)
    pure (reached.map (·, .groupLimitReached) ++ full.map (·, .groupFull))

def assertCanActivate (groupId : Text) (group : Group) (limits : Option GroupKindLimits)
    (junjoUserId : Text) : MemberTx Unit := do
  let failures ← kindLimitFailures groupId group limits [junjoUserId]
  match failures.lookup junjoUserId with
  | some failure => throw (.limit failure)
  | none => pure ()

/-- Moves the activity clock of the group, and deletes a group that a departure left empty where the
kind says so. -/
def afterMembershipChange (groupId : Text) (limits : Option GroupKindLimits) (departed : Bool)
    (now : ℤ) : MemberTx (List GroupEvent) := do
  lockQuery (fun _ => [.group groupId]) fun _ => ()
  if !(departed && limits.any GroupKindLimits.deleteWhenEmpty) then pure []
  else do
  let remaining ← query fun db => db.activeCount groupId
  if remaining > 0 then pure []
  else do
  write (fun _ => [.group groupId]) (fun _ => ()) fun db =>
    db.updateGroup groupId fun g => { g with softDeletedAt := some now }
  pure [.deleted groupId]

/-- The end of a transaction: its staged events are logged. -/
def finish (result : MemberResult) : MemberTx MemberResult := do
  if result.events.isEmpty then pure result
  else do
  write (fun _ => [.counter result.gameId]) (fun _ => ()) fun db =>
    some (db.writeEvents result.gameId result.events)
  pure result

/-! ### Joining -/

/-- Reactivate a row, or make one. -/
def activate (key : MemberKey) (existing : Option Member) (now : ℤ) : MemberTx (Option Member) :=
  match existing with
  | some _ => updateMember key Member.activate
  | none => insertMember key (Member.create now)

def joinedEvent (target : MemberTarget) (member : Member) (roleIds : Finset Text) : GroupEvent :=
  .member ⟨.joined (toPublicMember member roleIds), target.key, target.userId, member.version⟩

def roleChangedEvent (target : MemberTarget) (added removed : Finset Text)
    (actorUserId : Option Text) (version : ℕ) : GroupEvent :=
  .member ⟨.roleChanged added removed actorUserId, target.key, target.userId, version⟩

/-- `POST /v1/groups` -/
def createGroup (r : CreateGroupRequest) : MemberTx MemberResult := do
  let group : Group := ⟨r.gameId, r.kind, r.visibility, r.passcodeHash, r.defaultRoleId, none⟩
  write (fun _ => [.group r.fresh]) (fun _ => ()) fun db => db.insertGroup r.fresh group
  match r.creator with
  | none => pure ⟨.createGroup r, r.gameId, none, [], none⟩
  | some (junjoUserId, userId) => do
    let target : MemberTarget := ⟨r.gameId, r.fresh, junjoUserId, userId⟩
    let locked ← lockGroupMembership r.fresh
    let limits ← query fun db => db.kindLimits r.gameId r.kind
    assertCanActivate r.fresh locked limits junjoUserId
    let member ← insertMember target.key (Member.create r.now)
    let role ← query fun db =>
      r.defaultRoleId.filter fun roleId => db.roles.get? roleId = some r.fresh
    match role with
    | none =>
      finish ⟨.createGroup r, r.gameId, none, member.toList.map (joinedEvent target · ∅), none⟩
    | some roleId => do
      write (fun _ => [.member target.key]) (fun _ => ()) fun db =>
        db.insertMemberRole target.key roleId
      finish ⟨.createGroup r, r.gameId, none, member.toList.map (joinedEvent target · {roleId}), none⟩

/-- The passcode gate of a join. -/
def checkPasscode (verifySecret : Text → Text → Bool) (group : Group) (r : JoinRequest) :
    MemberTx Unit :=
  match group.passcodeHash with
  | none => pure ()
  | some hash =>
    match r.passcode with
    | none => throw .passcodeRequired
    | some passcode =>
      if !r.attemptAllowed then throw .rateLimitExceeded
      else if verifySecret passcode hash then pure ()
      else throw .passcodeInvalid

/-- `POST /v1/groups/:id/join` -/
def join (verifySecret : Text → Text → Bool) (r : JoinRequest) : MemberTx MemberResult := do
  let group ← findGroup r.gameId r.groupId (text "group")
  if group.visibility = .secret then throw (.notFound (text "group"))
  else if group.visibility ≠ .isPublic then
    throw (.permissionDenied (text "this group requires an invitation to join"))
  else do
  checkPasscode verifySecret group r
  let checked ← checkBanState r.gameId r.key r.checkedAt
  let limits ← query fun db => db.kindLimits r.gameId group.kind
  let locked ← lockGroupMembership r.groupId
  let existing ← query fun db => db.findMember r.key
  if existing.any fun m => m.status = .active then throw .alreadyMember
  else do
  assertCanActivate r.groupId locked limits r.junjoUserId
  let _ ← afterMembershipChange r.groupId limits false r.now
  let member ← activate r.key existing r.now
  finish ⟨.join r, r.gameId, checked, member.toList.map (joinedEvent r.toMemberTarget · ∅), none⟩

/-- The transaction of an add. -/
def addTransaction (r : AddRequest) (request : MemberRequest) (limits : Option GroupKindLimits)
    (checked : Option Member) : MemberTx MemberResult := do
  let locked ← lockGroupMembership r.groupId
  let existing ← query fun db => db.findMember r.key
  if existing.any fun m => m.status = .active then do
    let priorRoleIds ← query fun db => ((db.findMember r.key).map Member.roles).getD ∅
    match r.roleId.filter fun roleId => roleId ∉ priorRoleIds with
    | none => pure ⟨request, r.gameId, checked, [], none⟩
    | some roleId => do
      let version ← bumpMemberVersion r.key
      write (fun _ => [.member r.key]) (fun _ => ()) fun db => db.insertMemberRole r.key roleId
      finish ⟨request, r.gameId, checked, version.toList.map
        (roleChangedEvent r.toMemberTarget {roleId} ∅ r.actorUserId), none⟩
  else do
    assertCanActivate r.groupId locked limits r.junjoUserId
    let _ ← afterMembershipChange r.groupId limits false r.now
    let member ← activate r.key existing r.now
    let priorRoleIds ← query fun db =>
      if existing.isSome then ((db.findMember r.key).map Member.roles).getD ∅ else ∅
    match r.roleId.filter fun roleId => roleId ∉ priorRoleIds with
    | none =>
      finish ⟨request, r.gameId, checked, member.toList.map
        (joinedEvent r.toMemberTarget · priorRoleIds), none⟩
    | some roleId => do
      write (fun _ => [.member r.key]) (fun _ => ()) fun db => db.insertMemberRole r.key roleId
      finish ⟨request, r.gameId, checked, member.toList.flatMap fun m =>
        [joinedEvent r.toMemberTarget m (insert roleId priorRoleIds),
          roleChangedEvent r.toMemberTarget {roleId} ∅ r.actorUserId m.version], none⟩

/-- A role that a request names is one of the group. -/
def assertRole (groupId : Text) (roleId : Text) : MemberTx Unit := do
  let owner ← query fun db => db.roles.get? roleId
  match owner with
  | none => throw (.notFound (text "role"))
  | some owner => if owner ≠ groupId then throw .roleGroupMismatch else pure ()

/-- `POST /v1/groups/:id/members` -/
def add (r : AddRequest) : MemberTx MemberResult := do
  let group ← findGroup r.gameId r.groupId (text "group")
  (r.roleId.map (assertRole r.groupId)).getD (pure ())
  let checked ← checkBanState r.gameId r.key r.checkedAt
  let limits ← query fun db => db.kindLimits r.gameId group.kind
  addTransaction r (.add r) limits checked

/-- The second attempt of an add, whose first found the group and passed the ban check. -/
def addAgain (r : AddRequest) (limits : Option GroupKindLimits) (checked : Option Member)
    (passed : isGroupBanned checked r.checkedAt = false) : MemberTx MemberResult := do
  let _ ← findGroup r.gameId r.groupId (text "group")
  addTransaction r (.addAgain r limits checked passed) limits checked

/-! ### Invitations -/

/-- An invitation that can be redeemed. -/
def loadRedemptionTarget (code gameId : Text) (now : ℤ) : MemberTx Invitation := do
  let found ← query fun db => (db.invitations.get? code).bind fun i =>
    (db.groups.get? i.groupId).map fun g => (i, g)
  match found with
  | none => throw (.notFound (text "invitation"))
  | some (invitation, group) =>
    if group.gameId ≠ gameId then throw (.notFound (text "invitation"))
    else if group.softDeletedAt.isSome then throw (.notFound (text "invitation"))
    else if invitation.usedAt.isSome then throw .invitationUsed
    else if invitation.expiresAt.any fun t => t < now then throw .invitationExpired
    else pure invitation

def assertInvitationTarget (gameId : Text) (targetUserId : Option Text) (userId junjoUserId : Text) :
    MemberTx Unit :=
  match targetUserId with
  | none => pure ()
  | some target => do
    let person ← query fun db => db.findJunjoUserId gameId target
    if target = userId || person = some junjoUserId then pure ()
    else throw (.permissionDenied (text "this invitation is for a different user"))

/-- Mark the invitation as used while it is not; how many rows that changed. -/
def consumeInvitation (code : Text) (usedAt : ℤ) (usedBy : Option Text) : MemberTx ℕ :=
  write
    (fun db => if (db.invitations.get? code).any fun i => i.usedAt.isNone then [.invitation code]
      else [])
    (fun db => if (db.invitations.get? code).any fun i => i.usedAt.isNone then 1 else 0)
    fun db => some (db.consumeInvitation code usedAt usedBy)

/-- `POST /v1/invitations/:code/accept` -/
def accept (r : RedeemRequest) : MemberTx MemberResult := do
  let invitation ← loadRedemptionTarget r.code r.gameId r.checkedAt
  assertInvitationTarget r.gameId invitation.targetUserId r.userId r.junjoUserId
  let target : MemberTarget := ⟨r.gameId, invitation.groupId, r.junjoUserId, r.userId⟩
  let checked ← checkBanState r.gameId target.key r.checkedAt
  let locked ← lockGroupMembership invitation.groupId
  let limits ← query fun db => db.kindLimits r.gameId locked.kind
  let existing ← query fun db => db.findMember target.key
  if existing.any fun m => m.status = .active then throw .alreadyMember
  else do
  assertCanActivate invitation.groupId locked limits r.junjoUserId
  let _ ← afterMembershipChange invitation.groupId limits false r.now
  let consumed ← consumeInvitation r.code r.now (some r.junjoUserId)
  if consumed = 0 then throw .invitationUsed
  else do
  let member ← activate target.key existing r.now
  finish ⟨.accept r, r.gameId, checked, member.toList.map (joinedEvent target · ∅), none⟩

/-- A decline that names someone names the target. -/
def assertDecliner (r : DeclineRequest) (targetUserId : Option Text) : MemberTx Unit :=
  match r.person with
  | none => pure ()
  | some (junjoUserId, userId) => assertInvitationTarget r.gameId targetUserId userId junjoUserId

/-- `POST /v1/invitations/:code/decline` -/
def decline (r : DeclineRequest) : MemberTx MemberResult := do
  let invitation ← loadRedemptionTarget r.code r.gameId r.checkedAt
  assertDecliner r invitation.targetUserId
  let consumed ← consumeInvitation r.code r.now (r.person.map Prod.fst)
  if consumed = 0 then throw .invitationUsed
  else pure ⟨.decline r, r.gameId, none, [], none⟩

/-- `DELETE /v1/invitations/:code` -/
def revoke (r : RevokeRequest) : MemberTx MemberResult := do
  let found ← query fun db => (db.invitations.get? r.code).bind fun i =>
    (db.groups.get? i.groupId).map fun g => (i, g)
  match found with
  | none => throw (.notFound (text "invitation"))
  | some (invitation, group) =>
    if group.gameId ≠ r.gameId then throw (.notFound (text "invitation"))
    else if invitation.usedAt.isSome then pure ⟨.revoke r, r.gameId, none, [], none⟩
    else do
    write (fun _ => [.invitation r.code]) (fun _ => ()) fun db => db.deleteInvitation r.code
    pure ⟨.revoke r, r.gameId, none, [], some invitation⟩

/-! ### Leaving -/

def leftEvent (target : MemberTarget) (reason : MemberStatus) (version : ℕ) : GroupEvent :=
  .member ⟨.left reason, target.key, target.userId, version⟩

/-- The end of a departure. -/
def depart (request : MemberRequest) (target : MemberTarget) (checked : Option Member)
    (status : MemberStatus) (limits : Option GroupKindLimits) (now : ℤ) : MemberTx MemberResult := do
  let member ← updateMember target.key fun m => m.depart status now
  let deleted ← afterMembershipChange target.groupId limits true now
  finish ⟨request, target.gameId, checked,
    member.toList.map (fun m => leftEvent target status m.version) ++ deleted, none⟩

/-- `POST /v1/groups/:id/leave` -/
def leave (r : LeaveRequest) : MemberTx MemberResult := do
  let group ← findGroup r.gameId r.groupId (text "group")
  let member ← findMember r.key
  if member.status ≠ .active then pure ⟨.leave r, r.gameId, some member, [], none⟩
  else do
  let limits ← query fun db => db.kindLimits r.gameId group.kind
  let _ ← lockGroupMembership r.groupId
  let current ← lockMember r.key
  if current.status ≠ .active then pure ⟨.leave r, r.gameId, some member, [], none⟩
  else depart (.leave r) r.toMemberTarget (some member) .left limits r.now

/-- `POST /v1/groups/:id/members/:userId/kick` -/
def kick (r : KickRequest) : MemberTx MemberResult := do
  let group ← findGroup r.gameId r.groupId (text "group")
  let member ← findMember r.key
  if member.status ≠ .active then do
    assertVersion r.ifMatch member.version
    pure ⟨.kick r, r.gameId, some member, [], none⟩
  else do
  let limits ← query fun db => db.kindLimits r.gameId group.kind
  let _ ← lockGroupMembership r.groupId
  let current ← lockMember r.key
  assertVersion r.ifMatch current.version
  if current.status ≠ .active then pure ⟨.kick r, r.gameId, some member, [], none⟩
  else depart (.kick r) r.toMemberTarget (some member) .kicked limits r.now

/-- The dashboard's kick. -/
def kickAdmin (r : LeaveRequest) : MemberTx MemberResult := do
  let group ← findGroup r.gameId r.groupId (text "member")
  let member ← findMember r.key
  if member.status ≠ .active then pure ⟨.kickAdmin r, r.gameId, some member, [], none⟩
  else do
  let limits ← query fun db => db.kindLimits r.gameId group.kind
  let _ ← lockGroupMembership r.groupId
  -- the status is not read again
  depart (.kickAdmin r) r.toMemberTarget (some member) .kicked limits r.now

/-- The row that a ban leaves. -/
def banRow (r : MemberBanRequest) (existing : Option Member) : MemberTx (Option Member) :=
  match existing with
  | some existing => do
    lockMemberVersion r.key r.ifMatch
    updateMember r.key fun m => m.ban r.expiresAt (existing.leftAt.getD r.now)
  | none =>
    insertMember r.key { Member.create r.now with
      status := .banned, bannedUntil := r.expiresAt, leftAt := some r.now }

/-- `POST /v1/groups/:id/members/:userId/ban` -/
def ban (r : MemberBanRequest) : MemberTx MemberResult := do
  let group ← findGroup r.gameId r.groupId (text "group")
  let limits ← query fun db => db.kindLimits r.gameId group.kind
  let _ ← lockGroupMembership r.groupId
  let existing ← query fun db => db.findMember r.key
  let member ← banRow r existing
  let deleted ← afterMembershipChange r.groupId limits
    (existing.any fun m => m.status = .active) r.now
  finish ⟨.ban r, r.gameId, none, member.toList.map (fun m =>
    .member ⟨.banned r.reason r.expiresAt, r.key, r.userId, m.version⟩) ++ deleted, none⟩

/-- `DELETE /v1/groups/:id/members/:userId/ban` -/
def unban (r : MemberUnbanRequest) : MemberTx MemberResult := do
  let _ ← findGroup r.gameId r.groupId (text "group")
  let member ← query fun db => db.findMember r.key
  if !(member.any fun m => m.status = .banned) then throw .banNotActive
  else do
  let _ ← lockGroupMembership r.groupId
  let current ← lockMember r.key
  if current.status ≠ .banned then throw .banNotActive
  else do
  assertVersion r.ifMatch current.version
  let updated ← updateMember r.key Member.unban
  let _ ← afterMembershipChange r.groupId none false r.now
  finish ⟨.unban r, r.gameId, member, updated.toList.map fun m =>
    .member ⟨.unbanned, r.key, r.userId, m.version⟩, none⟩

/-! ### Metadata, roles and overrides -/

/-- `PATCH /v1/groups/:id/members/:userId` -/
def patch (r : MemberPatchRequest) : MemberTx MemberResult := do
  let _ ← findGroup r.gameId r.groupId (text "group")
  let member ← findMember r.key
  let data := MemberPatch.diff r member
  if data.changed = [] then do
    assertVersion r.ifMatch member.version
    pure ⟨.patch r, r.gameId, some member, [], none⟩
  else do
  lockMemberVersion r.key r.ifMatch
  let updated ← updateMember r.key data.apply
  finish ⟨.patch r, r.gameId, some member, updated.toList.map fun m =>
    .member ⟨.updated data.changed, r.key, r.userId, m.version⟩, none⟩

/-- `POST /v1/groups/:id/members/:userId/roles/:roleId` -/
def assignRole (r : MemberRoleRequest) : MemberTx MemberResult := do
  let _ ← findGroup r.gameId r.groupId (text "group")
  let member ← findMember r.key
  assertRole r.groupId r.roleId
  let existing ← query fun db => (db.findMember r.key).any fun m => r.roleId ∈ m.roles
  if existing then do
    assertVersion r.ifMatch member.version
    pure ⟨.assignRole r, r.gameId, none, [], none⟩
  else do
  lockMemberVersion r.key r.ifMatch
  write (fun _ => [.member r.key]) (fun _ => ()) fun db => db.insertMemberRole r.key r.roleId
  let version ← bumpMemberVersion r.key
  finish ⟨.assignRole r, r.gameId, none, version.toList.map
    (roleChangedEvent r.toMemberTarget {r.roleId} ∅ r.actorUserId), none⟩

/-- `DELETE /v1/groups/:id/members/:userId/roles/:roleId` -/
def unassignRole (r : MemberRoleRequest) : MemberTx MemberResult := do
  let _ ← findGroup r.gameId r.groupId (text "group")
  let member ← findMember r.key
  let existing ← query fun db => (db.findMember r.key).any fun m => r.roleId ∈ m.roles
  if !existing then do
    assertVersion r.ifMatch member.version
    pure ⟨.unassignRole r, r.gameId, none, [], none⟩
  else do
  lockMemberVersion r.key r.ifMatch
  let deleted ← write (fun _ => [.member r.key])
    (fun db => (db.findMember r.key).any fun m => r.roleId ∈ m.roles)
    fun db => db.updateMember r.key fun m => { m with roles := m.roles.erase r.roleId }
  if !deleted then pure ⟨.unassignRole r, r.gameId, none, [], none⟩
  else do
  let version ← bumpMemberVersion r.key
  finish ⟨.unassignRole r, r.gameId, none, version.toList.map
    (roleChangedEvent r.toMemberTarget ∅ {r.roleId} r.actorUserId), none⟩

def overridesChangedEvent (target : MemberTarget) (version : ℕ) : GroupEvent :=
  .member ⟨.updated [.overrides], target.key, target.userId, version⟩

def permissionKeyMaxLength : ℕ := 128

/-- A key that may be stored, in the game's mode. -/
def keyForWrite (mode : PermissionMode) (key : Text) : Except MemberError Text :=
  if key.length = 0 then .error (.badRequest (text "permission must not be empty"))
  else if key.length > permissionKeyMaxLength then
    .error (.badRequest (text "permission must be at most " ++ decimal permissionKeyMaxLength ++
      text " characters"))
  else match validatePermissionKey mode key with
    | some reason =>
      .error (.badRequest (text "permission " ++ jsonString key ++ text " " ++ text reason))
    | none => .ok (normalizePermissionKey mode key)

def permissionMode (gameId : Text) : MemberTx PermissionMode :=
  query fun db => (db.modes.get? gameId).getD .exact

/-- `POST /v1/groups/:id/members/:userId/permissions/:permission` -/
def setOverride (r : OverrideRequest) (grant : Bool) : MemberTx MemberResult := do
  let _ ← findGroup r.gameId r.groupId (text "member")
  let _ ← findMember r.key
  let mode ← permissionMode r.gameId
  match keyForWrite mode r.permission with
  | .error e => throw e
  | .ok permission => do
    let slot := (permission, canonicalContextKey (some r.context))
    lockMemberVersion r.key r.ifMatch
    let existing ← query fun db => (db.findMember r.key).bind fun m => m.overrides.get? slot
    if existing.map MemberOverride.grant = some grant then
      pure ⟨.setOverride r grant, r.gameId, none, [], none⟩
    else do
    let upsert (m : Member) : Member :=
      let row : MemberOverride := match m.overrides.get? slot with
        | some row => { row with grant := grant }
        | none => ⟨grant, storedContext r.context⟩
      { m with overrides := m.overrides.set slot row }
    write (fun _ => [.member r.key]) (fun _ => ()) fun db => db.updateMember r.key upsert
    let version ← bumpMemberVersion r.key
    finish ⟨.setOverride r grant, r.gameId, none, version.toList.map
      (overridesChangedEvent r.toMemberTarget), none⟩

/-- `DELETE /v1/groups/:id/members/:userId/permissions/:permission` -/
def clearOverride (r : OverrideRequest) : MemberTx MemberResult := do
  let _ ← findGroup r.gameId r.groupId (text "member")
  let _ ← findMember r.key
  let mode ← permissionMode r.gameId
  let slot := (normalizePermissionKey mode r.permission, canonicalContextKey (some r.context))
  lockMemberVersion r.key r.ifMatch
  let existing ← query fun db => (db.findMember r.key).bind fun m => m.overrides.get? slot
  if existing.isNone then pure ⟨.clearOverride r, r.gameId, none, [], none⟩
  else do
  write (fun _ => [.member r.key]) (fun _ => ()) fun db =>
    db.updateMember r.key fun m => { m with overrides := m.overrides.delete slot }
  let version ← bumpMemberVersion r.key
  finish ⟨.clearOverride r, r.gameId, none, version.toList.map
    (overridesChangedEvent r.toMemberTarget), none⟩

/-! ### Import -/

/-- The first role of a row that is not one of the group. -/
def checkRoles (r : ImportRequest) (db : MemberDb) (row : ImportRow) : Option ImportRowError :=
  ((row.roleIds.getD []).find? fun id => db.roles.get? id ≠ some r.groupId).map fun id =>
    if db.roles.has id then
      .badRequest (text "role " ++ id ++ text " does not belong to this group")
    else .notFound (text "role " ++ id ++ text " not found")

/-- The first error of a row, before the limits. -/
def importRowError (r : ImportRequest) (db : MemberDb) (earlier : List (ℕ × ImportRow))
    (row : ImportRow) (existing : Option Member) : Option ImportRowError :=
  match checkRoles r db row with
  | some error => some error
  | none =>
    match earlier.find? fun e => e.2.junjoUserId = row.junjoUserId && (checkRoles r db e.2).isNone with
    | some first =>
      some (.badRequest (text "userId names the same person as row " ++ decimal first.1))
    | none =>
      if r.allowBanned then none
      else if (db.gameBans.get? ⟨r.gameId, row.junjoUserId⟩).any fun t => isActiveUntil t r.now then
        some (.banned .game)
      else if isGroupBanned existing r.now then some (.banned .group)
      else none

/-- Each row with its index and the rows before it. -/
def withEarlier (rows : List ImportRow) : List (List (ℕ × ImportRow) × ℕ × ImportRow) :=
  rows.zipIdx.map fun (row, n) => ((rows.zipIdx.take n).map fun (row, n) => (n, row), n, row)

def importEvents (r : ImportRequest) (plans : List Plan) (finalRows : Dict MemberKey Member) :
    List GroupEvent :=
  let of (event : Plan → Member → Option MemberEventType) : List GroupEvent :=
    plans.filterMap fun p =>
      if p.status = .unchanged then none
      else (finalRows.get? ⟨r.groupId, p.input.junjoUserId⟩).bind fun m =>
        (event p m).map fun type =>
          .member ⟨type, ⟨r.groupId, p.input.junjoUserId⟩, p.input.userId, m.version⟩
  of (fun p m => if p.isJoin then some (.joined (toPublicMember m p.finalRoleIds)) else none) ++
    of (fun p _ => if p.rolesChanged then
      some (.roleChanged p.rolesAdded p.rolesRemoved r.actorUserId) else none) ++
    of (fun p _ => if p.changed ≠ [] then some (.updated p.changed) else none)

/-- The statements of the batch, as one: the rows are locked or new. -/
def applyPlans (r : ImportRequest) (plans : List Plan) (db : MemberDb) : Option MemberDb :=
  plans.foldlM (fun db p => p.write ⟨r.groupId, p.input.junjoUserId⟩ r.now db) db

/-- Moves the activity clock of the group when someone became active. -/
def afterImport (r : ImportRequest) (limits : Option GroupKindLimits) (plans : List Plan) :
    MemberTx Unit :=
  if plans.any Plan.isJoin then do
    let _ ← afterMembershipChange r.groupId limits false r.now
  else pure ()

/-- `POST /v1/groups/:id/members/import` -/
def importMembers (r : ImportRequest) : MemberTx MemberResult := do
  let group ← findGroup r.gameId r.groupId (text "group")
  let key (row : ImportRow) : MemberKey := ⟨r.groupId, row.junjoUserId⟩
  let limits ← query fun db => db.kindLimits r.gameId group.kind
  let locked ← lockGroupMembership r.groupId
  lockQuery (fun db => (r.members.filter fun row => db.members.has (key row)).map fun row =>
    .member (key row)) fun _ => ()
  let loaded ← query fun db => (withEarlier r.members).map fun (earlier, n, row) =>
    (n, row, db.findMember (key row), importRowError r db earlier row (db.findMember (key row)))
  let activating := loaded.filter fun (_, _, existing, error) =>
    error.isNone && !(existing.any fun m => m.status = .active) && !isGroupBanned existing r.now
  let failures ← kindLimitFailures r.groupId locked limits
    (activating.map fun (_, row, _) => row.junjoUserId)
  let errors := loaded.filterMap fun (n, row, existing, error) =>
    match error with
    | some error => some (n, error)
    | none =>
      if (existing.any fun m => m.status = .active) || isGroupBanned existing r.now then none
      else (failures.lookup row.junjoUserId).map fun failure => (n, .limit failure)
  if errors ≠ [] then throw (.rows errors)
  else do
  let plans := loaded.map fun (_, row, existing, _) => Plan.make r.now row existing
  write (fun _ => plans.map fun p => .member (key p.input)) (fun _ => ()) (applyPlans r plans)
  afterImport r limits plans
  let finalRows ← query fun db => db.members
  finish ⟨.importMembers r, r.gameId, none, importEvents r plans finalRows, none⟩

end MemberWrites

def MemberRequest.program (verifySecret : Text → Text → Bool) : MemberRequest → MemberTx MemberResult
  | .createGroup r => MemberWrites.createGroup r
  | .join r => MemberWrites.join verifySecret r
  | .add r => MemberWrites.add r
  | .addAgain r limits checked passed => MemberWrites.addAgain r limits checked passed
  | .accept r => MemberWrites.accept r
  | .decline r => MemberWrites.decline r
  | .revoke r => MemberWrites.revoke r
  | .importMembers r => MemberWrites.importMembers r
  | .leave r => MemberWrites.leave r
  | .kick r => MemberWrites.kick r
  | .kickAdmin r => MemberWrites.kickAdmin r
  | .ban r => MemberWrites.ban r
  | .unban r => MemberWrites.unban r
  | .patch r => MemberWrites.patch r
  | .assignRole r => MemberWrites.assignRole r
  | .unassignRole r => MemberWrites.unassignRole r
  | .setOverride r grant => MemberWrites.setOverride r grant
  | .clearOverride r => MemberWrites.clearOverride r

abbrev MemberServer := Database MemberDb MemberLock MemberError MemberResult

/-- Run some events of membership writes. -/
def MemberServer.run (verifySecret : Text → Text → Bool) (start : MemberDb)
    (events : List (TxEvent MemberRequest)) : Option MemberServer :=
  runSteps (Database.next MemberLock.conflicts (MemberRequest.program verifySecret))
    { committed := start } events

end Junjo
