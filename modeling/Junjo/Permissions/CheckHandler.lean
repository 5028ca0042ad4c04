import Junjo.Cache.PermissionCache
import Junjo.Core.Prog
import Junjo.Groups.Rows
import Junjo.Permissions.Loads

/-!
# Permission check requests

The handlers of permission checks as programs of database statements and cache calls. Every
statement sees the database as it stands when it runs, so other requests can come between any two
of them.
-/

namespace Junjo

structure ExternalIdentityRow where
  gameId : Text
  externalUserId : Text
  junjoUserId : Text
deriving DecidableEq

/-- The committed data that checks read. -/
structure CheckWorld where
  tables : PermissionTables
  groups : List GroupRow
  identities : List ExternalIdentityRow
  /-- The resolved `permissions` config of the games that have one. -/
  permissionConfigs : Dict Text GameConfigPermissions
  /-- The ids that the formats a game declares reject. -/
  malformedUserIds : List (Text × Text)

/-- What a handler does besides computing. A statement names the groups whose rows it reads for
the answer. -/
inductive CheckOp where
  | statement (groups : CheckWorld → List Text)
  | get (gameId groupId userId permission : Text) (opts : PermissionCacheKeyOptions)
  | set (gameId groupId userId permission : Text) (result : PermissionCheckResult)
      (opts : PermissionCacheSetOptions)

/-- The answer to an operation: the database a statement ran against, or what the cache held. -/
def CheckOp.Reply : CheckOp → Type
  | .statement _ => CheckWorld
  | .get .. => Option PermissionCheckResult
  | .set .. => Unit

inductive CheckError where
  | notFound (resource : Text)
  | badUserId (userId : Text)
deriving DecidableEq

/-- The lookups that the checks of one request share. -/
structure CheckContext where
  identities : Dict Text (Option Text) := Dict.empty
  config : Option GameConfigPermissions := none
  loads : Option MemberLoads := none
  /-- The memo of group resolutions (`LevelMemo`). -/
  levels : Dict Text PermissionCheckResult := Dict.empty

abbrev CheckProg := Prog CheckOp CheckOp.Reply

abbrev CheckM := StateT CheckContext (ExceptT CheckError CheckProg)

namespace CheckHandler

/-- A statement that reads rows of `groups`. -/
def query {α : Type} (groups : CheckWorld → List Text) (f : CheckWorld → α) : CheckM α :=
  fun ctx => Prog.op (.statement groups) fun world => .done (.ok (f world, ctx))

def cacheGet (gameId groupId userId permission : Text) (opts : PermissionCacheKeyOptions) :
    CheckM (Option PermissionCheckResult) :=
  fun ctx => Prog.op (.get gameId groupId userId permission opts) fun cached =>
    .done (.ok (cached, ctx))

def cacheSet (gameId groupId userId permission : Text) (result : PermissionCheckResult)
    (opts : PermissionCacheSetOptions) : CheckM Unit :=
  fun ctx => Prog.op (.set gameId groupId userId permission result opts) fun _ =>
    .done (.ok ((), ctx))

/-! ### Shared lookups -/

def assertUserIdsWellFormed (gameId : Text) (userIds : List Text) : CheckM Unit := do
  let malformed ← query (fun _ => []) CheckWorld.malformedUserIds
  match userIds.find? fun userId => (gameId, userId) ∈ malformed with
  | some userId => throw (.badUserId userId)
  | none => return ()

def findJunjoUserId (gameId externalUserId : Text) : CheckM (Option Text) := do
  assertUserIdsWellFormed gameId [externalUserId]
  query (fun _ => []) fun world =>
    (world.identities.find? fun row =>
      row.gameId = gameId && row.externalUserId = externalUserId).map ExternalIdentityRow.junjoUserId

/-- `CheckContext.resolve`: a person is looked up once a request. -/
def resolveIdentity (gameId externalUserId : Text) : CheckM (Option Text) := do
  match (← get).identities.get? externalUserId with
  | some hit => return hit
  | none =>
    let id ← findJunjoUserId gameId externalUserId
    modify fun ctx => { ctx with identities := ctx.identities.set externalUserId id }
    return id

/-- `CheckContext.permissions`: the game's config is read once a request. -/
def permissions (gameId : Text) : CheckM GameConfigPermissions := do
  match (← get).config with
  | some config => return config
  | none =>
    let config ← query (fun _ => []) fun world =>
      (world.permissionConfigs.get? gameId).getD ⟨.exact, Dict.empty⟩
    modify fun ctx => { ctx with config := some config }
    return config

/-! ### Resolution -/

/-- `MemberLoads.memberRoles`: the reachable roles, then their entries and parent links. -/
def memberRoles (loads : MemberLoads) (groupId memberId : Text) : CheckM (RoleData × MemberLoads) := do
  match loads.roles.get? memberId with
  | some hit => return (hit, loads)
  | none =>
    let reachable ← query (fun _ => [groupId]) fun world =>
      world.tables.loadReachableRoles groupId memberId
    let data ←
      if reachable.isEmpty then pure ⟨reachable, [], []⟩
      else do
        let roleIds := reachable.map ReachableRole.id
        let entryRows ← query (fun _ => [groupId]) fun world =>
          world.tables.rolePermissions.filter fun row => row.owner ∈ roleIds && loads.filter row
        let parentRows ←
          if reachable.any fun r => 0 < r.depth then
            query (fun _ => [groupId]) fun world =>
              world.tables.roleParents.filter fun row =>
                row.roleId ∈ roleIds && row.parentRoleId ∈ roleIds
          else pure []
        pure ⟨reachable, entryRows, parentRows⟩
    return (data, { loads with roles := loads.roles.set memberId data })

def resolveActive (config : GameConfigPermissions) (groupId : Text) (member : GroupMemberRow)
    (permission : Text) (context : PermissionContext) (loads : MemberLoads) :
    CheckM (PermissionCheckResult × MemberLoads) := do
  let (overrideRows, loads) ← query (fun _ => [groupId]) fun world =>
    loads.memberOverrides world.tables member.id
  let own := resolveMemberPermission (overrideInput config context overrideRows) permission
  if !overrideRows.isEmpty && own.source = .override then return (own, loads)
  let (data, loads) ← memberRoles loads groupId member.id
  if data.reachable.isEmpty then return ({ allowed := false, source := .default }, loads)
  return (resolveMemberPermission (roleInput config context data) permission, loads)

def resolveWithLoads (config : GameConfigPermissions) (groupId junjoUserId permission : Text)
    (context : PermissionContext) (loads : MemberLoads) :
    CheckM (PermissionCheckResult × MemberLoads) := do
  let (member, loads) ← query (fun _ => [groupId]) fun world =>
    loads.member world.tables groupId junjoUserId
  match member with
  | none => return ({ allowed := false, source := .none }, loads)
  | some member =>
    if member.status ≠ .active then return ({ allowed := false, source := .none }, loads)
    resolveActive config groupId member permission context loads

def resolveForJunjoUser (config : GameConfigPermissions) (groupId junjoUserId permission : Text)
    (context : PermissionContext) (shared : Option MemberLoads) :
    CheckM (PermissionCheckResult × Option MemberLoads) := do
  let candidates := candidateKeys config.mode permission
  let hasContext := !context.keys.isEmpty
  let own : MemberLoads := { keys := candidates, withContexts := hasContext }
  match shared with
  | some loads =>
    if loads.covers candidates hasContext then
      let (result, loads) ← resolveWithLoads config groupId junjoUserId permission context loads
      return (result, some loads)
    let (result, _) ← resolveWithLoads config groupId junjoUserId permission context own
    return (result, shared)
  | none =>
    let (result, _) ← resolveWithLoads config groupId junjoUserId permission context own
    return (result, none)

def resolvePermission (gameId groupId externalUserId permission : Text)
    (permissionContext : PermissionContext) : CheckM PermissionCheckResult := do
  match ← resolveIdentity gameId externalUserId with
  | none => return { allowed := false, source := .none }
  | some junjoUserId =>
    let config ← permissions gameId
    let (result, loads) ← resolveForJunjoUser config groupId junjoUserId permission
      permissionContext (← get).loads
    modify fun ctx => { ctx with loads := loads }
    return result

def levelKey (groupId externalUserId permission context : Text) : Text :=
  [groupId, externalUserId, permission, context].foldl
    (fun out part => out ++ (text "|" ++ lengthPrefixed part)) []

/-- `LevelMemo.resolve`. -/
def resolveLevel (gameId groupId externalUserId permission : Text)
    (permissionContext : PermissionContext) : CheckM PermissionCheckResult := do
  let k := levelKey groupId externalUserId permission (canonicalContextKey (some permissionContext))
  match (← get).levels.get? k with
  | some hit => return hit
  | none =>
    let result ← resolvePermission gameId groupId externalUserId permission permissionContext
    modify fun ctx => { ctx with levels := ctx.levels.set k result }
    return result

/-- The loop over the chain: the first group that decides answers. -/
def walkChain (gameId externalUserId permission : Text) (permissionContext : PermissionContext) :
    List Text → List Text → Option PermissionCheckResult →
      CheckM (PermissionCheckResult × List Text)
  | [], consulted, direct =>
    return (direct.getD { allowed := false, source := .none }, consulted)
  | levelGroupId :: chain, consulted, direct => do
    let consulted := consulted ++ [levelGroupId]
    let result ← resolveLevel gameId levelGroupId externalUserId permission permissionContext
    if result.source = .override || result.source = .role then
      return ({ result with viaGroupId := some levelGroupId }, consulted)
    walkChain gameId externalUserId permission permissionContext chain consulted
      (direct.or (some result))

def resolvePermissionInherited (gameId groupId externalUserId permission : Text)
    (permissionContext : PermissionContext) : CheckM (PermissionCheckResult × List Text) := do
  let chain ← query (fun world => loadAncestorChain world.groups gameId groupId) fun world =>
    loadAncestorChain world.groups gameId groupId
  walkChain gameId externalUserId permission permissionContext chain [] none

/-! ### Handlers -/

structure CheckQuery where
  groupId : Text
  userId : Text
  permission : Text
  context : PermissionContext

/-- The cached answer of a check, or a resolution that is then cached. -/
def answer (gameId : Text) (inherit : Bool) (check : CheckQuery) :
    CheckM PermissionCheckResult := do
  let contextKey := canonicalContextKey (some check.context)
  match ← cacheGet gameId check.groupId check.userId check.permission
      ⟨some inherit, some contextKey⟩ with
  | some cached => return cached
  | none =>
    if !inherit then
      let result ← resolvePermission gameId check.groupId check.userId check.permission check.context
      cacheSet gameId check.groupId check.userId check.permission result
        { context := some contextKey }
      return result
    let (result, consulted) ← resolvePermissionInherited gameId check.groupId check.userId
      check.permission check.context
    cacheSet gameId check.groupId check.userId check.permission result
      { inherit := some true
        context := some contextKey
        dependsOn := some (if consulted.isEmpty then [check.groupId] else consulted) }
    return result

def checkPermissionHandler (gameId : Text) (inherit : Bool) (check : CheckQuery) :
    CheckM (List PermissionCheckResult) := do
  -- The group's own row is not part of the answer: only its existence is checked.
  let group ← query (fun _ => []) fun world => findGroup world.groups gameId check.groupId
  if group.isNone then throw (.notFound (text "group"))
  assertUserIdsWellFormed gameId [check.userId]
  return [← answer gameId inherit check]

def answerAll (gameId : Text) (inherit : Bool) : List CheckQuery → CheckM (List PermissionCheckResult)
  | [] => return []
  | check :: checks => do
    let result ← answer gameId inherit check
    return result :: (← answerAll gameId inherit checks)

def checkPermissionBatchHandler (gameId : Text) (inherit : Bool) (checks : List CheckQuery) :
    CheckM (List PermissionCheckResult) := do
  let known ← query (fun _ => []) fun world =>
    checks.map fun check => (findGroup world.groups gameId check.groupId).isSome
  match known.idxOf? false with
  | some missingIndex =>
    throw (.notFound (text "group for checks[" ++ decimal missingIndex ++ text "]"))
  | none =>
    assertUserIdsWellFormed gameId (checks.map CheckQuery.userId)
    let config ← permissions gameId
    modify fun ctx => { ctx with
      loads := some
        { keys := (checks.flatMap fun check => candidateKeys config.mode check.permission).eraseDups
          withContexts := checks.any fun check => !check.context.keys.isEmpty } }
    answerAll gameId inherit checks

end CheckHandler

end Junjo
