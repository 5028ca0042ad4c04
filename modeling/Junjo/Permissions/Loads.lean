import Junjo.Core.Encode
import Junjo.Permissions.Tables

/-!
# Filtered reads

The server reads for a check only the entries whose keys could match it, contextual ones only
when a check has a context, and only the roles reachable from the member. A batch shares the
reads of all its checks.
-/

namespace Junjo

/-! ### Queries -/

structure ReachableRole where
  id : Text
  priority : ℤ
  depth : ℕ
deriving DecidableEq

namespace PermissionTables

variable (tables : PermissionTables)

/-- The membership row of a person in a group. -/
def findMember (groupId junjoUserId : Text) : Option GroupMemberRow :=
  tables.groupMembers.find? fun m => m.groupId = groupId && m.junjoUserId = junjoUserId

/-- Whether a role of the group has the id. -/
def inGroup (groupId id : Text) : Bool :=
  tables.roles.any fun role => role.id = id && role.groupId = groupId

/-- The parent ids of a role. -/
def parentIds (id : Text) : List Text :=
  (tables.roleParents.filter fun row => row.roleId = id).map RoleParentRow.parentRoleId

/-- The `depth` level of the recursive query: the roles given to the member, then the parents of
the level before, restricted to the group. -/
def reachLevel (groupId memberId : Text) : ℕ → List Text
  | 0 => ((tables.memberRoleIds memberId).filter (tables.inGroup groupId)).eraseDups
  | depth + 1 =>
    ((reachLevel groupId memberId depth).flatMap fun id =>
      (tables.parentIds id).filter (tables.inGroup groupId)).eraseDups

/-- Every role reachable from the member's roles, with its least depth. -/
def loadReachableRoles (groupId memberId : Text) : List ReachableRole :=
  tables.roles.filterMap fun role =>
    ((List.range (maxRoleDepth + 1)).find? fun depth =>
        role.id ∈ tables.reachLevel groupId memberId depth).map fun depth =>
      ⟨role.id, role.priority, depth⟩

end PermissionTables

/-! ### Shared loads -/

structure RoleData where
  reachable : List ReachableRole
  entryRows : List EntryRow
  parentRows : List RoleParentRow

/-- The reads of one or several checks. Entries and overrides are read for `keys` only, and
contextual ones only when `withContexts` is set; each read is made at most once. -/
structure MemberLoads where
  keys : List Text
  withContexts : Bool
  members : Dict Text (Option GroupMemberRow) := Dict.empty
  overrides : Dict Text (List EntryRow) := Dict.empty
  roles : Dict Text RoleData := Dict.empty

namespace MemberLoads

variable (tables : PermissionTables) (loads : MemberLoads)

/-- Whether these loads read everything a check with the candidates and context needs. -/
def covers (candidates : List Text) (hasContext : Bool) : Bool :=
  if hasContext && !loads.withContexts then false
  else candidates.all fun key => key ∈ loads.keys

/-- The filter of entry and override reads. -/
def filter (row : EntryRow) : Bool :=
  row.permissionKey ∈ loads.keys && (loads.withContexts || row.contextKey = [])

def memberKey (groupId junjoUserId : Text) : Text :=
  lengthPrefixed groupId ++ text "|" ++ junjoUserId

def member (groupId junjoUserId : Text) : Option GroupMemberRow × MemberLoads :=
  let key := memberKey groupId junjoUserId
  match loads.members.get? key with
  | some hit => (hit, loads)
  | none =>
    let row := tables.findMember groupId junjoUserId
    (row, { loads with members := loads.members.set key row })

/-- The override rows a read returns. -/
def readOverrides (memberId : Text) : List EntryRow :=
  (rowsOf tables.overrides memberId).filter loads.filter

def memberOverrides (memberId : Text) : List EntryRow × MemberLoads :=
  match loads.overrides.get? memberId with
  | some hit => (hit, loads)
  | none =>
    let rows := loads.readOverrides tables memberId
    (rows, { loads with overrides := loads.overrides.set memberId rows })

def loadRoles (groupId memberId : Text) : RoleData :=
  let reachable := tables.loadReachableRoles groupId memberId
  if reachable.isEmpty then ⟨reachable, [], []⟩
  else
    let roleIds := reachable.map ReachableRole.id
    let inherits := reachable.any fun r => 0 < r.depth
    { reachable := reachable
      entryRows := tables.rolePermissions.filter fun row =>
        row.owner ∈ roleIds && loads.filter row
      parentRows :=
        if inherits then tables.roleParents.filter fun row =>
          row.roleId ∈ roleIds && row.parentRoleId ∈ roleIds
        else [] }

/-- `groupId` must be the member's own group. -/
def memberRoles (groupId memberId : Text) : RoleData × MemberLoads :=
  match loads.roles.get? memberId with
  | some hit => (hit, loads)
  | none =>
    let data := loads.loadRoles tables groupId memberId
    (data, { loads with roles := loads.roles.set memberId data })

end MemberLoads

/-! ### Resolution -/

/-- The resolver's input from the loaded roles; the overrides were decided before. -/
def roleInput (config : GameConfigPermissions) (context : PermissionContext) (data : RoleData) :
    ResolverInput where
  mode := config.mode
  overrides := Dict.empty
  contextOverrides := []
  directRoleIds := (data.reachable.filter fun r => r.depth = 0).map ReachableRole.id
  roles := Dict.ofList (data.reachable.map fun row =>
    (row.id, resolverRole data.entryRows data.parentRows row.id row.priority))
  context := context
  contexts := config.contexts

/-- The resolver's input from the member's overrides alone. -/
def overrideInput (config : GameConfigPermissions) (context : PermissionContext)
    (rows : List EntryRow) : ResolverInput where
  mode := config.mode
  overrides := globalEntries rows
  contextOverrides := contextEntries rows
  directRoleIds := []
  roles := Dict.empty
  context := context
  contexts := config.contexts

/-- An active member's check: the overrides decide before the roles are read. -/
def resolveActive (tables : PermissionTables) (config : GameConfigPermissions) (groupId : Text)
    (member : GroupMemberRow) (permission : Text) (context : PermissionContext)
    (loads : MemberLoads) : PermissionCheckResult × MemberLoads :=
  let (overrideRows, loads) := loads.memberOverrides tables member.id
  let own := resolveMemberPermission (overrideInput config context overrideRows) permission
  if !overrideRows.isEmpty && own.source = .override then (own, loads)
  else
    let (data, loads) := loads.memberRoles tables groupId member.id
    if data.reachable.isEmpty then ({ allowed := false, source := .default }, loads)
    else (resolveMemberPermission (roleInput config context data) permission, loads)

/-- Resolution with loads that cover the check. Membership and status gate first. -/
def resolveWithLoads (tables : PermissionTables) (config : GameConfigPermissions)
    (groupId junjoUserId permission : Text) (context : PermissionContext) (loads : MemberLoads) :
    PermissionCheckResult × MemberLoads :=
  let (member, loads) := loads.member tables groupId junjoUserId
  match member with
  | none => ({ allowed := false, source := .none }, loads)
  | some member =>
    if member.status ≠ .active then ({ allowed := false, source := .none }, loads)
    else resolveActive tables config groupId member permission context loads

/-- Resolution for one group. The shared loads are used when they cover the check, else fresh
ones are made and dropped. -/
def resolveForJunjoUser (tables : PermissionTables) (config : GameConfigPermissions)
    (groupId junjoUserId permission : Text) (context : PermissionContext)
    (shared : Option MemberLoads) : PermissionCheckResult × Option MemberLoads :=
  let candidates := candidateKeys config.mode permission
  let hasContext := !context.keys.isEmpty
  match shared with
  | some loads =>
    if loads.covers candidates hasContext then
      let (result, loads) :=
        resolveWithLoads tables config groupId junjoUserId permission context loads
      (result, some loads)
    else
      ((resolveWithLoads tables config groupId junjoUserId permission context
        { keys := candidates, withContexts := hasContext }).1, shared)
  | none =>
    ((resolveWithLoads tables config groupId junjoUserId permission context
      { keys := candidates, withContexts := hasContext }).1, none)

/-- One check of a batch, its person resolved. -/
structure BatchCheck where
  groupId : Text
  junjoUserId : Text
  permission : Text
  context : PermissionContext

/-- The loads of a batch: the union of the candidate keys, contextual entries when a check has a
context. -/
def batchLoads (config : GameConfigPermissions) (checks : List BatchCheck) : MemberLoads where
  keys := (checks.flatMap fun check => candidateKeys config.mode check.permission).eraseDups
  withContexts := checks.any fun check => !check.context.keys.isEmpty

/-- The checks resolved one after the other, sharing loads. -/
def resolveChecks (tables : PermissionTables) (config : GameConfigPermissions) :
    List BatchCheck → Option MemberLoads → List PermissionCheckResult
  | [], _ => []
  | check :: checks, shared =>
    let (result, shared) := resolveForJunjoUser tables config check.groupId check.junjoUserId
      check.permission check.context shared
    result :: resolveChecks tables config checks shared

/-- A batch of checks. -/
def resolveBatch (tables : PermissionTables) (config : GameConfigPermissions)
    (checks : List BatchCheck) : List PermissionCheckResult :=
  resolveChecks tables config checks (some (batchLoads config checks))

end Junjo
