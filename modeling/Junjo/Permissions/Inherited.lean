import Junjo.Permissions.CheckHandler
import Junjo.Permissions.LoadsCorrect

/-!
# What an inherited check answers

The nearest live group decides, at most `maxParentDepth` links up. The groups up to it are those
the answer depends on: a change that touches none of them leaves it, unless it brings back a
deleted group that one of them has as its parent.
-/

namespace Junjo

/-! ### The database during a request -/

/-- A cache as requests use it: what lookups answer, and what each operation makes of its state. -/
structure CheckCache (κ : Type*) where
  get (s : κ) (gameId groupId userId permission : Text) (opts : PermissionCacheKeyOptions) :
    Option PermissionCheckResult × κ
  set (s : κ) (gameId groupId userId permission : Text) (result : PermissionCheckResult)
    (opts : PermissionCacheSetOptions) : κ

/-- The operations of a request while the database stays as it is. -/
def CheckCache.exec {κ : Type*} (cache : CheckCache κ) (world : CheckWorld) (s : κ) :
    (o : CheckOp) → CheckOp.Reply o × κ
  | .statement _ => (world, s)
  | .get gameId groupId userId permission opts => cache.get s gameId groupId userId permission opts
  | .set gameId groupId userId permission result opts =>
    ((), cache.set s gameId groupId userId permission result opts)

namespace CheckWorld

variable (world : CheckWorld)

/-- The person an external id stands for. -/
def personOf (gameId userId : Text) : Option Text :=
  (world.identities.find? fun row => row.gameId = gameId && row.externalUserId = userId).map
    ExternalIdentityRow.junjoUserId

def configOf (gameId : Text) : GameConfigPermissions :=
  (world.permissionConfigs.get? gameId).getD ⟨.exact, Dict.empty⟩

/-- A group's own answer, from the complete data of the group. -/
def ownAnswer (gameId userId permission : Text) (context : PermissionContext) (groupId : Text) :
    PermissionCheckResult :=
  match world.personOf gameId userId with
  | none => { allowed := false, source := .none }
  | some junjoUserId =>
    completeAnswer world.tables (world.configOf gameId) groupId junjoUserId permission context

/-- The group so many live parents up. -/
def liveAncestor (gameId groupId : Text) : ℕ → Option Text
  | 0 => (findGroup world.groups gameId groupId).map GroupRow.id
  | n + 1 => do
    let id ← liveAncestor gameId groupId n
    let row ← findGroup world.groups gameId id
    let parent ← row.parentGroupId
    (findGroup world.groups gameId parent).map GroupRow.id

end CheckWorld

/-- An override or a role entry decided. -/
def PermissionCheckResult.Decides (result : PermissionCheckResult) : Prop :=
  result.source = .override ∨ result.source = .role

/-- The answer of an inherited check and the groups it depends on: the nearest group that decides
answers, else the group itself. -/
inductive InheritedAnswer (world : CheckWorld) (gameId : Text) (check : CheckHandler.CheckQuery) :
    PermissionCheckResult → List Text → Prop where
  | decided {n : ℕ} {g : Text} {consulted : List Text} (hn : n ≤ maxParentDepth)
      (hg : world.liveAncestor gameId check.groupId n = some g)
      (hdecides : (world.ownAnswer gameId check.userId check.permission check.context g).Decides)
      (hfirst : ∀ m < n, ∀ h, world.liveAncestor gameId check.groupId m = some h →
        ¬ (world.ownAnswer gameId check.userId check.permission check.context h).Decides)
      (hconsulted : ∀ h, h ∈ consulted ↔
        ∃ m ≤ n, world.liveAncestor gameId check.groupId m = some h) :
      InheritedAnswer world gameId check
        { world.ownAnswer gameId check.userId check.permission check.context g with
          viaGroupId := some g } consulted
  | undecided {consulted : List Text}
      (hlive : (findGroup world.groups gameId check.groupId).isSome)
      (hnone : ∀ m ≤ maxParentDepth, ∀ h, world.liveAncestor gameId check.groupId m = some h →
        ¬ (world.ownAnswer gameId check.userId check.permission check.context h).Decides)
      (hconsulted : ∀ h, h ∈ consulted ↔
        ∃ m ≤ maxParentDepth, world.liveAncestor gameId check.groupId m = some h) :
      InheritedAnswer world gameId check
        (world.ownAnswer gameId check.userId check.permission check.context check.groupId) consulted

/-! ### Batches -/

/-- Why a batch is refused as a whole: a group that is not live, then a malformed id. -/
def batchRefusal (world : CheckWorld) (gameId : Text) (checks : List CheckHandler.CheckQuery) :
    Option CheckError :=
  match (checks.map fun check =>
      (findGroup world.groups gameId check.groupId).isSome).idxOf? false with
  | some missingIndex =>
    some (.notFound (text "group for checks[" ++ decimal missingIndex ++ text "]"))
  | none =>
    ((checks.map CheckHandler.CheckQuery.userId).find? fun userId =>
      (gameId, userId) ∈ world.malformedUserIds).map .badUserId

/-- The answers of a batch of inherited checks, one after the other: what the cache holds, else
the inherited answer, which is stored under the groups it depends on. -/
inductive Answered {κ : Type*} (cache : CheckCache κ) (world : CheckWorld) (gameId : Text) :
    κ → List CheckHandler.CheckQuery → List PermissionCheckResult → κ → Prop where
  | nil (s : κ) : Answered cache world gameId s [] [] s
  | hit {s s' s'' : κ} {check : CheckHandler.CheckQuery} {checks : List CheckHandler.CheckQuery}
      {result : PermissionCheckResult} {results : List PermissionCheckResult}
      (hget : cache.get s gameId check.groupId check.userId check.permission
        ⟨some true, some (canonicalContextKey (some check.context))⟩ = (some result, s'))
      (hrest : Answered cache world gameId s' checks results s'') :
      Answered cache world gameId s (check :: checks) (result :: results) s''
  | miss {s s' s'' : κ} {check : CheckHandler.CheckQuery} {checks : List CheckHandler.CheckQuery}
      {result : PermissionCheckResult} {results : List PermissionCheckResult}
      {consulted : List Text}
      (hget : cache.get s gameId check.groupId check.userId check.permission
        ⟨some true, some (canonicalContextKey (some check.context))⟩ = (none, s'))
      (hanswer : InheritedAnswer world gameId check result consulted)
      (hrest : Answered cache world gameId
        (cache.set s' gameId check.groupId check.userId check.permission result
          { inherit := some true
            context := some (canonicalContextKey (some check.context))
            dependsOn := some consulted })
        checks results s'') :
      Answered cache world gameId s (check :: checks) (result :: results) s''

/-! ### Changes of one group -/

/-- Two databases that agree except on the members, roles, entries, parent link and deletion of
one group. -/
structure CheckWorld.SameOutside (world world' : CheckWorld) (g : Text) : Prop where
  groups : ∀ gameId id, id ≠ g →
    findGroup world'.groups gameId id = findGroup world.groups gameId id
  members : ∀ m : GroupMemberRow, m.groupId ≠ g →
    (m ∈ world'.tables.groupMembers ↔ m ∈ world.tables.groupMembers)
  roles : ∀ role : RoleRow, role.groupId ≠ g →
    (role ∈ world'.tables.roles ↔ role ∈ world.tables.roles)
  rolePermissions : ∀ role ∈ world.tables.roles, role.groupId ≠ g →
    ∀ row : EntryRow, row.owner = role.id →
      (row ∈ world'.tables.rolePermissions ↔ row ∈ world.tables.rolePermissions)
  roleParents : ∀ role ∈ world.tables.roles, role.groupId ≠ g →
    ∀ row : RoleParentRow, row.roleId = role.id →
      (row ∈ world'.tables.roleParents ↔ row ∈ world.tables.roleParents)
  overrides : ∀ m ∈ world.tables.groupMembers, m.groupId ≠ g →
    ∀ row : EntryRow, row.owner = m.id →
      (row ∈ world'.tables.overrides ↔ row ∈ world.tables.overrides)
  memberRoles : ∀ m ∈ world.tables.groupMembers, m.groupId ≠ g →
    ∀ row : MemberRoleRow, row.groupMemberId = m.id →
      (row ∈ world'.tables.memberRoles ↔ row ∈ world.tables.memberRoles)
  identities : world'.identities = world.identities
  permissionConfigs : world'.permissionConfigs = world.permissionConfigs

/-- The change brings a group back that one of the consulted groups has as its parent. -/
def CheckWorld.Restores (world world' : CheckWorld) (gameId : Text) (consulted : List Text)
    (g : Text) : Prop :=
  findGroup world.groups gameId g = none ∧ (findGroup world'.groups gameId g).isSome ∧
    ∃ h ∈ consulted, ∃ row, findGroup world.groups gameId h = some row ∧
      row.parentGroupId = some g

end Junjo
