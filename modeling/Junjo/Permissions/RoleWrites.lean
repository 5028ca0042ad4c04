import Junjo.Core.Transactions
import Junjo.Groups.Rows
import Junjo.Permissions.RoleGraph
import Junjo.Permissions.Tables

/-!
# Role writes

The transactions that create and delete roles and set their parents. A game's other writes are
included as far as they touch what these read: groups and role assignments may change at any time.
-/

namespace Junjo

/-- A row of the role table. -/
structure RoleRecord extends RoleRow where
  name : Text
  isDefault : Bool
deriving DecidableEq

/-- The tables that role writes use. The fields after the rows are the database's constraints:
primary and unique keys, the foreign keys of parent links, and that the id generator, which keeps
the group it issued each role id for, never issues an id twice. -/
structure RoleDb where
  modes : Dict Text PermissionMode
  groups : List GroupRow
  roles : List RoleRecord
  roleParents : List RoleParentRow
  memberRoles : List MemberRoleRow
  issued : Dict Text Text
  uniqueRole : (roles.map fun r => r.id).Nodup
  uniqueName : (roles.map fun r => (r.groupId, r.name)).Nodup
  uniqueParent : roleParents.Nodup
  linked : ∀ l ∈ roleParents, (∃ r ∈ roles, r.id = l.roleId) ∧ ∃ r ∈ roles, r.id = l.parentRoleId
  issuedRole : ∀ r ∈ roles, issued.get? r.id = some r.groupId

/-! ### Locks -/

inductive RowLock where
  | keyShare
  | update
deriving DecidableEq

inductive RoleLock where
  /-- The advisory lock `role-graph` of a group. -/
  | graph (groupId : Text)
  /-- The advisory lock `role-name` of a group. -/
  | name (groupId : Text)
  | row (roleId : Text) (mode : RowLock)
deriving DecidableEq

def RoleLock.conflicts : RoleLock → RoleLock → Bool
  | .graph g, .graph g' => g = g'
  | .name g, .name g' => g = g'
  | .row id mode, .row id' mode' => id = id' && !(mode = .keyShare && mode' = .keyShare)
  | _, _ => false

/-! ### Results -/

inductive RoleError where
  | notFound (resource : Text)
  | parentCycle (message : Text)
  | roleGroupMismatch (message : Text)
  | badRequest (message : Text)
  | roleHasMembers
  | roleNameTaken
  /-- The recursion of `longestChain` does not end. -/
  | callStackExceeded
deriving DecidableEq

/-- The events a role write stages. -/
inductive RoleEvent where
  | created (role : RoleRecord)
  | parentsUpdated (groupId roleId : Text)
  | deleted (groupId roleId : Text)
deriving DecidableEq

abbrev RoleTx := Tx RoleDb RoleLock RoleError

namespace RoleDb

variable (db : RoleDb)

/-! ### Reads -/

/-- The role with an id in a live group of the game. -/
def findScopedRole (gameId roleId : Text) : Option RoleRecord :=
  db.roles.find? fun r => r.id = roleId && (findGroup db.groups gameId r.groupId).isSome

def findRole (roleId : Text) : Option RoleRecord := db.roles.find? fun r => r.id = roleId

/-- The roles among `ids` in live groups of the game. -/
def findRoles (gameId : Text) (ids : List Text) : List RoleRecord :=
  db.roles.filter fun r => r.id ∈ ids && (findGroup db.groups gameId r.groupId).isSome

/-- The parent links of a group's roles. -/
def groupEdges (groupId : Text) : List RoleParentRow :=
  db.roleParents.filter fun l => db.roles.any fun r => r.id = l.roleId && r.groupId = groupId

def groupRoleIds (groupId : Text) : List Text :=
  (db.roles.filter fun r => r.groupId = groupId).map fun r => r.id

/-- The roles that inherit from a role, in id order. -/
def childrenOf (roleId : Text) : List Text :=
  ((db.roleParents.filter fun l => l.parentRoleId = roleId).map RoleParentRow.roleId).insertionSort
    (· ≤ ·)

/-- Whether the name is taken in the group; `nodes` mode ignores case, by the database's `lower`. -/
def nameClashes (lower : Text → Text) (mode : PermissionMode) (groupId name : Text) : Bool :=
  db.roles.any fun r => r.groupId = groupId &&
    match mode with
    | .nodes => lower r.name = lower name
    | .exact => r.name = name

/-! ### Changes -/

/-- `DELETE FROM "RoleParent" WHERE "roleId" = ...` -/
def deleteParents (roleId : Text) : RoleDb :=
  { db with
    roleParents := db.roleParents.filter fun l => l.roleId ≠ roleId
    uniqueParent := db.uniqueParent.filter _
    linked := fun l hl => db.linked l (List.mem_of_mem_filter hl) }

/-- Insert parent links; refused when one exists or a role does not. -/
def insertParents (roleId : Text) (parents : List Text) : Option RoleDb :=
  let roleParents := db.roleParents ++ parents.map (RoleParentRow.mk roleId)
  if h : roleParents.Nodup ∧ ∀ l ∈ roleParents,
      (∃ r ∈ db.roles, r.id = l.roleId) ∧ ∃ r ∈ db.roles, r.id = l.parentRoleId then
    some { db with roleParents := roleParents, uniqueParent := h.1, linked := h.2 }
  else none

/-- Insert a role; refused when its id was issued before or its name is taken in its group. -/
def insertRole (role : RoleRecord) : Option RoleDb :=
  if h : role.id ∉ db.issued.keys ∧
      ((db.roles ++ [role]).map fun r => (r.groupId, r.name)).Nodup then
    some { db with
      roles := db.roles ++ [role]
      issued := db.issued.set role.id role.groupId
      uniqueRole := by
        rw [List.map_append, List.map_singleton, List.nodup_append]
        refine ⟨db.uniqueRole, List.nodup_singleton _, ?_⟩
        intro id hid id' hid'
        obtain ⟨r, hr, rfl⟩ := List.mem_map.mp hid
        obtain rfl := List.mem_singleton.mp hid'
        rintro heq
        exact h.1 (heq ▸ Dict.mem_keys_iff.mpr ⟨_, db.issuedRole r hr⟩)
      uniqueName := h.2
      linked := by
        intro l hl
        obtain ⟨⟨r, hr, hid⟩, r', hr', hid'⟩ := db.linked l hl
        exact ⟨⟨r, List.mem_append_left _ hr, hid⟩, r', List.mem_append_left _ hr', hid'⟩
      issuedRole := by
        intro r hr
        rcases List.mem_append.mp hr with hr | hr
        · have hissued := db.issuedRole r hr
          have hne : r.id ≠ role.id := by
            intro heq
            exact h.1 (heq ▸ Dict.mem_keys_iff.mpr ⟨_, hissued⟩)
          rwa [Dict.get?_set_of_ne _ _ hne]
        · obtain rfl := List.mem_singleton.mp hr
          exact Dict.get?_set_self _ _ _ }
  else none

/-- Delete a role with the rows that refer to it. -/
def deleteRole (roleId : Text) : RoleDb :=
  { db with
    roles := db.roles.filter fun r => r.id ≠ roleId
    roleParents := db.roleParents.filter fun l => l.roleId ≠ roleId ∧ l.parentRoleId ≠ roleId
    memberRoles := db.memberRoles.filter fun m => m.roleId ≠ roleId
    uniqueRole := db.uniqueRole.sublist (List.filter_sublist.map _)
    uniqueName := db.uniqueName.sublist (List.filter_sublist.map _)
    uniqueParent := db.uniqueParent.filter _
    linked := by
      intro l hl
      obtain ⟨hmem, hne⟩ := List.mem_filter.mp hl
      obtain ⟨hchild, hparent⟩ := of_decide_eq_true hne
      obtain ⟨⟨r, hr, hid⟩, r', hr', hid'⟩ := db.linked l hmem
      exact ⟨⟨r, List.mem_filter.mpr ⟨hr, decide_eq_true (hid ▸ hchild)⟩, hid⟩,
        r', List.mem_filter.mpr ⟨hr', decide_eq_true (hid' ▸ hparent)⟩, hid'⟩
    issuedRole := fun r hr => db.issuedRole r (List.mem_of_mem_filter hr) }

end RoleDb

namespace RoleWrites

/-! ### Transactions -/

/-- Lock a role in a live group of the game to the end of the transaction. -/
def lockScopedRole (gameId roleId : Text) : RoleTx RoleRecord := do
  let locked ← lockQuery
    (fun db => (db.findScopedRole gameId roleId).toList.map fun r => .row r.id .update)
    (fun db => db.findScopedRole gameId roleId)
  match locked with
  | none => throw (.notFound (text "role"))
  | some _ => do
    let role ← query fun db => db.findRole roleId
    match role with
    | none => throw (.notFound (text "role"))
    | some role => pure role

/-- The graph of a group's role parents with the parents of one role replaced. -/
def parentGraph (roleId : Text) (requested groupRoles : List Text) (edges : List RoleParentRow) :
    RoleGraph :=
  let graph := groupRoles.foldl (fun graph id => graph.set id []) Dict.empty
  let graph := edges.foldl
    (fun graph e =>
      if e.roleId = roleId then graph
      else match graph.get? e.roleId with
        | none => graph
        | some parents => graph.set e.roleId (parents ++ [e.parentRoleId]))
    graph
  graph.set roleId requested

/-- Insert the new parent links, with key-share locks on the rows they refer to. -/
def createParents (roleId : Text) (requested : List Text) : RoleTx Unit :=
  if requested = [] then pure ()
  else write (fun _ => (roleId :: requested).map fun id => .row id .keyShare) (fun _ => ())
    fun db => db.insertParents roleId requested

def setRoleParents (gameId roleId : Text) (parents : List Text) : RoleTx (List RoleEvent) := do
  let requested := parents.eraseDups.insertionSort (· ≤ ·)
  let scope ← query fun db => db.findScopedRole gameId roleId
  match scope with
  | none => throw (.notFound (text "role"))
  | some scope => do
    lockQuery (fun _ => [.graph scope.groupId]) fun _ => ()
    let role ← lockScopedRole gameId roleId
    if role.id ∈ requested then throw (.parentCycle (text "a role cannot be its own parent"))
    else do
    let found ← query fun db => db.findRoles gameId requested
    if found.length ≠ requested.length then throw (.notFound (text "parent role"))
    else if found.any fun r => r.groupId ≠ role.groupId then
      throw (.roleGroupMismatch (text "parent roles must belong to the same group"))
    else do
    let edges ← query fun db => db.groupEdges role.groupId
    let before := ((edges.filter fun e => e.roleId = role.id).map
      RoleParentRow.parentRoleId).insertionSort (· ≤ ·)
    if before = requested then pure []
    else do
    let groupRoles ← query fun db => db.groupRoleIds role.groupId
    let graph := parentGraph role.id requested groupRoles edges
    if graph.findRoleCycle ≠ some none then
      throw (.parentCycle (text "setting these parents would create a cycle"))
    else match graph.longestChain with
      | none => throw .callStackExceeded
      | some longest =>
        if maxRoleDepth < longest then
          throw (.badRequest (text "role inheritance would exceed the depth limit of 100"))
        else do
        write (fun _ => []) (fun _ => ()) fun db => some (db.deleteParents role.id)
        createParents role.id requested
        pure [.parentsUpdated role.groupId role.id]

/-- `fresh` is the id that the database issues for the new role. -/
def createRole (lower : Text → Text) (gameId groupId fresh name : Text) (priority : ℤ)
    (isDefault : Bool) : RoleTx (List RoleEvent) := do
  let mode ← query fun db => (db.modes.get? gameId).getD .exact
  lockQuery (fun _ => [.name groupId]) fun _ => ()
  let clash ← query fun db => db.nameClashes lower mode groupId name
  if clash then throw .roleNameTaken
  else do
  let role : RoleRecord := ⟨⟨fresh, groupId, priority⟩, name, isDefault⟩
  write (fun _ => []) (fun _ => ()) fun db => db.insertRole role
  pure [.created role]

/-- Delete a role that no member holds. -/
def deleteRole (gameId roleId : Text) : RoleTx (List RoleEvent) := do
  let role ← lockScopedRole gameId roleId
  let holders ← query fun db => (db.memberRoles.filter fun m => m.roleId = role.id).length
  if 0 < holders then throw .roleHasMembers
  else do
  let children ← query fun db => db.childrenOf role.id
  write (fun _ => [.row role.id .update]) (fun _ => ()) fun db => some (db.deleteRole role.id)
  pure (.deleted role.groupId role.id :: children.map (.parentsUpdated role.groupId ·))

/-- Any other write: groups and role assignments change in some way. -/
def writeElsewhere (groups : List GroupRow) (memberRoles : List MemberRoleRow) :
    RoleTx (List RoleEvent) := do
  write (fun _ => []) (fun _ => ()) fun db =>
    some { db with groups := groups, memberRoles := memberRoles }
  pure []

end RoleWrites

inductive RoleRequest where
  | setRoleParents (gameId roleId : Text) (parents : List Text)
  | createRole (gameId groupId fresh name : Text) (priority : ℤ) (isDefault : Bool)
  | deleteRole (gameId roleId : Text)
  | elsewhere (groups : List GroupRow) (memberRoles : List MemberRoleRow)

/-- `lower` is the database's function on role names. -/
def RoleRequest.program (lower : Text → Text) : RoleRequest → RoleTx (List RoleEvent)
  | .setRoleParents gameId roleId parents => RoleWrites.setRoleParents gameId roleId parents
  | .createRole gameId groupId fresh name priority isDefault =>
    RoleWrites.createRole lower gameId groupId fresh name priority isDefault
  | .deleteRole gameId roleId => RoleWrites.deleteRole gameId roleId
  | .elsewhere groups memberRoles => RoleWrites.writeElsewhere groups memberRoles

end Junjo
