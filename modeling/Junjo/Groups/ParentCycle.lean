import Junjo.Core.Chains
import Junjo.Core.Run
import Junjo.Groups.Rows
import Junjo.Permissions.Tables

/-!
# Setting a group's parent

`setGroupParentSafely` runs under the game's group-graph lock, so calls of one game come one after
the other. Its cycle check follows at most `maxParentDepth` links, while chains may get longer:
the parent relation stays without cycles exactly as long as no group is moved under one of its
descendants that is more than that many links below it.
-/

namespace Junjo

/-- The groups of a game and their members. -/
structure GroupStore where
  groups : List GroupRow
  members : List GroupMemberRow
  uniqueGroup : (groups.map GroupRow.id).Nodup

inductive GroupError where
  | notFound
  | parentCycle
deriving DecidableEq

namespace GroupStore

variable (store : GroupStore)

/-- The group with an id, of any game and deleted or not. -/
def findUnique (id : Text) : Option GroupRow := store.groups.find? fun g => g.id = id

def activeCount (groupId : Text) : ℕ :=
  store.members.countP fun m => m.groupId = groupId && m.status = .active

/-- Whether the ancestors of `cursor`, at most `fuel` links up, include the group. -/
def walkFinds (groupId : Text) : ℕ → GroupRow → Bool
  | 0, _ => false
  | fuel + 1, cursor =>
    match cursor.parentGroupId with
    | none => false
    | some parent =>
      if parent = groupId then true
      else match store.findUnique parent with
        | none => false
        | some row => walkFinds groupId fuel row

def assertNoParentCycle (gameId groupId parentGroupId : Text) : Except GroupError Unit :=
  if parentGroupId = groupId then .error .parentCycle
  else match findGroup store.groups gameId parentGroupId with
    | none => .error .notFound
    | some parent =>
      if store.walkFinds groupId maxParentDepth parent then .error .parentCycle else .ok ()

/-- `UPDATE "Group" SET "parentGroupId" = ... WHERE id = ...` -/
def setParent (groupId : Text) (parentGroupId : Option Text) : GroupStore where
  groups := store.groups.map fun g =>
    if g.id = groupId then { g with parentGroupId := parentGroupId } else g
  members := store.members
  uniqueGroup := by
    have hids : (store.groups.map fun g =>
        if g.id = groupId then { g with parentGroupId := parentGroupId } else g).map GroupRow.id =
        store.groups.map GroupRow.id := by
      rw [List.map_map]
      exact List.map_congr_left fun g _ => by
        change (if g.id = groupId then _ else _ : GroupRow).id = g.id
        split_ifs <;> rfl
    rw [hids]
    exact store.uniqueGroup

/-- What the call returns: the group's row, its active members, and whether it stages
`group.updated`. -/
structure ParentResult where
  row : GroupRow
  memberCount : ℕ
  updated : Bool
deriving DecidableEq

/-- One call: its result and the store after it. A refused call leaves the store as it is. -/
def setGroupParentSafely (gameId groupId : Text) (parentGroupId : Option Text) :
    Except GroupError ParentResult × GroupStore :=
  match findGroup store.groups gameId groupId with
  | none => (.error .notFound, store)
  | some group =>
    let checked : Except GroupError Unit := match parentGroupId with
      | none => .ok ()
      | some parent => store.assertNoParentCycle gameId group.id parent
    match checked with
    | .error e => (.error e, store)
    | .ok () =>
      if group.parentGroupId = parentGroupId then
        (.ok ⟨group, store.activeCount group.id, false⟩, store)
      else
        (.ok ⟨{ group with parentGroupId := parentGroupId }, store.activeCount group.id, true⟩,
          store.setParent group.id parentGroupId)

end GroupStore

structure ParentCall where
  gameId : Text
  groupId : Text
  parentGroupId : Option Text
deriving DecidableEq

/-- A call as a step of the store. -/
def ParentCall.step (store : GroupStore) (call : ParentCall) :
    GroupStore × Except GroupError GroupStore.ParentResult :=
  (store.setGroupParentSafely call.gameId call.groupId call.parentGroupId).swap

end Junjo
