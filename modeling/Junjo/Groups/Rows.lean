import Junjo.Core.Text

/-!
# Group rows

A game's groups with their parent pointers, and the chain of ancestors that an inherited check
walks.
-/

namespace Junjo

/-- The columns of a group that its place in the parent relation depends on. -/
structure GroupRow where
  id : Text
  gameId : Text
  parentGroupId : Option Text
  softDeleted : Bool
deriving DecidableEq

/-- The most parent links any walk follows. -/
def maxParentDepth : ℕ := 100

/-- The live group of a game with an id. -/
def findGroup (groups : List GroupRow) (gameId id : Text) : Option GroupRow :=
  groups.find? fun g => g.id = id && g.gameId = gameId && !g.softDeleted

/-- The rows of the recursive query from a group on, at most `fuel` links up. -/
def chainRows (groups : List GroupRow) (gameId : Text) : ℕ → Text → List Text
  | fuel, id =>
    match findGroup groups gameId id with
    | none => []
    | some row =>
      match fuel, row.parentGroupId with
      | fuel + 1, some parent => row.id :: chainRows groups gameId fuel parent
      | _, _ => [row.id]

/-- The group followed by its ancestors, nearest first. -/
def loadAncestorChain (groups : List GroupRow) (gameId groupId : Text) : List Text :=
  (chainRows groups gameId maxParentDepth groupId).eraseDups

end Junjo
