import Junjo.Core.Encode
import Junjo.Groups.Rows
import Junjo.Permissions.Tables

/-!
# Switching the permission mode

The checks and rewrites made in the transaction that changes a game's permission mode. A switch to
`nodes` lowercases every stored key and is refused when two keys of one role or member would
collide in one context; a switch to `exact` rewrites nothing. Both are refused while a wildcard key
is stored.
-/

namespace Junjo

structure PermissionDefRow where
  id : Text
  gameId : Text
  key : Text
  description : Option Text
  createdAt : ℕ
deriving DecidableEq

/-- The tables a switch reads and writes. -/
structure ModeTables where
  permissions : PermissionTables
  groups : List GroupRow
  roleNames : Dict Text Text
  permissionDefs : List PermissionDefRow

namespace ModeTables

variable (game : ModeTables) (gameId : Text)

/-- Whether a group belongs to the game; deleted groups count. -/
def hasGroup (groupId : Text) : Bool :=
  game.groups.any fun g => g.id = groupId && g.gameId = gameId

/-- Whether a role entry belongs to the game. -/
def ofRole (row : EntryRow) : Bool :=
  game.permissions.roles.any fun role => role.id = row.owner && game.hasGroup gameId role.groupId

/-- Whether an override belongs to the game. -/
def ofMember (row : EntryRow) : Bool :=
  game.permissions.groupMembers.any fun m => m.id = row.owner && game.hasGroup gameId m.groupId

def entryKeys : List EntryRow := game.permissions.rolePermissions.filter (game.ofRole gameId)

def overrideKeys : List EntryRow := game.permissions.overrides.filter (game.ofMember gameId)

end ModeTables

/-! ### Problems -/

inductive KeyKind where
  | role
  | member
deriving DecidableEq

def KeyKind.label : KeyKind → Text
  | .role => text "role"
  | .member => text "member"

inductive ModeProblem where
  | becomesWildcard (kind : KeyKind) (owner key : Text)
  | stopsMatching (kind : KeyKind) (owner key : Text)
  | invalidKey (kind : KeyKind) (owner key : Text) (reason : String)
  | keysCollide (kind : KeyKind) (owner clash key : Text)
  | roleNamesCollide (groupId : Text) (names : List Text)
deriving DecidableEq

/-- `JSON.stringify` of an array of strings. -/
def jsonStrings (l : List Text) : Text :=
  text "[" ++ List.intercalate (text ",") (l.map jsonString) ++ text "]"

def ModeProblem.message : ModeProblem → Text
  | .becomesWildcard kind owner key =>
    kind.label ++ text " " ++ owner ++ text " key " ++ jsonString key ++
      text " would become a wildcard"
  | .stopsMatching kind owner key =>
    kind.label ++ text " " ++ owner ++ text " key " ++ jsonString key ++
      text " would stop matching as a wildcard"
  | .invalidKey kind owner key reason =>
    kind.label ++ text " " ++ owner ++ text " key " ++ jsonString key ++ text " " ++ text reason
  | .keysCollide kind owner clash key =>
    kind.label ++ text " " ++ owner ++ text " keys " ++ jsonString clash ++ text " and " ++
      jsonString key ++ text " collide ignoring case"
  | .roleNamesCollide groupId names =>
    text "group " ++ groupId ++ text " role names " ++ jsonStrings names ++
      text " collide ignoring case"

/-- The place a row's key takes in `nodes` mode. -/
def foldedSlot (row : EntryRow) : Text :=
  row.owner ++ 0 :: row.contextKey ++ 0 :: normalizePermissionKey .nodes row.permissionKey

/-- One turn of `keyProblems`, over the problems so far and the keys by slot. -/
def checkKey (kind : KeyKind) (target : PermissionMode) (acc : List ModeProblem × Dict Text Text)
    (row : EntryRow) : List ModeProblem × Dict Text Text :=
  let key := row.permissionKey
  if star ∈ key then
    (acc.1 ++ [if target = .nodes then .becomesWildcard kind row.owner key
      else .stopsMatching kind row.owner key], acc.2)
  else if target ≠ .nodes then acc
  else match validatePermissionKey .nodes key with
    | some reason => (acc.1 ++ [.invalidKey kind row.owner key reason], acc.2)
    | none =>
      match acc.2.get? (foldedSlot row) with
      | some clash => (acc.1 ++ [.keysCollide kind row.owner clash key], acc.2)
      | none => (acc.1, acc.2.set (foldedSlot row) key)

def keyProblems (rows : List EntryRow) (kind : KeyKind) (target : PermissionMode) :
    List ModeProblem :=
  (rows.foldl (checkKey kind target) ([], Dict.empty)).1

/-- Role names of one group that are equal under the database's `lower`. -/
def nameProblems (lower : Text → Text) (game : ModeTables) (gameId : Text) : List ModeProblem :=
  (game.groups.filter fun g => g.gameId = gameId).flatMap fun g =>
    let names := (game.permissions.groupRoles g.id).filterMap fun role => game.roleNames.get? role.id
    (names.map lower).eraseDups.filterMap fun folded =>
      let same := names.filter fun name => lower name = folded
      if 1 < same.length then some (.roleNamesCollide g.id (same.insertionSort (· ≤ ·))) else none

def PermissionMode.name : PermissionMode → Text
  | .exact => text "exact"
  | .nodes => text "nodes"

def maxReported : ℕ := 5

def conflictMessage (source target : PermissionMode) (problems : List ModeProblem) : Text :=
  let shown := List.intercalate (text "; ") ((problems.take maxReported).map ModeProblem.message)
  let more :=
    if maxReported < problems.length then
      text " (and " ++ decimal (problems.length - maxReported) ++ text " more)"
    else []
  text "cannot switch permissions.mode from " ++ source.name ++ text " to " ++ target.name ++ text ": " ++
    shown ++ more

/-! ### Rewrites -/

/-- The row under its lowercased key. -/
def EntryRow.lowered (row : EntryRow) : EntryRow :=
  { row with permissionKey := asciiLower row.permissionKey }

/-- `UPDATE ... SET "permissionKey" = translate(...)` over the rows of the game. -/
def lowerKeys (inGame : EntryRow → Bool) (rows : List EntryRow) : List EntryRow :=
  rows.map fun row =>
    if inGame row && row.permissionKey ≠ asciiLower row.permissionKey then row.lowered else row

/-- How many rows the update changes. -/
def rewrittenCount (inGame : EntryRow → Bool) (rows : List EntryRow) : ℕ :=
  rows.countP fun row => inGame row && row.permissionKey ≠ asciiLower row.permissionKey

/-- One turn of the catalog loop: the definition kept for every folded key, and the ids dropped. -/
def keepDef (acc : Dict Text PermissionDefRow × List Text) (row : PermissionDefRow) :
    Dict Text PermissionDefRow × List Text :=
  let folded := normalizePermissionKey .nodes row.key
  match acc.1.get? folded with
  | none => (acc.1.set folded row, acc.2)
  | some kept =>
    if kept.description.isNone && row.description.isSome then
      (acc.1.set folded row, acc.2 ++ [kept.id])
    else (acc.1, acc.2 ++ [row.id])

/-- The catalog after the switch: of the definitions that fold together one is kept. -/
def mergeCatalog (gameId : Text) (rows : List PermissionDefRow) : List PermissionDefRow :=
  let ordered := (rows.filter fun row => row.gameId = gameId).insertionSort fun a b =>
    a.createdAt ≤ b.createdAt
  let dropped := (ordered.foldl keepDef (Dict.empty, [])).2
  (rows.filter fun row => row.id ∉ dropped).map fun row =>
    if row.gameId = gameId then { row with key := asciiLower row.key } else row

inductive ModeSwitchError where
  | permissionModeConflict (message : Text)
  /-- An update would give two rows one primary key. -/
  | uniqueViolation
deriving DecidableEq

/-- The tables with both entry tables lowercased; the primary keys are checked as the database
does. -/
def lowerTables (game : ModeTables) (gameId : Text) : Except ModeSwitchError PermissionTables :=
  let rolePermissions := lowerKeys (game.ofRole gameId) game.permissions.rolePermissions
  let overrides := lowerKeys (game.ofMember gameId) game.permissions.overrides
  if h : (rolePermissions.map EntryRow.identity).Nodup ∧ (overrides.map EntryRow.identity).Nodup then
    .ok { game.permissions with
      rolePermissions := rolePermissions
      overrides := overrides
      uniqueRolePermission := h.1
      uniqueOverride := h.2 }
  else .error .uniqueViolation

/-- Everything that speaks against a switch. -/
def switchProblems (lower : Text → Text) (game : ModeTables) (gameId : Text)
    (target : PermissionMode) : List ModeProblem :=
  keyProblems (game.entryKeys gameId) .role target ++
    keyProblems (game.overrideKeys gameId) .member target ++
    if target = .nodes then nameProblems lower game gameId else []

/-- `lower` is the database's function on role names. -/
def applyPermissionModeSwitch (lower : Text → Text) (game : ModeTables) (gameId : Text)
    (source target : PermissionMode) : Except ModeSwitchError (ModeTables × ℕ) :=
  if source = target then .ok (game, 0)
  else
    let problems := switchProblems lower game gameId target
    if problems ≠ [] then .error (.permissionModeConflict (conflictMessage source target problems))
    else if target ≠ .nodes then .ok (game, 0)
    else do
      let permissions ← lowerTables game gameId
      .ok ({ game with
          permissions := permissions
          permissionDefs := mergeCatalog gameId game.permissionDefs },
        rewrittenCount (game.ofRole gameId) game.permissions.rolePermissions +
          rewrittenCount (game.ofMember gameId) game.permissions.overrides)

end Junjo
