import Junjo.Core.Lists
import Junjo.Core.RowVersions
import Junjo.Core.Run
import Junjo.Core.Text

/-!
# Replacing the tags of a friendship

Each call deletes the tag rows of the friendship and inserts the requested ones in one transaction,
and runs it once more after a unique violation. The calls' statements come in any order.
-/

namespace Junjo.Friends

/-- Where a call is: before its transaction, in its delete statement with the versions it saw and has
not come to, at its inserts, or at its end. -/
inductive SetTagsPhase
  | waiting
  | deleting (todo : List (RowVersion Text))
  | inserting (todo : List Text)
  | committed
  | failed
deriving DecidableEq

/-- A call of `setFriendTagsHandler` whose checks have passed. -/
structure SetTagsCall where
  tagIds : List Text
  retrying : Bool := false
  phase : SetTagsPhase := .waiting

/-- `Array.from(new Set(tagIds))` -/
def SetTagsCall.requestedTagIds (call : SetTagsCall) : List Text := call.tagIds.eraseDups

/-- The tag rows of one friendship, and the calls on it. -/
structure SetTagsState where
  table : VersionedTable Text
  calls : List SetTagsCall

inductive SetTagsStep
  /-- The delete statement begins. -/
  | begin (i : ℕ)
  /-- It comes to a version. -/
  | deleteRow (i : ℕ) (r : RowVersion Text)
  /-- It ends. -/
  | deleted (i : ℕ)
  | insert (i : ℕ)
  | commit (i : ℕ)
  /-- The transaction is rolled back from outside, as the victim of a deadlock. -/
  | abort (i : ℕ)

namespace SetTagsState

variable (s : SetTagsState)

def setCall (i : ℕ) (call : SetTagsCall) (table : VersionedTable Text) : SetTagsState :=
  { table, calls := s.calls.set i call }

/-- After a unique violation: `retryOnUniqueViolation` runs the transaction once more. -/
def violated (i : ℕ) (call : SetTagsCall) : SetTagsState :=
  s.setCall i
    (if call.retrying then { call with phase := .failed }
      else { call with retrying := true, phase := .waiting })
    (s.table.rollback i)

/-- One step of a call; `none` when it is not possible, as while it waits. -/
def nextOf (call : SetTagsCall) : SetTagsStep → Option SetTagsState
  | .begin i =>
    match call.phase with
    | .waiting => some (s.setCall i { call with phase := .deleting s.table.rows } s.table)
    | _ => none
  | .deleteRow i r =>
    match call.phase with
    | .deleting todo =>
      if r ∈ todo then
        (s.table.deleteRow i r).map fun table =>
          s.setCall i { call with phase := .deleting (todo.erase r) } table
      else none
    | _ => none
  | .deleted i =>
    match call.phase with
    | .deleting [] =>
      some (s.setCall i { call with phase := .inserting call.requestedTagIds } s.table)
    | _ => none
  | .insert i =>
    match call.phase with
    | .inserting (tagId :: todo) =>
      match s.table.insert i tagId with
      | .waits => none
      | .violation => some (s.violated i call)
      | .inserted table => some (s.setCall i { call with phase := .inserting todo } table)
    | _ => none
  | .commit i =>
    match call.phase with
    | .inserting [] => some (s.setCall i { call with phase := .committed } (s.table.commit i))
    | _ => none
  | .abort i =>
    match call.phase with
    | .committed => none
    | .failed => none
    | _ => some (s.setCall i { call with phase := .failed } (s.table.rollback i))

end SetTagsState

def SetTagsStep.call : SetTagsStep → ℕ
  | begin i => i
  | deleteRow i _ => i
  | deleted i => i
  | insert i => i
  | commit i => i
  | abort i => i

namespace SetTagsState

def next (s : SetTagsState) (step : SetTagsStep) : Option SetTagsState :=
  match s.calls[step.call]? with
  | none => none
  | some call => s.nextOf call step

/-- A friendship with these tags, and some calls before their transactions. -/
def start (tags : List Text) (calls : List (List Text)) : SetTagsState where
  table := { rows := tags.eraseDups.map fun tag => ⟨tag, none⟩ }
  calls := calls.map fun tagIds => { tagIds }

/-- The committed tags of the friendship. -/
def tags (s : SetTagsState) : List Text := s.table.rows.map RowVersion.key

def allCommitted (s : SetTagsState) : Bool := s.calls.all fun call => call.phase = .committed

end SetTagsState

end Junjo.Friends
