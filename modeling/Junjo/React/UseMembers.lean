import Junjo.Members.Store
import Junjo.React.ListHook

/-!
# `useMembers`

The rows of a member list, what an event of the group stream does to them, and the hook with its
requests: a refetch holds back what the stream delivers until its page is there, a page request for
more rows does not.
-/

namespace Junjo.React

/-! ### Rows and events -/

/-- A row of a member list. The name is absent from the member of a `member.joined` event. -/
structure ListedMember where
  userId : Text
  status : MemberStatus
  roles : Finset Text
  bannedUntil : Option ℤ
  version : ℕ
  displayName : Option (Option Text)
deriving DecidableEq

/-- A row of an invitation list. -/
structure ListedInvitation where
  id : Text
  targetUserId : Option Text
  expiresAt : Option ℤ
  usedAt : Option ℤ
  usedBy : Option Text
deriving DecidableEq

/-- An event of a group stream, as far as a list hook reads it. -/
inductive JunjoEvent where
  | memberJoined (userId : Text) (member : ListedMember) (occurredAt : ℤ)
  | memberLeft (userId : Text)
  | memberInvited (invitation : ListedInvitation)
  | memberBanned (userId : Text) (bannedUntil : Option ℤ) (memberVersion : ℕ)
  | memberUnbanned (userId : Text) (memberVersion : ℕ)
  | roleChanged (userId : Text) (added removed : Finset Text) (memberVersion : ℕ)
  | other
deriving DecidableEq

/-- Replace the first row of a user by what a change makes of it. -/
def updateFirst (userId : Text) (change : ListedMember → ListedMember) :
    List ListedMember → List ListedMember
  | [] => []
  | m :: members =>
    if m.userId = userId then change m :: members else m :: updateFirst userId change members

/-- The new row of a member, with the name of the row that it replaces when it brings none. -/
def keepName (member previous : ListedMember) : ListedMember :=
  if member.displayName.isSome || previous.displayName.isNone then member
  else { member with displayName := previous.displayName }

def upsertJoined (members : List ListedMember) (member : ListedMember) : List ListedMember :=
  if members.any fun m => m.userId = member.userId then
    updateFirst member.userId (keepName member) members
  else members ++ [member]

def withRoleChange (member : ListedMember) (added removed : Finset Text) (memberVersion : ℕ) :
    ListedMember :=
  let remaining := member.roles \ removed
  { member with roles := remaining ∪ added \ remaining, version := memberVersion }

/-- A row after an event that changes its status: it stays where it was if it still matches. -/
def applyStatus (userId : Text) (change : ListedMember → ListedMember)
    (matching : ListedMember → Bool) (members : List ListedMember) : List ListedMember :=
  match members.find? fun m => m.userId = userId with
  | none => members
  | some member =>
    if matching (change member) then updateFirst userId change members
    else members.filter fun m => m.userId ≠ userId

/-- `applyEvent` of the member list. -/
def applyMemberEvent (event : JunjoEvent) (matching : ListedMember → Bool)
    (members : List ListedMember) : List ListedMember :=
  match event with
  | .memberJoined _ member _ => if matching member then upsertJoined members member else members
  | .memberLeft userId => members.filter fun m => m.userId ≠ userId
  | .roleChanged userId added removed memberVersion =>
    updateFirst userId (fun m => withRoleChange m added removed memberVersion) members
  | .memberBanned userId bannedUntil memberVersion =>
    applyStatus userId
      (fun m => { m with status := .banned, bannedUntil := bannedUntil, version := memberVersion })
      matching members
  | .memberUnbanned userId memberVersion =>
    applyStatus userId
      (fun m => { m with status := .left, bannedUntil := none, version := memberVersion })
      matching members
  | .memberInvited _ => members
  | .other => members

def useMembers : ListHook ListedMember JunjoEvent Text where
  key := ListedMember.userId
  applyEvent := applyMemberEvent

/-- The status that the list is filtered by; `none` for all of them. -/
abbrev UseMembersStatus := Option MemberStatus

def UseMembersStatus.matching (status : UseMembersStatus) (m : ListedMember) : Bool :=
  status.all fun s => m.status = s

/-! ### What a refetch holds back -/

structure PendingEvents where
  events : Option (List JunjoEvent) := none
  failure : Option HookError := none
deriving DecidableEq

namespace PendingEvents

variable (pending : PendingEvents)

def begin : PendingEvents := { pending with events := some (pending.events.getD []) }

/-- Hold an event; `none` when no fetch is under way. -/
def hold (event : JunjoEvent) : Option PendingEvents :=
  pending.events.map fun events => { pending with events := some (events ++ [event]) }

/-- Hold a failure, if it is the first; `none` when no fetch is under way. -/
def holdFailure (error : HookError) : Option PendingEvents :=
  pending.events.map fun _ => { pending with failure := pending.failure.or (some error) }

/-- What was held; nothing is after it. -/
def drain : List JunjoEvent × Option HookError := (pending.events.getD [], pending.failure)

end PendingEvents

/-! ### The hook and its requests -/

structure MembersPage where
  items : List ListedMember
  nextCursor : Option Text

/-- The refs of the hook, its state, and what it holds back. -/
structure MembersHook where
  state : ListState ListedMember := {}
  generation : ℕ := 0
  cursor : Option Text := none
  /-- The generation that owns the page request under way. -/
  inflightMore : Option ℕ := none
  pending : PendingEvents := {}

namespace MembersHook

variable (hook : MembersHook)

def dispatch (action : ListAction ListedMember JunjoEvent) : MembersHook :=
  { hook with state := useMembers.reducer hook.state action }

/-- `dispatch` of an event with the matcher of the last render. -/
def dispatchEvent (status : UseMembersStatus) (event : JunjoEvent) : MembersHook :=
  hook.dispatch (.event event status.matching)

def replayHeld (status : UseMembersStatus) : MembersHook :=
  let held := hook.pending.drain
  let replayed := held.1.foldl (fun hook event => hook.dispatchEvent status event)
    { hook with pending := {} }
  match held.2 with
  | none => replayed
  | some error => replayed.dispatch (.streamError error)

/-- A refetch up to its request, which is of the new generation. -/
def refetch : MembersHook :=
  MembersHook.dispatch
    { hook with
      generation := hook.generation + 1
      cursor := none
      inflightMore := none
      pending := hook.pending.begin }
    .fetchStart

/-- The answer to a refetch. -/
def refetched (status : UseMembersStatus) (generation : ℕ) :
    Except HookError MembersPage → MembersHook
  | .ok page =>
    if generation ≠ hook.generation then hook
    else
      (MembersHook.dispatch { hook with cursor := page.nextCursor }
        (.fetchSuccess page.items page.nextCursor.isSome)).replayHeld status
  | .error error =>
    if generation ≠ hook.generation then hook
    else (hook.dispatch (.fetchError error)).replayHeld status

/-- A request for the next page, up to the request; `none` when there is nothing to ask for. -/
def fetchMore : Option MembersHook :=
  if hook.cursor.isNone || hook.inflightMore.isSome then none
  else
    some (MembersHook.dispatch { hook with inflightMore := some hook.generation } .fetchMoreStart)

/-- The `finally` of `fetchMore`. -/
def releaseMore (generation : ℕ) : MembersHook :=
  if hook.inflightMore = some generation then { hook with inflightMore := none } else hook

/-- The answer to a request for the next page. -/
def fetchedMore (generation : ℕ) : Except HookError MembersPage → MembersHook
  | .ok page =>
    if generation ≠ hook.generation then hook.releaseMore generation
    else
      (MembersHook.dispatch { hook with cursor := page.nextCursor }
        (.fetchMoreSuccess page.items page.nextCursor.isSome)).releaseMore generation
  | .error error =>
    if generation ≠ hook.generation then hook.releaseMore generation
    else (hook.dispatch (.fetchMoreError error)).releaseMore generation

/-- `onEvent` of the stream. -/
def onEvent (status : UseMembersStatus) (event : JunjoEvent) : MembersHook :=
  match hook.pending.hold event with
  | some pending => { hook with pending }
  | none => hook.dispatchEvent status event

/-- `onError` and `onClose` of the stream. -/
def onFailure (error : HookError) : MembersHook :=
  match hook.pending.holdFailure error with
  | some pending => { hook with pending }
  | none => hook.dispatch (.streamError error)

end MembersHook

end Junjo.React
