import Junjo.Members.Runs
import Junjo.React.UseMembers

/-!
# A member list over the group stream

The server's membership writes, the group stream that delivers their events one by one, and a
mounted `useMembers` whose requests are each one read of the server between request and arrival.
-/

namespace Junjo.React

/-! ### What the stream and the list endpoint send -/

/-- The id under which a reader sees each person. -/
structure RenderedIds where
  userId : Text → Text
  injective : Function.Injective userId

/-- The member of an event. -/
def RenderedIds.eventMember (ids : RenderedIds) (key : MemberKey) (member : PublicMember) :
    ListedMember :=
  ⟨ids.userId key.junjoUserId, member.status, member.roles, member.bannedUntil, member.version, none⟩

/-- The row of a member in a page. -/
def RenderedIds.pageMember (ids : RenderedIds) (junjoUserId : Text) (member : Member)
    (displayName : Option Text) : ListedMember :=
  ⟨ids.userId junjoUserId, member.status, member.roles, member.bannedUntil, member.version,
    some displayName⟩

def GroupEvent.groupId : GroupEvent → Text
  | .member event => event.key.groupId
  | .deleted groupId => groupId

/-- The logged events of a group, oldest first. -/
def groupEvents (db : MemberDb) (gameId groupId : Text) : List GroupEvent :=
  (db.eventLog.read gameId).filter fun e => GroupEvent.groupId e = groupId

/-! ### The system -/

/-- A page as the server read it, and how many events of the group were logged then. -/
structure PageRead where
  page : MembersPage
  logged : ℕ

/-- A request under way: a refetch, or one for more rows. -/
structure PageRequest where
  more : Bool
  generation : ℕ
  read : Option PageRead := none

/-- The group and the list that a reader watches. -/
structure MembersWatch where
  verifySecret : Text → Text → Bool
  ids : RenderedIds
  /-- When an event happened, which a member list does not read. -/
  occurredAt : GroupEvent → ℤ
  gameId : Text
  groupId : Text
  status : UseMembersStatus

/-- The server, how many events of the group the stream is past, the hook and its requests. -/
structure MembersView where
  server : MemberServer
  delivered : ℕ
  hook : MembersHook := {}
  requests : List PageRequest := []

/-- An event as the stream delivers it. -/
def MembersWatch.render (watch : MembersWatch) : GroupEvent → JunjoEvent
  | .deleted _ => .other
  | .member e =>
    let userId := watch.ids.userId e.key.junjoUserId
    match e.type with
    | .joined member =>
      .memberJoined userId (watch.ids.eventMember e.key member) (watch.occurredAt (.member e))
    | .left _ => .memberLeft userId
    | .banned _ bannedUntil => .memberBanned userId bannedUntil e.memberVersion
    | .unbanned => .memberUnbanned userId e.memberVersion
    | .updated _ => .other
    | .roleChanged added removed _ => .roleChanged userId added removed e.memberVersion

inductive MembersStep where
  /-- A step of a membership write. -/
  | server (e : TxEvent MemberRequest)
  /-- The stream hands the hook its next event. -/
  | deliver
  | streamFails (error : HookError)
  | refetch
  | fetchMore
  /-- The server reads the page of a request: some people and the names that they go by. -/
  | read (request : ℕ) (people : List (Text × Option Text)) (nextCursor : Option Text)
  | arrive (request : ℕ)
  | fail (request : ℕ) (error : HookError)

namespace MembersView

variable (watch : MembersWatch) (v : MembersView)

/-- The events of the group so far. -/
def events : List GroupEvent := groupEvents v.server.committed watch.gameId watch.groupId

/-- The row of a person as a page shows it, when the list shows it. -/
def pageRow (person : Text × Option Text) : Option ListedMember :=
  ((v.server.committed.findMember ⟨watch.groupId, person.1⟩).map fun m =>
    watch.ids.pageMember person.1 m person.2).filter watch.status.matching

/-- The answer to a request reaches the hook. -/
def answer (request : PageRequest) (result : Except HookError MembersPage) : MembersHook :=
  if request.more then v.hook.fetchedMore request.generation result
  else v.hook.refetched watch.status request.generation result

/-- One step; `none` when it is not possible. -/
def next : MembersStep → Option MembersView
  | .server e =>
    (MemberServer.next watch.verifySecret v.server e).map fun server => { v with server }
  | .deliver =>
    (v.events watch)[v.delivered]?.map fun e =>
      { v with
        delivered := v.delivered + 1
        hook := v.hook.onEvent watch.status (watch.render e) }
  | .streamFails error => some { v with hook := v.hook.onFailure error }
  | .refetch =>
    some { v with
      hook := v.hook.refetch
      requests := v.requests ++ [⟨false, v.hook.refetch.generation, none⟩] }
  | .fetchMore =>
    v.hook.fetchMore.map fun hook =>
      { v with hook, requests := v.requests ++ [⟨true, v.hook.generation, none⟩] }
  | .read i people nextCursor =>
    v.requests[i]?.bind fun request =>
      if request.read.isNone ∧ (people.map Prod.fst).Nodup then
        (people.mapM (v.pageRow watch)).map fun items =>
          { v with
            requests := v.requests.set i
              { request with
                read := some ⟨⟨items, nextCursor⟩, (v.events watch).length⟩ } }
      else none
  | .arrive i =>
    v.requests[i]?.bind fun request => request.read.map fun read =>
      { v with
        hook := v.answer watch request (.ok read.page)
        requests := v.requests.eraseIdx i }
  | .fail i error =>
    v.requests[i]?.map fun request =>
      { v with
        hook := v.answer watch request (.error error)
        requests := v.requests.eraseIdx i }

/-- A hook mounted at a server; its stream delivers the events from here on. -/
def mount (server : MemberServer) : MembersView where
  server := server
  delivered := (groupEvents server.committed watch.gameId watch.groupId).length

/-- Run some steps. -/
def run (server : MemberServer) (steps : List MembersStep) : Option MembersView :=
  runSteps (next watch) (mount watch server) steps

/-- Every event is delivered and no request is under way. -/
def Quiet : Prop := v.delivered = (v.events watch).length ∧ v.requests = []

end MembersView

end Junjo.React
