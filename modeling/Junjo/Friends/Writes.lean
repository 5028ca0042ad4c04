import Junjo.Core.Encode
import Junjo.Friends.Store

/-!
# Friend requests, friendships, blocks and tags

The handlers as programs of statements. Each checks the guards and the caps with reads of its own,
then makes its changes in a transaction, which sees what has been committed meanwhile.
-/

namespace Junjo

inductive FriendError where
  | notFound (resource : Text)
  | badRequest (message : Text)
deriving DecidableEq

/-- What a cap limits. -/
inductive CapKind where
  | friends
  | pending
  | tags
deriving DecidableEq

/-- A cap check that a request passed: the game called, the game and the person that the row it then
inserts counts for, and the rows it counted. -/
structure CapCheck where
  kind : CapKind
  caller : Text
  gameId : Text
  person : Text
  counted : ℕ
deriving DecidableEq

/-- The friend statements lock the relationships they change. -/
abbrev FriendTx := Tx FriendDb Text FriendError

def friendLockConflicts (k l : Text) : Bool := k = l

namespace FriendRoutes

section Handlers

variable (games : FriendsGames)

def assert (condition : Bool) (error : FriendError) : FriendTx Unit :=
  if condition then pure () else throw error

def loadGameConfig (gameId : Text) : FriendTx FriendsGame :=
  match games.get? gameId with
  | none => throw (.notFound (text "game"))
  | some game => pure game

/-- The relationships between two people, in both directions. -/
def between (a b : Text) (row : UserRelationship) : Bool :=
  (row.actorJunjoUserId = a && row.targetJunjoUserId = b) ||
    (row.actorJunjoUserId = b && row.targetJunjoUserId = a)

def existing (gameIds : List Text) (actor target : Text) (type : RelationshipType) :
    FriendTx (Option (Text × UserRelationship)) :=
  query fun db => db.findFirst fun r => r.gameId ∈ gameIds && r.actorJunjoUserId = actor &&
    r.targetJunjoUserId = target && r.type = type

def capReached (message : String) (cap : ℕ) : FriendError :=
  .badRequest (text message ++ text " (" ++ decimal cap ++ text ")")

/-- Count a person's rows against a cap. -/
def countBelow (gameIds : List Text) (person : Text) (type : RelationshipType) (cap : ℕ)
    (message : String) : FriendTx ℕ := do
  let rows ← query fun db => db.count gameIds person type
  assert (rows < cap) (capReached message cap)
  return rows

/-- `POST /users/:userId/friend-requests`. The ids have been resolved to people. -/
def sendFriendRequest (gameId actorJid targetJid : Text) (fresh freshMirror : Text) :
    FriendTx (List CapCheck) := do
  let game ← loadGameConfig games gameId
  assert game.config.enabled (.notFound (text "resource"))
  let visible := games.gameIdsInScope gameId game
  assert (actorJid ≠ targetJid) (.badRequest (text "cannot send a friend request to yourself"))
  let blockExists ← query fun db => db.findFirst fun r =>
    r.gameId ∈ visible && r.type = .blocked && between actorJid targetJid r
  assert blockExists.isNone (.notFound (text "user"))
  let forward ← existing visible actorJid targetJid .friend
  assert forward.isNone (.badRequest (text "already friends"))
  let outbound ← existing visible actorJid targetJid .request
  assert outbound.isNone (.badRequest (text "a pending friend request already exists"))
  let inbound ← existing visible targetJid actorJid .request
  assert inbound.isNone
    (.badRequest (text "a pending friend request from this user already exists; accept it"))
  let pending ← countBelow visible actorJid .request game.config.maxPendingRequests
    "outbound friend request cap reached"
  let friends ← countBelow visible actorJid .friend game.config.maxFriends "friend cap reached"
  if game.config.requestsRequired then
    write (fun _ => []) (fun _ => ()) fun db => db.create fresh ⟨gameId, actorJid, targetJid, .request⟩
    return [⟨.pending, gameId, gameId, actorJid, pending⟩]
  else
    -- the request is the acceptance
    let targetFriends ← countBelow visible targetJid .friend game.config.maxFriends
      "target user has reached the friend cap"
    write (fun _ => []) (fun _ => ()) fun db => db.create fresh ⟨gameId, actorJid, targetJid, .friend⟩
    write (fun _ => []) (fun _ => ())
      fun db => db.create freshMirror ⟨gameId, targetJid, actorJid, .friend⟩
    return [⟨.friends, gameId, gameId, actorJid, friends⟩,
      ⟨.friends, gameId, gameId, targetJid, targetFriends⟩]

/-- A pending request of the games in scope. -/
def pendingRequest (visible : List Text) (found : Option UserRelationship) :
    FriendTx UserRelationship :=
  match found with
  | none => throw (.notFound (text "friend request"))
  | some request =>
    if request.gameId ∈ visible ∧ request.type = .request then pure request
    else throw (.notFound (text "friend request"))

/-- `POST /friend-requests/:id/accept` -/
def acceptFriendRequest (gameId id fresh : Text) : FriendTx (List CapCheck) := do
  let game ← loadGameConfig games gameId
  assert game.config.enabled (.notFound (text "resource"))
  let visible := games.gameIdsInScope gameId game
  let found ← query fun db => db.findUnique id
  let request ← pendingRequest visible found
  let accepterFriends ← countBelow visible request.targetJunjoUserId .friend game.config.maxFriends
    "friend cap reached"
  let senderFriends ← countBelow visible request.actorJunjoUserId .friend game.config.maxFriends
    "sender friend cap reached"
  -- the row stays locked until the end of the transaction
  let promoted ← write (fun _ => [id])
    (fun db => (db.findUnique id).any fun r => r.type = .request) fun db => db.promote id
  assert promoted (.notFound (text "friend request"))
  write (fun _ => []) (fun _ => ()) fun db => db.create fresh
    ⟨request.gameId, request.targetJunjoUserId, request.actorJunjoUserId, .friend⟩
  return [⟨.friends, gameId, request.gameId, request.targetJunjoUserId, accepterFriends⟩,
    ⟨.friends, gameId, request.gameId, request.actorJunjoUserId, senderFriends⟩]

/-- Delete the rows that meet a condition, and answer how many there were. -/
def deleteWhere (p : Text → UserRelationship → Bool) : FriendTx ℕ :=
  write (fun db => (db.relationships.entries.filter fun e => p e.1 e.2).map Prod.fst)
    (fun db => (db.relationships.findMany p).length) fun db => some (db.deleteMany p)

def deletePendingRequest (visible : List Text) (id : Text) : FriendTx UserRelationship := do
  let found ← query fun db => db.findUnique id
  let request ← pendingRequest visible found
  let deleted ← deleteWhere fun id' r => id' = id && r.type = .request
  assert (0 < deleted) (.notFound (text "friend request"))
  return request

/-- Decline and cancel both delete the request, and differ in the event. -/
def endFriendRequest (gameId id : Text) : FriendTx (List CapCheck) := do
  let game ← loadGameConfig games gameId
  assert game.config.enabled (.notFound (text "resource"))
  let visible := games.gameIdsInScope gameId game
  let _ ← deletePendingRequest visible id
  return []

/-- `POST /friend-requests/:id/decline` -/
def declineFriendRequest (gameId id : Text) : FriendTx (List CapCheck) :=
  endFriendRequest games gameId id

/-- `DELETE /friend-requests/:id` -/
def cancelFriendRequest (gameId id : Text) : FriendTx (List CapCheck) :=
  endFriendRequest games gameId id

/-- `DELETE /users/:userId/friends/:otherUserId` -/
def unfriend (gameId actorJid otherJid : Text) : FriendTx (List CapCheck) := do
  let game ← loadGameConfig games gameId
  assert game.config.enabled (.notFound (text "resource"))
  let visible := games.gameIdsInScope gameId game
  match ← existing visible actorJid otherJid .friend with
  | none => throw (.notFound (text "friendship"))
  | some forward =>
    let deleted ← deleteWhere fun _ r =>
      r.gameId = forward.2.gameId && r.type = .friend && between actorJid otherJid r
    assert (0 < deleted) (.notFound (text "friendship"))
    return []

/-- `POST /users/:userId/blocks` -/
def addBlock (gameId actorJid targetJid fresh : Text) : FriendTx (List CapCheck) := do
  let game ← loadGameConfig games gameId
  assert game.config.blocksEnabled (.notFound (text "resource"))
  let visible := games.gameIdsInScope gameId game
  assert (actorJid ≠ targetJid) (.badRequest (text "cannot block yourself"))
  match ← existing visible actorJid targetJid .blocked with
  | some _ => return []
  | none =>
    write (fun _ => []) (fun _ => ()) fun db => db.create fresh ⟨gameId, actorJid, targetJid, .blocked⟩
    let _ ← deleteWhere fun _ r =>
      r.gameId ∈ visible && (r.type = .friend || r.type = .request) && between actorJid targetJid r
    return []

/-- `POST /users/:userId/friend-tags` -/
def createFriendTag (gameId actorJid name : Text) (color : Option Text) (fresh : Text) :
    FriendTx (List CapCheck) := do
  let game ← loadGameConfig games gameId
  assert (game.config.enabled && game.config.tagsEnabled) (.notFound (text "resource"))
  let tags ← query fun db => db.countTags gameId actorJid
  assert (tags < game.config.maxPerUser) (capReached "tag cap reached" game.config.maxPerUser)
  write (fun _ => []) (fun _ => ()) fun db => db.createTag fresh ⟨gameId, actorJid, name, color⟩
  return [⟨.tags, gameId, gameId, actorJid, tags⟩]

end Handlers

end FriendRoutes

inductive FriendRequest where
  | send (gameId actorJid targetJid fresh freshMirror : Text)
  | accept (gameId id fresh : Text)
  | decline (gameId id : Text)
  | cancel (gameId id : Text)
  | unfriend (gameId actorJid otherJid : Text)
  | block (gameId actorJid targetJid fresh : Text)
  | createTag (gameId actorJid name : Text) (color : Option Text) (fresh : Text)

open FriendRoutes in
/-- The handler's program for a request. -/
def FriendRequest.program (games : FriendsGames) : FriendRequest → FriendTx (List CapCheck)
  | .send gameId actorJid targetJid fresh freshMirror =>
    sendFriendRequest games gameId actorJid targetJid fresh freshMirror
  | .accept gameId id fresh => acceptFriendRequest games gameId id fresh
  | .decline gameId id => declineFriendRequest games gameId id
  | .cancel gameId id => cancelFriendRequest games gameId id
  | .unfriend gameId actorJid otherJid => FriendRoutes.unfriend games gameId actorJid otherJid
  | .block gameId actorJid targetJid fresh => addBlock games gameId actorJid targetJid fresh
  | .createTag gameId actorJid name color fresh =>
    createFriendTag games gameId actorJid name color fresh

/-- The database, the requests under way, and the checks that the committed ones passed. -/
abbrev FriendServer := Database FriendDb Text FriendError (List CapCheck)

/-- Run some events of friend requests with a fixed configuration. -/
def FriendServer.run (games : FriendsGames) (start : FriendDb)
    (events : List (TxEvent FriendRequest)) : Option FriendServer :=
  runSteps (Database.next friendLockConflicts (FriendRequest.program games)) { committed := start }
    events

end Junjo
