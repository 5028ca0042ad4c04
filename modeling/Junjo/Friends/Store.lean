import Junjo.Core.Statements
import Junjo.Core.Text
import Junjo.Core.Transactions

/-!
# Friends

The tables of relationships and friend tags, the games that see each other's rows, and the
statements of the friend routes.
-/

namespace Junjo

/-! ### Games -/

inductive FriendsScope where
  | perGame
  | network
deriving DecidableEq

/-- The resolved `friends` and `blocks` config of a game. -/
structure FriendsConfig where
  enabled : Bool
  scope : FriendsScope
  requestsRequired : Bool
  maxFriends : ℕ
  maxPendingRequests : ℕ
  tagsEnabled : Bool
  maxPerUser : ℕ
  blocksEnabled : Bool
deriving DecidableEq

structure FriendsGame where
  config : FriendsConfig
  networkId : Option Text
deriving DecidableEq

/-- The games, by id. -/
abbrev FriendsGames := Dict Text FriendsGame

namespace FriendsGames

/-- The ids of the games whose relationships are visible from a game. -/
def gameIdsInScope (games : FriendsGames) (gameId : Text) (game : FriendsGame) : List Text :=
  if game.config.scope ≠ .network ∨ game.networkId.getD [] = [] then [gameId]
  else
    let ids := (games.entries.filter fun peer =>
      peer.2.networkId = game.networkId && peer.2.config.scope = .network).map Prod.fst
    if gameId ∈ ids then ids else ids ++ [gameId]

end FriendsGames

/-! ### Rows -/

inductive RelationshipType where
  | request
  | friend
  | blocked
deriving DecidableEq

/-- A row of a person towards another. A friendship has one of each side. -/
structure UserRelationship where
  gameId : Text
  actorJunjoUserId : Text
  targetJunjoUserId : Text
  type : RelationshipType
deriving DecidableEq

/-- The columns that never change once a row is there. -/
def UserRelationship.parties (row : UserRelationship) : Text × Text × Text :=
  (row.gameId, row.actorJunjoUserId, row.targetJunjoUserId)

structure FriendTag where
  gameId : Text
  junjoUserId : Text
  name : Text
  color : Option Text
deriving DecidableEq

/-- The tables of the friend routes. The fields after the rows say that the id generator, which keeps
the parties it issued each row id for, never issues an id twice. -/
structure FriendDb where
  relationships : Dict Text UserRelationship
  tags : Dict Text FriendTag
  issued : Dict Text (Text × Text × Text)
  issuedRow : ∀ id row, relationships.get? id = some row → issued.get? id = some row.parties

namespace FriendDb

/-- A store without rows. -/
def empty : FriendDb where
  relationships := Dict.empty
  tags := Dict.empty
  issued := Dict.empty
  issuedRow := by rintro id row ⟨⟩

variable (db : FriendDb)

/-! ### Reads -/

def findUnique (id : Text) : Option UserRelationship := db.relationships.get? id

/-- `findFirst`, with the row's id. -/
def findFirst (p : UserRelationship → Bool) : Option (Text × UserRelationship) :=
  db.relationships.entries.find? fun e => p e.2

/-- The rows of one type that a person has towards others in some games. -/
def count (gameIds : List Text) (actor : Text) (type : RelationshipType) : ℕ :=
  (db.relationships.findMany fun _ r =>
    r.gameId ∈ gameIds && r.actorJunjoUserId = actor && r.type = type).length

def countTags (gameId junjoUserId : Text) : ℕ :=
  (db.tags.findMany fun _ t => t.gameId = gameId && t.junjoUserId = junjoUserId).length

/-! ### Changes -/

/-- Insert a relationship; refused when there is one of these parties and type, or when the id was
issued before. -/
def create (id : Text) (row : UserRelationship) : Option FriendDb :=
  if h : id ∉ db.issued.keys ∧ (db.relationships.findMany fun _ r => r = row) = [] then
    some { db with
      relationships := db.relationships.set id row
      issued := db.issued.set id row.parties
      issuedRow := by
        intro id' row' hget
        rw [Dict.get?_set] at hget ⊢
        split_ifs at hget ⊢
        · rw [Option.some.inj hget]
        · exact db.issuedRow id' row' hget }
  else none

/-- Delete relationships. -/
def deleteMany (p : Text → UserRelationship → Bool) : FriendDb :=
  { db with
    relationships := db.relationships.deleteMany p
    issuedRow := fun id row hget =>
      db.issuedRow id row (Dict.get?_deleteMany_eq_some_iff.mp hget).1 }

/-- Turn a pending request into a friendship; refused when the parties have one. -/
def promote (id : Text) : Option FriendDb :=
  match hget : db.relationships.get? id with
  | none => some db
  | some row =>
    if row.type ≠ .request then some db
    else if (db.relationships.findMany fun _ r => r = { row with type := .friend }) = [] then
      some { db with
        relationships := db.relationships.set id { row with type := .friend }
        issuedRow := by
          intro id' row' hget'
          rw [Dict.get?_set] at hget'
          split_ifs at hget' with heq
          · rw [heq, ← Option.some.inj hget']
            exact db.issuedRow id row hget
          · exact db.issuedRow id' row' hget' }
    else none

/-- Insert a tag; refused when the person has one of that name, or when the id is taken. -/
def createTag (id : Text) (tag : FriendTag) : Option FriendDb :=
  if db.tags.has id || db.tags.entries.any fun e =>
      e.2.gameId = tag.gameId && e.2.junjoUserId = tag.junjoUserId && e.2.name = tag.name then
    none
  else some { db with tags := db.tags.set id tag }

end FriendDb

end Junjo
