import Junjo.Core.KeysetPages
import Junjo.Export.Records

/-!
# Lists that are read newest first

The list routes hold a page of rows by time and id, newest first. The cursor of the next page is the
id of the last row, whose time is looked up again when that page is read. A walk reads page after
page until there is no cursor, from the tables as they are at each request.
-/

namespace Junjo.Lists

open Export IsoDate

inductive ListError where
  | badRequest (message : Text)
  | notFound (resource : Text)
deriving DecidableEq

/-- A list route with its filters: the rows of its table, and which of them it reads. -/
structure NewestFirst (ρ : Type) where
  rows : Export.Database → List ρ
  id : ρ → Text
  time : ρ → Instant
  /-- The rows among which a cursor is looked up. A list of nobody's rows has none. -/
  scope : Export.Database → Except ListError (Option (ρ → Bool))
  /-- Which rows of the scope are listed at a moment. -/
  shows : Export.Database → Instant → ρ → Bool
  ids_nodup : ∀ db, ((rows db).map id).Nodup

structure Page (ρ : Type) where
  items : List ρ
  nextCursor : Option Text

/-- `orderBy: [{ time: "desc" }, { id: "desc" }]` -/
def newest (collation : KeyOrder Text) : KeyOrder (Instant × Text) :=
  (instantOrder.lex collation).reverse

/-- The tables and the clock when a request is served. -/
structure Moment where
  db : Export.Database
  now : Instant

namespace NewestFirst

variable {ρ : Type} (collation : KeyOrder Text) (list : NewestFirst ρ) (limit : ℕ)

def key (r : ρ) : Instant × Text := (list.time r, list.id r)

/-- The row that a cursor names. -/
def findCursor (db : Export.Database) (scope : ρ → Bool) (cursor : Text) : Option ρ :=
  (list.rows db).find? fun r => list.id r = cursor && scope r

/-- The rows that are listed at a moment. -/
def listed (m : Moment) (scope : ρ → Bool) : List ρ :=
  (list.rows m.db).filter fun r => scope r && list.shows m.db m.now r

/-- The page behind a position, and the cursor of the next. One row more than a page holds is
read. -/
def pageBehind (m : Moment) (scope : ρ → Bool) (after : Option (Instant × Text)) : Page ρ :=
  let older := Keyset.rowsAfter (newest collation) list.key (list.listed m scope) after
  let rows := (Keyset.sortBy (newest collation) list.key older).take (limit + 1)
  let hasMore := limit < rows.length
  let sliced := if hasMore then rows.take limit else rows
  { items := sliced
    nextCursor := if hasMore then sliced.getLast?.map list.id else none }

/-- One request. -/
def read (m : Moment) (cursor : Option Text) : Except ListError (Page ρ) :=
  match list.scope m.db with
  | .error e => .error e
  | .ok none => .ok { items := [], nextCursor := none }
  | .ok (some scope) =>
    match cursor with
    | none => .ok (list.pageBehind collation limit m scope none)
    | some cursor =>
      match list.findCursor m.db scope cursor with
      | none => .error (.badRequest (text "invalid cursor"))
      | some row => .ok (list.pageBehind collation limit m scope (some (list.key row)))

/-- A walk that follows `nextCursor` to the end, one moment a request: what it returns, unless a
request is refused or the requests do not end with the list. -/
def walk : Option Text → List Moment → Option (List ρ)
  | _, [] => none
  | cursor, m :: rest =>
    match list.read collation limit m cursor with
    | .error _ => none
    | .ok page =>
      match page.nextCursor with
      | none => if rest.isEmpty then some page.items else none
      | some next => (walk (some next) rest).map (page.items ++ ·)

end NewestFirst

/-! ### The lists -/

/-- `findJunjoUserId` -/
def findJunjoUserId (db : Export.Database) (gameId externalUserId : Text) : Option Text :=
  (db.externalIdentities.find? fun i =>
    i.gameId = gameId && i.externalUserId = externalUserId).map ExternalIdentity.junjoUserId

/-- A group of the game that is not deleted. -/
def findLiveGroup (db : Export.Database) (gameId groupId : Text) : Option Group :=
  db.groups.find? fun g => g.id = groupId && g.gameId = gameId && g.softDeletedAt.isNone

def isActiveMember (db : Export.Database) (junjoUserId groupId : Text) : Bool :=
  db.groupMembers.any fun m =>
    m.groupId = groupId && m.junjoUserId = junjoUserId && m.status = text "active"

/-- `expiresAt` is null or later. -/
def activeAt (now : Instant) (expiresAt : Option Instant) : Bool :=
  expiresAt.all fun t => now < t

/-- `GET /v1/groups` -/
def listGroups (gameId : Text) (filterGameId viewer kind : Option Text) : NewestFirst Group where
  rows := Export.Database.groups
  id := Group.id
  time := Group.createdAt
  scope _ :=
    if filterGameId.all fun id => id = gameId then .ok (some fun g => g.gameId = gameId)
    else .error (.badRequest (text "gameId must match the calling game"))
  shows db _ g := g.softDeletedAt.isNone && (kind.all fun kind => g.kind = kind) &&
    viewer.all fun viewer => g.visibility ≠ text "secret" ||
      (findJunjoUserId db gameId viewer).any fun junjoUserId => isActiveMember db junjoUserId g.id
  ids_nodup := Export.Database.groups_ids

/-- `GET /v1/bans` -/
def listGameBans (gameId : Text) (includeExpired : Bool) : NewestFirst GameBan where
  rows := Export.Database.gameBans
  id := GameBan.id
  time := GameBan.bannedAt
  scope _ := .ok (some fun b => b.gameId = gameId)
  shows _ now b := includeExpired || activeAt now b.expiresAt
  ids_nodup := Export.Database.gameBans_ids

/-- `GET /v1/bans/:userId/history` -/
def listBanHistory (gameId userId : Text) (scope groupId : Option Text) :
    NewestFirst BanHistory where
  rows := Export.Database.banHistory
  id := BanHistory.id
  time := BanHistory.eventAt
  scope db :=
    if groupId.isSome && scope = some (text "game") then
      .error (.badRequest (text "scope=game is incompatible with a groupId filter"))
    else .ok ((findJunjoUserId db gameId userId).map fun junjoUserId h =>
      h.gameId = gameId && h.junjoUserId = junjoUserId)
  shows _ _ h :=
    let effectiveScope := if groupId.isSome then some (text "group") else scope
    (effectiveScope.all fun scope => h.scope = scope) && groupId.all fun id => h.groupId = some id
  ids_nodup := Export.Database.banHistory_ids

/-- `GET /v1/groups/:id/bans/history` -/
def listGroupBanHistory (gameId groupId : Text) : NewestFirst BanHistory where
  rows := Export.Database.banHistory
  id := BanHistory.id
  time := BanHistory.eventAt
  scope db := match findLiveGroup db gameId groupId with
    | none => .error (.notFound (text "group"))
    | some group => .ok (some fun h =>
        h.gameId = gameId && h.groupId = some group.id && h.scope = text "group")
  shows _ _ _ := true
  ids_nodup := Export.Database.banHistory_ids

/-- `GET /v1/sanctions` -/
def listSanctions (gameId : Text) (type : Option Text) : NewestFirst Sanction where
  rows := Export.Database.sanctions
  id := Sanction.id
  time := Sanction.startedAt
  scope _ := .ok (some fun s => s.gameId = gameId)
  shows _ now s := activeAt now s.expiresAt && type.all fun type => s.type = type
  ids_nodup := Export.Database.sanctions_ids

/-- `GET /v1/users/:userId/sanctions/history` -/
def listSanctionHistory (gameId userId : Text) (type : Option Text) :
    NewestFirst SanctionHistory where
  rows := Export.Database.sanctionHistory
  id := SanctionHistory.id
  time := SanctionHistory.eventAt
  scope db := .ok ((findJunjoUserId db gameId userId).map fun junjoUserId h =>
    h.gameId = gameId && h.junjoUserId = junjoUserId)
  shows _ _ h := type.all fun type => h.type = type
  ids_nodup := Export.Database.sanctionHistory_ids

/-- `listAuditForGroup`; the cursor is the entry that `before` names. -/
def listAuditForGroup (gameId groupId : Text) (actions : List Text) : NewestFirst AuditEntry where
  rows := Export.Database.auditEntries
  id := AuditEntry.id
  time := AuditEntry.createdAt
  scope db := match findLiveGroup db gameId groupId with
    | none => .error (.notFound (text "group"))
    | some group => .ok (some fun e => e.groupId = some group.id)
  shows _ _ e := actions.isEmpty || decide (e.action ∈ actions)
  ids_nodup := Export.Database.auditEntries_ids

/-- The list routes with their filters. -/
inductive Route where
  | groups (gameId : Text) (filterGameId viewer kind : Option Text)
  | gameBans (gameId : Text) (includeExpired : Bool)
  | banHistory (gameId userId : Text) (scope groupId : Option Text)
  | groupBanHistory (gameId groupId : Text)
  | sanctions (gameId : Text) (type : Option Text)
  | sanctionHistory (gameId userId : Text) (type : Option Text)
  | audit (gameId groupId : Text) (actions : List Text)

namespace Route

def Row : Route → Type
  | groups .. => Group
  | gameBans .. => GameBan
  | banHistory .. => BanHistory
  | groupBanHistory .. => BanHistory
  | sanctions .. => Sanction
  | sanctionHistory .. => SanctionHistory
  | audit .. => AuditEntry

def list : (route : Route) → NewestFirst route.Row
  | groups gameId filterGameId viewer kind => listGroups gameId filterGameId viewer kind
  | gameBans gameId includeExpired => listGameBans gameId includeExpired
  | banHistory gameId userId scope groupId => listBanHistory gameId userId scope groupId
  | groupBanHistory gameId groupId => listGroupBanHistory gameId groupId
  | sanctions gameId type => listSanctions gameId type
  | sanctionHistory gameId userId type => listSanctionHistory gameId userId type
  | audit gameId groupId actions => listAuditForGroup gameId groupId actions

end Route

end Junjo.Lists
