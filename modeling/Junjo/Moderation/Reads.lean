import Junjo.Moderation.Writes

/-!
# Moderation reads

A moderation read is a handler of separate statements, each of which sees what is committed when it
runs. It takes no locks and writes nothing, so a read is a function of the stores that its
statements see. Statements that the handler awaits one after the other see stores in that order.
Those that it starts together may run in any order.
-/

namespace Junjo

inductive ReadStatement where
  /-- The row that a page's cursor names. -/
  | cursor
  /-- A person's ban. -/
  | ban
  /-- The rows of a page, or a person's sanctions. -/
  | rows
  /-- The versions that are attached to the rows. -/
  | versions
  /-- The person's version. -/
  | version
deriving DecidableEq

inductive ReadError where
  | badRequest (message : Text)
  | notFound (resource : Text)
deriving DecidableEq

/-- What a read answers: rows with the version shown on each, the version of the `ETag`, and the
cursor of the next page. -/
structure ReadResponse where
  bans : List (GameBan × ℕ) := []
  sanctions : List (Sanction × ℕ) := []
  etag : Option ℕ := none
  nextCursor : Option Text := none
deriving DecidableEq

/-! ### Pages -/

section Page

variable {α : Type} (start : α → ℤ) (id : α → Text)

/-- Newest first, later ids first among equally new rows. -/
def newestFirst (l : List α) : List α :=
  l.mergeSort fun a b => start b < start a || (start a = start b && id b ≤ id a)

/-- Whether a row comes after the cursor's row. -/
def pastCursor (cursorRow : Option α) (a : α) : Bool :=
  match cursorRow with
  | none => true
  | some c => start a < start c || (start a = start c && id a < id c)

/-- A page, and the id that the next one starts after. -/
def pageOf (limit : ℕ) (rows : List α) : List α × Option Text :=
  if limit < rows.length then (rows.take limit, (rows.take limit).getLast?.map id) else (rows, none)

end Page

/-- The row that a cursor names; `none` when there is no such row. -/
def cursorRow {α : Type} (id : α → Text) (gameId : α → Text) (game : Text) (cursor : Option Text)
    (rows : List α) : Option (Option α) :=
  match cursor with
  | none => some none
  | some c => (rows.find? fun a => id a = c && gameId a = game).map some

structure ListBansQuery where
  gameId : Text
  limit : ℕ
  cursor : Option Text
  includeExpired : Bool
  now : ℤ

structure ListSanctionsQuery where
  gameId : Text
  type : Option Text
  limit : ℕ
  cursor : Option Text
  now : ℤ

inductive ReadRequest where
  | listBans (q : ListBansQuery)
  | getBan (person : Person) (now : ℤ)
  | listSanctions (q : ListSanctionsQuery)
  | listUserSanctions (person : Person) (now : ℤ)
  /-- The sanctions and the ban are each compared with the clock of their own moment. -/
  | getUserModeration (person : Person) (now banNow : ℤ)

namespace ReadRequest

/-- The stores that the statements see. -/
abbrev Views := ReadStatement → ModerationDb

/-- Each row with its person's version. -/
def attachVersions {α : Type} (person : α → Person) (db : ModerationDb) (rows : List α) :
    List (α × ℕ) :=
  rows.map fun a => (a, db.version (person a))

/-- `GET /v1/bans` -/
def runListBans (q : ListBansQuery) (views : Views) : Except ReadError ReadResponse :=
  match cursorRow GameBan.id (fun b => b.person.gameId) q.gameId q.cursor (views .cursor).bans with
  | none => .error (.badRequest (text "invalid cursor"))
  | some cursor =>
    let rows := newestFirst GameBan.bannedAt GameBan.id <| (views .rows).bans.filter fun b =>
      b.person.gameId = q.gameId && (q.includeExpired || isActiveUntil b.expiresAt q.now) &&
        pastCursor GameBan.bannedAt GameBan.id cursor b
    let page := pageOf GameBan.id q.limit (rows.take (q.limit + 1))
    .ok { bans := attachVersions GameBan.person (views .versions) page.1, nextCursor := page.2 }

/-- `GET /v1/bans/:userId` -/
def runGetBan (person : Person) (now : ℤ) (views : Views) : Except ReadError ReadResponse :=
  match (views .ban).findBan person with
  | none => .error (.notFound (text "ban"))
  | some ban =>
    if isActiveUntil ban.expiresAt now then
      let version := (views .version).version person
      .ok { bans := [(ban, version)], etag := some version }
    else .error (.notFound (text "ban"))

/-- `GET /v1/sanctions` -/
def runListSanctions (q : ListSanctionsQuery) (views : Views) : Except ReadError ReadResponse :=
  match cursorRow Sanction.id (fun s => s.person.gameId) q.gameId q.cursor
      (views .cursor).sanctions with
  | none => .error (.badRequest (text "invalid cursor"))
  | some cursor =>
    let rows := newestFirst Sanction.startedAt Sanction.id <|
      (views .rows).sanctions.filter fun s =>
        s.person.gameId = q.gameId && isActiveUntil s.expiresAt q.now &&
          (q.type = none || q.type = some s.type) &&
          pastCursor Sanction.startedAt Sanction.id cursor s
    let page := pageOf Sanction.id q.limit (rows.take (q.limit + 1))
    .ok { sanctions := attachVersions Sanction.person (views .versions) page.1
          nextCursor := page.2 }

/-- A person's active sanctions, newest first. -/
def loadActiveSanctions (person : Person) (now : ℤ) (views : Views) : List (Sanction × ℕ) :=
  attachVersions Sanction.person (views .versions) <|
    newestFirst Sanction.startedAt Sanction.id <|
      (views .rows).sanctions.filter fun s => s.person = person && isActiveUntil s.expiresAt now

/-- `GET /v1/users/:userId/sanctions` -/
def runListUserSanctions (person : Person) (now : ℤ) (views : Views) : ReadResponse :=
  { sanctions := loadActiveSanctions person now views
    etag := some ((views .version).version person) }

/-- `GET /v1/users/:userId/moderation` -/
def runGetUserModeration (person : Person) (now banNow : ℤ) (views : Views) : ReadResponse :=
  let version := (views .version).version person
  let ban := ((views .ban).findBan person).filter fun b => isActiveUntil b.expiresAt banNow
  { bans := ban.toList.map fun b => (b, version)
    sanctions := loadActiveSanctions person now views
    etag := some version }

def run (r : ReadRequest) (views : Views) : Except ReadError ReadResponse :=
  match r with
  | .listBans q => runListBans q views
  | .getBan person now => runGetBan person now views
  | .listSanctions q => runListSanctions q views
  | .listUserSanctions person now => .ok (runListUserSanctions person now views)
  | .getUserModeration person now banNow => .ok (runGetUserModeration person now banNow views)

/-- The order of the statements that are awaited one after the other, by their places in a run. -/
def InOrder (r : ReadRequest) (place : ReadStatement → ℕ) : Prop :=
  match r with
  | .listBans _ => place .cursor ≤ place .rows ∧ place .rows ≤ place .versions
  | .getBan _ _ => place .ban ≤ place .version
  | .listSanctions _ => place .cursor ≤ place .rows ∧ place .rows ≤ place .versions
  | .listUserSanctions _ _ => place .rows ≤ place .versions
  | .getUserModeration _ _ _ => place .rows ≤ place .versions

/-- The statements whose rows are shown. -/
def shows : ReadRequest → List ReadStatement
  | .listBans _ => [.rows]
  | .getBan _ _ => [.ban]
  | .listSanctions _ => [.rows]
  | .listUserSanctions _ _ => [.rows]
  | .getUserModeration _ _ _ => [.ban, .rows]

/-- The versions in a response: for whom, and the statement that read it. -/
def reports (r : ReadRequest) (response : ReadResponse) : List (ReadStatement × Person × ℕ) :=
  match r with
  | .listBans _ => response.bans.map fun b => (.versions, b.1.person, b.2)
  | .getBan person _ => response.etag.toList.map fun v => (.version, person, v)
  | .listSanctions _ => response.sanctions.map fun s => (.versions, s.1.person, s.2)
  | .listUserSanctions person _ =>
    (response.etag.toList.map fun v => (.version, person, v)) ++
      response.sanctions.map fun s => (.versions, s.1.person, s.2)
  | .getUserModeration person _ _ =>
    (response.etag.toList.map fun v => (.version, person, v)) ++
      (response.bans.map fun b => (.version, b.1.person, b.2)) ++
      response.sanctions.map fun s => (.versions, s.1.person, s.2)

end ReadRequest

end Junjo
