import Junjo.Core.Encode
import Junjo.Moderation.Store

/-!
# Moderation writes

The transactions that set and lift game bans and sanctions. Each locks the person's version row, so
the writes of one person come one after the other, and checks `If-Match` against the locked version.
A lift first looks for what it lifts outside its transaction.
-/

namespace Junjo

inductive ModerationError where
  | badRequest (message : Text)
  | banNotActive
  | sanctionNotActive
  | preconditionFailed (message : Text)
deriving DecidableEq

abbrev ModerationTx := Tx ModerationDb ModerationLock ModerationError

/-- What a write leaves, with the person and the precondition it was made for. -/
structure ModerationResult where
  person : Person
  ifMatch : Option ℕ
  version : ℕ
  event : Option ModerationEvent
  created : Bool
  ban : Option GameBan := none
  sanction : Option Sanction := none
deriving DecidableEq

/-- How far in the future a start may be stated, in milliseconds. -/
def startMaxSkew : ℤ := 60000

structure BanRequest where
  person : Person
  userId : Text
  reason : Option Text
  expiresAt : Option ℤ
  actor : Option Text
  issuer : Option Text
  bannedAt : Option ℤ
  ifMatch : Option ℕ
  now : ℤ
  /-- The id that the database issues for a new row. -/
  fresh : Text

structure UnbanRequest where
  person : Person
  userId : Text
  actor : Option Text
  ifMatch : Option ℕ

structure SanctionRequest where
  person : Person
  userId : Text
  type : Text
  reason : Option Text
  expiresAt : Option ℤ
  actor : Option Text
  issuer : Option Text
  startedAt : Option ℤ
  ifMatch : Option ℕ
  now : ℤ
  fresh : Text

structure UnsanctionRequest where
  person : Person
  userId : Text
  type : Text
  actor : Option Text
  ifMatch : Option ℕ
  /-- The clock at the first read. -/
  before : ℤ
  /-- The clock in the transaction. -/
  now : ℤ

namespace ModerationWrites

def etagFor (version : ℕ) : Text := text "\"" ++ decimal version ++ text "\""

def assertVersion (expected : Option ℕ) (current : ℕ) : ModerationTx Unit :=
  match expected with
  | none => pure ()
  | some v =>
    if v = current then pure ()
    else throw (.preconditionFailed (text "If-Match " ++ etagFor v ++
      text " does not match the current version " ++ etagFor current))

/-- Lock the person's version row, made at version zero when there is none. -/
def lockModerationVersion (person : Person) (expected : Option ℕ) : ModerationTx ℕ := do
  -- the insert only holds the row when it makes it
  write (fun db => if db.versions.has person then [] else [.state person]) (fun _ => ())
    fun db => some (db.insertState person)
  let current ← lockQuery (fun _ => [.state person]) fun db => db.version person
  assertVersion expected current
  pure current

def bumpModerationVersion (person : Person) : ModerationTx ℕ :=
  write (fun _ => [.state person]) (fun db => db.version person + 1)
    fun db => some (db.bumpVersion person)

/-- The last statement of a transaction that staged events of a game. -/
def writeEventLog (gameId : Text) (events : List ModerationEvent) : ModerationTx Unit :=
  write (fun _ => [.counter gameId]) (fun _ => ())
    fun db => some { db with eventLog := db.eventLog.write gameId events }

/-- The end of every effective write: the version, the history and the event. -/
def finish (result : ModerationResult) (userId : Text) (type : ModerationEventType)
    (entry : ModerationHistory) : ModerationTx ModerationResult := do
  let version ← bumpModerationVersion result.person
  write (fun _ => []) (fun _ => ()) fun db => some { db with history := db.history ++ [entry] }
  let event : ModerationEvent := ⟨type, result.person, userId, version⟩
  writeEventLog result.person.gameId [event]
  pure { result with version := version, event := some event }

/-- `POST /v1/bans` -/
def postBan (r : BanRequest) : ModerationTx ModerationResult := do
  if r.bannedAt.any fun t => r.now + startMaxSkew < t then
    throw (.badRequest (text "bannedAt must not be in the future"))
  else do
  let current ← lockModerationVersion r.person r.ifMatch
  let existing ← query fun db => db.findBan r.person
  let ban ← match existing with
    | some existing =>
      let bannedAt (b : GameBan) : ℤ := match r.bannedAt with
        | some t => t
        | none => if isActiveUntil existing.expiresAt r.now then b.bannedAt else r.now
      let data (b : GameBan) : GameBan :=
        { b with
          expiresAt := r.expiresAt
          reason := r.reason
          bannedByUserId := r.actor
          issuer := r.issuer
          bannedAt := bannedAt b }
      write (fun _ => []) (fun db => (db.bans.find? fun b => b.id = existing.id).map data) fun db =>
        db.updateBan existing.id data fun _ => ⟨rfl, rfl⟩
    | none =>
      let ban : GameBan :=
        ⟨r.fresh, r.person, r.bannedAt.getD r.now, r.expiresAt, r.reason, r.actor, r.issuer⟩
      write (fun _ => []) (fun _ => some ban) fun db => db.insertBan ban
  finish ⟨r.person, r.ifMatch, current, none, true, ban, none⟩ r.userId
    (.banned r.reason r.expiresAt)
    ⟨r.person, none, false, r.reason, r.expiresAt, r.actor, r.issuer, r.bannedAt⟩

/-- `DELETE /v1/bans/:userId` -/
def deleteBan (r : UnbanRequest) : ModerationTx ModerationResult := do
  let existing ← query fun db => db.findBan r.person
  match existing with
  | none => throw .banNotActive
  | some existing => do
    let current ← lockModerationVersion r.person none
    let deleted ← write (fun _ => []) (fun db => db.bans.countP fun b => b.id = existing.id)
      fun db => some (db.deleteBan existing.id)
    if deleted = 0 then throw .banNotActive
    else do
    assertVersion r.ifMatch current
    finish ⟨r.person, r.ifMatch, current, none, false, none, none⟩ r.userId .unbanned
      ⟨r.person, none, true, none, none, r.actor, none, none⟩

/-- `POST /v1/sanctions` -/
def postSanction (r : SanctionRequest) : ModerationTx ModerationResult := do
  if r.startedAt.any fun t => r.now + startMaxSkew < t then
    throw (.badRequest (text "startedAt must not be in the future"))
  else do
  let current ← lockModerationVersion r.person r.ifMatch
  let existing ← query fun db => db.findSanction r.person r.type
  let wasActive := existing.any fun s => isActiveUntil s.expiresAt r.now
  -- an active sanction that the request would store as it is
  let same := existing.any fun s => s.reason = r.reason && s.expiresAt = r.expiresAt &&
    s.issuer = r.issuer && s.issuedByUserId = r.actor &&
    (r.startedAt = none || r.startedAt = some s.startedAt)
  if wasActive && same then
    pure ⟨r.person, r.ifMatch, current, none, false, none, existing⟩
  else do
  let sanction ← match existing with
    | some existing =>
      let startedAt (s : Sanction) : ℤ := match r.startedAt with
        | some t => t
        | none => if wasActive then s.startedAt else r.now
      let data (s : Sanction) : Sanction :=
        { s with
          reason := r.reason
          expiresAt := r.expiresAt
          issuer := r.issuer
          issuedByUserId := r.actor
          startedAt := startedAt s }
      write (fun _ => []) (fun db => (db.sanctions.find? fun s => s.id = existing.id).map data)
        fun db => db.updateSanction existing.id data fun _ => ⟨rfl, rfl, rfl⟩
    | none =>
      let sanction : Sanction := ⟨r.fresh, r.person, r.type, r.reason, r.expiresAt, r.issuer,
        r.actor, r.startedAt.getD r.now⟩
      write (fun _ => []) (fun _ => some sanction) fun db => db.insertSanction sanction
  let eventAt := if wasActive then some (r.startedAt.getD r.now) else sanction.map Sanction.startedAt
  finish ⟨r.person, r.ifMatch, current, none, !wasActive, none, sanction⟩ r.userId
    (.sanctioned r.type r.reason r.expiresAt)
    ⟨r.person, some r.type, false, r.reason, r.expiresAt, r.actor, r.issuer, eventAt⟩

/-- `DELETE /v1/sanctions/:userId/:type` -/
def deleteSanction (r : UnsanctionRequest) : ModerationTx ModerationResult := do
  let existing ← query fun db => db.findSanction r.person r.type
  match existing.filter fun s => isActiveUntil s.expiresAt r.before with
  | none => throw .sanctionNotActive
  | some existing => do
    let current ← lockModerationVersion r.person none
    let deleted ← write (fun _ => [])
      (fun db => db.sanctions.countP fun s => s.id = existing.id && isActiveUntil s.expiresAt r.now)
      fun db => some (db.deleteActiveSanction existing.id r.now)
    if deleted = 0 then throw .sanctionNotActive
    else do
    assertVersion r.ifMatch current
    finish ⟨r.person, r.ifMatch, current, none, false, none, none⟩ r.userId (.unsanctioned r.type)
      ⟨r.person, some r.type, true, none, none, r.actor, none, some r.now⟩

end ModerationWrites

inductive ModerationRequest where
  | postBan (r : BanRequest)
  | deleteBan (r : UnbanRequest)
  | postSanction (r : SanctionRequest)
  | deleteSanction (r : UnsanctionRequest)

def ModerationRequest.program : ModerationRequest → ModerationTx ModerationResult
  | .postBan r => ModerationWrites.postBan r
  | .deleteBan r => ModerationWrites.deleteBan r
  | .postSanction r => ModerationWrites.postSanction r
  | .deleteSanction r => ModerationWrites.deleteSanction r

abbrev ModerationServer := Database ModerationDb ModerationLock ModerationError ModerationResult

/-- Run some events of moderation writes. -/
def ModerationServer.run (start : ModerationDb) (events : List (TxEvent ModerationRequest)) :
    Option ModerationServer :=
  runSteps (Database.next ModerationLock.conflicts ModerationRequest.program) { committed := start }
    events

end Junjo
