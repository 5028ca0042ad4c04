import Junjo.Identities.Store

/-!
# The writes of ids

The transactions that store an external id, move one between people or change what a game declares
about them, with what their handlers read before: first-time creation, member import, the config
write, and the requests to issue and redeem a link code and to unlink an id. The tables that these
only read may change at any time (`OtherWrite`).
-/

namespace Junjo.Identities

inductive IdentityError where
  | notFound (resource : Text)
  | badRequest (message : Text)
  | invalidUserId (message : Text)
  | identityFormatConflict (message : Text)
  | banned (message : Text)
  | linkRefused (message : Text) (kinds : List Text)
  | linkCodeInvalid
  /-- Some row of an import fails. -/
  | importInvalid
  /-- The id is not known yet: `findOrCreateJunjoUser` stores it, and the request goes on. -/
  | unknownUser
deriving DecidableEq

/-- What a transaction that commits did. -/
inductive IdentityResult where
  | configured (gameId : Text)
  | person (junjoUserId : Text)
  | imported (gameId : Text)
  | issued (linkCodeId code externalIdentityId : Text)
  | redeemed (linkCodeId code gameId userId : Text)
  | unlinked (externalIdentityId : Text)
  | other
deriving DecidableEq

abbrev IdentityTx := Tx IdentityDb IdentityLock IdentityError

/-- A statement that changes the rows. -/
def update (locks : List IdentityLock) (f : IdentityRows → Option IdentityRows) : IdentityTx Unit :=
  write (fun _ => locks) (fun _ => ()) (IdentityDb.change f)

/-! ### Declared formats -/

def UserIdFormat.name : UserIdFormat → Text
  | .uuid => text "uuid"

/-- The message for an id that breaks its namespace's format. -/
def invalidUserIdMessage (declared : DeclaredFormats) (userId : Text) : Text :=
  let ns := (userIdNamespace userId).getD []
  text "user id in namespace \"" ++ ns ++ text "\" must be a " ++
    ((declared.formats.get? ns).map UserIdFormat.name).getD [] ++ text " (lowercase, hyphenated)"

def assertUserIdWellFormed (declared : DeclaredFormats) (userId : Text) : IdentityTx Unit :=
  if isUserIdWellFormed declared userId then pure ()
  else throw (.invalidUserId (invalidUserIdMessage declared userId))

/-- What follows the check of an id. -/
lemma keeps_assert {d : Discipline IdentityDb IdentityLock IdentityResult}
    {declared : DeclaredFormats} {userId : Text} {k : Unit → IdentityTx IdentityResult}
    {held : List IdentityLock} {change : IdentityDb → Option IdentityDb} {seen : List IdentityDb}
    {c : IdentityDb} (h : isUserIdWellFormed declared userId = true →
      Keeps IdentityLock.conflicts d (k ()) held change seen c) :
    Keeps IdentityLock.conflicts d (assertUserIdWellFormed declared userId >>= k) held change seen
      c := by
  rw [assertUserIdWellFormed]
  split_ifs with hwell
  · exact h hwell
  · trivial

/-- The game's formats, by the request's memo when it has them. -/
def idFormatsFor (memo : Option DeclaredFormats) (gameId : Text) : IdentityTx DeclaredFormats :=
  query fun db => memo.getD (db.formatsOf gameId)

/-- The person of an id, if it is known. -/
def findJunjoUserId (memo : Option DeclaredFormats) (gameId userId : Text) :
    IdentityTx (Option Text) := do
  let declared ← idFormatsFor memo gameId
  assertUserIdWellFormed declared userId
  query fun db => db.personOf gameId userId

/-- What a program that only reads answers on a store that does not change. -/
def answerOn {ρ : Type} (db : IdentityDb) (p : IdentityTx ρ) : Except IdentityError ρ :=
  (Prog.runAlone (fun db s => (s.reply db, db)) db p).1

/-- A share lock on the game's row, which keeps its formats. -/
def lockFormats (gameId : Text) : IdentityTx DeclaredFormats :=
  lockQuery (fun _ => [.game gameId .share]) fun db => db.formatsOf gameId

section Formats

variable (collation : Text → Text → Bool)

/-- The limit of `findFormatConflicts`. -/
def conflictLimit : ℕ := 5

def findFormatConflicts (gameId : Text) (previous : DeclaredFormats) :
    List (Text × UserIdFormat) → List Text → IdentityTx (List Text)
  | [], conflicts => pure conflicts
  | (ns, format) :: entries, conflicts =>
    if previous.formats.get? ns = some format then findFormatConflicts gameId previous entries conflicts
    else do
      let rows ← query fun db =>
        ((db.formatConflicts gameId ns format).mergeSort collation).take
          (conflictLimit - conflicts.length)
      let conflicts := conflicts ++ rows
      if conflictLimit ≤ conflicts.length then pure conflicts
      else findFormatConflicts gameId previous entries conflicts

/-- The config write, as far as it is about formats: `formats`, when given, replaces the map. -/
def updateGameConfig (gameId : Text) (formats : Option DeclaredFormats) :
    IdentityTx IdentityResult := do
  let existing ← lockQuery (fun _ => [.game gameId .update]) fun db => db.formats.get? gameId
  match existing with
  | none => throw (.notFound (text "game"))
  | some before => do
    let after := formats.getD before
    let conflicts ← findFormatConflicts collation gameId before after.formats.entries []
    if conflicts ≠ [] then
      throw (.identityFormatConflict (text "stored user ids do not match the declared format: " ++
        (text ", ").intercalate conflicts))
    else do
      update [] fun r => some (r.storeFormats gameId after)
      pure (.configured gameId)

end Formats

/-! ### New ids -/

/-- A namespaced id is checked again under the lock. -/
def recheckFormat (gameId userId : Text) : IdentityTx Unit :=
  if (userIdNamespace userId).isSome then do
    let declared ← lockFormats gameId
    assertUserIdWellFormed declared userId
  else pure ()

/-- The keys of the rows that a new id takes. -/
structure NewPerson where
  junjoUserId : Text
  externalIdentityId : Text
deriving DecidableEq

def findOrCreateJunjoUser (memo : Option DeclaredFormats) (gameId userId : Text) (new : NewPerson)
    (now : ℤ) : IdentityTx IdentityResult := do
  let declared ← idFormatsFor memo gameId
  assertUserIdWellFormed declared userId
  let existing ← query fun db => db.personOf gameId userId
  match existing with
  | some junjoUserId => pure (.person junjoUserId)
  | none => do
    recheckFormat gameId userId
    update [] fun r => r.insertPerson new.junjoUserId
    update [.game gameId .share] fun r =>
      r.insertIdentity new.externalIdentityId ⟨gameId, new.junjoUserId, userId, now⟩
    pure (.person new.junjoUserId)

/-- A row of an import, with the keys it takes when its id is new. -/
structure ImportRow where
  userId : Text
  new : NewPerson
deriving DecidableEq

/-- `createPeople`. -/
def createPeople (gameId : Text) (now : ℤ) (unknown : List ImportRow) : IdentityTx Unit := do
  update [] fun r => unknown.foldlM (fun r row => r.insertPerson row.new.junjoUserId) r
  update [.game gameId .share] fun r => unknown.foldlM (fun r row =>
    r.insertIdentity row.new.externalIdentityId ⟨gameId, row.new.junjoUserId, row.userId, now⟩) r

/-- A member import, as far as it is about ids: `fails` is whether a row fails another check. -/
def runImport (gameId : Text) (rows : List ImportRow) (fails : IdentityDb → Bool) (now : ℤ) :
    IdentityTx IdentityResult := do
  let declared ← lockFormats gameId
  if rows.any fun row => !isUserIdWellFormed declared row.userId then throw .importInvalid
  else if ¬ (rows.map ImportRow.userId).Nodup then throw .importInvalid
  else do
    let unknown ← query fun db => rows.filter fun row => (db.personOf gameId row.userId).isNone
    let failed ← query fails
    if failed then throw .importInvalid
    else do
      createPeople gameId now unknown
      pure (.imported gameId)

/-! ### Link codes -/

/-- How long a code lives. -/
def linkCodeTtlMs : ℤ := 5 * 60 * 1000

/-- Find and lock the codes that meet a condition, and delete them. -/
def deleteLinkCodesWhere (p : LinkCode → Bool) : IdentityTx Unit := do
  let ids ← lockQuery (fun db => (db.linkCodesWhere p).map .linkCode) fun db => db.linkCodesWhere p
  update [] fun r => some (r.deleteLinkCodes ids)

section Codes

variable (hashLinkCode : Text → Text)

def issue (memo : Option DeclaredFormats) (gameId userId code linkCodeId : Text) (now : ℤ) :
    IdentityTx IdentityResult := do
  let declared ← idFormatsFor memo gameId
  assertUserIdWellFormed declared userId
  let resolved ← query fun db => db.personOf gameId userId
  match resolved with
  | none => throw .unknownUser
  | some junjoUserId => do
    let identity ← query fun db => db.findIdentity gameId userId
    match identity with
    | none => throw (.notFound (text "user"))
    | some identity =>
      if identity.2.junjoUserId ≠ junjoUserId then throw (.notFound (text "user"))
      else do
        let banned ← query fun db => db.isBannedInGame gameId junjoUserId now
        if banned then throw (.banned (text "a banned id cannot request a link code"))
        else do
          deleteLinkCodesWhere fun c =>
            c.externalIdentityId = identity.1 || (c.gameId = gameId && c.expiresAt < now)
          update [.game gameId .share] fun r => r.insertLinkCode linkCodeId
            ⟨gameId, hashLinkCode code, identity.1, now + linkCodeTtlMs, none⟩
          pure (.issued linkCodeId code identity.1)

/-- Lock people, in the order of their keys. -/
def lockPeople : List Text → IdentityTx Unit
  | [] => pure ()
  | id :: ids => do
    lockQuery (fun _ => [.person id]) fun _ => ()
    lockPeople ids

/-- The plan of a link by the two footprints and the kinds that the merge would exceed. -/
def decideLink (issuerId redeemerId : Text) (overflow : List Text)
    (issuer redeemer : PeopleDb.Footprint) : IdentityTx PeopleDb.LinkPlan :=
  if issuer.banned || redeemer.banned then
    throw (.banned (text "ids cannot be linked while either person is banned"))
  else if issuer.holdsSomething && redeemer.holdsSomething then
    throw (.linkRefused (text
      "both ids belong to people with roles, relationships or history; staff must merge them") [])
  else if overflow ≠ [] then
    throw (.linkRefused (text "linking would put this person in more groups of kind " ++
      (text ", ").intercalate overflow ++ text " than allowed") overflow)
  else if redeemer.holdsSomething then pure ⟨redeemerId, issuerId, .redeemer⟩
  else pure ⟨issuerId, redeemerId, .issuer⟩

def planLink (gameId issuerId redeemerId : Text) (now : ℤ) : IdentityTx PeopleDb.LinkPlan := do
  let overflow ← query fun db => db.mergedPerUserOverflow gameId [issuerId, redeemerId]
  lockPeople ([issuerId, redeemerId].insertionSort (· ≤ ·))
  let footprints ← query fun db =>
    (db.loadFootprint gameId issuerId now, db.loadFootprint gameId redeemerId now)
  decideLink issuerId redeemerId overflow footprints.1 footprints.2

/-- Marks a code as used; whether it was there and unused. -/
def consume (linkCodeId : Text) (now : ℤ) : IdentityTx Bool :=
  write (fun db => if (db.linkCodes.get? linkCodeId).any fun c => c.usedAt.isNone then
      [.linkCode linkCodeId] else [])
    (fun db => (db.linkCodes.get? linkCodeId).any fun c => c.usedAt.isNone)
    (IdentityDb.change fun r => some (r.useLinkCode linkCodeId now))

/-- Whether a code can be redeemed. -/
def isLive (now : ℤ) (c : LinkCode) : Bool := c.usedAt.isNone && now < c.expiresAt

def redeem (memo : Option DeclaredFormats) (gameId userId code : Text) (now : ℤ) :
    IdentityTx IdentityResult := do
  let declared ← idFormatsFor memo gameId
  assertUserIdWellFormed declared userId
  let live ← query fun db => db.findLinkCode gameId (hashLinkCode code)
  if !(live.any fun c => isLive now c.2) then throw .linkCodeInvalid
  else do
    let resolved ← query fun db => db.personOf gameId userId
    match resolved with
    | none => throw .unknownUser
    | some redeemerId => do
      let found ← query fun db => db.findLinkCode gameId (hashLinkCode code)
      match found with
      | none => throw .linkCodeInvalid
      | some c =>
        if !isLive now c.2 then throw .linkCodeInvalid
        else do
          let issuer ← query fun db => db.externalIdentities.get? c.2.externalIdentityId
          match issuer with
          | none => throw .linkCodeInvalid
          | some issuer =>
            if issuer.externalUserId = userId then throw (.badRequest
              (text "a link code cannot be redeemed by the id that requested it"))
            else do
              let consumed ← consume c.1 now
              if !consumed then throw .linkCodeInvalid
              else if issuer.junjoUserId = redeemerId then
                pure (.redeemed c.1 code gameId userId)
              else do
                let plan ← planLink gameId issuer.junjoUserId redeemerId now
                update [] fun r => r.mergeRows plan.survivorId plan.attachedId now
                pure (.redeemed c.1 code gameId userId)

end Codes

/-! ### Unlinking -/

/-- `splitIdentity`. -/
def splitIdentity (externalIdentityId newPersonId : Text) (now : ℤ) : IdentityTx Unit := do
  update [] fun r => r.insertPerson newPersonId
  update [] fun r => some (r.updateIdentity externalIdentityId newPersonId now)
  deleteLinkCodesWhere fun c => c.externalIdentityId = externalIdentityId

def unlink (memo : Option DeclaredFormats) (gameId userId newPersonId : Text) (now : ℤ) :
    IdentityTx IdentityResult := do
  let resolved ← findJunjoUserId memo gameId userId
  match resolved with
  | none => throw (.notFound (text "user"))
  | some junjoUserId => do
    lockQuery (fun _ => [.person junjoUserId]) fun _ => ()
    let ids ← query fun db => db.externalIdentities.entries.filter fun e =>
      e.2.gameId = gameId && e.2.junjoUserId = junjoUserId
    match ids.find? fun e => e.2.externalUserId = userId with
    | none => throw (.notFound (text "user"))
    | some leaving =>
      if ids.length = 1 then
        throw (.badRequest (text "cannot unlink a person's only id in this game"))
      else do
        let footprint ← query fun db => db.loadFootprint gameId junjoUserId now
        if footprint.banned then
          throw (.banned (text "ids cannot be unlinked while the person is banned"))
        else do
          splitIdentity leaving.1 newPersonId now
          pure (.unlinked leaving.1)

/-! ### All of them -/

/-- A write to the tables that the others only read. -/
structure OtherWrite where
  apply : PeopleDb → PeopleDb
  people : ∀ db, (apply db).people = db.people
  externalIdentities : ∀ db, (apply db).externalIdentities = db.externalIdentities

inductive IdentityRequest where
  | updateGameConfig (gameId : Text) (formats : Option DeclaredFormats)
  | findOrCreateJunjoUser (memo : Option DeclaredFormats) (gameId userId : Text) (new : NewPerson)
      (now : ℤ)
  | runImport (gameId : Text) (rows : List ImportRow) (fails : IdentityDb → Bool) (now : ℤ)
  | issue (memo : Option DeclaredFormats) (gameId userId code linkCodeId : Text) (now : ℤ)
  | redeem (memo : Option DeclaredFormats) (gameId userId code : Text) (now : ℤ)
  | unlink (memo : Option DeclaredFormats) (gameId userId newPersonId : Text) (now : ℤ)
  | other (w : OtherWrite)

variable (hashLinkCode : Text → Text) (collation : Text → Text → Bool)

def program : IdentityRequest → IdentityTx IdentityResult
  | .updateGameConfig gameId formats => updateGameConfig collation gameId formats
  | .findOrCreateJunjoUser memo gameId userId new now =>
    findOrCreateJunjoUser memo gameId userId new now
  | .runImport gameId rows fails now => runImport gameId rows fails now
  | .issue memo gameId userId code linkCodeId now =>
    issue hashLinkCode memo gameId userId code linkCodeId now
  | .redeem memo gameId userId code now => redeem hashLinkCode memo gameId userId code now
  | .unlink memo gameId userId newPersonId now => unlink memo gameId userId newPersonId now
  | .other w => do
    update [] fun r => some { r with toPeopleDb := w.apply r.toPeopleDb }
    pure .other

abbrev IdentityServer := Database IdentityDb IdentityLock IdentityError IdentityResult

/-- One event of the server. -/
def IdentityServer.next : IdentityServer → TxEvent IdentityRequest → Option IdentityServer :=
  Database.next IdentityLock.conflicts (program hashLinkCode collation)

/-- The server after some events. -/
def IdentityServer.run (start : IdentityDb) (events : List (TxEvent IdentityRequest)) :
    Option IdentityServer :=
  runSteps (IdentityServer.next hashLinkCode collation) { committed := start } events

/-- The commits of a run. -/
def IdentityServer.commits (start : IdentityDb) (events : List (TxEvent IdentityRequest)) :
    List (Commit IdentityDb IdentityResult) :=
  Database.commits IdentityLock.conflicts (program hashLinkCode collation) { committed := start }
    events

end Junjo.Identities
