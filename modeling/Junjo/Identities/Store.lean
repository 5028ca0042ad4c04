import Junjo.Core.Transactions
import Junjo.Identities.Formats
import Junjo.Identities.People

/-!
# The tables of ids

External ids with the people who hold them, the formats that each game declares, and link codes,
under the constraints of the database. A change is refused when it breaks one of them.
-/

namespace Junjo.Identities

structure LinkCode where
  gameId : Text
  codeHash : Text
  externalIdentityId : Text
  expiresAt : ℤ
  usedAt : Option ℤ
deriving DecidableEq

/-- The rows of the tables. Every id that the generator gave out is kept in `issued`. -/
structure IdentityRows extends PeopleDb where
  /-- The declared formats of each game. -/
  formats : Dict Text DeclaredFormats
  linkCodes : Dict Text LinkCode
  issued : Finset Text

/-- Unique keys, foreign keys, and that ids come from the generator. -/
structure IdentityRows.Constraints (r : IdentityRows) : Prop where
  uniqueId : (r.externalIdentities.entries.map fun e => (e.2.gameId, e.2.externalUserId)).Nodup
  ownedId : ∀ e ∈ r.externalIdentities.entries, e.2.junjoUserId ∈ r.people
  uniqueCode : (r.linkCodes.entries.map fun e => (e.2.gameId, e.2.codeHash)).Nodup
  ownedCode : ∀ e ∈ r.linkCodes.entries, e.2.externalIdentityId ∈ r.externalIdentities.keys
  issuedPeople : r.people ⊆ r.issued
  issuedIds : ∀ id ∈ r.externalIdentities.keys, id ∈ r.issued
  issuedCodes : ∀ id ∈ r.linkCodes.keys, id ∈ r.issued

instance decidableConstraints (r : IdentityRows) : Decidable r.Constraints :=
  decidable_of_iff
    ((r.externalIdentities.entries.map fun e => (e.2.gameId, e.2.externalUserId)).Nodup ∧
      (∀ e ∈ r.externalIdentities.entries, e.2.junjoUserId ∈ r.people) ∧
      (r.linkCodes.entries.map fun e => (e.2.gameId, e.2.codeHash)).Nodup ∧
      (∀ e ∈ r.linkCodes.entries, e.2.externalIdentityId ∈ r.externalIdentities.keys) ∧
      r.people ⊆ r.issued ∧ (∀ id ∈ r.externalIdentities.keys, id ∈ r.issued) ∧
      ∀ id ∈ r.linkCodes.keys, id ∈ r.issued)
    ⟨fun ⟨h₁, h₂, h₃, h₄, h₅, h₆, h₇⟩ => ⟨h₁, h₂, h₃, h₄, h₅, h₆, h₇⟩,
      fun ⟨h₁, h₂, h₃, h₄, h₅, h₆, h₇⟩ => ⟨h₁, h₂, h₃, h₄, h₅, h₆, h₇⟩⟩

structure IdentityDb extends IdentityRows where
  constraints : toIdentityRows.Constraints

/-! ### Locks -/

inductive GameRowLock where
  | share
  | update
deriving DecidableEq

inductive IdentityLock where
  /-- A row of `Game`. -/
  | game (gameId : Text) (mode : GameRowLock)
  /-- A row of `JunjoUser`, for update. -/
  | person (junjoUserId : Text)
  /-- A row of `LinkCode`, for update or deletion. -/
  | linkCode (id : Text)
deriving DecidableEq

def IdentityLock.conflicts : IdentityLock → IdentityLock → Bool
  | .game g mode, .game g' mode' => g = g' && !(mode = .share && mode' = .share)
  | .person p, .person p' => p = p'
  | .linkCode k, .linkCode k' => k = k'
  | _, _ => false

lemma IdentityLock.conflicts_symm (k l : IdentityLock) : k.conflicts l = l.conflicts k := by
  cases k <;> cases l <;> simp [conflicts, eq_comm, Bool.or_comm]

namespace IdentityRows

variable (r : IdentityRows)

/-! ### Reads -/

def formatsOf (gameId : Text) : DeclaredFormats := (r.formats.get? gameId).getD .none

/-- The row of an external id, with its key. -/
def findIdentity (gameId externalUserId : Text) : Option (Text × ExternalIdentity) :=
  r.externalIdentities.entries.find? fun e =>
    e.2.gameId = gameId && e.2.externalUserId = externalUserId

/-- The person who holds an external id. -/
def personOf (gameId externalUserId : Text) : Option Text :=
  (r.findIdentity gameId externalUserId).map fun e => e.2.junjoUserId

def findLinkCode (gameId codeHash : Text) : Option (Text × LinkCode) :=
  r.linkCodes.entries.find? fun e => e.2.gameId = gameId && e.2.codeHash = codeHash

/-- The keys of the codes that meet a condition. -/
def linkCodesWhere (p : LinkCode → Bool) : List Text :=
  (r.linkCodes.entries.filter fun e => p e.2).map Prod.fst

/-- An active game ban, or an active ban in any group of the game. -/
def isBannedInGame (gameId junjoUserId : Text) (now : ℤ) : Bool :=
  (r.gameBans.entries.any fun e => e.2.person = ⟨gameId, junjoUserId⟩ &&
      isActiveUntil e.2.expiresAt now) ||
    r.groupMembers.entries.any fun e => e.2.junjoUserId = junjoUserId &&
      r.bannedInGroup gameId now e.2

/-- The stored ids of a game that a scan for the format of a namespace finds. -/
def formatConflicts (gameId ns : Text) (format : UserIdFormat) : List Text :=
  (r.externalIdentities.entries.filter fun e =>
    e.2.gameId = gameId && isConflict ns format e.2.externalUserId).map fun e =>
      e.2.externalUserId

/-! ### Changes -/

def storeFormats (gameId : Text) (declared : DeclaredFormats) : IdentityRows :=
  { r with formats := r.formats.set gameId declared }

/-- `INSERT INTO "JunjoUser"` -/
def insertPerson (id : Text) : Option IdentityRows :=
  if id ∈ r.issued then none
  else some { r with people := insert id r.people, issued := insert id r.issued }

/-- `INSERT INTO "ExternalIdentity"` -/
def insertIdentity (id : Text) (row : ExternalIdentity) : Option IdentityRows :=
  if id ∈ r.issued then none
  else some { r with
    externalIdentities := r.externalIdentities.set id row
    issued := insert id r.issued }

/-- Moves an id to another person. -/
def updateIdentity (id junjoUserId : Text) (now : ℤ) : IdentityRows :=
  { r with
    externalIdentities := r.externalIdentities.updateMany (fun k _ => k = id)
      fun i => { i with junjoUserId := junjoUserId, linkedAt := now } }

def insertLinkCode (id : Text) (row : LinkCode) : Option IdentityRows :=
  if id ∈ r.issued then none
  else some { r with linkCodes := r.linkCodes.set id row, issued := insert id r.issued }

/-- `DELETE FROM "LinkCode"`, for rows that were found and locked. -/
def deleteLinkCodes (ids : List Text) : IdentityRows :=
  { r with linkCodes := r.linkCodes.deleteMany fun k _ => decide (k ∈ ids) }

/-- `UPDATE "LinkCode" SET "usedAt" WHERE id AND "usedAt" IS NULL` -/
def useLinkCode (id : Text) (at' : ℤ) : IdentityRows :=
  { r with
    linkCodes := r.linkCodes.updateMany (fun k c => k = id && c.usedAt.isNone)
      fun c => { c with usedAt := some at' } }

def mergeRows (survivorId attachedId : Text) (now : ℤ) : Option IdentityRows :=
  (r.mergePeople survivorId attachedId now).map fun people => { r with toPeopleDb := people }

end IdentityRows

lemma IdentityRows.findIdentity_eq_some {r : IdentityRows} (h : r.Constraints)
    {gameId externalUserId k : Text} {row : ExternalIdentity} :
    r.findIdentity gameId externalUserId = some (k, row) ↔
      r.externalIdentities.get? k = some row ∧ row.gameId = gameId ∧
        row.externalUserId = externalUserId := by
  refine (Dict.find?_entries_eq_some_iff (q := fun i : ExternalIdentity =>
    i.gameId = gameId && i.externalUserId = externalUserId) ?_).trans ?_
  swap
  · simp only [Bool.and_eq_true, decide_eq_true_eq]
  · intro e he e' he' hq hq'
    simp only [Bool.and_eq_true, decide_eq_true_eq] at hq hq'
    refine List.inj_on_of_nodup_map h.uniqueId he he' ?_
    rw [hq.1, hq.2, hq'.1, hq'.2]

lemma IdentityRows.findLinkCode_eq_some {r : IdentityRows} (h : r.Constraints)
    {gameId codeHash k : Text} {row : LinkCode} :
    r.findLinkCode gameId codeHash = some (k, row) ↔
      r.linkCodes.get? k = some row ∧ row.gameId = gameId ∧ row.codeHash = codeHash := by
  refine (Dict.find?_entries_eq_some_iff (q := fun c : LinkCode =>
    c.gameId = gameId && c.codeHash = codeHash) ?_).trans ?_
  swap
  · simp only [Bool.and_eq_true, decide_eq_true_eq]
  · intro e he e' he' hq hq'
    simp only [Bool.and_eq_true, decide_eq_true_eq] at hq hq'
    refine List.inj_on_of_nodup_map h.uniqueCode he he' ?_
    rw [hq.1, hq.2, hq'.1, hq'.2]

/-- The person of an id, by its row. -/
lemma IdentityRows.personOf_eq_some {r : IdentityRows} (h : r.Constraints)
    {gameId externalUserId person : Text} :
    r.personOf gameId externalUserId = some person ↔ ∃ k row,
      r.externalIdentities.get? k = some row ∧ row.gameId = gameId ∧
        row.externalUserId = externalUserId ∧ row.junjoUserId = person := by
  rw [personOf, Option.map_eq_some_iff]
  constructor
  · rintro ⟨⟨k, row⟩, hfind, rfl⟩
    obtain ⟨hrow, hgame, hid⟩ := (findIdentity_eq_some h).mp hfind
    exact ⟨k, row, hrow, hgame, hid, rfl⟩
  · rintro ⟨k, row, hrow, hgame, hid, rfl⟩
    exact ⟨(k, row), (findIdentity_eq_some h).mpr ⟨hrow, hgame, hid⟩, rfl⟩

/-- A change of the rows, refused when it breaks a constraint. -/
def IdentityDb.change (f : IdentityRows → Option IdentityRows) (db : IdentityDb) :
    Option IdentityDb :=
  (f db.toIdentityRows).bind fun r => if h : r.Constraints then some ⟨r, h⟩ else none

lemma IdentityDb.change_eq_some {f : IdentityRows → Option IdentityRows} {db db' : IdentityDb} :
    db.change f = some db' ↔ f db.toIdentityRows = some db'.toIdentityRows := by
  rw [change, Option.bind_eq_some_iff]
  constructor
  · rintro ⟨r, hr, heq⟩
    split_ifs at heq
    cases heq
    exact hr
  · intro h
    exact ⟨_, h, dif_pos db'.constraints⟩

end Junjo.Identities
