import Junjo.Core.Dict
import Junjo.Core.Keyset
import Junjo.Core.Run
import Junjo.Core.Text

/-!
# Last activity

The job that raises `lastActivityAt` of identities from the audit log: a batch is one statement that
claims the stored cursor, reads the entries after it and those in the window behind it, raises the
identities that they name, and moves the cursor. Times are milliseconds since the Unix epoch.
-/

namespace Junjo.Activity

def lastActivityOverlapMs : ℕ := 2 * 60000

/-! ### The tables -/

structure AuditEntry where
  id : Text
  createdAt : ℕ
  gameId : Text
  targetId : Option Text
  actorUserId : Option Text
deriving DecidableEq

structure Identity where
  gameId : Text
  junjoUserId : Text
  externalUserId : Text
  lastActivityAt : Option ℕ
deriving DecidableEq

/-- A position in the audit log: `(createdAt, id)`. -/
abbrev AuditPosition := ℕ × Text

def AuditEntry.position (e : AuditEntry) : AuditPosition := (e.createdAt, e.id)

/-- Whether an entry targets an identity or names its person as actor, in the identity's game. -/
def AuditEntry.names (e : AuditEntry) (i : Identity) : Bool :=
  e.gameId = i.gameId && (e.targetId = some i.externalUserId || e.actorUserId = some i.junjoUserId)

/-- What is committed: the entries in the order of their commits, the identities by id, and the
cursor. -/
structure ActivityDb where
  entries : List AuditEntry
  identities : Dict Text Identity
  cursor : Option AuditPosition

/-- The order of times. -/
def timeOrder : KeyOrder ℕ where
  le a b := decide (a ≤ b)
  total a b := by simp [Nat.le_total]
  trans a b c hab hbc := decide_eq_true ((of_decide_eq_true hab).trans (of_decide_eq_true hbc))
  antisymm a b hab hba := Nat.le_antisymm (of_decide_eq_true hab) (of_decide_eq_true hba)

/-- The order of positions, by the order that the database has for ids. -/
def positionOrder (ids : KeyOrder Text) : KeyOrder AuditPosition := timeOrder.lex ids

/-! ### One batch -/

/-- The newest time of each key. -/
def newestBy {κ : Type} [DecidableEq κ] (rows : List (κ × ℕ)) : Dict κ ℕ :=
  rows.foldl (fun newest row => newest.set row.1 (max ((newest.get? row.1).getD 0) row.2)) Dict.empty

section Batch

variable (ids : KeyOrder Text)

/-- The next entries after the cursor. -/
def fresh (batchSize : ℕ) (cursor : AuditPosition) (entries : List AuditEntry) : List AuditEntry :=
  (Keyset.sortBy (positionOrder ids) AuditEntry.position
    (entries.filter fun e => (positionOrder ids).lt cursor e.position)).take batchSize

/-- The entries in the window behind the cursor. -/
def reread (cursor : AuditPosition) (entries : List AuditEntry) : List AuditEntry :=
  entries.filter fun e =>
    decide (cursor.1 - lastActivityOverlapMs ≤ e.createdAt) &&
      (positionOrder ids).le e.position cursor

def targets (entries : List AuditEntry) : Dict (Text × Text) ℕ :=
  newestBy (entries.filterMap fun e => e.targetId.map fun targetId =>
    ((e.gameId, targetId), e.createdAt))

def actors (entries : List AuditEntry) : Dict (Text × Text) ℕ :=
  newestBy (entries.filterMap fun e => e.actorUserId.map fun actorUserId =>
    ((e.gameId, actorUserId), e.createdAt))

/-- The newest of some entries that name an identity. -/
def newest (entries : List AuditEntry) (i : Identity) : Option ℕ :=
  match (targets entries).get? (i.gameId, i.externalUserId),
    (actors entries).get? (i.gameId, i.junjoUserId) with
  | some t, some t' => some (max t t')
  | some t, none => some t
  | none, t' => t'

/-- Whether a stored value is before a time. -/
def isBefore (lastActivityAt : Option ℕ) (at_ : ℕ) : Bool := lastActivityAt.all fun t => t < at_

/-- A row after a batch: it is raised when the value that the snapshot shows of it is before the
newest entry, and so is the value that is stored by now. -/
def raiseRow (entries : List AuditEntry) (shown : Option Identity) (i : Identity) : Identity :=
  match shown.bind fun shown =>
    (newest entries shown).filter (isBefore shown.lastActivityAt) with
  | none => i
  | some at_ =>
    if isBefore i.lastActivityAt at_ then
      { i with lastActivityAt := some (max (i.lastActivityAt.getD 0) at_) }
    else i

def raise (entries : List AuditEntry) (snapshot : Dict Text Identity)
    (identities : Dict Text Identity) : Dict Text Identity :=
  identities.mapEntries fun id i => raiseRow entries (snapshot.get? id) i

/-- A batch under way: what its statement sees, and the cursor that it claimed. -/
structure Batch where
  batchSize : ℕ
  snapshot : ActivityDb
  claimed : Option AuditPosition

/-- The entries that a batch applies. -/
def Batch.applies (batch : Batch) (cursor : AuditPosition) : List AuditEntry :=
  fresh ids batch.batchSize cursor batch.snapshot.entries ++
    reread ids cursor batch.snapshot.entries

/-- The cursor that a batch leaves. -/
def Batch.moved (batch : Batch) (cursor : AuditPosition) : AuditPosition :=
  ((fresh ids batch.batchSize cursor batch.snapshot.entries).getLast?.map
    AuditEntry.position).getD cursor

/-- What the commit of a batch that claimed the cursor writes. -/
def Batch.write (batch : Batch) (cursor : AuditPosition) (db : ActivityDb) : ActivityDb :=
  { db with
    identities := raise (batch.applies ids cursor) batch.snapshot.identities db.identities
    cursor := some (batch.moved ids cursor) }

/-! ### The database and its runners -/

/-- A runner: in a batch, or about to store the cursor that its batch did not find. -/
inductive Runner where
  | starting (batchSize : ℕ) (snapshot : ActivityDb)
  | applying (batch : Batch)
  | restarting

/-- The committed tables, the clock that all share, and the runners at work. -/
structure ActivityServer where
  db : ActivityDb
  now : ℕ
  runners : Dict ℕ Runner := Dict.empty

inductive ActivityStep where
  /-- The clock goes on. -/
  | tick (now : ℕ)
  /-- A transaction commits an audit entry. -/
  | commitEntry (e : AuditEntry)
  /-- A runner's statement starts, and sees what is committed. -/
  | start (runner : ℕ) (batchSize : ℕ)
  /-- `FOR UPDATE SKIP LOCKED` of the cursor. -/
  | claim (runner : ℕ)
  | commit (runner : ℕ)
  | rollback (runner : ℕ)
  /-- The insert of a missing cursor, `ON CONFLICT DO NOTHING`. -/
  | restart (runner : ℕ)

namespace ActivityServer

variable (s : ActivityServer)

/-- Whether a runner holds the cursor. -/
def isClaimed : Bool :=
  s.runners.entries.any fun r =>
    match r.2 with
    | .applying batch => batch.claimed.isSome
    | _ => false

/-- The cursor that a statement claims: the newest committed one, if its snapshot shows the row and
no other runner holds it. -/
def claims (snapshot : ActivityDb) : Option AuditPosition :=
  if snapshot.cursor.isNone || s.isClaimed then none else s.db.cursor

/-- One step; `none` when it is not possible. An audit entry has an id of its own, and commits no
earlier than its time and at most the overlap after it. -/
def next : ActivityStep → Option ActivityServer
  | .tick now => if s.now ≤ now then some { s with now } else none
  | .commitEntry e =>
    if e.createdAt ≤ s.now ∧ s.now ≤ e.createdAt + lastActivityOverlapMs ∧
        e.id ∉ s.db.entries.map AuditEntry.id then
      some { s with db := { s.db with entries := s.db.entries ++ [e] } }
    else none
  | .start runner batchSize =>
    if s.runners.has runner then none
    else some { s with runners := s.runners.set runner (.starting batchSize s.db) }
  | .claim runner =>
    match s.runners.get? runner with
    | some (.starting batchSize snapshot) =>
      some { s with
        runners := s.runners.set runner (.applying ⟨batchSize, snapshot, s.claims snapshot⟩) }
    | _ => none
  | .commit runner =>
    match s.runners.get? runner with
    | some (.applying batch) =>
      match batch.claimed with
      | none => some { s with runners := s.runners.set runner .restarting }
      | some cursor =>
        some { s with db := batch.write ids cursor s.db, runners := s.runners.delete runner }
    | _ => none
  | .rollback runner =>
    match s.runners.get? runner with
    | some _ => some { s with runners := s.runners.delete runner }
    | none => none
  | .restart runner =>
    match s.runners.get? runner with
    | some .restarting =>
      some { s with
        db := { s.db with cursor := some (s.db.cursor.getD (0, [])) }
        runners := s.runners.delete runner }
    | _ => none

/-- Run some steps. -/
def run (steps : List ActivityStep) : Option ActivityServer := runSteps (next ids) s steps

end ActivityServer

end Batch

end Junjo.Activity
