import Junjo.Core.Dict
import Junjo.Core.Run

/-!
# The durable write queue

The enqueues and the drain thread of a `WriteQueue`, with its journal. A section under the queue's
lock is one step; so are the steps outside of it that touch the disk. A thread in `forceThrough` that
does not hold the lock is waiting, or it runs the force. Truncates succeed.
-/

namespace Junjo.Sdk

/-- How the server settles an entry. -/
inductive EntryOutcome where
  | success
  | conflict
  | rejected
deriving DecidableEq

/-- A line of the journal, about the entry with an id. -/
inductive JournalLine where
  | put (id : ℕ)
  | done (id : ℕ) (outcome : EntryOutcome)
deriving DecidableEq

/-- The entries that lines put into the journal. -/
def putIds (lines : List JournalLine) : List ℕ :=
  lines.filterMap fun line =>
    match line with
    | .put id => some id
    | .done _ _ => none

def doneIds (lines : List JournalLine) : List ℕ :=
  lines.filterMap fun line =>
    match line with
    | .put _ => none
    | .done id _ => some id

/-- The entries that are pending when a journal is opened. -/
def replay (lines : List JournalLine) : List ℕ :=
  (putIds lines).eraseDups.filter fun id => id ∉ doneIds lines

/-- Where a record ends: the journal's length after it, and the epoch it was written in. -/
structure Mark where
  endAt : ℕ
  epoch : ℕ
deriving DecidableEq

inductive EnqueuePlace where
  | inForce (mark : Mark)
  | returned
  | threw
deriving DecidableEq

inductive DrainPlace where
  | idle
  | sending (head : ℕ)
  /-- The entry is settled, and a refused one is in the dead-letter file. -/
  | settled (head : ℕ) (outcome : EntryOutcome)
  | inForce (mark : Mark)
  | completing
deriving DecidableEq

inductive QueueThread where
  | enqueue (id : ℕ)
  | drain
deriving DecidableEq

/-- A force under way: the thread that runs it and the length it covers. -/
structure Force where
  thread : QueueThread
  target : ℕ
deriving DecidableEq

/-- The queue, with the file, the lines that completed forces left on disk, and the entries that were
sent and that are finished. -/
structure WriteQueue where
  journal : List JournalLine := []
  onDisk : List JournalLine := []
  channel : Bool := true
  written : ℕ := 0
  durable : ℕ := 0
  epoch : ℕ := 0
  forcing : Option Force := none
  unforced : List (ℕ × ℕ) := []
  queue : List ℕ := []
  doneSinceCompact : ℕ := 0
  drain : DrainPlace := .idle
  enqueues : Dict ℕ EnqueuePlace := Dict.empty
  sent : List ℕ := []
  finished : List ℕ := []
deriving DecidableEq

/-- How a compaction goes: whether the force when the old journal is closed succeeds, whether the new
journal replaces it, and whether it opens. -/
structure Compaction where
  closeForced : Bool
  replaced : Bool
  reopened : Bool

inductive QueueEvent where
  | enqueue (id : ℕ)
  | enqueueFails (id : ℕ)
  /-- A thread in `forceThrough` gets the lock. -/
  | look (thread : QueueThread)
  /-- The force under way ends. -/
  | forced (ok : Bool)
  | send
  | retry
  | settle (outcome : EntryOutcome)
  | record (ok : Bool)
  | complete (compaction : Compaction)

section Machine

-- The bytes of a record's JSON.
variable (jsonBytes : JournalLine → ℕ) (compactThreshold : ℕ)

/-- The bytes of a line: a checksum, a space, the JSON and a line feed. -/
def lineBytes (line : JournalLine) : ℕ := 8 + 1 + jsonBytes line + 1

def bytes (lines : List JournalLine) : ℕ := (lines.map (lineBytes jsonBytes)).sum

/-- The lines left when a file is cut to a length. A line that is cut is not read back. -/
def truncate : ℕ → List JournalLine → List JournalLine
  | _, [] => []
  | n, line :: lines =>
    if lineBytes jsonBytes line ≤ n then line :: truncate (n - lineBytes jsonBytes line) lines else []

namespace WriteQueue

/-- `write`, when it succeeds. -/
def write (s : WriteQueue) (line : JournalLine) : WriteQueue :=
  { s with journal := s.journal ++ [line], written := s.written + lineBytes jsonBytes line }

/-- The end of a force that succeeded. -/
def cover (s : WriteQueue) (target : ℕ) : WriteQueue :=
  { s with
    onDisk := truncate jsonBytes target s.journal
    durable := target
    queue := s.queue ++ (s.unforced.takeWhile fun u => u.2 ≤ target).map Prod.fst
    unforced := s.unforced.dropWhile fun u => u.2 ≤ target }

def rollBack (s : WriteQueue) : WriteQueue :=
  { s with
    journal := if s.channel then truncate jsonBytes s.durable s.journal else s.journal
    written := s.durable
    epoch := s.epoch + 1
    unforced := [] }

/-- `closeChannel`, when no force is under way. -/
def closeChannel (s : WriteQueue) (forced : Bool) : WriteQueue :=
  if s.channel && s.durable < s.written && forced then
    { s with onDisk := s.journal, durable := s.written, channel := false }
  else { s with channel := false }

def rewrite (s : WriteQueue) (c : Compaction) : WriteQueue :=
  let closed := s.closeChannel c.closeForced
  let lines := closed.queue.map JournalLine.put
  let replaced := if c.replaced then { closed with journal := lines, onDisk := lines } else closed
  if c.reopened then
    { replaced with
      channel := true
      written := bytes jsonBytes replaced.journal
      durable := bytes jsonBytes replaced.journal
      doneSinceCompact := 0 }
  else replaced

/-- Whether `finish` compacts the journal. -/
def compacts (s : WriteQueue) : Bool :=
  compactThreshold ≤ s.doneSinceCompact && s.forcing.isNone && s.unforced.isEmpty

/-- The head leaves the queue. -/
def poll (s : WriteQueue) : WriteQueue :=
  { s with
    queue := s.queue.tail
    finished := s.finished ++ s.queue.head?.toList
    drain := .idle }

/-- What a thread that waits in `forceThrough` finds. -/
inductive Verdict where
  | thrown
  | covered
  | wait
  | force

def verdict (s : WriteQueue) (mark : Mark) : Verdict :=
  if s.epoch ≠ mark.epoch then .thrown
  else if mark.endAt ≤ s.durable then .covered
  else if s.forcing.isSome then .wait
  else .force

def startForce (s : WriteQueue) (thread : QueueThread) : WriteQueue :=
  { s with forcing := some ⟨thread, s.written⟩ }

/-- Whether a thread is outside of the lock with a force of its own. -/
def isForcing (s : WriteQueue) (thread : QueueThread) : Bool :=
  s.forcing.map Force.thread = some thread

def lookEnqueue (s : WriteQueue) (id : ℕ) (mark : Mark) : WriteQueue :=
  match s.verdict mark with
  | .thrown => { s with enqueues := s.enqueues.set id .threw }
  | .covered => { s with enqueues := s.enqueues.set id .returned }
  | .wait => s
  | .force => s.startForce (.enqueue id)

/-- The drain goes on whatever the force of its done record comes to. -/
def lookDrain (s : WriteQueue) (mark : Mark) : WriteQueue :=
  match s.verdict mark with
  | .thrown => { s with drain := .completing }
  | .covered => { s with drain := .completing }
  | .wait => s
  | .force => s.startForce .drain

/-- One event; `none` when it is not possible. -/
def next (s : WriteQueue) : QueueEvent → Option WriteQueue
  | .enqueue id =>
    if s.channel && !s.enqueues.has id then
      let s' := s.write jsonBytes (.put id)
      some { s' with
        unforced := s.unforced ++ [(id, s'.written)]
        enqueues := s.enqueues.set id (.inForce ⟨s'.written, s.epoch⟩) }
    else none
  | .enqueueFails id =>
    if s.enqueues.has id then none else some { s with enqueues := s.enqueues.set id .threw }
  | .look (.enqueue id) =>
    if s.isForcing (.enqueue id) then none
    else match s.enqueues.get? id with
      | some (.inForce mark) => some (s.lookEnqueue id mark)
      | _ => none
  | .look .drain =>
    if s.isForcing .drain then none
    else match s.drain with
      | .inForce mark => some (s.lookDrain mark)
      | _ => none
  | .forced ok =>
    match s.forcing with
    | some force =>
      if ok && !s.channel then none
      else
        let ended := if ok then s.cover jsonBytes force.target else s.rollBack jsonBytes
        some { ended with forcing := none }
    | none => none
  | .send =>
    match s.drain, s.queue with
    | .idle, head :: _ => some { s with drain := .sending head, sent := s.sent ++ [head] }
    | _, _ => none
  | .retry =>
    match s.drain with
    | .sending _ => some { s with drain := .idle }
    | _ => none
  | .settle outcome =>
    match s.drain with
    | .sending head => some { s with drain := .settled head outcome }
    | _ => none
  | .record ok =>
    match s.drain with
    | .settled head outcome =>
      if ok then
        if s.channel then
          let s' := s.write jsonBytes (.done head outcome)
          some { s' with
            doneSinceCompact := s.doneSinceCompact + 1
            drain :=
              if outcome = .success then .completing else .inForce ⟨s'.written, s.epoch⟩ }
        else none
      else some { s with drain := .completing }
    | _ => none
  | .complete c =>
    match s.drain with
    | .completing =>
      let polled := s.poll
      some (if polled.compacts compactThreshold then polled.rewrite jsonBytes c else polled)
    | _ => none

/-- A queue that was opened on a journal with some lines, which the compaction at the start replaced
or not. -/
def opened (lines : List JournalLine) (replaced : Bool) : WriteQueue :=
  let journal := if replaced then (replay lines).map JournalLine.put else lines
  { journal := journal
    onDisk := journal
    written := bytes jsonBytes journal
    durable := bytes jsonBytes journal
    queue := replay lines
    enqueues := Dict.ofList ((putIds lines).map fun id => (id, EnqueuePlace.returned))
    finished := (putIds lines).filter fun id => id ∈ doneIds lines }

def run (s : WriteQueue) (events : List QueueEvent) : Option WriteQueue :=
  runSteps (next jsonBytes compactThreshold) s events

end WriteQueue

end Machine

end Junjo.Sdk
