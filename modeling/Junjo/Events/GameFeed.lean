import Junjo.Core.Addresses
import Junjo.Core.Run
import Junjo.Events.EventLog

/-!
# Game feeds and game streams

The streams of a game in one process share a feed, which keeps the last events in memory. A stream
sends what the feed has after its cursor, or reads the log itself where the feed does not reach back
to it. What happens between two awaits is one step; a read of the database is one step and the
delivery of its answer another.
-/

namespace Junjo

def eventLogPage : ℕ := 500

def gameFeedWindow : ℕ := 1000

/-- A read of the log by a feed. -/
inductive FeedRead (ε : Type) where
  | idle
  | asked
  | answered (rows : List (LoggedEvent ε))

structure GameFeed (ε : Type) where
  head : ℕ
  window : List (LoggedEvent ε) := []
  reading : FeedRead ε := .idle
  again : Bool := false
  stopped : Bool := false

namespace GameFeed

variable {ε : Type}

/-- Events after `cursor` held in memory; `none` when the window does not reach back to it. -/
def eventsAfter (feed : GameFeed ε) (cursor : ℕ) : Option (List (LoggedEvent ε)) :=
  let first := (feed.window.head?.map LoggedEvent.seq).getD (feed.head + 1)
  if cursor < first - 1 then none
  else if feed.head ≤ cursor then some []
  else some (feed.window.drop (cursor + 1 - first))

def wake (feed : GameFeed ε) : GameFeed ε :=
  if feed.stopped then feed
  else match feed.reading with
    | .idle => { feed with again := false, reading := .asked }
    | _ => { feed with again := true }

def stop (feed : GameFeed ε) : GameFeed ε := { feed with stopped := true, window := [] }

/-- A row takes the head. A jump means that rows were swept, and restarts the window. -/
def push (feed : GameFeed ε) (row : LoggedEvent ε) : GameFeed ε :=
  { feed with
    window := (if row.seq ≠ feed.head + 1 then [] else feed.window) ++ [row]
    head := row.seq }

def trim (feed : GameFeed ε) : GameFeed ε :=
  if gameFeedWindow < feed.window.length then
    { feed with window := feed.window.drop (feed.window.length - gameFeedWindow) }
  else feed

/-- What `readNew` does with the rows it read, up to its next read. -/
def receive (feed : GameFeed ε) (rows : List (LoggedEvent ε)) : GameFeed ε :=
  if feed.stopped then { feed with reading := .idle }
  else
    let feed := (rows.foldl push feed).trim
    if rows.length < eventLogPage then
      if feed.again then { feed with again := false, reading := .asked }
      else { feed with reading := .idle }
    else { feed with reading := .asked }

end GameFeed

/-- The promise of a feed. It starts with a read of the game's position. -/
inductive FeedPromise (ε : Type) where
  | starting (position : Option ℕ)
  | live (feed : GameFeed ε)
  | failed

inductive Frame (ε : Type) where
  | event (item : LoggedEvent ε)
  | heartbeat (id : ℕ)
deriving DecidableEq

/-- Where a stream's handler is. The reads have their answers when these have come in. -/
inductive StreamPlace (ε : Type) where
  | resolving (lastEventId : Option Text) (current : Option ℕ)
  | retained (position : ℕ) (kept : Option Bool)
  | acquiring
  | top
  | reading (rows : Option (List (LoggedEvent ε)))
  | rendering (item : LoggedEvent ε) (rest : List (LoggedEvent ε))
  | writing (item : LoggedEvent ε) (rest : List (LoggedEvent ε))
  /-- The heartbeat after an event, with the events that follow. -/
  | beating (rest : List (LoggedEvent ε))
  /-- The heartbeat after the batch. -/
  | beatingLast (empty : Bool)
  | parked
  | done

/-- A stream. The position it was accepted at and the frames handed to the client are on record. -/
structure GameStream (ε : Type) where
  types : Option (List Text)
  place : StreamPlace ε
  feed : ℕ := 0
  start : ℕ := 0
  cursor : ℕ := 0
  closed : Bool := false
  signalled : Bool := false
  heartbeatDue : Bool := false
  frames : List (Frame ε) := []

def maxPosition : ℕ := 9223372036854775807

def parsePosition (raw : Text) : Option ℕ :=
  if raw.all isDigit ∧ 1 ≤ raw.length ∧ raw.length ≤ 19 ∧ readDigits 10 raw ≤ maxPosition then
    some (readDigits 10 raw)
  else none

namespace GameStream

variable {ε : Type} (typeOf : ε → Text)

/-- Whether the type filter lets an event through. -/
def wants (types : Option (List Text)) (item : LoggedEvent ε) : Bool :=
  match types with
  | none => true
  | some types => typeOf item.event ∈ types

/-- The contiguous prefix of the rows that a stream read. -/
def contiguous (cursor : ℕ) : List (LoggedEvent ε) → List (LoggedEvent ε)
  | [] => []
  | row :: rows => if row.seq = cursor + 1 then row :: contiguous (cursor + 1) rows else []

/-- Whether the handler listens to its feed. -/
def listens (st : GameStream ε) : Bool :=
  match st.place with
  | .resolving _ _ | .retained _ _ | .acquiring | .done => false
  | _ => true

def wakeup (st : GameStream ε) : GameStream ε :=
  { st with
    signalled := true
    place := match st.place with
      | .parked => .top
      | place => place }

def close (st : GameStream ε) : GameStream ε := { st with closed := true }.wakeup

/-- What follows the last event of a batch. -/
def afterBatch (empty : Bool) (st : GameStream ε) : GameStream ε :=
  if st.closed then { st with place := .done }
  else if st.heartbeatDue then
    { st with
      heartbeatDue := false
      frames := st.frames ++ [.heartbeat st.cursor]
      place := .beatingLast empty }
  else if !empty || st.signalled then { st with place := .top }
  else { st with place := .parked }

/-- Go through a batch up to the next await. -/
def sendItems (st : GameStream ε) : List (LoggedEvent ε) → GameStream ε
  | [] => st.afterBatch false
  | item :: rest =>
    if st.closed then { st with place := .done }
    else if wants typeOf st.types item then { st with place := .rendering item rest }
    else
      let st := { st with cursor := item.seq }
      if st.heartbeatDue then
        { st with
          heartbeatDue := false
          frames := st.frames ++ [.heartbeat st.cursor]
          place := .beating rest }
      else st.sendItems rest

/-- What follows an event whose frame was written. -/
def sent (st : GameStream ε) (item : LoggedEvent ε) (rest : List (LoggedEvent ε)) : GameStream ε :=
  let st := { st with cursor := item.seq }
  if st.heartbeatDue then
    { st with
      heartbeatDue := false
      frames := st.frames ++ [.heartbeat st.cursor]
      place := .beating rest }
  else st.sendItems typeOf rest

end GameStream

/-- A process and the database. The events that the game's transactions committed are on record. -/
structure FeedServer (ε : Type) where
  log : EventLog ε
  history : List ε
  /-- The feed in the map of feeds, with its references. -/
  entry : Option (ℕ × ℕ) := none
  feeds : Dict ℕ (FeedPromise ε) := Dict.empty
  streams : Dict ℕ (GameStream ε) := Dict.empty
  nextFeed : ℕ := 0

inductive FeedEvent (ε : Type) where
  /-- Any process commits events of a game. -/
  | commit (gameId : Text) (events : List ε)
  | sweep (swept : LoggedEvent ε → Bool)
  | subscribe (id : ℕ) (types : Option (List Text)) (lastEventId : Option Text)
  /-- A stream's handler goes on. The read or write that it awaits may have failed. -/
  | turn (id : ℕ) (ok : Bool)
  /-- The check of the key for a heartbeat has come in. -/
  | heartbeat (id : ℕ) (revoked : Bool)
  | abort (id : ℕ)
  /-- A local publish or the poll. -/
  | wake (feed : ℕ)
  | feedTurn (feed : ℕ) (ok : Bool)

namespace FeedServer

variable {ε : Type} (typeOf : ε → Text) (gameId : Text)

def setStream (s : FeedServer ε) (id : ℕ) (st : GameStream ε) : FeedServer ε :=
  { s with streams := s.streams.set id st }

def setFeed (s : FeedServer ε) (id : ℕ) (feed : FeedPromise ε) : FeedServer ε :=
  { s with feeds := s.feeds.set id feed }

/-- `GameFeeds.acquire`, up to its await. -/
def acquire (s : FeedServer ε) (id : ℕ) (st : GameStream ε) (position : ℕ) : FeedServer ε :=
  match s.entry with
  | some (feed, refs) =>
    { s with entry := some (feed, refs + 1) }.setStream id
      { st with place := .acquiring, feed := feed, start := position, cursor := position }
  | none =>
    { s with
      entry := some (s.nextFeed, 1)
      feeds := s.feeds.set s.nextFeed (.starting none)
      nextFeed := s.nextFeed + 1 }.setStream id
      { st with place := .acquiring, feed := s.nextFeed, start := position, cursor := position }

/-- `GameFeeds.release`, which looks at whatever feed is in the map. -/
def release (s : FeedServer ε) (feed : ℕ) : FeedServer ε :=
  match s.entry with
  | none => s
  | some (current, refs) =>
    if 1 < refs then { s with entry := some (current, refs - 1) }
    else
      match s.feeds.get? feed with
      | some (.live live) => { s with entry := none }.setFeed feed (.live live.stop)
      | _ => { s with entry := none }

/-- The stream after a step, which releases its feed when it is over. -/
def settle (s : FeedServer ε) (id : ℕ) (st : GameStream ε) : FeedServer ε :=
  match st.place with
  | .done => (s.setStream id st).release st.feed
  | _ => s.setStream id st

/-- A refused request. -/
def refuse (s : FeedServer ε) (id : ℕ) (st : GameStream ε) : FeedServer ε :=
  s.setStream id { st with place := .done, closed := true }

/-- `resolveStartPosition` after its first read; then the slots are asked, which may refuse. -/
def resolve (s : FeedServer ε) (id : ℕ) (st : GameStream ε) (lastEventId : Option Text)
    (current : ℕ) (granted : Bool) : FeedServer ε :=
  match lastEventId with
  | none | some [] => if granted then s.acquire id st current else s.refuse id st
  | some raw =>
    match parsePosition raw with
    | none => s.refuse id st
    | some position =>
      if current < position then s.refuse id st
      else if position = current then
        if granted then s.acquire id st position else s.refuse id st
      else s.setStream id { st with place := .retained position none }

/-- A step of a stream's handler; `none` while it waits. -/
def turn (s : FeedServer ε) (id : ℕ) (st : GameStream ε) (ok : Bool) : Option (FeedServer ε) :=
  match st.place with
  | .resolving lastEventId none =>
    some (if ok then
      s.setStream id { st with place := .resolving lastEventId (some (s.log.position gameId)) }
    else s.refuse id st)
  | .resolving lastEventId (some current) => some (s.resolve id st lastEventId current ok)
  | .retained position none =>
    some (if ok then
      s.setStream id { st with place := .retained position (s.log.hasEventAfter gameId position) }
    else s.refuse id st)
  | .retained position (some kept) =>
    some (if kept && ok then s.acquire id st position else s.refuse id st)
  | .acquiring =>
    match s.feeds.get? st.feed with
    | some (.live _) => some (s.setStream id { st with place := .top })
    | some .failed => some (s.refuse id st)
    | _ => none
  | .top =>
    match s.feeds.get? st.feed with
    | some (.live feed) =>
      if st.closed then some (s.settle id { st with place := .done })
      else
        let st := { st with signalled := false }
        match feed.eventsAfter st.cursor with
        | none => some (s.setStream id { st with place := .reading none })
        | some [] => some (s.settle id (st.afterBatch true))
        | some batch => some (s.settle id (st.sendItems typeOf batch))
    | _ => none
  | .reading none =>
    some (if ok then
      s.setStream id { st with
        place := .reading (some (s.log.readEventLog gameId st.cursor eventLogPage)) }
    else s.settle id { st with closed := true, place := .done })
  | .reading (some rows) =>
    if st.closed then some (s.settle id { st with place := .done })
    else
      match GameStream.contiguous st.cursor rows with
      | [] => some (s.settle id { st with closed := true, place := .done })
      | batch => some (s.settle id (st.sendItems typeOf batch))
  | .rendering item rest =>
    some (if st.closed then s.settle id { st with place := .done }
    else
      s.setStream id
        { st with frames := st.frames ++ [.event item], place := .writing item rest })
  | .writing item rest =>
    some (if ok then s.settle id (st.sent typeOf item rest)
    else s.settle id { st with closed := true, place := .done })
  | .beating rest =>
    some (if ok then s.settle id (st.sendItems typeOf rest)
    else s.settle id { st with closed := true, place := .done })
  | .beatingLast empty =>
    some (if ok then
      s.setStream id { st with place := if !empty || st.signalled then .top else .parked }
    else s.settle id { st with closed := true, place := .done })
  | .parked => none
  | .done => none

/-- Tell the streams of a feed that it advanced. -/
def notify (s : FeedServer ε) (feed : ℕ) : FeedServer ε :=
  { s with
    streams := s.streams.mapValues fun st =>
      if st.feed = feed ∧ st.listens then st.wakeup else st }

/-- A step of a feed; `none` when it has nothing to do. -/
def feedTurn (s : FeedServer ε) (id : ℕ) (ok : Bool) : Option (FeedServer ε) :=
  match s.feeds.get? id with
  | some (.starting none) =>
    some (if ok then s.setFeed id (.starting (some (s.log.position gameId)))
    else
      { s with entry := if s.entry.map Prod.fst = some id then none else s.entry }.setFeed id .failed)
  | some (.starting (some position)) =>
    some (s.setFeed id (.live { head := position, reading := .asked }))
  | some (.live feed) =>
    match feed.reading with
    | .idle => none
    | .asked =>
      some (s.setFeed id (.live (if ok then
        { feed with
          reading := .answered (s.log.readEventLog gameId feed.head eventLogPage) }
      else { feed with reading := .idle })))
    | .answered rows =>
      let s' := s.setFeed id (.live (feed.receive rows))
      some (if feed.stopped || rows.isEmpty then s' else s'.notify id)
  | _ => none

/-- One event; `none` when it is not possible. -/
def next (s : FeedServer ε) : FeedEvent ε → Option (FeedServer ε)
  | .commit gameId' events =>
    some { s with
      log := s.log.write gameId' events
      history := if gameId' = gameId then s.history ++ events else s.history }
  | .sweep swept => some { s with log := s.log.sweep swept }
  | .subscribe id types lastEventId =>
    if s.streams.has id then none
    else some (s.setStream id { types := types, place := .resolving lastEventId none })
  | .turn id ok => (s.streams.get? id).bind fun st => s.turn typeOf gameId id st ok
  | .heartbeat id revoked =>
    (s.streams.get? id).bind fun st =>
      if !st.listens then none
      else if st.closed then some s
      else some (s.setStream id (if revoked then st.close else { st with heartbeatDue := true }.wakeup))
  | .abort id =>
    (s.streams.get? id).bind fun st =>
      if st.listens then some (s.setStream id st.close) else none
  | .wake id =>
    match s.feeds.get? id with
    | some (.live feed) => some (s.setFeed id (.live feed.wake))
    | _ => none
  | .feedTurn id ok => s.feedTurn gameId id ok

def run (s : FeedServer ε) (events : List (FeedEvent ε)) : Option (FeedServer ε) :=
  runSteps (next typeOf gameId) s events

end FeedServer

end Junjo
