import Junjo.Core.Dict
import Junjo.Core.Run
import Junjo.Core.Text

/-!
# Group streams

The hub hands every event of a group to the group's listeners in one step. The listener of a stream
queues it, and the stream's loop writes one frame after the other. What happens between two awaits
of the loop is one step.
-/

namespace Junjo

/-! ### Slots -/

/-- Open streams, counted per API key and per game. -/
structure StreamSlots where
  perKey : Dict Text ℕ := Dict.empty
  perGame : Dict Text ℕ := Dict.empty

namespace StreamSlots

def decrement (map : Dict Text ℕ) (key : Text) : Dict Text ℕ :=
  let next := (map.get? key).getD 0 - 1
  if 0 < next then map.set key next else map.delete key

def tryAcquire (slots : StreamSlots) (maxPerKey maxPerGame : ℕ) (key gameId : Text) :
    Option StreamSlots :=
  if maxPerKey ≤ (slots.perKey.get? key).getD 0 then none
  else if maxPerGame ≤ (slots.perGame.get? gameId).getD 0 then none
  else some
    { perKey := slots.perKey.set key ((slots.perKey.get? key).getD 0 + 1)
      perGame := slots.perGame.set gameId ((slots.perGame.get? gameId).getD 0 + 1) }

def release (slots : StreamSlots) (key gameId : Text) : StreamSlots :=
  { perKey := decrement slots.perKey key, perGame := decrement slots.perGame gameId }

end StreamSlots

/-! ### The hub -/

/-- The listeners of each group in the order of their subscription, by the ids of their streams. -/
structure EventHub where
  subscribers : Dict Text (List ℕ) := Dict.empty

namespace EventHub

def listeners (hub : EventHub) (groupId : Text) : List ℕ := (hub.subscribers.get? groupId).getD []

def subscribe (hub : EventHub) (groupId : Text) (listener : ℕ) : EventHub :=
  let set := hub.listeners groupId
  { subscribers :=
      hub.subscribers.set groupId (if listener ∈ set then set else set ++ [listener]) }

def unsubscribe (hub : EventHub) (groupId : Text) (listener : ℕ) : EventHub :=
  match hub.subscribers.get? groupId with
  | none => hub
  | some current =>
    let current := current.erase listener
    { subscribers :=
        if current = [] then hub.subscribers.delete groupId
        else hub.subscribers.set groupId current }

def subscriberCount (hub : EventHub) (groupId : Text) : ℕ := (hub.listeners groupId).length

end EventHub

/-! ### Streams -/

/-- How a frame's write ends. -/
inductive WriteOutcome
  | ok
  | error
  | timeout
deriving DecidableEq

/-- What the key's row says at a heartbeat. -/
inductive StreamKeyCheck
  | live (preferredNamespaces : List Text)
  | revoked
  | unknown

/-- Where the loop of a stream is. A frame is an event with the namespaces it is rendered for. -/
inductive LoopPlace (ε : Type)
  | heartbeat
  /-- The heartbeat's write is over. -/
  | beaten (sent : Bool)
  | rendering (event : ε)
  | sending (frame : ε × List Text)
  /-- The frame's write is over. -/
  | sent (sent : Bool)
  | waiting
  | done

/-- A stream, with the frames handed to its client. -/
structure GroupStream (ε : Type) where
  apiKeyPrefix : Text
  gameId : Text
  groupId : Text
  preferred : List Text
  queue : List ε := []
  /-- Whether the promise that the loop waits for is unresolved. -/
  wake : Bool := false
  closed : Bool := false
  heartbeatDue : Bool := false
  released : Bool := false
  place : LoopPlace ε := .waiting
  frames : List (ε × List Text) := []

namespace GroupStream

variable {ε : Type}

def wakeup (st : GroupStream ε) : GroupStream ε := { st with wake := false }

/-- The loop after its heartbeat. -/
def takeEvent (st : GroupStream ε) : GroupStream ε :=
  match st.queue with
  | event :: queue => { st with queue, place := .rendering event }
  | [] =>
    if st.closed then { st with place := .done }
    else if st.heartbeatDue then { st with heartbeatDue := false, place := .heartbeat }
    else { st with wake := true, place := .waiting }

/-- The loop from its condition to its next await. -/
def loop (st : GroupStream ε) : GroupStream ε :=
  if st.closed then { st with place := .done }
  else if st.heartbeatDue then { st with heartbeatDue := false, place := .heartbeat }
  else st.takeEvent

end GroupStream

structure GroupStreamOptions where
  maxGroupStreamsPerKey : ℕ := 500
  maxGroupStreamsPerGame : ℕ := 2000
  maxQueuedGroupEvents : ℕ := 1000

def GroupStreamOptions.maxQueued (opts : GroupStreamOptions) : ℕ := max 1 opts.maxQueuedGroupEvents

/-- A server process, with every stream it has opened by its number. -/
structure GroupStreamServer (ε : Type) where
  slots : StreamSlots := {}
  hub : EventHub := {}
  streams : List (GroupStream ε) := []

inductive SubscribeAnswer
  | notFound
  | tooManyStreams
  | stream (id : ℕ)
deriving DecidableEq

inductive GroupStreamEvent (ε : Type)
  /-- A request whose group was looked up. -/
  | subscribe (found : Bool) (apiKeyPrefix gameId groupId : Text) (preferred : List Text)
  | publish (event : ε)
  /-- What the loop of a stream awaits has come, a write's outcome among it. -/
  | turn (id : ℕ) (outcome : WriteOutcome)
  /-- The key was read for a heartbeat. -/
  | recheck (id : ℕ) (key : StreamKeyCheck)
  | abort (id : ℕ)

namespace GroupStreamServer

variable {ε : Type} (groupOf : ε → Option Text) (opts : GroupStreamOptions)

def setStream (s : GroupStreamServer ε) (id : ℕ) (st : GroupStream ε) : GroupStreamServer ε :=
  { s with streams := s.streams.set id st }

def closeStream (s : GroupStreamServer ε) (id : ℕ) (st : GroupStream ε) : GroupStreamServer ε :=
  { s with hub := s.hub.unsubscribe st.groupId id }.setStream id { st with closed := true }.wakeup

/-- The `finally` of the loop. -/
def finish (s : GroupStreamServer ε) (id : ℕ) (st : GroupStream ε) : GroupStreamServer ε :=
  { s with
    hub := s.hub.unsubscribe st.groupId id
    slots := if st.released then s.slots
      else s.slots.release st.apiKeyPrefix st.gameId }.setStream id
    { st with closed := true, released := true, place := .done }

/-- The stream after a part of its loop. -/
def settle (s : GroupStreamServer ε) (id : ℕ) (st : GroupStream ε) : GroupStreamServer ε :=
  match st.place with
  | .done => s.finish id st
  | _ => s.setStream id st

def subscribeEvents (s : GroupStreamServer ε) (found : Bool) (apiKeyPrefix gameId groupId : Text)
    (preferred : List Text) : GroupStreamServer ε × SubscribeAnswer :=
  if !found then (s, .notFound)
  else
    match s.slots.tryAcquire opts.maxGroupStreamsPerKey opts.maxGroupStreamsPerGame apiKeyPrefix
        gameId with
    | none => (s, .tooManyStreams)
    | some slots =>
      let id := s.streams.length
      let st : GroupStream ε := { apiKeyPrefix, gameId, groupId, preferred }
      ({ slots, hub := s.hub.subscribe groupId id, streams := s.streams ++ [st.loop] }, .stream id)

/-- The listener of a stream. -/
def listener (event : ε) (s : GroupStreamServer ε) (id : ℕ) : GroupStreamServer ε :=
  match s.streams[id]? with
  | none => s
  | some st =>
    if st.closed then s
    else if opts.maxQueued ≤ st.queue.length then s.closeStream id st
    else s.setStream id { st with queue := st.queue ++ [event] }.wakeup

def publish (s : GroupStreamServer ε) (event : ε) : GroupStreamServer ε :=
  match groupOf event with
  | none => s
  | some groupId => (s.hub.listeners groupId).foldl (listener opts event) s

/-- The write of a frame, with the stream as it is if the client took the frame. -/
def write (s : GroupStreamServer ε) (id : ℕ) (st : GroupStream ε) (place : Bool → LoopPlace ε) :
    WriteOutcome → GroupStreamServer ε
  | .ok => s.setStream id { st with place := place true }
  | _ => s.closeStream id { st with place := place false }

/-- A step of a stream's loop; `none` while it waits. -/
def turn (s : GroupStreamServer ε) (id : ℕ) (st : GroupStream ε) (outcome : WriteOutcome) :
    Option (GroupStreamServer ε) :=
  match st.place with
  | .heartbeat => some (s.write id st .beaten outcome)
  | .beaten true => some (s.settle id st.takeEvent)
  | .rendering event =>
    some (if st.closed then s.finish id st
    else s.setStream id { st with place := .sending (event, st.preferred) })
  | .sending frame =>
    some (s.write id
      (if outcome = .ok then { st with frames := st.frames ++ [frame] } else st) .sent outcome)
  | .sent true => some (s.settle id st.loop)
  | .beaten false | .sent false => some (s.finish id st)
  | .waiting => if st.wake then none else some (s.settle id st.loop)
  | .done => none

def recheck (s : GroupStreamServer ε) (id : ℕ) (st : GroupStream ε) (key : StreamKeyCheck) :
    GroupStreamServer ε :=
  if st.closed then s
  else
    match key with
    | .revoked => s.closeStream id st
    | .live preferredNamespaces =>
      s.setStream id { st with preferred := preferredNamespaces, heartbeatDue := true }.wakeup
    | .unknown => s.setStream id { st with heartbeatDue := true }.wakeup

/-- One event; `none` when it is not possible. -/
def next (s : GroupStreamServer ε) : GroupStreamEvent ε → Option (GroupStreamServer ε)
  | .subscribe found apiKeyPrefix gameId groupId preferred =>
    some (s.subscribeEvents opts found apiKeyPrefix gameId groupId preferred).1
  | .publish event => some (s.publish groupOf opts event)
  | .turn id outcome => s.streams[id]?.bind fun st => s.turn id st outcome
  | .recheck id key => s.streams[id]?.map fun st => s.recheck id st key
  | .abort id => s.streams[id]?.map fun st => s.closeStream id st

def run (s : GroupStreamServer ε) (events : List (GroupStreamEvent ε)) :
    Option (GroupStreamServer ε) :=
  runSteps (next groupOf opts) s events

end GroupStreamServer

end Junjo
