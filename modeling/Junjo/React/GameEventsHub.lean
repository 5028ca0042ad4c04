import Junjo.Core.Text
import Junjo.React.StreamHub

/-!
# The game-wide event stream of a React tree
-/

namespace Junjo.React

inductive GameStreamStatus where
  | connecting
  | opened
  | reconnecting
deriving DecidableEq

/-- What a listener of the game's stream is told. -/
inductive GameSignal (ε : Type*) where
  | onEvent (event : ε) (position : Text)
  | onStatus (status : GameStreamStatus) (position : Option Text)
  | onResync (position : Text)
  | onError

def GameSignal.terminal {ε : Type*} : GameSignal ε → Bool
  | .onError => true
  | _ => false

structure GameConnection where
  status : GameStreamStatus
  position : Option Text

/-- All listeners share the one stream of the client. -/
abbrev GameEventsHub (ε : Type*) := Hub Unit GameConnection (GameSignal ε)

inductive GameHubEvent (ε : Type*) where
  | subscribe
  | unsubscribe (listener : ℕ)
  /-- The next listener is notified of what is fanned out. -/
  | next
  | accept (entry : ℕ)
  | resolve (entry : ℕ) (position : Text)
  | reject (entry : ℕ)
  | event (entry : ℕ) (event : ε) (position : Text)
  | reconnecting (entry : ℕ)
  | reconnected (entry : ℕ) (position : Text)
  | resync (entry : ℕ) (position : Text)
  | error (entry : ℕ)

namespace GameEventsHub

variable {ε : Type*} (s : GameEventsHub ε)

def setData (i : ℕ) (data : GameConnection) : GameEventsHub ε :=
  match s.entries[i]? with
  | none => s
  | some e => s.setEntry i { e with data }

def setStatus (i : ℕ) (status : GameStreamStatus) (position : Option Text)
    (andThen : Option (GameSignal ε)) : GameEventsHub ε :=
  (setData s i ⟨status, position⟩).fanOut i (.onStatus status position) andThen

/-- A callback that an open entry attends to. -/
def attend (i : ℕ) (f : Entry Unit GameConnection (GameSignal ε) → GameEventsHub ε) :
    Option (GameEventsHub ε) :=
  s.callback i Stream.delivers fun e => if e.closed then s else f e

/-- What a listener that joins is told. -/
def greet (connection : GameConnection) : Option (GameSignal ε) :=
  if connection.status = .connecting then none
  else some (.onStatus connection.status connection.position)

def step (s : GameEventsHub ε) : GameHubEvent ε → Option (GameEventsHub ε)
  | .subscribe => some (s.subscribe () ⟨.connecting, none⟩ greet)
  | .unsubscribe listener => s.unsubscribe false listener
  | .next => s.next
  | .accept entry => s.accept entry
  | .resolve entry position =>
    s.resolve entry fun s => setStatus s entry .opened (some position) none
  | .reject entry => s.reject entry .onError
  | .event entry event position => attend s entry fun e =>
      (setData s entry { e.data with position := some position }).fanOut entry
        (.onEvent event position) none
  | .reconnecting entry => attend s entry fun e => setStatus s entry .reconnecting e.data.position none
  | .reconnected entry position => attend s entry fun _ => setStatus s entry .opened (some position) none
  | .resync entry position => attend s entry fun _ =>
      setStatus s entry .opened (some position) (some (.onResync position))
  | .error entry => s.finish entry .onError

def run (events : List (GameHubEvent ε)) : Option (GameEventsHub ε) :=
  runSteps step Hub.empty events

end GameEventsHub

end Junjo.React
