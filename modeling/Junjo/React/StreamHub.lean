import Junjo.Core.Dict
import Junjo.Core.Lists
import Junjo.Core.Run

/-!
# A hub of shared streams

The first listener of a key opens a stream and later ones share it. A stream is torn down when it
ends, or after its last listener leaves, and a handshake that resolves after that closes itself. A
notification is fanned out to the listeners there are when it comes in, and what a listener does when
it is notified comes before the next one's turn.
-/

namespace Junjo.React

/-- Where the request for a stream is. -/
inductive Handshake where
  | pending
  /-- The server has accepted, and the hub does not know yet. -/
  | accepted
  | resolved
  | rejected
deriving DecidableEq

/-- What became of a stream on the side of the SDK. -/
structure Stream where
  handshake : Handshake
  /-- An error or a close was reported. -/
  ended : Bool
  /-- `close` was called. -/
  released : Bool
deriving DecidableEq

/-- Whether the stream can still notify the hub. -/
def Stream.live (s : Stream) : Bool := !s.ended && s.handshake ≠ .rejected

/-- Whether it has been accepted and has not ended. -/
def Stream.delivers (s : Stream) : Bool :=
  !s.ended && (s.handshake = .accepted || s.handshake = .resolved)

/-- A stream in a hub, with what it has fanned out. -/
structure Entry (κ δ ν : Type*) where
  key : κ
  listeners : List ℕ
  subscription : Bool
  closed : Bool
  teardownTimer : Bool
  data : δ
  stream : Stream
  fanned : List ν

/-- A call of `subscribe`, with the number of notifications that its stream had fanned out before it,
and before it was removed. -/
structure Listener (ν : Type*) where
  entry : ℕ
  since : ℕ
  removed : Option ℕ
  /-- What it was told when it joined. -/
  greeting : Option ν
  received : List ν

/-- A notification on its way to the rest of a snapshot, and one that follows it. -/
structure Fan (ν : Type*) where
  entry : ℕ
  note : ν
  rest : List ℕ
  andThen : Option ν

/-- Entries and listeners are numbered in order. -/
structure Hub (κ δ ν : Type*) where
  entries : List (Entry κ δ ν)
  registered : Dict κ ℕ
  listeners : List (Listener ν)
  fan : Option (Fan ν)

namespace Hub

variable {κ δ ν : Type*} [DecidableEq κ]

def empty : Hub κ δ ν := ⟨[], Dict.empty, [], none⟩

variable (s : Hub κ δ ν)

def setEntry (i : ℕ) (e : Entry κ δ ν) : Hub κ δ ν := { s with entries := s.entries.set i e }

/-- `open` -/
def openEntry (key : κ) (data : δ) : Hub κ δ ν := { s with
  entries := s.entries ++ [⟨key, [], false, false, false, data, ⟨.pending, false, false⟩, []⟩]
  registered := s.registered.set key s.entries.length }

/-- A listener joins an entry. -/
def join (i : ℕ) (greet : δ → Option ν) : Hub κ δ ν :=
  match s.entries[i]? with
  | none => s
  | some e => { s.setEntry i { e with
      listeners := e.listeners ++ [s.listeners.length]
      teardownTimer := false } with
    listeners := s.listeners ++ [⟨i, e.fanned.length, none, greet e.data, []⟩] }

/-- `subscribe` -/
def subscribe (key : κ) (data : δ) (greet : δ → Option ν) : Hub κ δ ν :=
  match s.registered.get? key with
  | some i => s.join i greet
  | none => (s.openEntry key data).join s.entries.length greet

/-- `teardown` -/
def teardown (i : ℕ) : Hub κ δ ν :=
  match s.entries[i]? with
  | none => s
  | some e =>
    if e.closed then s
    else { s.setEntry i { e with
        closed := true
        teardownTimer := false
        subscription := false
        stream := { e.stream with released := e.stream.released || e.subscription } } with
      registered :=
        if s.registered.get? e.key = some i then s.registered.delete e.key else s.registered }

/-- `scheduleTeardown` -/
def scheduleTeardown (delayed : Bool) (i : ℕ) : Hub κ δ ν :=
  if delayed then
    match s.entries[i]? with
    | none => s
    | some e => s.setEntry i { e with teardownTimer := true }
  else s.teardown i

/-- What `subscribe` returns, for its own listener. -/
def unsubscribe (delayed : Bool) (l : ℕ) : Option (Hub κ δ ν) :=
  match s.listeners[l]? with
  | none => none
  | some x =>
    if x.removed.isSome then some s
    else
      match s.entries[x.entry]? with
      | none => none
      | some e =>
        let removed := { s with
          listeners := s.listeners.set l { x with removed := some e.fanned.length } }
        if s.registered.get? e.key = some x.entry then
          let left := removed.setEntry x.entry { e with listeners := e.listeners.erase l }
          if (e.listeners.erase l).isEmpty then some (left.scheduleTeardown delayed x.entry)
          else some left
        else some removed

/-- The teardown timer fires. -/
def teardownTimer (i : ℕ) : Option (Hub κ δ ν) :=
  match s.fan, s.entries[i]? with
  | none, some e =>
    if e.teardownTimer then
      let fired := s.setEntry i { e with teardownTimer := false }
      if e.listeners.isEmpty then some (fired.teardown i) else some fired
    else none
  | _, _ => none

/-- `fan`: the snapshot of the listeners. -/
def fanOut (i : ℕ) (note : ν) (andThen : Option ν) : Hub κ δ ν :=
  match s.entries[i]? with
  | none => s
  | some e => { s.setEntry i { e with fanned := e.fanned ++ [note] } with
      fan := some ⟨i, note, e.listeners, andThen⟩ }

/-- The next listener of the snapshot is notified, and what it throws is swallowed, or the fan is
over. -/
def next : Option (Hub κ δ ν) :=
  match s.fan with
  | none => none
  | some f =>
    match f.rest with
    | l :: rest =>
      match s.listeners[l]? with
      | none => none
      | some x => some { s with
          listeners := s.listeners.set l { x with received := x.received ++ [f.note] }
          fan := some { f with rest } }
    | [] =>
      match f.andThen with
      | none => some { s with fan := none }
      | some note => some ({ s with fan := none }.fanOut f.entry note none)

/-! ### What the SDK reports -/

/-- The SDK calls back about an entry. -/
def callback (i : ℕ) (allowed : Stream → Bool) (f : Entry κ δ ν → Hub κ δ ν) : Option (Hub κ δ ν) :=
  match s.fan, s.entries[i]? with
  | none, some e => if allowed e.stream then some (f e) else none
  | _, _ => none

/-- The server accepts a stream. -/
def accept (i : ℕ) : Option (Hub κ δ ν) :=
  s.callback i (fun stream => stream.handshake = .pending) fun e =>
    s.setEntry i { e with stream := { e.stream with handshake := .accepted } }

/-- The handshake resolves. An entry that is open takes the subscription, then does the rest. -/
def resolve (i : ℕ) (rest : Hub κ δ ν → Hub κ δ ν) : Option (Hub κ δ ν) :=
  s.callback i (fun stream => stream.handshake = .accepted) fun e =>
    let stream := { e.stream with handshake := .resolved }
    if e.closed then s.setEntry i { e with stream := { stream with released := true } }
    else rest (s.setEntry i { e with stream, subscription := true })

/-- The handshake is rejected, or the stream ends: an open entry is torn down, and its listeners are
told. -/
def terminate (i : ℕ) (e : Entry κ δ ν) (stream : Stream) (note : ν) : Hub κ δ ν :=
  let ended := s.setEntry i { e with stream }
  if e.closed then ended else (ended.teardown i).fanOut i note none

def reject (i : ℕ) (note : ν) : Option (Hub κ δ ν) :=
  s.callback i (fun stream => stream.handshake = .pending) fun e =>
    s.terminate i e { e.stream with handshake := .rejected } note

def finish (i : ℕ) (note : ν) : Option (Hub κ δ ν) :=
  s.callback i Stream.delivers fun e => s.terminate i e { e.stream with ended := true } note

end Hub

end Junjo.React
