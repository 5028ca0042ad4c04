import Junjo.Core.Callbacks
import Junjo.Sdk.EventDecode
import Junjo.Sdk.SseStream

/-!
# Subscriptions of the TypeScript SDK

`subscribe` reads frames until its subscription is closed. An error in a frame or a throwing handler
closes the subscription and is reported.
-/

namespace Junjo.Sdk

open Callbacks (Reaction)
open IsoDate (Instant)
open Sse (ParsedSSEFrame readSSEFrames)
open Utf8 (Byte)

/-- The calls of `onError` and `onClose`. -/
inductive Notice
  | error
  | close
deriving DecidableEq

structure Subscription where
  handed : List JunjoEvent := []
  closed : Bool := false
  notices : List Notice := []

namespace Subscription

def close (s : Subscription) : Subscription := { s with closed := true }

def reportError (s : Subscription) : Subscription :=
  if s.closed then s else { s.close with notices := s.notices ++ [.error] }

variable (dateOf : Option JsonValue → Option Instant) (handler : List JunjoEvent → Reaction)

/-- A call of the handler, which may close the subscription. -/
def handle (s : Subscription) (event : JunjoEvent) : Subscription :=
  let s := { s with handed := s.handed ++ [event] }
  let reaction := handler s.handed
  let s := if reaction.closes then s.close else s
  if reaction.throws then s.reportError else s

def onFrame (s : Subscription) (frame : ParsedSSEFrame) : Subscription :=
  match frame.data with
  | none => s
  | some data =>
    match decodeEventData dateOf data with
    | .ok (some event) => s.handle handler event
    | .ok none => s
    | .error _ => s.reportError

/-- What follows the reading. -/
def finish (s : Subscription) : Sse.StreamEnd → Subscription
  | .overflow => s.reportError
  | _ => if s.closed then s.close else { s.close with notices := s.notices ++ [.close] }

end Subscription

/-- The subscription after the body of the stream has arrived in some reads. -/
def subscribe (dateOf : Option JsonValue → Option Instant) (handler : List JunjoEvent → Reaction)
    (reads : List (List Byte)) : Subscription :=
  let after := fun frames : List ParsedSSEFrame =>
    frames.foldl (Subscription.onFrame dateOf handler) {}
  let run := readSSEFrames (fun frames => (after frames).closed) reads
  (after run.frames).finish run.ending

end Junjo.Sdk
