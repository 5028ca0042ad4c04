import Junjo.Core.Callbacks
import Junjo.Core.JsonText
import Junjo.Cpp.SseParser

/-!
# Subscriptions of the C++ SDK

The transport hands every chunk of the body to `onData` until it returns false. The handler hands over
events whose payload has a type it knows.
-/

namespace Junjo.Cpp

open Callbacks (Reaction)
open Utf8 (Byte)

def kKnownEventTypes : List String :=
  ["member.joined", "member.left", "member.invited", "member.banned", "member.unbanned",
    "role.created", "role.changed", "role.deleted", "permission.granted", "permission.revoked",
    "group.updated", "group.deleted", "group.relationship.changed", "friend.request.sent",
    "friend.request.accepted", "friend.request.declined", "friend.request.cancelled",
    "friend.removed", "friend.blocked", "friend.unblocked", "game.user.banned", "game.user.unbanned"]

def isKnownEventType (type : Text) : Bool := kKnownEventTypes.any fun known => text known = type

structure SseEvent where
  eventType : List Byte
  eventId : List Byte
  payloadJson : List Byte
deriving DecidableEq

/-- The terminal errors of a stream. -/
inductive StreamError
  | streamOverflow
  | invalidWireData
  | callbackThrew
deriving DecidableEq

/-- The calls of `on_error` and `on_close`. -/
inductive Notice
  | error (error : StreamError)
  | close
deriving DecidableEq

structure SubscriptionStreamHandler where
  closed : Bool := false
  handed : List SseEvent := []
  terminalError : Option StreamError := none

/-- The type of a payload, when it is an object with a string there. -/
def payloadType : JsonValue → Option Text
  | .obj entries =>
    match entries.lookup (text "type") with
    | some (.str type) => some type
    | _ => none
  | _ => none

namespace SubscriptionStreamHandler

variable (parseJson : List Byte → Option JsonValue) (onEvent : List SseEvent → Reaction)

/-- A call of `on_event`, and whether the loop goes on. -/
def handle (s : SubscriptionStreamHandler) (event : SseEvent) : SubscriptionStreamHandler × Bool :=
  let handed := s.handed ++ [event]
  let reaction := onEvent handed
  let s := { s with handed, closed := s.closed || reaction.closes }
  if reaction.throws then ({ s with terminalError := some .callbackThrew }, false) else (s, true)

/-- The loop over the frames of a chunk, and whether reading goes on. -/
def onFrames (s : SubscriptionStreamHandler) : List SseFrame → SubscriptionStreamHandler × Bool
  | [] => (s, true)
  | frame :: frames =>
    if s.closed then (s, false)
    else
      match frame.data with
      | none => onFrames s frames
      | some data =>
        match parseJson data with
        | none => ({ s with terminalError := some .invalidWireData }, false)
        | some payload =>
          match payloadType payload with
          | none => onFrames s frames
          | some type =>
            if isKnownEventType type then
              let r := s.handle onEvent
                { eventType := frame.event.getD [], eventId := frame.id.getD [], payloadJson := data }
              if r.2 then onFrames r.1 frames else (r.1, false)
            else onFrames s frames

def onData (s : SubscriptionStreamHandler) (parser : SseParser) (chunk : List Byte) :
    SseParser × SubscriptionStreamHandler × Bool :=
  if s.closed then (parser, s, false)
  else
    match parser.feed chunk with
    | (parser, .overflow, _) =>
      (parser, { s with terminalError := some .streamOverflow }, false)
    | (parser, .ok, frames) => (parser, onFrames parseJson onEvent s frames)

/-- The chunks of the body, and whether all were taken. -/
def executeStream (s : SubscriptionStreamHandler) (parser : SseParser) :
    List (List Byte) → SubscriptionStreamHandler × Bool
  | [] => (s, true)
  | chunk :: chunks =>
    let r := onData parseJson onEvent s parser chunk
    if r.2.2 then executeStream r.2.1 r.1 chunks else (r.2.1, false)

end SubscriptionStreamHandler

/-- The handler and the callbacks at the end of `run_subscription`. A transport that was stopped gives
`Cancelled`, which is silent. -/
def runSubscription (parseJson : List Byte → Option JsonValue) (onEvent : List SseEvent → Reaction)
    (chunks : List (List Byte)) : SubscriptionStreamHandler × List Notice :=
  let r := SubscriptionStreamHandler.executeStream parseJson onEvent {} {} chunks
  if r.1.closed then (r.1, [])
  else
    match r.1.terminalError with
    | some error => (r.1, [.error error])
    | none => if r.2 then (r.1, [.close]) else (r.1, [])

end Junjo.Cpp
