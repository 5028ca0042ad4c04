import Junjo.Core.Dict
import Junjo.Core.Run
import Junjo.Core.Text

/-!
# Requests with an `Idempotency-Key`

The requests that carry one key under one API key, in any number of processes, and the record they
share. A statement on the record is one step. The clock is in milliseconds.
-/

namespace Junjo

def idempotencyRetentionMs : ℕ := 24 * 60 * 60 * 1000

def idempotencyAbandonMs : ℕ := 5 * 60 * 1000

/-- A response, with the headers that a replay repeats. -/
structure Response where
  status : ℕ
  body : Option Text
  contentType : Option Text
  etag : Option Text
deriving DecidableEq

/-- Statuses whose responses have no body. -/
def nullBodyStatus (status : ℕ) : Bool := status = 204 || status = 304

/-- What a handler responds: a body with its content type, or no body where the status has none. -/
structure HandlerResponse extends Response where
  noBody : body = none ↔ nullBodyStatus status
  typed : body.isSome → contentType.isSome
deriving DecidableEq

/-- `new Response(body, init)`, which names the type of a text that comes without one. -/
def newResponse (status : ℕ) (body contentType etag : Option Text) : Response where
  status := status
  body := body
  contentType :=
    if body.isSome && contentType.isNone then some (text "text/plain;charset=UTF-8") else contentType
  etag := etag

inductive RecordState where
  | inProgress
  | completed
deriving DecidableEq

/-- The stored record. Which request wrote it last is on record. -/
structure IdempotencyRecord where
  fingerprint : Text
  state : RecordState := .inProgress
  responseStatus : Option ℕ := none
  responseBody : Option Text := none
  contentType : Option Text := none
  etag : Option Text := none
  createdAt : ℕ
  writer : ℕ
deriving DecidableEq

namespace IdempotencyRecord

def replay (record : IdempotencyRecord) : Response :=
  let status := record.responseStatus.getD 200
  newResponse status (if nullBodyStatus status then none else some (record.responseBody.getD []))
    record.contentType record.etag

/-- Whether a request that read the clock at `clock` may replace the record. -/
def stale (record : IdempotencyRecord) (clock : ℕ) : Bool :=
  record.createdAt + idempotencyRetentionMs ≤ clock ||
    (record.state = .inProgress && record.createdAt + idempotencyAbandonMs ≤ clock)

def complete (record : IdempotencyRecord) (response : Response) : IdempotencyRecord :=
  { record with
    state := .completed
    responseStatus := some response.status
    responseBody := some (response.body.getD [])
    contentType := response.contentType
    etag := response.etag }

end IdempotencyRecord

/-- How a handler's run ends. No route may have matched the request. -/
inductive RunOutcome where
  | responded (response : HandlerResponse) (routeUnmatched : Bool)
  | threw
deriving DecidableEq

inductive IdempotencyAnswer where
  | own (outcome : RunOutcome)
  | replayed (response : Response)
  | keyReused
  | keyInProgress
deriving DecidableEq

/-- Where the middleware is with a request. -/
inductive RequestPlace where
  /-- Before the insertion of an attempt. -/
  | claiming (attempt : ℕ)
  | reading (attempt : ℕ)
  | taking (attempt : ℕ) (existing : IdempotencyRecord)
  | running
  | storing (response : HandlerResponse)
  | releasing (outcome : RunOutcome)
  | answered (answer : IdempotencyAnswer)
deriving DecidableEq

/-- A request with the clock it read on arrival, which is its claim time. -/
structure KeyedRequest where
  fingerprint : Text
  claimedAt : ℕ
  place : RequestPlace

structure IdempotencyServer where
  now : ℕ
  record : Option IdempotencyRecord := none
  requests : Dict ℕ KeyedRequest := Dict.empty

inductive IdempotencyEvent where
  | tick (ms : ℕ)
  | arrive (id : ℕ) (fingerprint : Text)
  /-- The next statement of a request. -/
  | step (id : ℕ)
  | finish (id : ℕ) (outcome : RunOutcome)
  /-- The sweeper, with the clock it read. -/
  | sweep (clock : ℕ)

namespace IdempotencyServer

def setPlace (s : IdempotencyServer) (id : ℕ) (r : KeyedRequest) (place : RequestPlace) :
    IdempotencyServer :=
  { s with requests := s.requests.set id { r with place := place } }

/-- The end of an attempt that decided nothing. -/
def retry (attempt : ℕ) : RequestPlace :=
  if attempt + 1 < 3 then .claiming (attempt + 1) else .answered .keyInProgress

/-- What `claim` does with the record that it read. -/
def inspect (r : KeyedRequest) (attempt : ℕ) (existing : IdempotencyRecord) : RequestPlace :=
  if existing.stale r.claimedAt then .taking attempt existing
  else if existing.fingerprint ≠ r.fingerprint then .answered .keyReused
  else if existing.state ≠ .completed then .answered .keyInProgress
  else .answered (.replayed existing.replay)

/-- The record as a request claims it. -/
def claimOf (id : ℕ) (r : KeyedRequest) : IdempotencyRecord :=
  { fingerprint := r.fingerprint, createdAt := r.claimedAt, writer := id }

/-- Whether a record is in progress since a time. -/
def claimedSince (record : IdempotencyRecord) (createdAt : ℕ) : Bool :=
  record.createdAt = createdAt && record.state = .inProgress

/-- The next statement of a request; `none` when it has none. -/
def step (s : IdempotencyServer) (id : ℕ) (r : KeyedRequest) : Option IdempotencyServer :=
  match r.place with
  | .claiming attempt =>
    match s.record with
    | none => some ({ s with record := some (claimOf id r) }.setPlace id r .running)
    | some _ => some (s.setPlace id r (.reading attempt))
  | .reading attempt =>
    match s.record with
    | none => some (s.setPlace id r (retry attempt))
    | some existing => some (s.setPlace id r (inspect r attempt existing))
  | .taking attempt existing =>
    match s.record with
    | some record =>
      if record.createdAt = existing.createdAt ∧ record.state = existing.state then
        some ({ s with record := some (claimOf id r) }.setPlace id r .running)
      else some (s.setPlace id r (retry attempt))
    | none => some (s.setPlace id r (retry attempt))
  | .running => none
  | .storing response =>
    some ({ s with
      record := s.record.map fun record =>
        if claimedSince record r.claimedAt then record.complete response.toResponse
        else record }.setPlace id r (.answered (.own (.responded response false))))
  | .releasing outcome =>
    some ({ s with
      record := s.record.filter fun record => !claimedSince record r.claimedAt }.setPlace id r
      (.answered (.own outcome)))
  | .answered _ => none

/-- What the middleware does next when a run has ended. -/
def afterRun : RunOutcome → RequestPlace
  | .responded response routeUnmatched =>
    if response.status < 500 && !routeUnmatched then .storing response
    else .releasing (.responded response routeUnmatched)
  | .threw => .releasing .threw

/-- One event; `none` when it is not possible. -/
def next (s : IdempotencyServer) : IdempotencyEvent → Option IdempotencyServer
  | .tick ms => some { s with now := s.now + ms }
  | .arrive id fingerprint =>
    if s.requests.has id then none
    else some { s with requests := s.requests.set id ⟨fingerprint, s.now, .claiming 0⟩ }
  | .step id => (s.requests.get? id).bind fun r => s.step id r
  | .finish id outcome =>
    (s.requests.get? id).bind fun r =>
      match r.place with
      | .running => some (s.setPlace id r (afterRun outcome))
      | _ => none
  | .sweep clock =>
    if clock ≤ s.now then
      some { s with
        record := s.record.filter fun record =>
          !decide (record.createdAt + idempotencyRetentionMs < clock) }
    else none

def run (s : IdempotencyServer) (events : List IdempotencyEvent) : Option IdempotencyServer :=
  runSteps next s events

end IdempotencyServer

end Junjo
