import Junjo.Client.PermissionCache
import Junjo.Client.SharedRequests
import Junjo.Core.Run

/-!
# Permission checks of the TypeScript client

Single checks share requests and fill the cache with what these answer. A batch takes what the cache
has and asks the rest in slices. An event is a call, the end of a request or of a wait, or the
continuation of a caller, and runs to its next suspension. Requests are numbered in the order they
are sent, and an answer says to which request it belongs and at which place.
-/

namespace Junjo.Client

inductive Failure where
  | rateLimited
  | other
deriving DecidableEq

/-- An answer of the server. -/
structure Answer where
  request : ℕ
  position : ℕ
  allowed : Bool
deriving DecidableEq

/-- `CHECK_BATCH_MAX_ENTRIES` -/
def checkBatchMaxEntries : ℕ := 100

/-! ### What is sent -/

/-- A text as a query parameter carries it: unpaired surrogates are replaced. -/
def onUrl (t : Text) : Text := Utf8.utf16 (Utf8.scalars t)

/-- `appendContextParams` -/
def contextOnUrl (context : PermissionContext) : PermissionContext :=
  context.sortedEntries.foldl (fun params p => params.set (onUrl p.1) (onUrl p.2)) Dict.empty

/-- A single check as the server reads it. -/
def Check.sentAlone (c : Check) : Check :=
  { userId := onUrl c.userId
    groupId := onUrl c.groupId
    permission := onUrl c.permission
    context := c.context.map contextOnUrl
    inherit := c.inherit }

/-- `serializeCheckRequest`, with the mode of the batch. -/
def Check.sentInBatch (c : Check) : Check :=
  { c with context := c.context.filter fun context => !context.entries.isEmpty }

/-! ### The client -/

/-- Where a `check` call is. -/
inductive CallState where
  /-- Waits on a shared request. -/
  | waiting (wait : ℕ)
  /-- Waits on its own request, the cache being off. -/
  | direct (request : ℕ)
  /-- Answered from the cache. -/
  | served (answer : Answer)
  | answered (answer : Answer)
  | failed
deriving DecidableEq

/-- A `check` call, and the number of requests before the last clear that preceded it. -/
structure Call where
  check : Check
  clearedAt : ℕ
  state : CallState

/-- One result of a batch, and whether the cache gave it. -/
structure BatchResult where
  answer : Answer
  cached : Bool
deriving DecidableEq

inductive BatchState where
  /-- Waits for the answer to a slice. -/
  | asking (request : ℕ) (slice : List ℕ)
  | done
  | failed
deriving DecidableEq

/-- A `checkBatch` call. -/
structure Batch where
  checks : List Check
  clearedAt : ℕ
  results : List (Option BatchResult)
  /-- The places that are still to be asked, without the slice being asked. -/
  pending : List ℕ
  /-- Places that repeat an earlier check. -/
  repeats : List (ℕ × ℕ)
  state : BatchState

/-- `Junjo` -/
structure JunjoClient where
  permissionCache : PermissionCache Answer
  checkRequests : SharedRequests Text Failure Answer
  /-- The number that each shared request has among all requests. -/
  numbers : List ℕ
  /-- What each request asks. -/
  sent : List (List Check)
  /-- How many requests were sent before the last clear. -/
  clearedAt : ℕ
  calls : List Call
  batches : List Batch

/-- `staleOnRateLimit` -/
def staleOnRateLimit (cache : PermissionCache Answer) (failure : Failure) (key : Text) (now : ℤ) :
    Option Answer × PermissionCache Answer :=
  match failure with
  | .other => (none, cache)
  | .rateLimited => cache.getStale key now

/-! ### The loops of a batch -/

/-- What the loop over the checks of a batch has found. -/
structure Plan where
  results : List (Option BatchResult) := []
  firstIndex : Dict Text ℕ := Dict.empty
  pending : List ℕ := []
  repeats : List (ℕ × ℕ) := []

/-- The loop at one check. -/
def planCheck (cache : PermissionCache Answer) (now : ℤ) (p : Plan) (c : Check) : Plan :=
  let i := p.results.length
  match cache.get c.key now with
  | some answer => { p with results := p.results ++ [some ⟨answer, true⟩] }
  | none =>
    match p.firstIndex.get? c.key with
    | some first => { p with results := p.results ++ [none], repeats := p.repeats ++ [(i, first)] }
    | none => { p with
        results := p.results ++ [none]
        firstIndex := p.firstIndex.set c.key i
        pending := p.pending ++ [i] }

def plan (cache : PermissionCache Answer) (now : ℤ) (checks : List Check) : Plan :=
  checks.foldl (planCheck cache now) {}

/-- `for (const [index, source] of repeats) results[index] = results[source]` -/
def copyRepeats (results : List (Option BatchResult)) (repeats : List (ℕ × ℕ)) :
    List (Option BatchResult) :=
  repeats.foldl (fun results p => results.set p.1 ((results[p.2]?).join)) results

/-- The answers to a slice go into the cache and the results. -/
def storeAnswers (checks : List Check) (request : ℕ) (now : ℤ) :
    ℕ → List (ℕ × Bool) → PermissionCache Answer × List (Option BatchResult) →
      PermissionCache Answer × List (Option BatchResult)
  | _, [], acc => acc
  | n, (j, allowed) :: rest, acc =>
    let answer : Answer := ⟨request, n, allowed⟩
    match checks[j]? with
    | none => acc
    | some c => storeAnswers checks request now (n + 1) rest
        (acc.1.set c.key answer now, acc.2.set j (some ⟨answer, false⟩))

/-- The stale answers for the places of a slice. -/
def staleSlice (checks : List Check) (failure : Failure) (now : ℤ) :
    List ℕ → PermissionCache Answer → List (ℕ × Option Answer) × PermissionCache Answer
  | [], cache => ([], cache)
  | j :: rest, cache =>
    match checks[j]? with
    | none => ([], cache)
    | some c =>
      let stale := staleOnRateLimit cache failure c.key now
      let others := staleSlice checks failure now rest stale.2
      ((j, stale.1) :: others.1, others.2)

/-- `slice.forEach((i, n) => { results[i] = stale[n] })` -/
def storeStale (results : List (Option BatchResult)) (stale : List (ℕ × Option Answer)) :
    List (Option BatchResult) :=
  stale.foldl (fun results p => results.set p.1 (p.2.map fun answer => ⟨answer, true⟩)) results

/-! ### Calls -/

namespace JunjoClient

def new (options : PermissionCacheOptions) : JunjoClient :=
  ⟨.new options, .empty, [], [], 0, [], []⟩

variable (s : JunjoClient)

def setCall (i : ℕ) (call : Call) (state : CallState) : JunjoClient :=
  { s with calls := s.calls.set i { call with state } }

/-- `check` -/
def check (c : Check) (mode : WaitMode) (now : ℤ) : JunjoClient :=
  match s.permissionCache.get c.key now with
  | some answer => { s with calls := s.calls ++ [⟨c, s.clearedAt, .served answer⟩] }
  | none =>
    if s.permissionCache.options.enabled then
      let state := if mode = .stopped then .failed else .waiting s.checkRequests.waits.length
      let joined := { s with
        checkRequests := s.checkRequests.run c.key mode
        calls := s.calls ++ [⟨c, s.clearedAt, state⟩] }
      if s.checkRequests.entries.has c.key then joined
      else { joined with
        numbers := s.numbers ++ [s.sent.length]
        sent := s.sent ++ [[c.sentAlone]] }
    else { s with
      sent := s.sent ++ [[c.sentAlone]]
      calls := s.calls ++ [⟨c, s.clearedAt, .direct s.sent.length⟩] }

/-- A call's signal or timeout ends its wait. -/
def stop (i : ℕ) : Option JunjoClient :=
  match s.calls[i]? with
  | some call =>
    match call.state with
    | .waiting w =>
      match s.checkRequests.waits[w]? with
      | some ⟨_, .untilStopped, .waiting⟩ =>
        some ({ s with checkRequests := s.checkRequests.leave w }.setCall i call .failed)
      | _ => none
    | _ => none
  | none => none

/-- A shared request settles: the answer to a registered one goes into the cache. -/
def settle (r : ℕ) (outcome : Except Failure Bool) (now : ℤ) : Option JunjoClient :=
  match s.checkRequests.requests[r]?, s.numbers[r]? with
  | some e, some request =>
    if e.settled.isNone then
      let answered := outcome.map fun allowed => (⟨request, 0, allowed⟩ : Answer)
      let settled := { s with checkRequests := s.checkRequests.settle r answered }
      if s.checkRequests.entries.get? e.key = some r then
        match answered with
        | .ok answer =>
          some { settled with permissionCache := s.permissionCache.set e.key answer now }
        | .error _ => some settled
      else some settled
    else none
  | _, _ => none

/-- What a call does with what its request ended with. -/
def finish (i : ℕ) (call : Call) (outcome : Except Failure Answer) (now : ℤ) : JunjoClient :=
  match outcome with
  | .ok answer => s.setCall i call (.answered answer)
  | .error failure =>
    let stale := staleOnRateLimit s.permissionCache failure call.check.key now
    let state := match stale.1 with
      | some answer => .served answer
      | none => .failed
    { s with permissionCache := stale.2 }.setCall i call state

/-- A waiting call takes what its shared request settled with. -/
def receive (i : ℕ) (now : ℤ) : Option JunjoClient :=
  match s.calls[i]? with
  | some call =>
    match call.state with
    | .waiting w =>
      match s.checkRequests.waits[w]? with
      | some ⟨r, _, .waiting⟩ =>
        match (s.checkRequests.requests[r]?).bind SharedEntry.settled with
        | some outcome =>
          some ({ s with checkRequests := s.checkRequests.receive w }.finish i call outcome now)
        | none => none
      | _ => none
    | _ => none
  | none => none

/-- A call's own request ends. -/
def settleDirect (i : ℕ) (outcome : Except Failure Bool) (now : ℤ) : Option JunjoClient :=
  match s.calls[i]? with
  | some call =>
    match call.state with
    | .direct request => some (s.finish i call (outcome.map fun allowed => ⟨request, 0, allowed⟩) now)
    | _ => none
  | none => none

def setBatch (i : ℕ) (b : Batch) : JunjoClient := { s with batches := s.batches.set i b }

/-- Ask the next slice, or return when there is none. -/
def nextSlice (i : ℕ) (b : Batch) : JunjoClient :=
  match b.pending with
  | [] => s.setBatch i { b with results := copyRepeats b.results b.repeats, state := .done }
  | _ =>
    let slice := b.pending.take checkBatchMaxEntries
    { s.setBatch i { b with
        pending := b.pending.drop checkBatchMaxEntries
        state := .asking s.sent.length slice } with
      sent := s.sent ++ [slice.filterMap fun j => (b.checks[j]?).map Check.sentInBatch] }

/-- `checkBatch` -/
def checkBatch (requests : List PermissionCheckRequest) (inherit : Bool) (now : ℤ) : JunjoClient :=
  let checks := requests.map fun request => (⟨request, inherit⟩ : Check)
  let p := plan s.permissionCache now checks
  let b : Batch := ⟨checks, s.clearedAt, p.results, p.pending, p.repeats, .done⟩
  { s with batches := s.batches ++ [b] }.nextSlice s.batches.length b

/-- The server answers a slice. -/
def answerSlice (i : ℕ) (allowed : List Bool) (now : ℤ) : Option JunjoClient :=
  match s.batches[i]? with
  | some b =>
    match b.state with
    | .asking request slice =>
      if allowed.length = slice.length then
        let stored := storeAnswers b.checks request now 0 (slice.zip allowed)
          (s.permissionCache, b.results)
        some ({ s with permissionCache := stored.1 }.nextSlice i { b with results := stored.2 })
      else some (s.setBatch i { b with state := .failed })
    | _ => none
  | none => none

/-- The request of a slice fails: stale answers serve it when every entry has one. -/
def failSlice (i : ℕ) (failure : Failure) (now : ℤ) : Option JunjoClient :=
  match s.batches[i]? with
  | some b =>
    match b.state with
    | .asking _ slice =>
      let stale := staleSlice b.checks failure now slice s.permissionCache
      let s := { s with permissionCache := stale.2 }
      if stale.1.all fun p => p.2.isSome then
        some (s.nextSlice i { b with results := storeStale b.results stale.1 })
      else some (s.setBatch i { b with state := .failed })
    | _ => none
  | none => none

/-- `clearPermissionCache` -/
def clearPermissionCache : JunjoClient :=
  { s with
    permissionCache := s.permissionCache.clear
    checkRequests := s.checkRequests.forget
    clearedAt := s.sent.length }

end JunjoClient

/-! ### Runs -/

inductive ClientEvent where
  | check (c : Check) (mode : WaitMode) (now : ℤ)
  | stop (call : ℕ)
  | settle (shared : ℕ) (outcome : Except Failure Bool) (now : ℤ)
  | receive (call : ℕ) (now : ℤ)
  | settleDirect (call : ℕ) (outcome : Except Failure Bool) (now : ℤ)
  | checkBatch (requests : List PermissionCheckRequest) (inherit : Bool) (now : ℤ)
  | answerSlice (batch : ℕ) (allowed : List Bool) (now : ℤ)
  | failSlice (batch : ℕ) (failure : Failure) (now : ℤ)
  | clearPermissionCache

namespace JunjoClient

def step (s : JunjoClient) : ClientEvent → Option JunjoClient
  | .check c mode now => some (s.check c mode now)
  | .stop call => s.stop call
  | .settle shared outcome now => s.settle shared outcome now
  | .receive call now => s.receive call now
  | .settleDirect call outcome now => s.settleDirect call outcome now
  | .checkBatch requests inherit now => some (s.checkBatch requests inherit now)
  | .answerSlice batch allowed now => s.answerSlice batch allowed now
  | .failSlice batch failure now => s.failSlice batch failure now
  | .clearPermissionCache => some s.clearPermissionCache

def run (options : PermissionCacheOptions) (events : List ClientEvent) : Option JunjoClient :=
  runSteps step (new options) events

end JunjoClient

end Junjo.Client
