import Junjo.Client.Checks

/-!
# The permission answers of a React tree

The provider keeps answers without an expiry, and the fetch of each key that is under way. A hook
reads the answer and, when there is none, fetches it through the client, which has a cache and
requests under way of its own. An invalidation drops answers and fetches.
-/

namespace Junjo.React

open Client

/-- NUL. -/
def keyDelimiter : CodeUnit := 0

def makeCacheKey (c : Check) : Text :=
  c.userId ++ keyDelimiter :: c.groupId ++ keyDelimiter :: c.permission ++
    keyDelimiter :: (if c.inherit then text "i" else text "d") ++
    keyDelimiter :: permissionContextKey c.context

/-- `MAX_ENTRIES` -/
def maxEntries : ℤ := 500

/-- What a fetch waits for: a `check` call, or one result of a `checkBatch` call. -/
inductive FetchSource where
  | call (i : ℕ)
  | batch (i position : ℕ)
deriving DecidableEq

structure Fetch where
  key : Text
  check : Check
  source : FetchSource

/-- A kept answer, with the server's answer that it comes from. -/
structure Held where
  allowed : Bool
  origin : Option Answer
deriving DecidableEq

/-- The calls of `useInvalidatePermissions`. -/
inductive Invalidation where
  | answer (c : Check)
  | user (userId : Text)
  | group (groupId : Text)
  | all

/-- A provider's cache over a client. Fetches are numbered in order; an invalidation is noted with
the number of requests that were sent before it. -/
structure PermissionProvider where
  junjo : JunjoClient
  entries : Dict Text Held
  inflight : Dict Text ℕ
  fetches : List Fetch
  /-- The checks that hooks have asked. -/
  asked : List Check
  invalidations : List (Invalidation × ℕ)

namespace PermissionProvider

/-- A provider whose client has the default configuration. -/
def new : PermissionProvider := ⟨.new {}, Dict.empty, Dict.empty, [], [], []⟩

variable (s : PermissionProvider)

/-- Register a fetch. -/
def register (c : Check) (source : FetchSource) : PermissionProvider :=
  { s with
    inflight := s.inflight.set (makeCacheKey c) s.fetches.length
    fetches := s.fetches ++ [⟨makeCacheKey c, c, source⟩] }

/-- Whether `prefetch` calls its fetcher. -/
def fetches? (c : Check) : Bool :=
  !s.inflight.has (makeCacheKey c) && !s.entries.has (makeCacheKey c)

/-- `checkOptions`: a context only when it has keys. -/
def checkOptions (c : Check) : Check :=
  { c with context := c.context.filter fun context => !context.entries.isEmpty }

/-- The effect of `useCan` for a check whose answer was not there when it rendered. -/
def useCan (c : Check) (now : ℤ) : PermissionProvider :=
  let s := { s with asked := s.asked ++ [c] }
  if s.fetches? c then
    { s with junjo := s.junjo.check (checkOptions c) .untilStopped now }.register c
      (.call s.junjo.calls.length)
  else s

/-- `prefetch` for one entry of a batch. -/
def prefetchResult (batch : ℕ) (s : PermissionProvider) (p : Check × ℕ) : PermissionProvider :=
  if s.fetches? p.1 then s.register p.1 (.batch batch p.2) else s

/-- The effect of `useCanMany` for the queries whose answers were not there when it rendered. -/
def useCanMany (queries : List PermissionCheckRequest) (inherit : Bool)
    (fallback : Option PermissionContext) (now : ℤ) : PermissionProvider :=
  let queries := queries.map fun q => { q with context := q.context.or fallback }
  let asked := queries.map fun q => (⟨q, inherit⟩ : Check)
  let missing := queries.filter fun q => !s.inflight.has (makeCacheKey ⟨q, inherit⟩)
  let s := { s with asked := s.asked ++ asked }
  if missing.isEmpty then s
  else
    ((missing.map fun q => (⟨q, inherit⟩ : Check)).zipIdx).foldl
      (prefetchResult s.junjo.batches.length)
      { s with junjo := s.junjo.checkBatch missing inherit now }

/-- What a fetch's promise settles with: the outer option says whether it has settled. -/
def outcome (f : Fetch) : Option (Option Held) :=
  match f.source with
  | .call i =>
    match (s.junjo.calls[i]?).map Call.state with
    | some (.served answer) | some (.answered answer) => some (some ⟨answer.allowed, some answer⟩)
    | some .failed => some none
    | _ => none
  | .batch i position =>
    match s.junjo.batches[i]? with
    | none => none
    | some b =>
      match b.state with
      | .done =>
        match (b.results[position]?).join with
        | some r => some (some ⟨r.answer.allowed, some r.answer⟩)
        | none => some (some ⟨false, none⟩)
      | .failed => some none
      | .asking _ _ => none

/-- The continuation of a fetch, which counts while it is the live one of its key. -/
def settleFetch (i : ℕ) : Option PermissionProvider :=
  match s.fetches[i]? with
  | none => none
  | some f =>
    match s.outcome f with
    | none => none
    | some held =>
      if s.inflight.get? f.key = some i then
        match held with
        | some held => some { s with
            entries := dropOldest maxEntries (s.entries.set f.key held)
            inflight := s.inflight.delete f.key }
        | none => some { s with inflight := s.inflight.delete f.key }
      else some s

/-- `key.split(KEY_DELIMITER)[segment]` -/
def segment (i : ℕ) (key : Text) : Option Text := (key.splitOn keyDelimiter)[i]?

/-- Whether an invalidation drops what is kept under a key. -/
def drops (i : Invalidation) (key : Text) : Bool :=
  match i with
  | .answer c => key = makeCacheKey c
  | .user userId => segment 0 key = some userId
  | .group groupId => segment 1 key = some groupId
  | .all => true

/-- `invalidate`, `invalidateUser`, `invalidateGroup` and `invalidateAll` -/
def invalidate (i : Invalidation) : PermissionProvider :=
  { s with
    entries := s.entries.filter fun p => !drops i p.1
    inflight := s.inflight.filter fun p => !drops i p.1
    invalidations := s.invalidations ++ [(i, s.junjo.sent.length)] }

end PermissionProvider

inductive ProviderEvent where
  /-- What happens in the client: answers, failures, timeouts, and calls that others make. -/
  | client (e : ClientEvent)
  | useCan (c : Check) (now : ℤ)
  | useCanMany (queries : List PermissionCheckRequest) (inherit : Bool)
    (fallback : Option PermissionContext) (now : ℤ)
  | settleFetch (i : ℕ)
  | invalidate (i : Invalidation)

namespace PermissionProvider

def step (s : PermissionProvider) : ProviderEvent → Option PermissionProvider
  | .client e => (s.junjo.step e).map fun junjo => { s with junjo }
  | .useCan c now => some (s.useCan c now)
  | .useCanMany queries inherit fallback now => some (s.useCanMany queries inherit fallback now)
  | .settleFetch i => s.settleFetch i
  | .invalidate i => some (s.invalidate i)

def run (events : List ProviderEvent) : Option PermissionProvider := runSteps step new events

end PermissionProvider

end Junjo.React
