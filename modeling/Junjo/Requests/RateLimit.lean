import Junjo.Core.Dict
import Junjo.Core.Text

/-!
# The rate limiter

A token bucket for each key. Only the buckets that were asked for are kept, and those that have
refilled are dropped when the map has grown to the eviction threshold. Times are milliseconds, and
all numbers are exact.
-/

namespace Junjo

structure RateLimitConfig where
  perMinute : ℚ
  burst : ℚ

structure BucketState where
  tokens : ℚ
  lastRefillMs : ℚ
  /-- Capacity multiplier the bucket was created with; absent means 1. -/
  scale : Option ℚ

structure ConsumeResult where
  allowed : Bool
  retryAfterSeconds : Option ℤ := none
deriving DecidableEq

/-- Minimum gap between eviction sweeps. -/
def minSweepIntervalMs : ℚ := 1000

structure RateLimiter where
  config : RateLimitConfig
  tokensPerMs : ℚ
  evictionThreshold : ℚ
  buckets : Dict Text BucketState
  /-- Absent before the first sweep. -/
  lastSweepMs : Option ℚ

namespace RateLimiter

def new (config : RateLimitConfig) (evictionThreshold : ℚ) : RateLimiter where
  config := config
  tokensPerMs := config.perMinute / 60000
  evictionThreshold := evictionThreshold
  buckets := Dict.empty
  lastSweepMs := none

variable (l : RateLimiter)

/-- Whether a bucket has refilled to capacity, with the scale it was created with. -/
def refilled (nowMs : ℚ) (bucket : BucketState) : Bool :=
  let scale := bucket.scale.getD 1
  let elapsedMs := max 0 (nowMs - bucket.lastRefillMs)
  l.config.burst * scale ≤ bucket.tokens + elapsedMs * l.tokensPerMs * scale

def evictRefilledBuckets (nowMs : ℚ) : RateLimiter :=
  { l with buckets := l.buckets.filter fun p => !l.refilled nowMs p.2 }

/-- Whether the map is large enough, and the last sweep long enough ago, for another. -/
def sweepDue (nowMs : ℚ) : Bool :=
  l.evictionThreshold ≤ l.buckets.size &&
    l.lastSweepMs.all fun lastSweepMs => minSweepIntervalMs ≤ nowMs - lastSweepMs

def sweep (nowMs : ℚ) : RateLimiter :=
  if l.sweepDue nowMs then { l with lastSweepMs := some nowMs }.evictRefilledBuckets nowMs else l

/-- The part of `consume` after the sweep. -/
def charge (key : Text) (scale nowMs : ℚ) : ConsumeResult × RateLimiter :=
  let capacity := l.config.burst * scale
  let refillPerMs := l.tokensPerMs * scale
  match l.buckets.get? key with
  | none =>
    ({ allowed := true },
      { l with buckets := l.buckets.set key ⟨capacity - 1, nowMs, some scale⟩ })
  | some bucket =>
    let elapsedMs := max 0 (nowMs - bucket.lastRefillMs)
    let refilled := min capacity (bucket.tokens + elapsedMs * refillPerMs)
    if refilled < 1 then
      let msToNextToken := (1 - refilled) / refillPerMs
      ({ allowed := false, retryAfterSeconds := some (max 1 ⌈msToNextToken / 1000⌉) }, l)
    else
      let bucket := { bucket with tokens := refilled - 1, lastRefillMs := nowMs }
      ({ allowed := true }, { l with buckets := l.buckets.set key bucket })

def consume (key : Text) (scale nowMs : ℚ) : ConsumeResult × RateLimiter :=
  (l.sweep nowMs).charge key scale nowMs

/-- Whether `consume` would allow the key now, without spending a token. -/
def wouldAllow (key : Text) (scale nowMs : ℚ) : Bool :=
  match l.buckets.get? key with
  | none => true
  | some bucket =>
    let elapsedMs := max 0 (nowMs - bucket.lastRefillMs)
    let refilled := min (l.config.burst * scale)
      (bucket.tokens + elapsedMs * l.tokensPerMs * scale)
    1 ≤ refilled

end RateLimiter

/-! ### Runs -/

inductive LimiterCallKind where
  | consume
  | wouldAllow
deriving DecidableEq

/-- A call and the clock it reads. -/
structure LimiterCall where
  kind : LimiterCallKind
  key : Text
  nowMs : ℚ

inductive LimiterAnswer where
  | consumed (result : ConsumeResult)
  | wouldAllow (allowed : Bool)
deriving DecidableEq

namespace RateLimiter

/-- Each key is always asked with its own scale. -/
def step (scale : Text → ℚ) (l : RateLimiter) (call : LimiterCall) : LimiterAnswer × RateLimiter :=
  match call.kind with
  | .consume =>
    let (result, l) := l.consume call.key (scale call.key) call.nowMs
    (.consumed result, l)
  | .wouldAllow => (.wouldAllow (l.wouldAllow call.key (scale call.key) call.nowMs), l)

/-- The limiter after some calls. -/
def after (scale : Text → ℚ) (l : RateLimiter) (calls : List LimiterCall) : RateLimiter :=
  calls.foldl (fun l call => (l.step scale call).2) l

def answers (scale : Text → ℚ) (l : RateLimiter) : List LimiterCall → List LimiterAnswer
  | [] => []
  | call :: calls => (l.step scale call).1 :: answers scale (l.step scale call).2 calls

/-- How many `consume` calls of a key between two times are allowed. -/
def allowedBetween (scale : Text → ℚ) (key : Text) (start stop : ℚ) (l : RateLimiter) :
    List LimiterCall → ℕ
  | [] => 0
  | call :: calls =>
    (if call.kind = .consume ∧ call.key = key ∧ start ≤ call.nowMs ∧ call.nowMs ≤ stop ∧
        (l.step scale call).1 = .consumed { allowed := true } then 1 else 0) +
      allowedBetween scale key start stop (l.step scale call).2 calls

/-- A limiter that never evicts: `consume` without the sweep. -/
def keepStep (scale : Text → ℚ) (l : RateLimiter) (call : LimiterCall) :
    LimiterAnswer × RateLimiter :=
  match call.kind with
  | .consume =>
    let (result, l) := l.charge call.key (scale call.key) call.nowMs
    (.consumed result, l)
  | .wouldAllow => (.wouldAllow (l.wouldAllow call.key (scale call.key) call.nowMs), l)

def keepAnswers (scale : Text → ℚ) (l : RateLimiter) : List LimiterCall → List LimiterAnswer
  | [] => []
  | call :: calls => (l.keepStep scale call).1 :: keepAnswers scale (l.keepStep scale call).2 calls

end RateLimiter

end Junjo
