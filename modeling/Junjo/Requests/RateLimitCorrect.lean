import Junjo.Core.TokenBucket
import Junjo.Requests.RateLimit

/-!
# The rate limiter answers like one bucket a key

The limiter and the one that never evicts both track an ideal limiter with a token bucket for every
key (`Tracks`): a dropped bucket is full, and a full bucket is like one that was never touched. What
holds of one bucket over a run, such as the bound on a window, then holds of every key.
-/

namespace Junjo

open TokenBucket

namespace RateLimiter

/-- The bucket of a key. -/
def shape (config : RateLimitConfig) (scale : Text → ℚ) (key : Text) : Shape ℚ :=
  ⟨config.burst * scale key, config.perMinute / 60000 * scale key⟩

/-- What the limiter keeps of a key. -/
def bucketOf (l : RateLimiter) (key : Text) : Option (Bucket ℚ) :=
  (l.buckets.get? key).map fun b => ⟨b.tokens, b.lastRefillMs⟩

/-! ### The ideal limiter -/

/-- A bucket for each key. -/
abbrev Ideal := Text → Option (Bucket ℚ)

/-- The answer of `consume` at a level. -/
def consumeAt (p : Shape ℚ) (level : ℚ) : ConsumeResult :=
  if level < 1 then
    { allowed := false, retryAfterSeconds := some (max 1 ⌈(1 - level) / p.rate / 1000⌉) }
  else { allowed := true }

def idealStep (config : RateLimitConfig) (scale : Text → ℚ) (f : Ideal) (call : LimiterCall) :
    LimiterAnswer × Ideal :=
  let p := shape config scale call.key
  match call.kind with
  | .consume =>
    (.consumed (consumeAt p (p.level (f call.key) call.nowMs)),
      fun key => if key = call.key then (p.serve (f key) call.nowMs).2 else f key)
  | .wouldAllow => (.wouldAllow (1 ≤ p.level (f call.key) call.nowMs), f)

/-- The limiter holds, up to full buckets, the buckets of the ideal one. -/
structure Tracks (config : RateLimitConfig) (scale : Text → ℚ) (nowMs : ℚ) (l : RateLimiter)
    (f : Ideal) : Prop where
  configured : l.config = config ∧ l.tokensPerMs = config.perMinute / 60000
  lastRefill : ∀ key bucket, l.buckets.get? key = some bucket → bucket.lastRefillMs ≤ nowMs
  scaled : ∀ key bucket, l.buckets.get? key = some bucket → bucket.scale = some (scale key)
  same : ∀ key, (shape config scale key).SameFrom nowMs (l.bucketOf key) (f key)

section Steps

variable {config : RateLimitConfig} {scale : Text → ℚ} {nowMs later : ℚ} {l : RateLimiter}
  {f : Ideal}

lemma tracks_new (threshold nowMs : ℚ) :
    Tracks config scale nowMs (new config threshold) fun _ => none where
  configured := ⟨rfl, rfl⟩
  lastRefill := by rintro key bucket ⟨⟩
  scaled := by rintro key bucket ⟨⟩
  same _ := Shape.SameFrom.refl _ _

lemma Tracks.mono (h : Tracks config scale nowMs l f) (hle : nowMs ≤ later) :
    Tracks config scale later l f where
  configured := h.configured
  lastRefill key bucket hget := (h.lastRefill key bucket hget).trans hle
  scaled := h.scaled
  same key := (h.same key).mono hle

lemma bucketOf_of_get? {key : Text} {bucket : BucketState} (h : l.buckets.get? key = some bucket) :
    l.bucketOf key = some ⟨bucket.tokens, bucket.lastRefillMs⟩ := by
  simp [bucketOf, h]

/-- The tokens of a kept bucket, as the code computes them. -/
lemma Tracks.level_eq (h : Tracks config scale nowMs l f) {key : Text} {bucket : BucketState}
    (hget : l.buckets.get? key = some bucket) :
    (shape config scale key).level (l.bucketOf key) nowMs
      = min (l.config.burst * scale key)
          (bucket.tokens + max 0 (nowMs - bucket.lastRefillMs) * (l.tokensPerMs * scale key)) := by
  have helapsed : 0 ≤ nowMs - bucket.lastRefillMs := sub_nonneg.mpr (h.lastRefill key bucket hget)
  rw [bucketOf_of_get? hget, max_eq_right helapsed, h.configured.1, h.configured.2]
  rfl

/-! ### Sweeps -/

/-- A swept bucket is full. -/
lemma Tracks.full_of_refilled (h : Tracks config scale nowMs l f) {key : Text}
    {bucket : BucketState} (hget : l.buckets.get? key = some bucket)
    (hrefilled : l.refilled nowMs bucket = true) :
    (shape config scale key).capacity
      ≤ (shape config scale key).level (l.bucketOf key) nowMs := by
  have hcapacity : (shape config scale key).capacity = l.config.burst * scale key := by
    rw [h.configured.1]
    rfl
  simp only [refilled, h.scaled key bucket hget, Option.getD_some, decide_eq_true_eq, mul_assoc]
    at hrefilled
  rw [h.level_eq hget, hcapacity]
  exact le_min le_rfl hrefilled

lemma get?_evictRefilledBuckets (key : Text) {bucket : BucketState} :
    (l.evictRefilledBuckets nowMs).buckets.get? key = some bucket ↔
      l.buckets.get? key = some bucket ∧ ¬ l.refilled nowMs bucket = true := by
  simp only [evictRefilledBuckets, Dict.get?_eq_some_iff, Dict.entries_filter, List.mem_filter,
    Bool.not_eq_true', Bool.not_eq_true]

lemma Tracks.evict (hrate : ∀ key, 0 ≤ (shape config scale key).rate)
    (h : Tracks config scale nowMs l f) :
    Tracks config scale nowMs (l.evictRefilledBuckets nowMs) f where
  configured := h.configured
  lastRefill key bucket hget :=
    h.lastRefill key bucket ((get?_evictRefilledBuckets key).mp hget).1
  scaled key bucket hget := h.scaled key bucket ((get?_evictRefilledBuckets key).mp hget).1
  same key := by
    cases hkept : (l.evictRefilledBuckets nowMs).buckets.get? key with
    | some bucket =>
      have hget := ((get?_evictRefilledBuckets key).mp hkept).1
      rw [bucketOf_of_get? hkept, ← bucketOf_of_get? hget]
      exact h.same key
    | none =>
      have hnone : (l.evictRefilledBuckets nowMs).bucketOf key = none := by
        simp [bucketOf, hkept]
      rw [hnone]
      cases hget : l.buckets.get? key with
      | none =>
        have hbefore : l.bucketOf key = none := by simp [bucketOf, hget]
        exact hbefore ▸ h.same key
      | some bucket =>
        -- the bucket was dropped, so it was full
        have hrefilled : l.refilled nowMs bucket = true := by
          by_contra hnot
          rw [(get?_evictRefilledBuckets key).mpr ⟨hget, hnot⟩] at hkept
          cases hkept
        have hfull := Shape.sameFrom_none_of_full (hrate key) (h.full_of_refilled hget hrefilled)
        intro later hlater
        rw [← hfull later hlater]
        exact h.same key later hlater

lemma Tracks.sweep (hrate : ∀ key, 0 ≤ (shape config scale key).rate)
    (h : Tracks config scale nowMs l f) : Tracks config scale nowMs (l.sweep nowMs) f := by
  unfold RateLimiter.sweep
  split_ifs
  · have h' : Tracks config scale nowMs { l with lastSweepMs := some nowMs } f :=
      ⟨h.configured, h.lastRefill, h.scaled, h.same⟩
    exact h'.evict hrate
  · exact h

/-! ### Calls -/

/-- Setting a bucket to what a served request leaves of it. -/
lemma Tracks.set (h : Tracks config scale nowMs l f) {key : Text} {bucket : BucketState}
    (hscale : bucket.scale = some (scale key)) (hnow : bucket.lastRefillMs = nowMs)
    (htokens : bucket.tokens = (shape config scale key).level (f key) nowMs - 1)
    (hone : ¬ (shape config scale key).level (f key) nowMs < 1) :
    Tracks config scale nowMs { l with buckets := l.buckets.set key bucket } fun key' =>
      if key' = key then ((shape config scale key).serve (f key') nowMs).2 else f key' where
  configured := h.configured
  lastRefill key' bucket' hget := by
    rw [Dict.get?_set] at hget
    split_ifs at hget with heq
    · obtain rfl := Option.some.inj hget
      exact hnow.le
    · exact h.lastRefill key' bucket' hget
  scaled key' bucket' hget := by
    rw [Dict.get?_set] at hget
    split_ifs at hget with heq
    · obtain rfl := Option.some.inj hget
      rw [heq, hscale]
    · exact h.scaled key' bucket' hget
  same key' := by
    by_cases heq : key' = key
    · subst heq
      have hbucket : bucketOf { l with buckets := l.buckets.set key' bucket } key'
          = some ((shape config scale key').take (f key') nowMs) := by
        simp only [bucketOf, Dict.get?_set_self, Option.map_some, htokens, hnow]
        rfl
      rw [hbucket, if_pos rfl, Shape.serve, if_neg hone]
      exact Shape.SameFrom.refl _ _
    · have hbucket : bucketOf { l with buckets := l.buckets.set key bucket } key'
          = l.bucketOf key' := by
        rw [bucketOf, Dict.get?_set_of_ne _ _ heq, bucketOf]
      rw [hbucket, if_neg heq]
      exact h.same key'

/-- A refused request changes nothing. -/
lemma Tracks.refused (h : Tracks config scale nowMs l f) {key : Text}
    (hless : (shape config scale key).level (f key) nowMs < 1) :
    Tracks config scale nowMs l fun key' =>
      if key' = key then ((shape config scale key).serve (f key') nowMs).2 else f key' := by
  have hsame : (fun key' => if key' = key then ((shape config scale key).serve (f key') nowMs).2
      else f key') = f := by
    funext key'
    split_ifs with heq
    · rw [heq, Shape.serve, if_pos hless]
    · rfl
  rw [hsame]
  exact h

lemma Tracks.charge (hcap : ∀ key, 1 ≤ (shape config scale key).capacity)
    (h : Tracks config scale nowMs l f) (key : Text) :
    (l.charge key (scale key) nowMs).1
        = consumeAt (shape config scale key) ((shape config scale key).level (f key) nowMs) ∧
      Tracks config scale nowMs (l.charge key (scale key) nowMs).2 fun key' =>
        if key' = key then ((shape config scale key).serve (f key') nowMs).2 else f key' := by
  have hlevel := h.same key nowMs le_rfl
  unfold RateLimiter.charge consumeAt
  cases hget : l.buckets.get? key with
  | none =>
    -- a key without a bucket has a full one
    have hfull : (shape config scale key).level (f key) nowMs
        = (shape config scale key).capacity := by
      rw [← hlevel, bucketOf, hget]
      rfl
    have hone : ¬ (shape config scale key).level (f key) nowMs < 1 := by
      rw [hfull]
      exact not_lt.mpr (hcap key)
    rw [if_neg hone]
    refine ⟨rfl, h.set rfl rfl ?_ hone⟩
    rw [hfull, h.configured.1]
    rfl
  | some bucket =>
    dsimp only
    rw [← h.level_eq hget, hlevel]
    split_ifs with hless
    · refine ⟨?_, h.refused hless⟩
      rw [h.configured.2]
      rfl
    · exact ⟨rfl, h.set (h.scaled key bucket hget) rfl rfl hless⟩

lemma Tracks.wouldAllow (hcap : ∀ key, 1 ≤ (shape config scale key).capacity)
    (h : Tracks config scale nowMs l f) (key : Text) :
    l.wouldAllow key (scale key) nowMs
      = decide (1 ≤ (shape config scale key).level (f key) nowMs) := by
  have hlevel := h.same key nowMs le_rfl
  unfold RateLimiter.wouldAllow
  cases hget : l.buckets.get? key with
  | none =>
    rw [← hlevel, bucketOf, hget]
    exact (decide_eq_true (hcap key)).symm
  | some bucket =>
    dsimp only
    rw [mul_assoc, ← h.level_eq hget, hlevel]

/-- Both limiters answer a call like the ideal one, and go on tracking it. -/
lemma Tracks.step (hcap : ∀ key, 1 ≤ (shape config scale key).capacity)
    (hrate : ∀ key, 0 ≤ (shape config scale key).rate) {call : LimiterCall}
    (h : Tracks config scale nowMs l f) (hle : nowMs ≤ call.nowMs) :
    (l.step scale call).1 = (idealStep config scale f call).1 ∧
      Tracks config scale call.nowMs (l.step scale call).2 (idealStep config scale f call).2 := by
  have hnow := h.mono hle
  unfold RateLimiter.step idealStep
  cases call.kind with
  | consume =>
    obtain ⟨hresult, htracks⟩ := (hnow.sweep hrate).charge hcap call.key
    exact ⟨congrArg _ hresult, htracks⟩
  | wouldAllow => exact ⟨congrArg _ (hnow.wouldAllow hcap call.key), hnow⟩

lemma Tracks.keepStep (hcap : ∀ key, 1 ≤ (shape config scale key).capacity)
    {call : LimiterCall} (h : Tracks config scale nowMs l f) (hle : nowMs ≤ call.nowMs) :
    (l.keepStep scale call).1 = (idealStep config scale f call).1 ∧
      Tracks config scale call.nowMs (l.keepStep scale call).2
        (idealStep config scale f call).2 := by
  have hnow := h.mono hle
  unfold RateLimiter.keepStep idealStep
  cases call.kind with
  | consume =>
    obtain ⟨hresult, htracks⟩ := hnow.charge hcap call.key
    exact ⟨congrArg _ hresult, htracks⟩
  | wouldAllow => exact ⟨congrArg _ (hnow.wouldAllow hcap call.key), hnow⟩

end Steps

/-! ### Runs -/

section Runs

variable {config : RateLimitConfig} {scale : Text → ℚ} {nowMs later : ℚ} {l : RateLimiter}
  {f : Ideal}

/-- The clock does not go back. -/
def Chronological (calls : List LimiterCall) : Prop :=
  calls.Pairwise fun call call' => call.nowMs ≤ call'.nowMs

/-- The ideal limiter after some calls. -/
def idealAfter (config : RateLimitConfig) (scale : Text → ℚ) (f : Ideal)
    (calls : List LimiterCall) : Ideal :=
  calls.foldl (fun f call => (idealStep config scale f call).2) f

/-- When a key is asked to consume. -/
def requestTimes (key : Text) (calls : List LimiterCall) : List ℚ :=
  (calls.filter fun call => call.kind = .consume ∧ call.key = key).map LimiterCall.nowMs

/-- Limiters that track one ideal limiter give the same answers, with or without sweeps. -/
lemma Tracks.answers_eq (hcap : ∀ key, 1 ≤ (shape config scale key).capacity)
    (hrate : ∀ key, 0 ≤ (shape config scale key).rate) {calls : List LimiterCall}
    (hclock : Chronological calls) {kept : RateLimiter} (h : Tracks config scale nowMs l f)
    (hkept : Tracks config scale nowMs kept f) (hnow : ∀ call ∈ calls, nowMs ≤ call.nowMs) :
    l.answers scale calls = kept.keepAnswers scale calls := by
  induction calls generalizing nowMs l kept f with
  | nil => rfl
  | cons call calls ih =>
    obtain ⟨hlater, hclock⟩ := List.pairwise_cons.mp hclock
    obtain ⟨hanswer, htracks⟩ := h.step hcap hrate (hnow call List.mem_cons_self)
    obtain ⟨hanswer', htracks'⟩ := hkept.keepStep hcap (hnow call List.mem_cons_self)
    rw [RateLimiter.answers, RateLimiter.keepAnswers, hanswer, hanswer',
      ih hclock htracks htracks' hlater]

lemma Tracks.after (hcap : ∀ key, 1 ≤ (shape config scale key).capacity)
    (hrate : ∀ key, 0 ≤ (shape config scale key).rate) {calls : List LimiterCall}
    (hclock : Chronological calls) (h : Tracks config scale nowMs l f)
    (hnow : ∀ call ∈ calls, nowMs ≤ call.nowMs) (hle : nowMs ≤ later)
    (hlater : ∀ call ∈ calls, call.nowMs ≤ later) :
    Tracks config scale later (l.after scale calls) (idealAfter config scale f calls) := by
  induction calls generalizing nowMs l f with
  | nil => exact h.mono hle
  | cons call calls ih =>
    obtain ⟨hfrom, hclock⟩ := List.pairwise_cons.mp hclock
    have hstep := (h.step hcap hrate (hnow call List.mem_cons_self)).2
    exact ih hclock hstep hfrom (hlater call List.mem_cons_self)
      fun call' hmem => hlater call' (List.mem_cons_of_mem _ hmem)

/-- The ideal limiter's bucket of a key is only touched by requests of that key. -/
lemma idealStep_other {call : LimiterCall} {key : Text}
    (h : call.kind = .consume → call.key ≠ key) :
    (idealStep config scale f call).2 key = f key := by
  unfold idealStep
  cases hkind : call.kind with
  | consume => exact if_neg fun heq => h hkind heq.symm
  | wouldAllow => rfl

lemma idealAfter_other {calls : List LimiterCall} {key : Text}
    (h : ∀ call ∈ calls, call.kind = .consume → call.key ≠ key) :
    idealAfter config scale f calls key = f key := by
  induction calls generalizing f with
  | nil => rfl
  | cons call calls ih =>
    have hrest := ih (f := (idealStep config scale f call).2) fun call' hmem =>
      h call' (List.mem_cons_of_mem _ hmem)
    exact hrest.trans (idealStep_other (h call List.mem_cons_self))

lemma idealAfter_append (calls calls' : List LimiterCall) :
    idealAfter config scale f (calls ++ calls')
      = idealAfter config scale (idealAfter config scale f calls) calls' :=
  List.foldl_append

lemma consumeAt_allowed {p : Shape ℚ} {level : ℚ} :
    (consumeAt p level).allowed = decide (1 ≤ level) := by
  unfold consumeAt
  split_ifs with hless
  · exact (decide_eq_false (not_le.mpr hless)).symm
  · exact (decide_eq_true (not_lt.mp hless)).symm

lemma consumeAt_eq_allowed {p : Shape ℚ} {level : ℚ} :
    consumeAt p level = { allowed := true } ↔ ¬ level < 1 := by
  unfold consumeAt
  split_ifs with hless
  · simp [hless]
  · simp [hless]

/-- The requests of a key are served by its bucket. -/
lemma Tracks.allowedBetween_eq (hcap : ∀ key, 1 ≤ (shape config scale key).capacity)
    (hrate : ∀ key, 0 ≤ (shape config scale key).rate) {calls : List LimiterCall}
    (hclock : Chronological calls) (h : Tracks config scale nowMs l f)
    (hnow : ∀ call ∈ calls, nowMs ≤ call.nowMs) (key : Text) (start stop : ℚ) :
    l.allowedBetween scale key start stop calls
      = (shape config scale key).servedBetween start stop (f key) (requestTimes key calls) := by
  induction calls generalizing nowMs l f with
  | nil => rfl
  | cons call calls ih =>
    obtain ⟨hfrom, hclock⟩ := List.pairwise_cons.mp hclock
    obtain ⟨hanswer, htracks⟩ := h.step hcap hrate (hnow call List.mem_cons_self)
    rw [allowedBetween, ih hclock htracks hfrom, hanswer]
    by_cases hrequest : call.kind = .consume ∧ call.key = key
    · obtain ⟨hkind, rfl⟩ := hrequest
      have hbucket : (idealStep config scale f call).2 call.key
          = ((shape config scale call.key).serve (f call.key) call.nowMs).2 := by
        simp only [idealStep, hkind, if_true]
      have hallowed : (idealStep config scale f call).1 = .consumed { allowed := true } ↔
          ¬ (shape config scale call.key).level (f call.key) call.nowMs < 1 := by
        simp only [idealStep, hkind, LimiterAnswer.consumed.injEq, consumeAt_eq_allowed]
      have htimes : requestTimes call.key (call :: calls)
          = call.nowMs :: requestTimes call.key calls := by
        simp [requestTimes, hkind]
      rw [hbucket, htimes, Shape.servedBetween]
      congr 1
      by_cases hwindow : start ≤ call.nowMs ∧ call.nowMs ≤ stop
      · simp only [hkind, hwindow, hallowed, true_and, if_true, Shape.serve]
        split_ifs <;> rfl
      · rw [if_neg hwindow, if_neg fun hall => hwindow ⟨hall.2.2.1, hall.2.2.2.1⟩]
    · have htimes : requestTimes key (call :: calls) = requestTimes key calls := by
        simp [requestTimes, hrequest]
      rw [htimes, if_neg fun hall => hrequest ⟨hall.1, hall.2.1⟩, zero_add,
        idealStep_other fun hkind heq => hrequest ⟨hkind, heq⟩]

lemma requestTimes_sorted {calls : List LimiterCall} (hclock : Chronological calls) (key : Text) :
    (requestTimes key calls).Pairwise (· ≤ ·) :=
  List.pairwise_map.mpr (hclock.sublist List.filter_sublist)

lemma le_of_mem_requestTimes {calls : List LimiterCall} (hnow : ∀ call ∈ calls, nowMs ≤ call.nowMs)
    {key : Text} {t : ℚ} (ht : t ∈ requestTimes key calls) : nowMs ≤ t := by
  obtain ⟨call, hmem, rfl⟩ := List.mem_map.mp ht
  exact hnow call (List.mem_filter.mp hmem).1

/-- The wait of a refusal is long enough for a whole token. -/
lemma one_le_level_of_refused (hcap : ∀ key, 1 ≤ (shape config scale key).capacity) {key : Text}
    (hrate : 0 < (shape config scale key).rate) {bucket : Option (Bucket ℚ)} {seconds : ℤ}
    (hrefused : consumeAt (shape config scale key) ((shape config scale key).level bucket nowMs)
      = { allowed := false, retryAfterSeconds := some seconds })
    (hwait : nowMs + 1000 * seconds ≤ later) : 1 ≤ (shape config scale key).level bucket later := by
  refine Shape.one_le_level_of_wait (hcap key) hrate (?_ : _ / _ ≤ later - nowMs)
  unfold consumeAt at hrefused
  split_ifs at hrefused with hless
  · simp only [ConsumeResult.mk.injEq, true_and, Option.some.injEq] at hrefused
    have hceil : (1 - (shape config scale key).level bucket nowMs) / (shape config scale key).rate
        / 1000 ≤ (seconds : ℚ) := by
      rw [← hrefused]
      exact (Int.le_ceil _).trans (by exact_mod_cast le_max_right _ _)
    rw [div_le_iff₀ (by norm_num)] at hceil
    linarith
  · exact absurd (congrArg ConsumeResult.allowed hrefused) (by simp)

end Runs

/-! ### The limiter -/

/-- With exact numbers and a clock that does not go back: sweeps change no answer, whatever the
threshold; in any window a key is allowed at most its capacity and what refills meanwhile;
`wouldAllow` answers what `consume` would; and a refused key is allowed once it has waited the
seconds it was told, if it did not ask in between. -/
theorem rateLimiter_correct (config : RateLimitConfig) (hrate : 0 < config.perMinute)
    (hburst : 0 < config.burst) (scale : Text → ℚ) (hscale : ∀ key, 1 ≤ config.burst * scale key)
    (threshold : ℚ) (calls : List LimiterCall) (hclock : Chronological calls) :
    (new config threshold).answers scale calls = (new config threshold).keepAnswers scale calls ∧
    (∀ key start length, 0 ≤ length →
      ((new config threshold).allowedBetween scale key start (start + length) calls : ℚ)
        ≤ config.burst * scale key + config.perMinute / 60000 * scale key * length) ∧
    (∀ key nowMs, (∀ call ∈ calls, call.nowMs ≤ nowMs) →
      ((new config threshold).after scale calls).wouldAllow key (scale key) nowMs
        = (((new config threshold).after scale calls).consume key (scale key) nowMs).1.allowed) ∧
    ∀ before refused between retry rest seconds,
      calls = before ++ refused :: (between ++ retry :: rest) →
      refused.kind = .consume → retry.kind = .consume → retry.key = refused.key →
      (∀ call ∈ between, call.kind = .consume → call.key ≠ refused.key) →
      (((new config threshold).after scale before).step scale refused).1
        = .consumed { allowed := false, retryAfterSeconds := some seconds } →
      refused.nowMs + 1000 * seconds ≤ retry.nowMs →
      (((new config threshold).after scale (before ++ refused :: between)).step scale retry).1
        = .consumed { allowed := true } := by
  have hscalepos : ∀ key, 0 < scale key := fun key =>
    pos_of_mul_pos_right (lt_of_lt_of_le one_pos (hscale key)) hburst.le
  have hcap : ∀ key, 1 ≤ (shape config scale key).capacity := hscale
  have hpos : ∀ key, 0 < (shape config scale key).rate := fun key =>
    mul_pos (div_pos hrate (by norm_num)) (hscalepos key)
  have hnonneg : ∀ key, 0 ≤ (shape config scale key).rate := fun key => (hpos key).le
  -- some time before all calls
  obtain ⟨first, hfirst⟩ : ∃ first, ∀ call ∈ calls, first ≤ call.nowMs := by
    cases calls with
    | nil => exact ⟨0, fun _ hmem => by simp at hmem⟩
    | cons call calls =>
      refine ⟨call.nowMs, fun call' hmem => ?_⟩
      rcases List.mem_cons.mp hmem with rfl | hmem
      · exact le_rfl
      · exact (List.pairwise_cons.mp hclock).1 call' hmem
  have hnew : Tracks config scale first (new config threshold) fun _ => none :=
    tracks_new threshold first
  refine ⟨hnew.answers_eq hcap hnonneg hclock hnew hfirst, ?_, ?_, ?_⟩
  · intro key start length hlength
    rw [hnew.allowedBetween_eq hcap hnonneg hclock hfirst]
    have hbound := Shape.servedBetween_le (zero_le_one.trans (hcap key)) (hnonneg key)
      (requestTimes_sorted hclock key) (fun t ht => le_of_mem_requestTimes hfirst ht)
      (zero_le_one.trans (hcap key) : 0 ≤ (shape config scale key).level none first)
      (le_add_of_nonneg_right hlength : start ≤ start + length)
    refine hbound.trans (le_of_eq ?_)
    simp only [shape]
    ring
  · intro key nowMs hnow
    have hfrom : ∀ call ∈ calls, min first nowMs ≤ call.nowMs := fun call hmem =>
      (min_le_left _ _).trans (hfirst call hmem)
    have hafter : Tracks config scale nowMs ((new config threshold).after scale calls)
        (idealAfter config scale (fun _ => none) calls) :=
      (tracks_new threshold (min first nowMs)).after hcap hnonneg hclock hfrom (min_le_right _ _) hnow
    have hconsume := ((hafter.sweep hnonneg).charge hcap key).1
    rw [hafter.wouldAllow hcap, RateLimiter.consume, hconsume, consumeAt_allowed]
  · rintro before refused between retry rest seconds rfl hrefusedKind hretryKind hkey hbetween
      hanswer hwait
    obtain ⟨hbefore, htail, hcross⟩ := List.pairwise_append.mp hclock
    obtain ⟨hrefused, htail⟩ := List.pairwise_cons.mp htail
    obtain ⟨hmiddle, -, hretry⟩ := List.pairwise_append.mp htail
    -- the bucket as the refused request finds it
    have hat : Tracks config scale refused.nowMs ((new config threshold).after scale before)
        (idealAfter config scale (fun _ => none) before) :=
      hnew.after hcap hnonneg hbefore (fun call hmem => hfirst call (by simp [hmem]))
        (hfirst refused (by simp)) fun call hmem => hcross call hmem refused List.mem_cons_self
    have hrefusal := (hat.step hcap hnonneg le_rfl).1
    rw [hanswer] at hrefusal
    simp only [idealStep, hrefusedKind, LimiterAnswer.consumed.injEq] at hrefusal
    have hless : (shape config scale refused.key).level
        (idealAfter config scale (fun _ => none) before refused.key) refused.nowMs < 1 := by
      by_contra hnot
      rw [consumeAt_eq_allowed.mpr hnot] at hrefusal
      simp at hrefusal
    -- neither the refusal nor the calls in between touch it
    have hsplit : before ++ refused :: between = (before ++ [refused]) ++ between := by simp
    have hbucket : idealAfter config scale (fun _ => none) (before ++ refused :: between) refused.key
        = idealAfter config scale (fun _ => none) before refused.key := by
      rw [hsplit, idealAfter_append, idealAfter_append, idealAfter_other hbetween]
      simp only [idealAfter, List.foldl_cons, List.foldl_nil, idealStep, hrefusedKind, if_true]
      rw [Shape.serve, if_pos]
      exact hless
    have hchain : Chronological (before ++ refused :: between) := by
      refine hclock.sublist (List.Sublist.append_left ?_ before)
      exact (List.sublist_append_left between _).cons_cons refused
    have hlater : Tracks config scale retry.nowMs
        ((new config threshold).after scale (before ++ refused :: between))
        (idealAfter config scale (fun _ => none) (before ++ refused :: between)) := by
      refine hnew.after hcap hnonneg hchain (fun call hmem => hfirst call ?_) (hfirst retry (by simp))
        fun call hmem => ?_
      · simp only [List.mem_append, List.mem_cons] at hmem ⊢
        tauto
      · rcases List.mem_append.mp hmem with hmem | hmem
        · exact hcross call hmem retry (by simp)
        · rcases List.mem_cons.mp hmem with rfl | hmem
          · exact hrefused retry (by simp)
          · exact hretry call hmem retry List.mem_cons_self
    have hone := one_le_level_of_refused hcap (hpos refused.key) hrefusal.symm hwait
    rw [(hlater.step hcap hnonneg le_rfl).1]
    simp only [idealStep, hretryKind, LimiterAnswer.consumed.injEq]
    rw [consumeAt_eq_allowed, hkey, hbucket]
    exact not_lt.mpr hone

/-- Requests of a key at these times. -/
private def requestsAt (times : List ℚ) : List LimiterCall :=
  times.map fun nowMs => ⟨.consume, text "k", nowMs⟩

/-- Five requests a minute with a burst of one: the second request at once is told to wait twelve
seconds, and is allowed then. -/
theorem rateLimiter_correct_refusedOnce :
    (new ⟨5, 1⟩ 10000).answers (fun _ => 1) (requestsAt [0, 0, 12000])
        = (new ⟨5, 1⟩ 10000).keepAnswers (fun _ => 1) (requestsAt [0, 0, 12000]) ∧
      (((new ⟨5, 1⟩ 10000).after (fun _ => 1) (requestsAt [0, 0])).step (fun _ => 1)
        ⟨.consume, text "k", 12000⟩).1 = .consumed { allowed := true } := by
  obtain ⟨hanswers, -, -, hretry⟩ := rateLimiter_correct ⟨5, 1⟩ (by norm_num) (by norm_num)
    (fun _ => 1) (fun _ => by norm_num) 10000 (requestsAt [0, 0, 12000])
    (by simp [Chronological, requestsAt])
  exact ⟨hanswers, hretry (requestsAt [0]) ⟨.consume, text "k", 0⟩ [] ⟨.consume, text "k", 12000⟩ []
    12 rfl rfl rfl rfl (by simp) (by decide +kernel) (by norm_num)⟩

end RateLimiter

end Junjo
