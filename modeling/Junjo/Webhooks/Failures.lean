import Junjo.Webhooks.Attempts

/-!
# The failure counter of an endpoint

Calls of `deliverOne` in any number of processes. A call reads the counter of its endpoint before its
request and writes it back after. The counter and the automatic disable are right in the runs in
which no failed attempt writes over a counter that changed since it read it.
-/

namespace Junjo.Webhooks

/-- Where a call of `deliverOne` is. -/
inductive CallPlace where
  | sending (attempt : DeliveryAttempt)
  | committing (attempt : DeliveryAttempt) (res : Option WebhookFetchResult)
  | returned (outcome : DeliveryOutcome)
  | threw
deriving DecidableEq

/-- An attempt that was committed: its endpoint, whether it was a success, and whether it disabled
the endpoint. -/
structure CommittedAttempt where
  endpointId : ℕ
  ok : Bool
  disabled : Bool
deriving DecidableEq

/-- The tables, the calls, and the attempts in the order of their commits, latest first. -/
structure DeliveryServer where
  db : WebhookTables := {}
  calls : Dict ℕ CallPlace := Dict.empty
  committed : List CommittedAttempt := []
deriving DecidableEq

inductive DeliveryEvent where
  | read (call deliveryId : ℕ)
  | respond (call : ℕ) (res : Option WebhookFetchResult)
  | commit (call nowDate : ℕ)
  /-- An error of the database. -/
  | fail (call : ℕ)
  | claim (now : ℕ) (locked : List ℕ) (batchSize leaseMs : ℕ)
  | release (ids : List ℕ) (at' : ℕ)
  | enqueue (id endpointId now : ℕ)
  | setDisabled (endpointId : ℕ) (disabledAt : Option ℕ)
  | deleteEndpoint (endpointId : ℕ)

/-- The failures of an endpoint since its last success. -/
def failuresSinceSuccess (committed : List CommittedAttempt) (endpointId : ℕ) : ℕ :=
  ((committed.filter fun c => c.endpointId = endpointId).takeWhile fun c => !c.ok).length

namespace DeliveryServer

/-- The end of an attempt, when its transaction commits. -/
def commit (s : DeliveryServer) (call : ℕ) (a : DeliveryAttempt) (res : Option WebhookFetchResult)
    (nowDate : ℕ) : Option DeliveryServer :=
  (s.db.commitAttempt a res nowDate).map fun db =>
    { db := db
      calls := s.calls.set call (.returned (a.outcome res nowDate))
      committed := ⟨a.delivery.endpointId, httpOk res, a.shouldAutoDisable res⟩ :: s.committed }

/-- One event; `none` when it is not possible. -/
def next (s : DeliveryServer) : DeliveryEvent → Option DeliveryServer
  | .read call deliveryId =>
    if s.calls.has call then none
    else match s.db.readDelivery deliveryId with
      | .inl outcome => some { s with calls := s.calls.set call (.returned outcome) }
      | .inr attempt => some { s with calls := s.calls.set call (.sending attempt) }
  | .respond call res =>
    match s.calls.get? call with
    | some (.sending attempt) =>
      some { s with calls := s.calls.set call (.committing attempt res) }
    | _ => none
  | .commit call nowDate =>
    match s.calls.get? call with
    | some (.committing attempt res) => s.commit call attempt res nowDate
    | _ => none
  | .fail call =>
    if s.calls.has call then some { s with calls := s.calls.set call .threw } else none
  | .claim now locked batchSize leaseMs =>
    some { s with db := (s.db.claimDueDeliveries now locked batchSize leaseMs).1 }
  | .release ids at' => some { s with db := s.db.releaseClaims ids at' }
  | .enqueue id endpointId now =>
    (s.db.enqueue id endpointId now).map fun db => { s with db := db }
  | .setDisabled endpointId disabledAt =>
    some { s with db := s.db.setDisabled endpointId disabledAt }
  | .deleteEndpoint endpointId => some { s with db := s.db.deleteEndpoint endpointId }

def run (s : DeliveryServer) (events : List DeliveryEvent) : Option DeliveryServer :=
  runSteps next s events

/-- The counters count the failures since the last success. -/
def CountersRight (s : DeliveryServer) : Prop :=
  ∀ endpointId endpoint, s.db.endpoints.get? endpointId = some endpoint →
    endpoint.consecutiveFailures = failuresSinceSuccess s.committed endpointId

/-- Every automatic disable came with so many failures and no success between them. -/
def DisablesRight (s : DeliveryServer) : Prop :=
  ∀ c before, (c :: before) <:+ s.committed → c.disabled →
    webhookAutoDisableThreshold ≤ failuresSinceSuccess (c :: before) c.endpointId

/-- A failed attempt commits only while its endpoint's counter is as the attempt read it. -/
def CounterUnchanged (s : DeliveryServer) : DeliveryEvent → Prop
  | .commit call _ => ∀ attempt res endpoint, s.calls.get? call = some (.committing attempt res) →
      httpOk res = false → s.db.endpoints.get? attempt.delivery.endpointId = some endpoint →
      endpoint.consecutiveFailures = attempt.endpoint.consecutiveFailures
  | _ => True

/-! ### One step -/

section Failures

variable {committed : List CommittedAttempt} {c : CommittedAttempt} {endpointId : ℕ}

lemma failures_cons_of_ne (h : c.endpointId ≠ endpointId) :
    failuresSinceSuccess (c :: committed) endpointId = failuresSinceSuccess committed endpointId := by
  rw [failuresSinceSuccess, List.filter_cons_of_neg (by simpa using h)]
  rfl

lemma failures_cons_ok (h : c.endpointId = endpointId) (hok : c.ok = true) :
    failuresSinceSuccess (c :: committed) endpointId = 0 := by
  rw [failuresSinceSuccess, List.filter_cons_of_pos (by simpa using h),
    List.takeWhile_cons_of_neg (by simp [hok])]
  rfl

lemma failures_cons_failed (h : c.endpointId = endpointId) (hok : c.ok = false) :
    failuresSinceSuccess (c :: committed) endpointId =
      failuresSinceSuccess committed endpointId + 1 := by
  rw [failuresSinceSuccess, List.filter_cons_of_pos (by simpa using h),
    List.takeWhile_cons_of_pos (by simp [hok]), List.length_cons]
  rfl

end Failures

variable {s s' : DeliveryServer}

lemma DisablesRight.cons {committed : List CommittedAttempt} {c : CommittedAttempt}
    {db db' : WebhookTables} {calls calls' : Dict ℕ CallPlace}
    (h : DisablesRight ⟨db, calls, committed⟩)
    (hc : c.disabled → webhookAutoDisableThreshold ≤
      failuresSinceSuccess (c :: committed) c.endpointId) :
    DisablesRight ⟨db', calls', c :: committed⟩ := by
  intro c' before hsuffix hdisabled
  rcases List.suffix_cons_iff.mp hsuffix with heq | hsuffix
  · rw [List.cons.injEq] at heq
    obtain ⟨rfl, rfl⟩ := heq
    exact hc hdisabled
  · exact h c' before hsuffix hdisabled

/-- What a commit does: the rows, the call and the log. -/
lemma commit_eq {call nowDate : ℕ} {a : DeliveryAttempt} {res : Option WebhookFetchResult}
    (h : s.commit call a res nowDate = some s') :
    ∃ endpoint, s.db.endpoints.get? a.delivery.endpointId = some endpoint ∧
      s'.db.endpoints = s.db.endpoints.set a.delivery.endpointId
        (a.updateEndpoint res nowDate endpoint) ∧
      s'.committed = ⟨a.delivery.endpointId, httpOk res, a.shouldAutoDisable res⟩ :: s.committed := by
  rw [commit, Option.map_eq_some_iff] at h
  obtain ⟨db, hdb, rfl⟩ := h
  rw [WebhookTables.commitAttempt, Option.bind_eq_some_iff] at hdb
  obtain ⟨delivery, -, hdb⟩ := hdb
  obtain ⟨endpoint, hendpoint, rfl⟩ := Option.map_eq_some_iff.mp hdb
  exact ⟨endpoint, hendpoint, rfl, rfl⟩

/-- A commit leaves the counters right if and only if a failure found its endpoint's counter as it
had read it. -/
lemma countersRight_commit (h : s.CountersRight) {call nowDate : ℕ} {a : DeliveryAttempt}
    {res : Option WebhookFetchResult} (hcommit : s.commit call a res nowDate = some s') :
    s'.CountersRight ↔ (httpOk res = false →
      ∀ endpoint, s.db.endpoints.get? a.delivery.endpointId = some endpoint →
        endpoint.consecutiveFailures = a.endpoint.consecutiveFailures) := by
  obtain ⟨endpoint, hendpoint, hendpoints, hlog⟩ := commit_eq hcommit
  have hcount := h _ _ hendpoint
  have hothers : ∀ e row, e ≠ a.delivery.endpointId → s'.db.endpoints.get? e = some row →
      row.consecutiveFailures = failuresSinceSuccess s'.committed e := by
    intro e row hne hrow
    rw [hendpoints, Dict.get?_set_of_ne _ _ hne] at hrow
    rw [hlog, failures_cons_of_ne (Ne.symm hne)]
    exact h e row hrow
  have hown : s'.db.endpoints.get? a.delivery.endpointId =
      some (a.updateEndpoint res nowDate endpoint) := by rw [hendpoints, Dict.get?_set_self]
  have hsplit : s'.CountersRight ↔ a.newConsecutive res =
      failuresSinceSuccess s'.committed a.delivery.endpointId := by
    refine ⟨fun hright => hright _ _ hown, fun heq e row hrow => ?_⟩
    by_cases he : e = a.delivery.endpointId
    · subst he
      rw [hown, Option.some.injEq] at hrow
      rw [← hrow]
      exact heq
    · exact hothers e row he hrow
  rw [hsplit, hlog, DeliveryAttempt.newConsecutive]
  cases hok : httpOk res with
  | true =>
    rw [failures_cons_ok rfl rfl, if_pos rfl]
    simp
  | false =>
    rw [failures_cons_failed rfl rfl, if_neg Bool.false_ne_true, ← hcount]
    constructor
    · intro hsucc _ row hrow
      rw [hendpoint, Option.some.injEq] at hrow
      rw [← hrow]
      exact (Nat.succ.inj hsucc).symm
    · intro hread
      rw [hread rfl endpoint hendpoint]

/-- A commit that finds the counter as it was read disables its endpoint only at the threshold. -/
lemma disablesRight_commit (hdisables : s.DisablesRight) {call nowDate : ℕ}
    {a : DeliveryAttempt} {res : Option WebhookFetchResult}
    (hcommit : s.commit call a res nowDate = some s') (hcounts : s'.CountersRight) :
    s'.DisablesRight := by
  obtain ⟨endpoint, hendpoint, hendpoints, hlog⟩ := commit_eq hcommit
  have hcount := hcounts a.delivery.endpointId (a.updateEndpoint res nowDate endpoint)
    (by rw [hendpoints, Dict.get?_set_self])
  obtain ⟨db', calls', committed'⟩ := s'
  cases hlog
  refine hdisables.cons fun hdisabled => ?_
  simp only [DeliveryAttempt.shouldAutoDisable, Bool.and_eq_true, decide_eq_true_eq] at hdisabled
  change a.newConsecutive res = _ at hcount
  rw [← hcount]
  exact hdisabled.2

/-- Every other step leaves the counters and the log as they are. -/
lemma counters_of_not_commit {e : DeliveryEvent} (he : ∀ call nowDate, e ≠ .commit call nowDate)
    (hnext : s.next e = some s') : s'.committed = s.committed ∧
      ∀ id row', s'.db.endpoints.get? id = some row' → ∃ row,
        s.db.endpoints.get? id = some row ∧ row'.consecutiveFailures = row.consecutiveFailures := by
  have hsame : ∀ {calls db}, db.endpoints = s.db.endpoints →
      some { s with calls := calls, db := db } = some s' → s'.committed = s.committed ∧
      ∀ id row', s'.db.endpoints.get? id = some row' → ∃ row,
        s.db.endpoints.get? id = some row ∧ row'.consecutiveFailures = row.consecutiveFailures := by
    rintro calls db hdb ⟨⟩
    refine ⟨rfl, fun id row' hrow => ⟨row', ?_, rfl⟩⟩
    rw [← hdb]
    exact hrow
  cases e with
  | commit call nowDate => exact absurd rfl (he call nowDate)
  | read call deliveryId =>
    rw [DeliveryServer.next] at hnext
    split_ifs at hnext
    split at hnext <;> exact hsame rfl hnext
  | respond call res =>
    rw [DeliveryServer.next] at hnext
    split at hnext
    · exact hsame rfl hnext
    · cases hnext
  | fail call =>
    rw [DeliveryServer.next] at hnext
    split_ifs at hnext
    exact hsame rfl hnext
  | claim now locked batchSize leaseMs => exact hsame (by rfl) hnext
  | release ids at' => exact hsame (by rfl) hnext
  | enqueue id endpointId now =>
    rw [DeliveryServer.next, WebhookTables.enqueue] at hnext
    split_ifs at hnext
    · cases hnext
    · exact hsame (by rfl) hnext
  | setDisabled endpointId disabledAt =>
    cases hnext
    refine ⟨rfl, fun id row' hrow => ?_⟩
    rw [WebhookTables.setDisabled] at hrow
    split at hrow
    · exact ⟨row', hrow, rfl⟩
    · rename_i endpoint hendpoint
      rw [Dict.get?_set] at hrow
      split_ifs at hrow with hid
      · cases hrow
        exact ⟨endpoint, hid ▸ hendpoint, rfl⟩
      · exact ⟨row', hrow, rfl⟩
  | deleteEndpoint endpointId =>
    cases hnext
    refine ⟨rfl, fun id row' hrow => ⟨row', ?_, rfl⟩⟩
    rw [WebhookTables.deleteEndpoint, Dict.get?_delete] at hrow
    split_ifs at hrow
    exact hrow

/-- A step from right counters leaves them right if and only if its commit, if it is one, finds the
counter as it was read. -/
lemma right_next (h : s.CountersRight) (hdisables : s.DisablesRight) {e : DeliveryEvent}
    (hnext : s.next e = some s') :
    (s'.CountersRight ∧ s'.DisablesRight) ↔ s.CounterUnchanged e := by
  by_cases he : ∃ call nowDate, e = .commit call nowDate
  · obtain ⟨call, nowDate, rfl⟩ := he
    rw [DeliveryServer.next] at hnext
    split at hnext
    · rename_i a res hcall
      have hright := countersRight_commit h hnext
      constructor
      · rintro ⟨hcounts, -⟩ attempt res' endpoint hcall' hfailed hendpoint
        rw [hcall, Option.some.injEq, CallPlace.committing.injEq] at hcall'
        obtain ⟨rfl, rfl⟩ := hcall'
        exact hright.mp hcounts hfailed endpoint hendpoint
      · intro hunchanged
        have hcounts := hright.mpr fun hfailed endpoint => hunchanged a res endpoint hcall hfailed
        exact ⟨hcounts, disablesRight_commit hdisables hnext hcounts⟩
    · cases hnext
  · have he' : ∀ call nowDate, e ≠ .commit call nowDate :=
      fun call nowDate heq => he ⟨call, nowDate, heq⟩
    obtain ⟨hlog, hrows⟩ := counters_of_not_commit he' hnext
    refine iff_of_true ⟨?_, ?_⟩ ?_
    · intro id row' hrow'
      obtain ⟨row, hrow, hcount⟩ := hrows id row' hrow'
      rw [hcount, hlog]
      exact h id row hrow
    · intro c before hsuffix
      rw [hlog] at hsuffix
      exact hdisables c before hsuffix
    · cases e with
      | commit call nowDate => exact absurd rfl (he' call nowDate)
      | _ => trivial

/-! ### Runs -/

/-- In a run from right counters, every counter counts the failures since the last success and every
automatic disable comes at the threshold, if and only if no failed attempt commits when the counter
of its endpoint has changed since it read it. -/
theorem counters_right_iff {s₀ : DeliveryServer} (h₀ : s₀.CountersRight) (h₀' : s₀.DisablesRight)
    (events : List DeliveryEvent) :
    (∀ n s₁, s₀.run (events.take n) = some s₁ → s₁.CountersRight ∧ s₁.DisablesRight) ↔
      ∀ before e after s₁ s₂, events = before ++ e :: after → s₀.run before = some s₁ →
        s₁.next e = some s₂ → s₁.CounterUnchanged e := by
  constructor
  · rintro hright before e after s₁ s₂ rfl hbefore hnext
    obtain ⟨hcounts, hdisables⟩ := hright before.length s₁ (by rwa [List.take_left])
    refine (right_next hcounts hdisables hnext).mp (hright (before.length + 1) s₂ ?_)
    have hsplit : before ++ e :: after = (before ++ [e]) ++ after := by simp
    rw [hsplit, List.take_left' (by simp), run, runSteps_concat]
    exact Option.bind_eq_some_iff.mpr ⟨s₁, hbefore, hnext⟩
  · intro hunchanged n s₁ hrun
    refine runSteps_invariant_of (P := fun s => s.CountersRight ∧ s.DisablesRight)
      (C := fun s e => ∀ s', s.next e = some s' → s.CounterUnchanged e) ?_ ⟨h₀, h₀'⟩ hrun ?_
    · intro s e s' hs hC hnext
      exact (right_next hs.1 hs.2 hnext).mpr (hC s' hnext)
    · intro before e after s₂ hsplit hbefore s' hnext
      refine hunchanged before e (after ++ events.drop n) s₂ s' ?_ hbefore hnext
      rw [← List.cons_append, ← List.append_assoc, ← hsplit, List.take_append_drop]

/-! ### Overlapping attempts -/

/-- An endpoint without deliveries. -/
def oneEndpoint : DeliveryServer := { db := { endpoints := Dict.ofList [(1, {})] } }

lemma oneEndpoint_right : oneEndpoint.CountersRight := by
  intro endpointId endpoint h
  rw [show oneEndpoint.db.endpoints = Dict.empty.set 1 {} from rfl, Dict.get?_set] at h
  split_ifs at h
  · cases h
    rfl
  · cases h

/-- Two workers fail at two deliveries, each while the other's request is under way. -/
def overlappingFailures : List DeliveryEvent :=
  [.enqueue 0 1 0, .claim 0 [] 50 webhookClaimLeaseMs, .read 0 0,
    .enqueue 1 1 5, .claim 5 [] 50 webhookClaimLeaseMs, .read 1 1,
    .respond 0 none, .commit 0 10, .respond 1 none, .commit 1 15]

/-- The counter is wrong somewhere in that run if and only if a failed attempt commits when it has
changed. -/
theorem counters_right_iff_overlapping :
    (∀ n s₁, oneEndpoint.run (overlappingFailures.take n) = some s₁ →
      s₁.CountersRight ∧ s₁.DisablesRight) ↔
      ∀ before e after s₁ s₂, overlappingFailures = before ++ e :: after →
        oneEndpoint.run before = some s₁ → s₁.next e = some s₂ → s₁.CounterUnchanged e :=
  counters_right_iff oneEndpoint_right (fun _ _ hsuffix => by cases List.suffix_nil.mp hsuffix)
    overlappingFailures

/-- A failed attempt of one delivery, by a call of its own. -/
def failedAttempt (n : ℕ) : List DeliveryEvent :=
  [.enqueue n 1 n, .claim n [] 50 webhookClaimLeaseMs, .read n n, .respond n none, .commit n n]

/-- After failed attempts, a worker's success during another's attempt. -/
def successDuringFailure (n : ℕ) : List DeliveryEvent :=
  (List.range n).flatMap failedAttempt ++
    [.enqueue n 1 n, .claim n [] 50 webhookClaimLeaseMs, .read n n,
      .enqueue (n + 1) 1 n, .claim n [] 50 webhookClaimLeaseMs, .read (n + 1) (n + 1),
      .respond (n + 1) (some ⟨true, 200⟩), .commit (n + 1) n, .respond n none, .commit n n]

/-- Two failures count as one, and a single failure after a success disables the endpoint. -/
theorem counters_wrong :
    (∃ s, oneEndpoint.run overlappingFailures = some s ∧ ¬ s.CountersRight) ∧
      ∃ s, oneEndpoint.run (successDuringFailure 24) = some s ∧ ¬ s.DisablesRight := by
  constructor
  · have hrun : (oneEndpoint.run overlappingFailures).map
        (fun s => (s.db.endpoints.get? 1, failuresSinceSuccess s.committed 1)) =
        some (some ⟨none, 1⟩, 2) := by decide
    obtain ⟨s, hs, hboth⟩ := Option.map_eq_some_iff.mp hrun
    rw [Prod.mk.injEq] at hboth
    refine ⟨s, hs, fun hright => ?_⟩
    have hcount := hright 1 _ hboth.1
    rw [hboth.2] at hcount
    cases hcount
  · have hrun : (oneEndpoint.run (successDuringFailure 24)).map
        (fun s => (s.committed.take 2, failuresSinceSuccess (s.committed.take 2) 1)) =
        some ([⟨1, false, true⟩, ⟨1, true, false⟩], 1) := by decide +kernel
    obtain ⟨s, hs, hboth⟩ := Option.map_eq_some_iff.mp hrun
    rw [Prod.mk.injEq] at hboth
    refine ⟨s, hs, fun hright => ?_⟩
    obtain ⟨before, hlog⟩ : ∃ before, s.committed = ⟨1, false, true⟩ :: ⟨1, true, false⟩ :: before :=
      ⟨s.committed.drop 2, by rw [← List.take_append_drop 2 s.committed, hboth.1]; rfl⟩
    have hcount := hright ⟨1, false, true⟩ (⟨1, true, false⟩ :: before) (by rw [hlog]) rfl
    rw [failures_cons_failed rfl rfl, failures_cons_ok rfl rfl] at hcount
    exact absurd hcount (by decide)

end DeliveryServer

end Junjo.Webhooks
