import Junjo.Requests.Idempotency

/-!
# One run per key

While handlers finish before their claims count as abandoned, and inside the retention window, the
requests of one key run their handlers one at a time, and not again once a response is stored.
-/

namespace Junjo

/-- Whether an outcome is a 5xx or an exception. -/
def RunOutcome.failed : RunOutcome → Bool
  | .responded response _ => 500 ≤ response.status
  | .threw => true

/-- The time that passes with an event. -/
def IdempotencyEvent.elapsed : IdempotencyEvent → ℕ
  | .tick ms => ms
  | _ => 0

namespace IdempotencyServer

/-- No claim of a handler that still runs is old enough to be abandoned, and the record is inside
the retention window. -/
structure InTime (s : IdempotencyServer) : Prop where
  finished : ∀ id r, s.requests.get? id = some r → r.place = .running →
    s.now < r.claimedAt + idempotencyAbandonMs
  retained : ∀ record, s.record = some record →
    s.now < record.createdAt + idempotencyRetentionMs

/-- A request's claim stands, or was taken over: whoever did that, or claimed after that, did so with
a later clock. -/
def ClaimOrLater (s : IdempotencyServer) (id : ℕ) (r : KeyedRequest) : Prop :=
  s.record = some (claimOf id r) ∨ (r.claimedAt + idempotencyAbandonMs ≤ s.now ∧
    ∀ record, s.record = some record → r.claimedAt < record.createdAt)

/-- What holds of a request where the middleware is with it. -/
def Holds (s : IdempotencyServer) (id : ℕ) (r : KeyedRequest) : Prop :=
  match r.place with
  | .taking _ existing => existing.stale r.claimedAt
  | .running => s.record = some (claimOf id r)
  | .storing _ | .releasing _ => s.ClaimOrLater id r
  | _ => True

structure Good (s : IdempotencyServer) : Prop where
  past : ∀ id r, s.requests.get? id = some r → r.claimedAt ≤ s.now
  written : ∀ record, s.record = some record →
    ∃ r, s.requests.get? record.writer = some r ∧ r.claimedAt = record.createdAt
  holds : ∀ id r, s.requests.get? id = some r → s.Holds id r

variable {s s' : IdempotencyServer} {id : ℕ} {r : KeyedRequest}

lemma get?_setPlace {place : RequestPlace} {j : ℕ} {r' : KeyedRequest}
    (h : (s.setPlace id r place).requests.get? j = some r') :
    (j = id ∧ r' = { r with place := place }) ∨ (j ≠ id ∧ s.requests.get? j = some r') := by
  rw [setPlace, Dict.get?_set] at h
  split_ifs at h with hj
  · exact .inl ⟨hj, (Option.some.inj h).symm⟩
  · exact .inr ⟨hj, h⟩

lemma claimOf_injective {i j : ℕ} {r r' : KeyedRequest} (h : claimOf i r = claimOf j r') : i = j :=
  congrArg IdempotencyRecord.writer h

/-- A record that is not claimed since a request's claim time is not the request's claim. -/
lemma claimedSince_claimOf : claimedSince (claimOf id r) r.claimedAt = true := by
  simp [claimedSince, claimOf]

/-- A place that asks nothing of the record. -/
lemma Good.setPlace (h : s.Good) (hr : s.requests.get? id = some r) {place : RequestPlace}
    (hplace : s.Holds id { r with place := place }) : (s.setPlace id r place).Good where
  past := by
    intro j r' hj
    rcases get?_setPlace hj with ⟨-, rfl⟩ | ⟨-, hj⟩
    · exact h.past id r hr
    · exact h.past j r' hj
  written := by
    intro record hrecord
    obtain ⟨r', hr', hat⟩ := h.written record hrecord
    rw [IdempotencyServer.setPlace, Dict.get?_set]
    split_ifs with hj
    · rw [hj, hr] at hr'
      cases hr'
      exact ⟨_, rfl, hat⟩
    · exact ⟨r', hr', hat⟩
  holds := by
    intro j r' hj
    rcases get?_setPlace hj with ⟨rfl, rfl⟩ | ⟨-, hj⟩
    · exact hplace
    · exact h.holds j r' hj

/-- A request claims a key without record, or one that is abandoned. -/
lemma Good.claim (h : s.Good) (hr : s.requests.get? id = some r)
    (habandoned : ∀ record, s.record = some record →
      record.createdAt + idempotencyAbandonMs ≤ r.claimedAt)
    (htime : s.InTime) (hclaim : s.now < r.claimedAt + idempotencyAbandonMs) :
    ({ s with record := some (claimOf id r) }.setPlace id r .running).Good where
  past := by
    intro j r' hj
    rcases get?_setPlace hj with ⟨-, rfl⟩ | ⟨-, hj⟩
    · exact h.past id r hr
    · exact h.past j r' hj
  written := by
    rintro _ ⟨⟩
    exact ⟨_, Dict.get?_set_self _ _ _, rfl⟩
  holds := by
    intro j r' hj
    have hpast := h.past id r hr
    rcases get?_setPlace hj with ⟨rfl, rfl⟩ | ⟨hne, hj⟩
    · rfl
    · have hholds := h.holds j r' hj
      rw [Holds] at hholds ⊢
      cases hplace : r'.place with
      | running =>
        rw [hplace] at hholds
        have hold := habandoned _ hholds
        have hfinished := htime.finished j r' hj hplace
        change r'.claimedAt + idempotencyAbandonMs ≤ r.claimedAt at hold
        omega
      | taking attempt existing => rw [hplace] at hholds; exact hholds
      | claiming _ => trivial
      | reading _ => trivial
      | answered _ => trivial
      | storing _ | releasing _ =>
        rw [hplace] at hholds
        rcases hholds with hown | ⟨hover, -⟩
        · have hold := habandoned _ hown
          change r'.claimedAt + idempotencyAbandonMs ≤ r.claimedAt at hold
          have hpos : 0 < idempotencyAbandonMs := by decide
          refine .inr ⟨Nat.le_trans hold hpast, ?_⟩
          rintro _ ⟨⟩
          change r'.claimedAt < r.claimedAt
          omega
        · refine .inr ⟨hover, ?_⟩
          rintro _ ⟨⟩
          change r'.claimedAt < r.claimedAt
          omega

/-- The end of a request whose run is over. Another's claim stays as it is. -/
lemma Good.settle (h : s.Good) (hr : s.requests.get? id = some r)
    (hlost : s.ClaimOrLater id r)
    {answer : IdempotencyAnswer} {record' : Option IdempotencyRecord}
    (hkept : ∀ record, s.record = some record → claimedSince record r.claimedAt = false →
      record' = some record)
    (hfrom : ∀ new, record' = some new → ∃ record, s.record = some record ∧
      new.createdAt = record.createdAt ∧ new.writer = record.writer) :
    ({ s with record := record' }.setPlace id r (.answered answer)).Good where
  past := by
    intro j r' hj
    rcases get?_setPlace hj with ⟨-, rfl⟩ | ⟨-, hj⟩
    · exact h.past id r hr
    · exact h.past j r' hj
  written := by
    intro new hnew
    obtain ⟨record, hrecord, hat, hwriter⟩ := hfrom new hnew
    obtain ⟨r', hr', hat'⟩ := h.written record hrecord
    rw [IdempotencyServer.setPlace, Dict.get?_set, hwriter, hat]
    split_ifs with hj
    · rw [hj, hr] at hr'
      cases hr'
      exact ⟨_, rfl, hat'⟩
    · exact ⟨r', hr', hat'⟩
  holds := by
    intro j r' hj
    rcases get?_setPlace hj with ⟨rfl, rfl⟩ | ⟨hne, hj⟩
    · trivial
    · have hholds := h.holds j r' hj
      have hother : s.record = some (claimOf j r') → record' = some (claimOf j r') := by
        intro howned
        refine hkept _ howned ?_
        rcases hlost with hown | ⟨-, hlater⟩
        · rw [howned, Option.some.injEq] at hown
          exact absurd (claimOf_injective hown) hne
        · have hgt := hlater _ howned
          have hne' : (claimOf j r').createdAt ≠ r.claimedAt := Nat.ne_of_gt hgt
          rw [claimedSince, decide_eq_false hne', Bool.false_and]
      rw [Holds] at hholds ⊢
      cases hplace : r'.place with
      | running => rw [hplace] at hholds; exact hother hholds
      | taking _ _ => rw [hplace] at hholds; exact hholds
      | claiming _ => trivial
      | reading _ => trivial
      | answered _ => trivial
      | storing _ | releasing _ =>
        rw [hplace] at hholds
        rcases hholds with hown | ⟨hold, hlater⟩
        · exact .inl (hother hown)
        · refine .inr ⟨hold, fun new hnew => ?_⟩
          obtain ⟨record, hrecord, hat, -⟩ := hfrom new hnew
          rw [hat]
          exact hlater record hrecord

lemma stale_inTime {record : IdempotencyRecord} (hstale : record.stale r.claimedAt)
    (hpast : r.claimedAt ≤ s.now) (hretained : s.now < record.createdAt + idempotencyRetentionMs) :
    record.state = .inProgress ∧ record.createdAt + idempotencyAbandonMs ≤ r.claimedAt := by
  simp only [IdempotencyRecord.stale, Bool.or_eq_true, Bool.and_eq_true, decide_eq_true_eq] at hstale
  rcases hstale with hold | habandoned
  · omega
  · exact habandoned

/-- What a statement of a request keeps. -/
lemma Good.step (h : s.Good) (hr : s.requests.get? id = some r) (htime : s.InTime)
    (htime' : s'.InTime) (hstep : s.step id r = some s') : s'.Good := by
  have hholds := h.holds id r hr
  rw [Holds] at hholds
  rw [IdempotencyServer.step] at hstep
  have hclaim : ∀ record', s' = { s with record := record' }.setPlace id r .running →
      s.now < r.claimedAt + idempotencyAbandonMs := by
    rintro record' rfl
    exact htime'.finished id { r with place := .running } (Dict.get?_set_self _ _ _) rfl
  cases hplace : r.place with
  | claiming attempt =>
    rw [hplace] at hstep
    dsimp only at hstep
    split at hstep
    · rename_i hrecord
      cases hstep
      exact h.claim hr (fun record hsome => absurd (hrecord.symm.trans hsome) (by simp)) htime
        (hclaim _ rfl)
    · cases hstep
      exact h.setPlace hr trivial
  | reading attempt =>
    rw [hplace] at hstep
    dsimp only at hstep
    split at hstep
    · cases hstep
      refine h.setPlace hr ?_
      rw [retry]
      split_ifs <;> trivial
    · rename_i existing hrecord
      cases hstep
      refine h.setPlace hr ?_
      rw [inspect]
      split_ifs with hstale
      · exact hstale
      all_goals trivial
  | taking attempt existing =>
    rw [hplace] at hstep hholds
    dsimp only at hstep hholds
    have hretry : s.Holds id { r with place := retry attempt } := by
      rw [retry]
      split_ifs <;> trivial
    split at hstep
    · rename_i record hrecord
      split_ifs at hstep with hmatch
      · cases hstep
        have hretained := htime.retained record hrecord
        rw [hmatch.1] at hretained
        obtain ⟨-, habandoned⟩ := stale_inTime hholds (h.past id r hr) hretained
        refine h.claim hr (fun record' hsome => ?_) htime (hclaim _ rfl)
        obtain rfl : record = record' := Option.some.inj (hrecord.symm.trans hsome)
        rw [hmatch.1]
        exact habandoned
      · cases hstep
        exact h.setPlace hr hretry
    · cases hstep
      exact h.setPlace hr hretry
  | running => rw [hplace] at hstep; cases hstep
  | storing response =>
    rw [hplace] at hstep hholds
    cases hstep
    refine h.settle hr hholds (fun record hrecord hother => ?_) fun new hnew => ?_
    · rw [hrecord, Option.map_some, if_neg (by simp [hother])]
    · obtain ⟨record, hrecord, rfl⟩ := Option.map_eq_some_iff.mp hnew
      refine ⟨record, hrecord, ?_⟩
      split_ifs <;> exact ⟨rfl, rfl⟩
  | releasing outcome =>
    rw [hplace] at hstep hholds
    cases hstep
    refine h.settle hr hholds (fun record hrecord hother => ?_) fun new hnew => ?_
    · rw [hrecord, Option.filter_some, hother]
      rfl
    · obtain ⟨hrecord, -⟩ := Option.filter_eq_some_iff.mp hnew
      exact ⟨new, hrecord, rfl, rfl⟩
  | answered answer => rw [hplace] at hstep; cases hstep

/-- The sweeper leaves a record inside the retention window. -/
lemma sweep_inTime (htime : s.InTime) {clock : ℕ} (hclock : clock ≤ s.now) :
    (s.record.filter fun record => !decide (record.createdAt + idempotencyRetentionMs < clock)) =
      s.record := by
  cases hrecord : s.record with
  | none => rfl
  | some record =>
    have hretained := htime.retained record hrecord
    rw [Option.filter_some, decide_eq_false (by omega)]
    rfl

/-- Every step that keeps to the time keeps the invariant. -/
lemma Good.next (h : s.Good) {e : IdempotencyEvent} (htime : s.InTime) (htime' : s'.InTime)
    (hnext : s.next e = some s') : s'.Good := by
  cases e with
  | tick ms =>
    cases hnext
    refine ⟨fun j r hj => Nat.le_add_right_of_le (h.past j r hj), h.written, fun j r hj => ?_⟩
    have hholds := h.holds j r hj
    rw [Holds] at hholds ⊢
    cases hplace : r.place with
    | storing _ | releasing _ =>
      rw [hplace] at hholds
      rcases hholds with hown | ⟨hold, hlater⟩
      · exact .inl hown
      · exact .inr ⟨Nat.le_add_right_of_le hold, hlater⟩
    | taking _ _ => rw [hplace] at hholds; exact hholds
    | running => rw [hplace] at hholds; exact hholds
    | claiming _ => trivial
    | reading _ => trivial
    | answered _ => trivial
  | arrive id fingerprint =>
    rw [IdempotencyServer.next] at hnext
    split_ifs at hnext with hnew
    cases hnext
    have hne : ∀ j r, s.requests.get? j = some r → j ≠ id := by
      rintro j r hj rfl
      exact hnew (Dict.has_iff.mpr (Dict.mem_keys_iff.mpr ⟨r, hj⟩))
    refine ⟨?_, ?_, ?_⟩
    · intro j r hj
      rw [Dict.get?_set] at hj
      split_ifs at hj
      · cases hj
        exact Nat.le_refl _
      · exact h.past j r hj
    · intro record hrecord
      obtain ⟨r, hr, hat⟩ := h.written record hrecord
      exact ⟨r, by rw [Dict.get?_set_of_ne _ _ (hne _ r hr)]; exact hr, hat⟩
    · intro j r hj
      rw [Dict.get?_set] at hj
      split_ifs at hj
      · cases hj
        trivial
      · exact h.holds j r hj
  | step id =>
    rw [IdempotencyServer.next, Option.bind_eq_some_iff] at hnext
    obtain ⟨r, hr, hstep⟩ := hnext
    exact h.step hr htime htime' hstep
  | finish id outcome =>
    rw [IdempotencyServer.next, Option.bind_eq_some_iff] at hnext
    obtain ⟨r, hr, hfinish⟩ := hnext
    have hholds := h.holds id r hr
    rw [Holds] at hholds
    split at hfinish
    · rename_i hplace
      rw [hplace] at hholds
      cases hfinish
      refine h.setPlace hr ?_
      rw [afterRun.eq_def]
      split
      · split_ifs
        · exact .inl hholds
        · exact .inl hholds
      · exact .inl hholds
    · cases hfinish
  | sweep clock =>
    rw [IdempotencyServer.next] at hnext
    split_ifs at hnext with hclock
    cases hnext
    rw [sweep_inTime htime hclock]
    exact h

/-! ### Stored responses -/

/-- A replay repeats what the handler responded. -/
lemma replay_complete (record : IdempotencyRecord) (response : HandlerResponse) :
    (record.complete response.toResponse).replay = response.toResponse := by
  obtain ⟨⟨status, body, contentType, etag⟩, hbody, htype⟩ := response
  rw [IdempotencyRecord.replay, IdempotencyRecord.complete, newResponse]
  cases body with
  | none =>
    have hnull : nullBodyStatus status = true := hbody.mp rfl
    simp [hnull]
  | some body =>
    have hnull : nullBodyStatus status = false :=
      Bool.eq_false_iff.mpr fun hnull => by cases hbody.mpr hnull
    obtain ⟨type, rfl⟩ := Option.isSome_iff_exists.mp (htype rfl)
    simp [hnull]

/-- A stored response stays. -/
lemma record_next_of_completed (h : s.Good) (htime : s.InTime) {record : IdempotencyRecord}
    (hrecord : s.record = some record) (hcompleted : record.state = .completed)
    {e : IdempotencyEvent} (hnext : s.next e = some s') : s'.record = some record := by
  have hother : ∀ at', claimedSince record at' = false := by
    intro at'
    simp [claimedSince, hcompleted]
  cases e with
  | tick ms => cases hnext; exact hrecord
  | arrive id fingerprint =>
    rw [IdempotencyServer.next] at hnext
    split_ifs at hnext
    cases hnext
    exact hrecord
  | finish id outcome =>
    rw [IdempotencyServer.next, Option.bind_eq_some_iff] at hnext
    obtain ⟨r, -, hfinish⟩ := hnext
    split at hfinish
    · cases hfinish
      exact hrecord
    · cases hfinish
  | sweep clock =>
    rw [IdempotencyServer.next] at hnext
    split_ifs at hnext with hclock
    cases hnext
    rw [sweep_inTime htime hclock]
    exact hrecord
  | step id =>
    rw [IdempotencyServer.next, Option.bind_eq_some_iff] at hnext
    obtain ⟨r, hr, hstep⟩ := hnext
    have hholds := h.holds id r hr
    rw [Holds] at hholds
    rw [IdempotencyServer.step] at hstep
    cases hplace : r.place with
    | claiming attempt =>
      simp only [hplace, hrecord] at hstep
      cases hstep
      exact hrecord
    | reading attempt =>
      simp only [hplace, hrecord] at hstep
      cases hstep
      exact hrecord
    | taking attempt existing =>
      rw [hplace] at hholds
      simp only [hplace, hrecord] at hstep
      split_ifs at hstep with hmatch
      · have hretained := htime.retained record hrecord
        rw [hmatch.1] at hretained
        obtain ⟨hprogress, -⟩ := stale_inTime hholds (h.past id r hr) hretained
        rw [hcompleted, hprogress] at hmatch
        cases hmatch.2
      · cases hstep
        exact hrecord
    | running => rw [hplace] at hstep; cases hstep
    | storing response =>
      rw [hplace] at hstep
      cases hstep
      change (s.record.map _) = _
      rw [hrecord, Option.map_some, hother]
      rfl
    | releasing outcome =>
      rw [hplace] at hstep
      cases hstep
      change s.record.filter _ = _
      rw [hrecord, Option.filter_some, hother]
      rfl
    | answered answer => rw [hplace] at hstep; cases hstep

/-- Where a request is that arrived when the record was complete. -/
def Answering (record : IdempotencyRecord) (r : KeyedRequest) : Prop :=
  r.place = .claiming 0 ∨ r.place = .reading 0 ∨ r.place = .answered
    (if r.fingerprint = record.fingerprint then .replayed record.replay else .keyReused)

lemma answering_next (h : s.Good) (htime : s.InTime) {record : IdempotencyRecord}
    (hrecord : s.record = some record) (hcompleted : record.state = .completed) {old : ℕ → Prop}
    (hanswering : ∀ j r, s.requests.get? j = some r → ¬ old j → Answering record r)
    {e : IdempotencyEvent} (hnext : s.next e = some s') :
    ∀ j r, s'.requests.get? j = some r → ¬ old j → Answering record r := by
  cases e with
  | tick ms => cases hnext; exact hanswering
  | arrive id fingerprint =>
    rw [IdempotencyServer.next] at hnext
    split_ifs at hnext
    cases hnext
    intro j r hj hnew
    rw [Dict.get?_set] at hj
    split_ifs at hj
    · cases hj
      exact .inl rfl
    · exact hanswering j r hj hnew
  | finish id outcome =>
    rw [IdempotencyServer.next, Option.bind_eq_some_iff] at hnext
    obtain ⟨r, hr, hfinish⟩ := hnext
    split at hfinish
    · rename_i hplace
      cases hfinish
      intro j r' hj hnew
      rcases get?_setPlace hj with ⟨rfl, rfl⟩ | ⟨-, hj⟩
      · obtain hwhere | hwhere | hwhere := hanswering j r hr hnew <;> rw [hplace] at hwhere <;>
          cases hwhere
      · exact hanswering j r' hj hnew
    · cases hfinish
  | sweep clock =>
    rw [IdempotencyServer.next] at hnext
    split_ifs at hnext
    cases hnext
    exact hanswering
  | step id =>
    rw [IdempotencyServer.next, Option.bind_eq_some_iff] at hnext
    obtain ⟨r, hr, hstep⟩ := hnext
    by_cases hold : old id
    · have hrequests : ∀ j, j ≠ id → s'.requests.get? j = s.requests.get? j := by
        intro j hj
        rw [IdempotencyServer.step] at hstep
        split at hstep <;> (try split at hstep) <;> (try split_ifs at hstep) <;> cases hstep <;>
          exact Dict.get?_set_of_ne _ _ hj
      intro j r' hj hnew
      rw [hrequests j (fun hsame => hnew (hsame ▸ hold))] at hj
      exact hanswering j r' hj hnew
    · rw [IdempotencyServer.step] at hstep
      intro j r' hj hnew
      rcases hanswering id r hr hold with hplace | hplace | hplace
      · simp only [hplace, hrecord] at hstep
        cases hstep
        rcases get?_setPlace hj with ⟨-, rfl⟩ | ⟨-, hj⟩
        · exact .inr (.inl rfl)
        · exact hanswering j r' hj hnew
      · simp only [hplace, hrecord] at hstep
        cases hstep
        rcases get?_setPlace hj with ⟨-, rfl⟩ | ⟨-, hj⟩
        · refine .inr (.inr ?_)
          have hfresh : ¬ record.stale r.claimedAt := by
            intro hstale
            obtain ⟨hprogress, -⟩ :=
              stale_inTime hstale (h.past id r hr) (htime.retained record hrecord)
            rw [hcompleted] at hprogress
            cases hprogress
          rw [inspect, if_neg hfresh]
          by_cases hsame : record.fingerprint = r.fingerprint
          · rw [if_neg (not_not.mpr hsame), if_neg (not_not.mpr hcompleted), if_pos hsame.symm]
          · rw [if_pos hsame, if_neg (Ne.symm hsame)]
        · exact hanswering j r' hj hnew
      · rw [hplace] at hstep
        cases hstep

/-! ### Runs -/

/-- A run in which no handler is still running when its claim counts as abandoned, and which ends
inside the record's retention window. -/
def Punctual (s : IdempotencyServer) (events : List IdempotencyEvent) : Prop :=
  ∀ n s₁, s.run (events.take n) = some s₁ → s₁.InTime

lemma Punctual.at_end {events : List IdempotencyEvent} (h : s.Punctual events)
    (hrun : s.run events = some s') : s'.InTime :=
  h events.length s' (by rwa [List.take_length])

lemma Punctual.append {before after : List IdempotencyEvent} (h : s.Punctual (before ++ after))
    (hrun : s.run before = some s') : s.Punctual before ∧ s'.Punctual after := by
  refine ⟨fun n s₁ hn => ?_, fun n s₁ hn => h (before.length + n) s₁ ?_⟩
  · rcases Nat.le_total n before.length with hle | hle
    · refine h n s₁ ?_
      rw [List.take_append_of_le_length hle]
      exact hn
    · rw [List.take_of_length_le hle] at hn
      exact h before.length s₁ (by rwa [List.take_left])
  · rw [List.take_length_add_append, run, runSteps_append]
    exact Option.bind_eq_some_iff.mpr ⟨s', hrun, hn⟩

/-- What every step of a punctual run keeps holds at its end. -/
lemma Punctual.invariant {P : IdempotencyServer → Prop}
    (hstep : ∀ s e s', P s → s.InTime → s'.InTime → s.next e = some s' → P s')
    {events : List IdempotencyEvent} (h : s.Punctual events) (hs : P s)
    (hrun : s.run events = some s') : P s' := by
  refine runSteps_invariant_of
    (C := fun s₁ e => s₁.InTime ∧ ∀ s₂, s₁.next e = some s₂ → s₂.InTime)
    (fun s₁ e s₂ hs₁ htimes hnext => hstep s₁ e s₂ hs₁ htimes.1 (htimes.2 s₂ hnext) hnext)
    hs hrun ?_
  rintro before e after s₁ rfl hbefore
  refine ⟨(h.append hbefore).1.at_end hbefore, fun s₂ hnext => ?_⟩
  refine (h.append hbefore).2 1 s₂ ?_
  change runSteps IdempotencyServer.next s₁ [e] = some s₂
  rw [runSteps_cons, hnext]
  rfl

lemma Good.start (now : ℕ) : Good { now := now } where
  past _ _ h := by cases h
  written _ h := by cases h
  holds _ _ h := by cases h

lemma Good.run {events : List IdempotencyEvent} (h : s.Good) (hpunctual : s.Punctual events)
    (hrun : s.run events = some s') : s'.Good :=
  hpunctual.invariant (fun _ _ _ hs htime htime' hnext => hs.next htime htime' hnext) h hrun

/-- A running request holds the record. -/
lemma Good.record_of_running (h : s.Good) (hr : s.requests.get? id = some r)
    (hrunning : r.place = .running) : s.record = some (claimOf id r) := by
  have hholds := h.holds id r hr
  rwa [Holds, hrunning] at hholds

/-- A record that keeps another request of its key from running its handler. -/
def Live (record : IdempotencyRecord) (clock : ℕ) : Prop :=
  clock < record.createdAt + idempotencyRetentionMs ∧
    (record.state = .completed ∨ clock < record.createdAt + idempotencyAbandonMs)

/-- A request starts to run its handler by a statement of its own, and finds no live record. -/
lemma Good.starts (h : s.Good) (htime : s.InTime) {e : IdempotencyEvent}
    (hnext : s.next e = some s') (hr : s'.requests.get? id = some r)
    (hrunning : r.place = .running)
    (hbefore : ∀ r₀, s.requests.get? id = some r₀ → r₀.place ≠ .running) :
    ∀ record, s.record = some record → ¬ Live record r.claimedAt := by
  have hsame : s'.requests = s.requests → False := by
    intro hrequests
    rw [hrequests] at hr
    exact hbefore r hr hrunning
  have hmoved : ∀ {j} (r₀) {place}, (s.setPlace j r₀ place).requests = s'.requests →
      j = id ∧ place = .running ∧ r₀.claimedAt = r.claimedAt := by
    intro j r₀ place hrequests
    rw [← hrequests] at hr
    rcases get?_setPlace hr with ⟨rfl, rfl⟩ | ⟨-, hr⟩
    · exact ⟨rfl, hrunning, rfl⟩
    · exact absurd hrunning (hbefore r hr)
  cases e with
  | tick ms => cases hnext; exact (hsame rfl).elim
  | sweep clock =>
    rw [IdempotencyServer.next] at hnext
    split_ifs at hnext
    cases hnext
    exact (hsame rfl).elim
  | arrive j fingerprint =>
    rw [IdempotencyServer.next] at hnext
    split_ifs at hnext
    cases hnext
    rw [Dict.get?_set] at hr
    split_ifs at hr
    · cases hr
      cases hrunning
    · exact absurd hrunning (hbefore r hr)
  | finish j outcome =>
    rw [IdempotencyServer.next, Option.bind_eq_some_iff] at hnext
    obtain ⟨r₀, hr₀, hfinish⟩ := hnext
    split at hfinish
    · rename_i hplace
      cases hfinish
      obtain ⟨rfl, -, -⟩ := hmoved _ rfl
      exact absurd hplace (hbefore r₀ hr₀)
    · cases hfinish
  | step j =>
    rw [IdempotencyServer.next, Option.bind_eq_some_iff] at hnext
    obtain ⟨r₀, hr₀, hstep⟩ := hnext
    have hholds := h.holds j r₀ hr₀
    rw [Holds] at hholds
    rw [IdempotencyServer.step] at hstep
    cases hplace : r₀.place with
    | claiming attempt =>
      rw [hplace] at hstep
      dsimp only at hstep
      split at hstep
      · rename_i hrecord
        intro record hsome
        rw [hrecord] at hsome
        cases hsome
      · cases hstep
        obtain ⟨-, hmove, -⟩ := hmoved _ rfl
        cases hmove
    | reading attempt =>
      rw [hplace] at hstep
      dsimp only at hstep
      split at hstep
      · cases hstep
        obtain ⟨-, hmove, -⟩ := hmoved _ rfl
        rw [retry] at hmove
        split_ifs at hmove
      · cases hstep
        obtain ⟨-, hmove, -⟩ := hmoved _ rfl
        rw [inspect] at hmove
        split_ifs at hmove
    | taking attempt existing =>
      rw [hplace] at hstep hholds
      dsimp only at hstep hholds
      have hretry : ∀ {record'}, (s.setPlace j r₀ (retry attempt)).requests = s'.requests →
          s.record = record' → ∀ record, record' = some record → ¬ Live record r.claimedAt := by
        intro _ hrequests
        obtain ⟨-, hmove, -⟩ := hmoved _ hrequests
        rw [retry] at hmove
        split_ifs at hmove
      split at hstep
      · rename_i record hrecord
        split_ifs at hstep with hmatch
        · cases hstep
          have hretained := htime.retained record hrecord
          rw [hmatch.1] at hretained
          obtain ⟨hprogress, habandoned⟩ := stale_inTime hholds (h.past j r₀ hr₀) hretained
          obtain ⟨-, -, hat⟩ := hmoved r₀ rfl
          intro record' hsome hlive
          obtain rfl : record = record' := Option.some.inj (hrecord.symm.trans hsome)
          rw [Live, hmatch.1, hmatch.2, hprogress, ← hat] at hlive
          rcases hlive.2 with hcompleted | hrecent
          · cases hcompleted
          · omega
        · cases hstep
          exact hretry rfl rfl
      · cases hstep
        exact hretry rfl rfl
    | running => rw [hplace] at hstep; cases hstep
    | storing response =>
      rw [hplace] at hstep
      cases hstep
      obtain ⟨-, hmove, -⟩ := hmoved r₀ rfl
      cases hmove
    | releasing outcome =>
      rw [hplace] at hstep
      cases hstep
      obtain ⟨-, hmove, -⟩ := hmoved r₀ rfl
      cases hmove
    | answered answer => rw [hplace] at hstep; cases hstep

/-- Nothing runs once a response is stored. -/
lemma Good.not_running (h : s.Good) {record : IdempotencyRecord} (hrecord : s.record = some record)
    (hcompleted : record.state = .completed) (hr : s.requests.get? id = some r) :
    r.place ≠ .running := by
  intro hrunning
  have hclaim := h.record_of_running hr hrunning
  rw [hrecord, Option.some.injEq] at hclaim
  rw [hclaim] at hcompleted
  cases hcompleted

/-- From the state in which a response is stored on, it stays, and answers whoever comes. -/
lemma Good.run_of_completed (h : s.Good) {record : IdempotencyRecord}
    (hrecord : s.record = some record) (hcompleted : record.state = .completed)
    {events : List IdempotencyEvent} (hpunctual : s.Punctual events)
    (hrun : s.run events = some s') :
    s'.record = some record ∧ ∀ j r', s'.requests.get? j = some r' → ¬ s.requests.has j →
      Answering record r' := by
  have hkept : s'.Good ∧ s'.record = some record ∧ ∀ j r', s'.requests.get? j = some r' →
      ¬ s.requests.has j → Answering record r' := by
    refine hpunctual.invariant
      (P := fun s₁ => s₁.Good ∧ s₁.record = some record ∧ ∀ j r', s₁.requests.get? j = some r' →
        ¬ s.requests.has j → Answering record r') ?_ ⟨h, hrecord, fun j r' hj hnew => ?_⟩ hrun
    · rintro s₁ e s₂ ⟨hgood, hrecord, hanswering⟩ htime htime' hnext
      exact ⟨hgood.next htime htime' hnext,
        record_next_of_completed hgood htime hrecord hcompleted hnext,
        answering_next hgood htime hrecord hcompleted hanswering hnext⟩
    · exact absurd (Dict.has_iff.mpr (Dict.mem_keys_iff.mpr ⟨r', hj⟩)) hnew
  exact hkept.2

/-- A request that is not answered has its next statement left, unless its handler runs. -/
lemma next_step_isSome (hr : s.requests.get? id = some r) (hrunning : r.place ≠ .running)
    (hanswered : ∀ answer, r.place ≠ .answered answer) : (s.next (.step id)).isSome := by
  rw [IdempotencyServer.next, hr, Option.bind_some, IdempotencyServer.step]
  cases hplace : r.place with
  | running => exact absurd hplace hrunning
  | answered answer => exact absurd hplace (hanswered answer)
  | storing _ => rfl
  | releasing _ => rfl
  | claiming _ | reading _ => dsimp only; split <;> rfl
  | taking _ _ =>
    dsimp only
    split
    · split_ifs <;> rfl
    · rfl

/-- The release of a claim: the key is without record, or claimed again since. -/
lemma Good.release (h : s.Good) (hr : s.requests.get? id = some r) {outcome : RunOutcome}
    (hplace : r.place = .releasing outcome) :
    ∃ s₁, s.next (.step id) = some s₁ ∧
      (s.now < r.claimedAt + idempotencyAbandonMs → s₁.record = none) ∧
      ∀ record, s₁.record = some record → r.claimedAt < record.createdAt := by
  have hholds := h.holds id r hr
  rw [Holds, hplace] at hholds
  refine ⟨_, by rw [IdempotencyServer.next, hr, Option.bind_some, IdempotencyServer.step, hplace],
    ?_, ?_⟩
  · intro hnow
    rcases hholds with hown | ⟨hold, -⟩
    · change s.record.filter _ = none
      rw [hown, Option.filter_some, claimedSince_claimOf]
      rfl
    · omega
  · intro record hrecord
    obtain ⟨hrecord, hother⟩ := Option.filter_eq_some_iff.mp hrecord
    rcases hholds with hown | ⟨-, hlater⟩
    · rw [hown, Option.some.injEq] at hrecord
      rw [← hrecord, claimedSince_claimOf] at hother
      cases hother
    · exact hlater record hrecord

/-- A key without record is claimed by the first insertion. -/
lemma claim_of_free {attempt : ℕ} (hr : s.requests.get? id = some r)
    (hplace : r.place = .claiming attempt) (hfree : s.record = none) :
    ∃ s₁, s.next (.step id) = some s₁ ∧
      s₁.requests.get? id = some { r with place := .running } := by
  refine ⟨{ s with record := some (claimOf id r) }.setPlace id r .running, ?_,
    Dict.get?_set_self _ _ _⟩
  rw [IdempotencyServer.next, hr, Option.bind_some, IdempotencyServer.step, hplace]
  dsimp only
  rw [hfree]

/-- A failed run is followed by the release of its claim. -/
lemma finish_failed {outcome : RunOutcome} (hr : s.requests.get? id = some r)
    (hrunning : r.place = .running) (hfailed : outcome.failed) :
    s.next (.finish id outcome) = some (s.setPlace id r (.releasing outcome)) := by
  rw [IdempotencyServer.next, hr, Option.bind_some, hrunning]
  dsimp only
  cases outcome with
  | threw => rfl
  | responded response routeUnmatched =>
    have hstatus : ¬ response.status < 500 := Nat.not_lt.mpr (of_decide_eq_true hfailed)
    rw [afterRun, decide_eq_false hstatus, Bool.false_and, if_neg Bool.false_ne_true]

/-- In any interleaving of the requests of a key whose handlers finish in time, inside the retention
window: one handler runs at a time, with the record of its own request; a handler starts only when
there is no live record; a stored response stays, nothing runs after it, and whoever comes later is
answered with it, or refused if it is not the same request; and after a failed run the key is
free. -/
theorem idempotency_oneRun {now₀ : ℕ} {before after : List IdempotencyEvent}
    {s s' : IdempotencyServer} (hpunctual : Punctual { now := now₀ } (before ++ after))
    (hbefore : run { now := now₀ } before = some s) (hafter : s.run after = some s') :
    (∀ i j r₁ r₂, s.requests.get? i = some r₁ → s.requests.get? j = some r₂ →
      r₁.place = .running → r₂.place = .running → i = j) ∧
    (∀ id r, s.requests.get? id = some r → r.place = .running → s.record = some (claimOf id r)) ∧
    (∀ e rest id r, after = e :: rest → ∀ s₁, s.next e = some s₁ →
      s₁.requests.get? id = some r → r.place = .running →
      (∀ r₀, s.requests.get? id = some r₀ → r₀.place ≠ .running) →
      ∀ record, s.record = some record → ¬ Live record r.claimedAt) ∧
    (∀ id r response rest, after = .step id :: rest → s.requests.get? id = some r →
      r.place = .storing response → s.record = some (claimOf id r) →
      s'.record = some ((claimOf id r).complete response.toResponse) ∧
      (∀ j r', s'.requests.get? j = some r' → r'.place ≠ .running) ∧
      ∀ j r', s'.requests.get? j = some r' → ¬ s.requests.has j →
        ((s'.next (.step j)).isSome ∧ (r'.place = .claiming 0 ∨ r'.place = .reading 0)) ∨
        r'.place = .answered
          (if r'.fingerprint = r.fingerprint then .replayed response.toResponse else .keyReused)) ∧
    (∀ id r outcome, s.requests.get? id = some r → r.place = .running → outcome.failed →
      s.next (.finish id outcome) = some (s.setPlace id r (.releasing outcome))) ∧
    ∀ id r outcome, s.requests.get? id = some r → r.place = .releasing outcome →
      ∃ s₁, s.next (.step id) = some s₁ ∧
        (s.now < r.claimedAt + idempotencyAbandonMs → s₁.record = none) ∧
        (∀ record, s₁.record = some record → r.claimedAt < record.createdAt) ∧
        ∀ j r' attempt, s₁.requests.get? j = some r' → r'.place = .claiming attempt →
          s₁.record = none → ∃ s₂, s₁.next (.step j) = some s₂ ∧
            s₂.requests.get? j = some { r' with place := .running } := by
  obtain ⟨hpast, hfuture⟩ := hpunctual.append hbefore
  have hgood : s.Good := (Good.start now₀).run hpast hbefore
  have htime : s.InTime := hpast.at_end hbefore
  refine ⟨?_, fun id r => hgood.record_of_running, ?_, ?_, fun id r outcome => finish_failed, ?_⟩
  · intro i j r₁ r₂ hi hj hrunning₁ hrunning₂
    have hclaim₁ := hgood.record_of_running hi hrunning₁
    have hclaim₂ := hgood.record_of_running hj hrunning₂
    exact claimOf_injective (Option.some.inj (hclaim₁.symm.trans hclaim₂))
  · intro e rest id r _ s₁ hnext hr hrunning hstarted
    exact hgood.starts htime hnext hr hrunning hstarted
  · rintro id r response rest rfl hr hplace hown
    have hstore : s.next (.step id) = some
        ({ s with record := some ((claimOf id r).complete response.toResponse) }.setPlace id r
          (.answered (.own (.responded response false)))) := by
      rw [IdempotencyServer.next, hr, Option.bind_some, IdempotencyServer.step, hplace]
      dsimp only
      rw [hown, Option.map_some, if_pos claimedSince_claimOf]
    rw [run, runSteps_cons, hstore, Option.bind_some] at hafter
    have hone : s.run [.step id] = some
        ({ s with record := some ((claimOf id r).complete response.toResponse) }.setPlace id r
          (.answered (.own (.responded response false)))) := by
      rw [run, runSteps_cons, hstore]
      rfl
    obtain ⟨hnow, hrest⟩ := @Punctual.append _ _ [.step id] rest hfuture hone
    have hstored := hgood.run hnow hone
    have hgood' := hstored.run hrest hafter
    obtain ⟨hrecord, hlater⟩ := hstored.run_of_completed rfl rfl hrest hafter
    refine ⟨hrecord, fun j r' => hgood'.not_running hrecord rfl, fun j r' hj hnew => ?_⟩
    have hnew' : ¬ (s.requests.set id { r with
        place := .answered (.own (.responded response false)) }).has j := by
      rw [Dict.has_iff, Dict.mem_keys_iff] at hnew ⊢
      rintro ⟨r₁, hr₁⟩
      rw [Dict.get?_set] at hr₁
      split_ifs at hr₁ with hid
      · exact hnew ⟨r, hid ▸ hr⟩
      · exact hnew ⟨r₁, hr₁⟩
    rcases hlater j r' hj hnew' with hclaiming | hreading | hanswered
    · refine .inl ⟨next_step_isSome hj ?_ ?_, .inl hclaiming⟩
      · rw [hclaiming]; exact fun h => by cases h
      · rw [hclaiming]; exact fun _ h => by cases h
    · refine .inl ⟨next_step_isSome hj ?_ ?_, .inr hreading⟩
      · rw [hreading]; exact fun h => by cases h
      · rw [hreading]; exact fun _ h => by cases h
    · right
      rw [replay_complete] at hanswered
      exact hanswered
  · intro id r outcome hr hplace
    obtain ⟨s₁, hstep, hfree, hlater⟩ := hgood.release hr hplace
    exact ⟨s₁, hstep, hfree, hlater, fun j r' attempt => claim_of_free⟩

/-! ### A request and its retries -/

lemma now_next {e : IdempotencyEvent} (hnext : s.next e = some s') :
    s'.now = s.now + e.elapsed := by
  cases e with
  | tick ms => cases hnext; rfl
  | arrive id fingerprint =>
    rw [IdempotencyServer.next] at hnext
    split_ifs at hnext
    cases hnext
    rfl
  | sweep clock =>
    rw [IdempotencyServer.next] at hnext
    split_ifs at hnext
    cases hnext
    rfl
  | finish id outcome =>
    rw [IdempotencyServer.next, Option.bind_eq_some_iff] at hnext
    obtain ⟨r, -, hfinish⟩ := hnext
    split at hfinish <;> cases hfinish
    rfl
  | step id =>
    rw [IdempotencyServer.next, Option.bind_eq_some_iff] at hnext
    obtain ⟨r, -, hstep⟩ := hnext
    rw [IdempotencyServer.step] at hstep
    split at hstep <;> (try split at hstep) <;> (try split_ifs at hstep) <;> cases hstep <;> rfl

lemma now_run {events : List IdempotencyEvent} (hrun : s.run events = some s') :
    s'.now = s.now + (events.map IdempotencyEvent.elapsed).sum := by
  induction events generalizing s with
  | nil => cases hrun; rfl
  | cons e events ih =>
    rw [run, runSteps_cons, Option.bind_eq_some_iff] at hrun
    obtain ⟨s₁, hnext, hrest⟩ := hrun
    rw [ih hrest, now_next hnext, List.map_cons, List.sum_cons, Nat.add_assoc]

/-- A run that takes less time than a claim needs to be abandoned is punctual. -/
lemma punctual_of_short {events : List IdempotencyEvent}
    (hshort : (events.map IdempotencyEvent.elapsed).sum < idempotencyAbandonMs) :
    Punctual { now := 0 } events := by
  intro n s₁ hrun
  have hnow : s₁.now < idempotencyAbandonMs := by
    have hsub := ((List.take_sublist n events).map IdempotencyEvent.elapsed).sum_le_sum
      fun _ _ => Nat.zero_le _
    rw [now_run hrun, Nat.zero_add]
    exact Nat.lt_of_le_of_lt hsub hshort
  have hle : idempotencyAbandonMs ≤ idempotencyRetentionMs := by decide
  exact ⟨fun _ _ _ _ => by omega, fun _ _ => by omega⟩

/-- What a handler of a deletion responds. -/
def noContent : HandlerResponse where
  status := 204
  body := none
  contentType := none
  etag := none
  noBody := iff_of_true rfl rfl
  typed := by simp

/-- A request is retried while its handler runs, and again after that. -/
theorem idempotency_oneRun_retried :
    ∃ s s', run { now := 0 } [.arrive 0 [], .step 0, .arrive 1 [], .step 1, .step 1, .tick 20,
        .finish 0 (.responded noContent false)] = some s ∧
      s.run [.step 0, .arrive 2 [], .step 2, .step 2] = some s' ∧
      (∀ j r', s'.requests.get? j = some r' → r'.place ≠ .running) ∧
      (s'.requests.get? 2).map KeyedRequest.place =
        some (.answered (.replayed noContent.toResponse)) := by
  refine ⟨_, _, rfl, rfl, ?_, by decide⟩
  exact ((@idempotency_oneRun _
    [.arrive 0 [], .step 0, .arrive 1 [], .step 1, .step 1, .tick 20,
      .finish 0 (.responded noContent false)]
    [.step 0, .arrive 2 [], .step 2, .step 2] _ _
    (punctual_of_short (by decide)) rfl rfl).2.2.2.1 0 ⟨[], 0, .storing noContent⟩ noContent _
    rfl rfl rfl rfl).2.1

end IdempotencyServer

end Junjo
