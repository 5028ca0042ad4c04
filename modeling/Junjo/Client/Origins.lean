import Junjo.Client.ChecksCorrect

/-!
# Which requests answer a call

Fix a property of requests. A call that waits on a request with the property is answered by such a
request, whatever happens in between, unless its request fails and a stale answer takes its place;
so is a batch that asks no other request.
-/

namespace Junjo.Client

variable {P : ℕ → Prop}

/-! ### The numbers of shared requests -/

/-- A shared request has a number, and settles with answers of this number. -/
structure JunjoClient.Numbered (s : JunjoClient) : Prop where
  sound : s.checkRequests.Sound
  length : s.numbers.length = s.checkRequests.requests.length
  settled : ∀ {r : ℕ} {answer : Answer}, s.checkRequests.outcomes[r]? = some (some (.ok answer)) →
    s.numbers[r]? = some answer.request

namespace JunjoClient

variable {s s' : JunjoClient}

lemma numbered_new (options : PermissionCacheOptions) : (new options).Numbered where
  sound := SharedRequests.sound_empty
  length := rfl
  settled h := by cases h

/-- A step that changes no request in key or outcome. -/
lemma Numbered.keep (h : s.Numbered) (hsound : s'.checkRequests.Sound)
    (hnumbers : s'.numbers = s.numbers) (hkeys : s'.checkRequests.keys = s.checkRequests.keys)
    (houtcomes : s'.checkRequests.outcomes = s.checkRequests.outcomes) : s'.Numbered where
  sound := hsound
  length := by
    rw [hnumbers, h.length, ← SharedRequests.length_keys, ← SharedRequests.length_keys, hkeys]
  settled := by
    rw [hnumbers, houtcomes]
    exact h.settled

lemma Numbered.check (h : s.Numbered) (c : Check) (mode : WaitMode) (now : ℤ) :
    (s.check c mode now).Numbered := by
  unfold JunjoClient.check
  split
  · exact h.keep h.sound rfl rfl rfl
  · by_cases henabled : s.permissionCache.options.enabled = true
    · rw [if_pos henabled]
      have hsound := h.sound.run c.key mode
      rcases h.sound.run_stays c.key mode with ⟨r, hr, hkeys, houtcomes, -⟩ | ⟨hnone, hkeys, houtcomes, -⟩
      · rw [Dict.has, hr, Option.isSome_some, if_pos rfl]
        exact h.keep hsound rfl hkeys houtcomes
      · rw [Dict.has, hnone, Option.isSome_none, if_neg Bool.false_ne_true]
        refine ⟨hsound, ?_, ?_⟩
        · dsimp only
          rw [← SharedRequests.length_keys, hkeys, List.length_append, List.length_append, h.length,
            SharedRequests.length_keys]
          rfl
        · intro r answer hr
          dsimp only at hr ⊢
          rw [houtcomes] at hr
          rcases getElem?_concat_cases hr with hold | ⟨-, hnew⟩
          · exact getElem?_append_of_some (h.settled hold) _
          · cases hnew
    · rw [if_neg henabled]
      exact h.keep h.sound rfl rfl rfl

lemma Numbered.settle (h : s.Numbered) {r : ℕ} {outcome : Except Failure Bool} {now : ℤ}
    (hstep : s.settle r outcome now = some s') : s'.Numbered := by
  have hsettled : ∀ request, s.numbers[r]? = some request → ∀ shared,
      shared = s.checkRequests.settle r (outcome.map fun allowed => ⟨request, 0, allowed⟩) →
      ({ s with checkRequests := shared } : JunjoClient).Numbered := by
    rintro request hn _ rfl
    obtain ⟨hkeys, houtcomes, -⟩ := SharedRequests.settle_stays (s := s.checkRequests) r
      (outcome.map fun allowed => (⟨request, 0, allowed⟩ : Answer))
    refine ⟨h.sound.settle r _, ?_, ?_⟩
    · dsimp only
      rw [h.length, ← SharedRequests.length_keys, ← SharedRequests.length_keys, hkeys]
    · intro r' answer hr'
      dsimp only at hr' ⊢
      rw [houtcomes] at hr'
      by_cases heq : r = r'
      · subst heq
        obtain ⟨hlt, hval⟩ := List.getElem?_eq_some_iff.mp hr'
        rw [List.getElem_set_self] at hval
        cases outcome with
        | ok allowed =>
          cases hval
          exact hn
        | error failure => cases hval
      · rw [List.getElem?_set_ne heq] at hr'
        exact h.settled hr'
  unfold JunjoClient.settle at hstep
  split at hstep
  · rename_i e request he hn
    have hthis := hsettled request hn _ rfl
    split_ifs at hstep with hopen hregistered
    · cases outcome with
      | ok allowed =>
        cases hstep
        exact hthis.keep hthis.sound rfl rfl rfl
      | error failure =>
        cases hstep
        exact hthis
    · cases hstep
      exact hthis
  · cases hstep

@[simp] lemma checkRequests_finish (i : ℕ) (call : Call) (outcome : Except Failure Answer) (now : ℤ) :
    (s.finish i call outcome now).checkRequests = s.checkRequests := by
  cases outcome <;> rfl

@[simp] lemma numbers_finish (i : ℕ) (call : Call) (outcome : Except Failure Answer) (now : ℤ) :
    (s.finish i call outcome now).numbers = s.numbers := by
  cases outcome <;> rfl

@[simp] lemma batches_finish (i : ℕ) (call : Call) (outcome : Except Failure Answer) (now : ℤ) :
    (s.finish i call outcome now).batches = s.batches := by
  cases outcome <;> rfl

@[simp] lemma sent_finish (i : ℕ) (call : Call) (outcome : Except Failure Answer) (now : ℤ) :
    (s.finish i call outcome now).sent = s.sent := by
  cases outcome <;> rfl

@[simp] lemma checkRequests_nextSlice (i : ℕ) (b : Batch) :
    (s.nextSlice i b).checkRequests = s.checkRequests := by
  unfold JunjoClient.nextSlice
  split <;> rfl

@[simp] lemma numbers_nextSlice (i : ℕ) (b : Batch) : (s.nextSlice i b).numbers = s.numbers := by
  unfold JunjoClient.nextSlice
  split <;> rfl

@[simp] lemma calls_nextSlice (i : ℕ) (b : Batch) : (s.nextSlice i b).calls = s.calls := by
  unfold JunjoClient.nextSlice
  split <;> rfl

/-! ### What a step leaves -/

lemma batches_check (c : Check) (mode : WaitMode) (now : ℤ) :
    (s.check c mode now).batches = s.batches := by
  unfold JunjoClient.check
  split
  · rfl
  · dsimp only
    split
    · split <;> rfl
    · rfl

/-- What `receive` does, once its request has settled. -/
lemma receive_eq {i : ℕ} {now : ℤ} (hstep : s.receive i now = some s') :
    ∃ call w r mode outcome, s.calls[i]? = some call ∧ call.state = .waiting w ∧
      s.checkRequests.waits[w]? = some ⟨r, mode, .waiting⟩ ∧
      s.checkRequests.outcomes[r]? = some (some outcome) ∧
      s' = { s with checkRequests := s.checkRequests.receive w }.finish i call outcome now := by
  unfold JunjoClient.receive at hstep
  split at hstep
  · rename_i call hcall
    split at hstep
    · rename_i w hstate
      split at hstep
      · rename_i r mode hw
        split at hstep
        · rename_i outcome hsettled
          cases hstep
          obtain ⟨e, he, houtcome⟩ := Option.bind_eq_some_iff.mp hsettled
          refine ⟨call, w, r, mode, outcome, hcall, hstate, hw, ?_, rfl⟩
          rw [SharedRequests.outcomes, List.getElem?_map, he, Option.map_some, houtcome]
        · cases hstep
      · cases hstep
    · cases hstep
  · cases hstep

lemma settleDirect_eq {i : ℕ} {outcome : Except Failure Bool} {now : ℤ}
    (hstep : s.settleDirect i outcome now = some s') :
    ∃ call request, s.calls[i]? = some call ∧ call.state = .direct request ∧
      s' = s.finish i call (outcome.map fun allowed => ⟨request, 0, allowed⟩) now := by
  unfold JunjoClient.settleDirect at hstep
  split at hstep
  · rename_i call hcall
    split at hstep
    · rename_i request hstate
      cases hstep
      exact ⟨call, request, hcall, hstate, rfl⟩
    · cases hstep
  · cases hstep

lemma stop_eq {i : ℕ} (hstep : s.stop i = some s') :
    ∃ call w, s.calls[i]? = some call ∧
      s' = { s with checkRequests := s.checkRequests.leave w }.setCall i call .failed := by
  unfold JunjoClient.stop at hstep
  split at hstep
  · rename_i call hcall
    split at hstep
    · split at hstep
      · cases hstep
        exact ⟨call, _, hcall, rfl⟩
      · cases hstep
    · cases hstep
  · cases hstep

lemma answerSlice_stays {i : ℕ} {allowed : List Bool} {now : ℤ}
    (hstep : s.answerSlice i allowed now = some s') :
    s'.checkRequests = s.checkRequests ∧ s'.numbers = s.numbers ∧ s'.calls = s.calls := by
  unfold JunjoClient.answerSlice at hstep
  split at hstep
  · split at hstep
    · split_ifs at hstep
      · cases hstep
        simp
      · cases hstep
        exact ⟨rfl, rfl, rfl⟩
    · cases hstep
  · cases hstep

lemma failSlice_stays {i : ℕ} {failure : Failure} {now : ℤ}
    (hstep : s.failSlice i failure now = some s') :
    s'.checkRequests = s.checkRequests ∧ s'.numbers = s.numbers ∧ s'.calls = s.calls := by
  unfold JunjoClient.failSlice at hstep
  split at hstep
  · split at hstep
    · dsimp only at hstep
      split_ifs at hstep
      · cases hstep
        simp
      · cases hstep
        exact ⟨rfl, rfl, rfl⟩
    · cases hstep
  · cases hstep

lemma Numbered.step (h : s.Numbered) {e : ClientEvent} (hstep : s.step e = some s') :
    s'.Numbered := by
  have hsame : s'.checkRequests = s.checkRequests → s'.numbers = s.numbers → s'.Numbered := by
    intro hshared hnumbers
    exact h.keep (hshared ▸ h.sound) hnumbers (by rw [hshared]) (by rw [hshared])
  cases e with
  | check c mode now =>
    cases hstep
    exact h.check c mode now
  | stop call =>
    obtain ⟨_, w, -, rfl⟩ := stop_eq hstep
    obtain ⟨hkeys, houtcomes, -⟩ := SharedRequests.leave_stays (s := s.checkRequests) w
    exact h.keep (h.sound.leave w) rfl hkeys houtcomes
  | settle shared outcome now => exact h.settle hstep
  | receive call now =>
    obtain ⟨_, w, _, _, _, -, -, -, -, rfl⟩ := receive_eq hstep
    obtain ⟨hkeys, houtcomes, -⟩ := SharedRequests.receive_stays (s := s.checkRequests) w
    exact h.keep (by simpa using h.sound.receive w) (by simp) (by simpa using hkeys)
      (by simpa using houtcomes)
  | settleDirect call outcome now =>
    obtain ⟨_, _, -, -, rfl⟩ := settleDirect_eq hstep
    exact hsame (by simp) (by simp)
  | checkBatch requests inherit now =>
    cases hstep
    exact hsame (by simp [JunjoClient.checkBatch]) (by simp [JunjoClient.checkBatch])
  | answerSlice batch allowed now =>
    obtain ⟨hshared, hnumbers, -⟩ := answerSlice_stays hstep
    exact hsame hshared hnumbers
  | failSlice batch failure now =>
    obtain ⟨hshared, hnumbers, -⟩ := failSlice_stays hstep
    exact hsame hshared hnumbers
  | clearPermissionCache =>
    cases hstep
    exact h.keep h.sound.forget rfl rfl rfl

end JunjoClient

/-! ### Calls -/

/-- A call has, or waits for, an answer of a request with the property, unless it fails. -/
def CallState.From (P : ℕ → Prop) (s : JunjoClient) : CallState → Prop
  | .waiting w => ∃ r n, s.checkRequests.targets[w]? = some r ∧ s.numbers[r]? = some n ∧ P n
  | .direct request => P request
  | .served answer | .answered answer => P answer.request
  | .failed => True

namespace JunjoClient

/-- So does the call with a number, which asks the check with a key. -/
def CallFrom (P : ℕ → Prop) (s : JunjoClient) (key : Text) (i : ℕ) : Prop :=
  ∃ call, s.calls[i]? = some call ∧ call.check.key = key ∧ call.state.From P s

/-- The stale answer for a failure is of a request with the property. -/
def StaleFrom (P : ℕ → Prop) (s : JunjoClient) (key : Text) (failure : Failure) (now : ℤ) : Prop :=
  ∀ answer ∈ (staleOnRateLimit s.permissionCache failure key now).1, P answer.request

/-- The failure that an event hands to a call, and when. -/
def callFails (s : JunjoClient) (i : ℕ) : ClientEvent → Option (Failure × ℤ)
  | .receive j now =>
    if j = i then
      match (s.calls[i]?).map Call.state with
      | some (.waiting w) =>
        match (s.checkRequests.targets[w]?).bind fun r => s.checkRequests.outcomes[r]? with
        | some (some (.error failure)) => some (failure, now)
        | _ => none
      | _ => none
    else none
  | .settleDirect j (.error failure) now => if j = i then some (failure, now) else none
  | _ => none

variable {s s' : JunjoClient} {key : Text} {i : ℕ}

lemma CallFrom.keep (h : s.CallFrom P key i)
    (hcalls : ∀ call, s.calls[i]? = some call → s'.calls[i]? = some call)
    (htargets : ∀ (w r : ℕ), s.checkRequests.targets[w]? = some r → s'.checkRequests.targets[w]? = some r)
    (hnumbers : ∀ (r n : ℕ), s.numbers[r]? = some n → s'.numbers[r]? = some n) : s'.CallFrom P key i := by
  obtain ⟨call, hcall, hkey, hstate⟩ := h
  refine ⟨call, hcalls call hcall, hkey, ?_⟩
  cases hs : call.state with
  | waiting w =>
    rw [hs] at hstate
    obtain ⟨r, n, hr, hn, hP⟩ := hstate
    exact ⟨r, n, htargets w r hr, hnumbers r n hn, hP⟩
  | direct request | served answer | answered answer | failed =>
    rw [hs] at hstate
    exact hstate

/-- A new call, when what the cache has and the request under way have the property. -/
lemma callFrom_check (hn : s.Numbered) {c : Check} {mode : WaitMode} {now : ℤ}
    (hnew : P s.sent.length)
    (hcache : ∀ answer ∈ s.permissionCache.get c.key now, P answer.request)
    (hshared : ∀ r ∈ s.checkRequests.entries.get? c.key, ∀ n ∈ s.numbers[r]?, P n) :
    (s.check c mode now).CallFrom P c.key s.calls.length := by
  unfold JunjoClient.check
  split
  · rename_i answer hget
    exact ⟨_, List.getElem?_concat_length, rfl, hcache answer hget⟩
  · by_cases henabled : s.permissionCache.options.enabled = true
    · rw [if_pos henabled]
      have hlength : s.checkRequests.targets.length = s.checkRequests.waits.length :=
        List.length_map _
      rcases hn.sound.run_stays c.key mode with ⟨r, hr, -, -, htargets⟩ | ⟨hnone, -, -, htargets⟩
      · rw [Dict.has, hr, Option.isSome_some, if_pos rfl]
        refine ⟨_, List.getElem?_concat_length, rfl, ?_⟩
        dsimp only
        split_ifs
        · trivial
        · obtain ⟨e, he, -⟩ := hn.sound.registered hr
          have hlt : r < s.numbers.length := hn.length ▸ (List.getElem?_eq_some_iff.mp he).1
          have hnumber : s.numbers[r]? = some s.numbers[r] := List.getElem?_eq_getElem hlt
          refine ⟨r, _, ?_, hnumber, hshared r hr _ hnumber⟩
          dsimp only
          rw [htargets, ← hlength]
          exact List.getElem?_concat_length
      · rw [Dict.has, hnone, Option.isSome_none, if_neg Bool.false_ne_true]
        refine ⟨_, List.getElem?_concat_length, rfl, ?_⟩
        dsimp only
        split_ifs
        · trivial
        · refine ⟨s.checkRequests.requests.length, s.sent.length, ?_, ?_, hnew⟩
          · dsimp only
            rw [htargets, ← hlength]
            exact List.getElem?_concat_length
          · dsimp only
            rw [← hn.length]
            exact List.getElem?_concat_length
    · rw [if_neg henabled]
      exact ⟨_, List.getElem?_concat_length, rfl, hnew⟩

lemma CallFrom.check (h : s.CallFrom P key i) (hn : s.Numbered) (c : Check) (mode : WaitMode)
    (now : ℤ) : (s.check c mode now).CallFrom P key i := by
  unfold JunjoClient.check
  split
  · exact h.keep (fun call hcall => getElem?_append_of_some hcall _) (fun _ _ => id) fun _ _ => id
  · by_cases henabled : s.permissionCache.options.enabled = true
    · rw [if_pos henabled]
      have htargets : ∀ (w r : ℕ), s.checkRequests.targets[w]? = some r →
          (s.checkRequests.run c.key mode).targets[w]? = some r := by
        intro w r hr
        rcases hn.sound.run_stays c.key mode with ⟨_, -, -, -, heq⟩ | ⟨-, -, -, heq⟩
        · exact heq ▸ getElem?_append_of_some hr _
        · exact heq ▸ getElem?_append_of_some hr _
      by_cases hregistered : s.checkRequests.entries.has c.key = true
      · rw [if_pos hregistered]
        exact h.keep (fun call hcall => getElem?_append_of_some hcall _) htargets fun _ _ => id
      · rw [if_neg hregistered]
        exact h.keep (fun call hcall => getElem?_append_of_some hcall _) htargets
          fun r n hr => getElem?_append_of_some hr _
    · rw [if_neg henabled]
      exact h.keep (fun call hcall => getElem?_append_of_some hcall _) (fun _ _ => id) fun _ _ => id

/-- Another call is set. -/
lemma getElem?_setCall_of_ne {j : ℕ} (hne : j ≠ i) (call : Call) (state : CallState) :
    (s.setCall j call state).calls[i]? = s.calls[i]? :=
  List.getElem?_set_ne hne

lemma getElem?_setCall_self {call : Call} (hcall : s.calls[i]? = some call) (state : CallState) :
    (s.setCall i call state).calls[i]? = some { call with state } :=
  List.getElem?_set_self (List.getElem?_eq_some_iff.mp hcall).1

/-- What a call takes has the property: the answer of its request, or the stale one. -/
lemma callFrom_finish {call : Call} (hcall : s.calls[i]? = some call)
    {outcome : Except Failure Answer} {now : ℤ} (hok : ∀ answer, outcome = .ok answer → P answer.request)
    (hstale : ∀ failure, outcome = .error failure → s.StaleFrom P call.check.key failure now) :
    (s.finish i call outcome now).CallFrom P call.check.key i := by
  cases outcome with
  | ok answer => exact ⟨_, getElem?_setCall_self hcall _, rfl, hok answer rfl⟩
  | error failure =>
    refine ⟨_, getElem?_setCall_self hcall _, rfl, ?_⟩
    dsimp only
    split
    · rename_i answer hanswer
      exact hstale failure rfl answer hanswer
    · trivial

lemma getElem?_finish_of_ne {j : ℕ} (hne : j ≠ i) (call : Call) (outcome : Except Failure Answer)
    (now : ℤ) : (s.finish j call outcome now).calls[i]? = s.calls[i]? := by
  cases outcome <;> exact List.getElem?_set_ne hne

lemma CallFrom.receive (h : s.CallFrom P key i) (hn : s.Numbered) {j : ℕ} {now : ℤ}
    (hstale : ∀ failure now', s.callFails i (.receive j now) = some (failure, now') →
      s.StaleFrom P key failure now')
    (hstep : s.receive j now = some s') : s'.CallFrom P key i := by
  obtain ⟨call, w, r, mode, outcome, hcall, hwaiting, hw, houtcome, rfl⟩ := receive_eq hstep
  obtain ⟨-, -, htargets⟩ := SharedRequests.receive_stays (s := s.checkRequests) w
  have htarget : s.checkRequests.targets[w]? = some r := by
    rw [SharedRequests.targets, List.getElem?_map, hw, Option.map_some]
  by_cases heq : j = i
  · subst heq
    obtain ⟨call', hcall', rfl, hstate⟩ := h
    rw [hcall] at hcall'
    cases hcall'
    rw [hwaiting] at hstate
    obtain ⟨r', n, hr', hnumber, hP⟩ := hstate
    rw [htarget] at hr'
    cases hr'
    refine callFrom_finish (s := { s with checkRequests := s.checkRequests.receive w }) hcall ?_ ?_
    · rintro answer rfl
      have hrequest := hn.settled houtcome
      rw [hnumber] at hrequest
      exact Option.some.inj hrequest ▸ hP
    · rintro failure rfl
      refine hstale failure now ?_
      simp only [callFails, hcall, Option.map_some, hwaiting, htarget, Option.bind_some, houtcome,
        if_true]
  · refine h.keep (fun call' hcall' => ?_) (fun w' r' hr' => ?_) fun r' n hr' => ?_
    · rw [getElem?_finish_of_ne heq]
      exact hcall'
    · rw [checkRequests_finish, htargets]
      exact hr'
    · rw [numbers_finish]
      exact hr'

lemma CallFrom.settleDirect (h : s.CallFrom P key i) {j : ℕ} {outcome : Except Failure Bool} {now : ℤ}
    (hstale : ∀ failure now', s.callFails i (.settleDirect j outcome now) = some (failure, now') →
      s.StaleFrom P key failure now')
    (hstep : s.settleDirect j outcome now = some s') : s'.CallFrom P key i := by
  obtain ⟨call, request, hcall, hdirect, rfl⟩ := settleDirect_eq hstep
  by_cases heq : j = i
  · subst heq
    obtain ⟨call', hcall', rfl, hstate⟩ := h
    rw [hcall] at hcall'
    cases hcall'
    rw [hdirect] at hstate
    refine callFrom_finish hcall ?_ ?_
    · intro answer hanswer
      cases outcome with
      | ok allowed =>
        cases hanswer
        exact hstate
      | error failure => cases hanswer
    · intro failure hfailure
      cases outcome with
      | ok allowed => cases hfailure
      | error failure' =>
        cases hfailure
        exact hstale failure now (if_pos rfl)
  · refine h.keep (fun call' hcall' => ?_) (fun w r hr => ?_) fun r n hr => ?_
    · rw [getElem?_finish_of_ne heq]
      exact hcall'
    · rw [checkRequests_finish]
      exact hr
    · rw [numbers_finish]
      exact hr

lemma settle_stays {r : ℕ} {outcome : Except Failure Bool} {now : ℤ}
    (hstep : s.settle r outcome now = some s') : s'.calls = s.calls ∧ s'.numbers = s.numbers ∧
      s'.batches = s.batches ∧ s'.sent = s.sent ∧
      s'.checkRequests.targets = s.checkRequests.targets := by
  unfold JunjoClient.settle at hstep
  split at hstep
  · rename_i e request he hn
    obtain ⟨-, -, htargets⟩ := SharedRequests.settle_stays (s := s.checkRequests) r
      (outcome.map fun allowed => (⟨request, 0, allowed⟩ : Answer))
    split_ifs at hstep
    · cases outcome with
      | ok allowed =>
        cases hstep
        exact ⟨rfl, rfl, rfl, rfl, htargets⟩
      | error failure =>
        cases hstep
        exact ⟨rfl, rfl, rfl, rfl, htargets⟩
    · cases hstep
      exact ⟨rfl, rfl, rfl, rfl, htargets⟩
  · cases hstep

/-- Whatever happens, a call keeps to requests with the property. -/
lemma CallFrom.step (h : s.CallFrom P key i) (hn : s.Numbered) {e : ClientEvent}
    (hstale : ∀ failure now, s.callFails i e = some (failure, now) → s.StaleFrom P key failure now)
    (hstep : s.step e = some s') : s'.CallFrom P key i := by
  have hsame : s'.calls = s.calls → s'.numbers = s.numbers →
      s'.checkRequests.targets = s.checkRequests.targets → s'.CallFrom P key i := by
    intro hcalls hnumbers htargets
    exact h.keep (fun _ => by rw [hcalls]; exact id) (fun _ _ => by rw [htargets]; exact id)
      fun _ _ => by rw [hnumbers]; exact id
  cases e with
  | check c mode now =>
    cases hstep
    exact h.check hn c mode now
  | stop j =>
    obtain ⟨call, w, hcall, rfl⟩ := stop_eq hstep
    obtain ⟨-, -, htargets⟩ := SharedRequests.leave_stays (s := s.checkRequests) w
    by_cases heq : j = i
    · subst heq
      obtain ⟨call', hcall', hkey, -⟩ := h
      rw [hcall] at hcall'
      cases hcall'
      exact ⟨_, getElem?_setCall_self hcall _, hkey, trivial⟩
    · refine h.keep (fun call' hcall' => ?_) (fun w' r hr => ?_) fun _ _ => id
      · rw [getElem?_setCall_of_ne heq]
        exact hcall'
      · exact htargets ▸ hr
  | settle shared outcome now =>
    obtain ⟨hcalls, hnumbers, -, -, htargets⟩ := settle_stays hstep
    exact hsame hcalls hnumbers htargets
  | receive j now => exact h.receive hn hstale hstep
  | settleDirect j outcome now => exact h.settleDirect hstale hstep
  | checkBatch requests inherit now =>
    cases hstep
    exact hsame (by simp [JunjoClient.checkBatch]) (by simp [JunjoClient.checkBatch])
      (by simp [JunjoClient.checkBatch])
  | answerSlice batch allowed now =>
    obtain ⟨hshared, hnumbers, hcalls⟩ := answerSlice_stays hstep
    exact hsame hcalls hnumbers (by rw [hshared])
  | failSlice batch failure now =>
    obtain ⟨hshared, hnumbers, hcalls⟩ := failSlice_stays hstep
    exact hsame hcalls hnumbers (by rw [hshared])
  | clearPermissionCache =>
    cases hstep
    exact hsame rfl rfl rfl

end JunjoClient

/-! ### Batches -/

section Batches

variable {key : Text} {place : ℕ} {b : Batch} {results : List (Option BatchResult)} {i : ℕ}

/-- A place asks the check with a key. The results to such checks are of requests with the property,
and so is the request that the batch waits for. -/
structure Batch.From (P : ℕ → Prop) (key : Text) (place : ℕ) (b : Batch) : Prop where
  check : ∃ c, b.checks[place]? = some c ∧ c.key = key
  results : ∀ (j : ℕ) (c : Check) (r : BatchResult), b.checks[j]? = some c → c.key = key →
    b.results[j]? = some (some r) → P r.answer.request
  asking : ∀ request slice, b.state = .asking request slice → P request
  repeats : ∀ q ∈ b.repeats, ∃ c c', b.checks[q.1]? = some c ∧ b.checks[q.2]? = some c' ∧
    c'.key = c.key

/-- A stored answer is of the request. -/
lemma getElem?_storeAnswers {checks : List Check} {request n : ℕ} {now : ℤ} {l : List (ℕ × Bool)}
    {cache : PermissionCache Answer} {r : BatchResult}
    (h : (storeAnswers checks request now n l (cache, results)).2[i]? = some (some r)) :
    results[i]? = some (some r) ∨ r.answer.request = request := by
  induction l generalizing n cache results with
  | nil => exact .inl h
  | cons q l ih =>
    rw [storeAnswers] at h
    split at h
    · exact .inl h
    · rcases ih h with hold | hnew
      · by_cases heq : q.1 = i
        · subst heq
          obtain ⟨hlt, hval⟩ := List.getElem?_eq_some_iff.mp hold
          rw [List.getElem_set_self] at hval
          cases hval
          exact .inr rfl
        · rw [List.getElem?_set_ne heq] at hold
          exact .inl hold
      · exact .inr hnew

/-- The stale answer to a key, past its stale window or not. -/
lemma fst_getStale (cache : PermissionCache Answer) (key : Text) (now : ℤ) :
    (cache.getStale key now).1 =
      if cache.options.enabled && cache.options.serveStaleOnRateLimit then
        (cache.entries.get? key).bind fun entry =>
          if entry.staleUntil ≤ now then none else some entry.result
      else none := by
  unfold PermissionCache.getStale
  split
  · cases cache.entries.get? key with
    | none => rfl
    | some entry =>
      dsimp only [Option.bind_some]
      split <;> rfl
  · rfl

/-- Deletions of what is past its stale window change no stale answer. -/
lemma getStale_getStale (cache : PermissionCache Answer) (key key' : Text) (now : ℤ) :
    ((cache.getStale key now).2.getStale key' now).1 = (cache.getStale key' now).1 := by
  by_cases henabled : (cache.options.enabled && cache.options.serveStaleOnRateLimit) = true
  · cases hget : cache.entries.get? key with
    | none => simp only [PermissionCache.getStale, henabled, hget, if_true]
    | some entry =>
      by_cases hpast : entry.staleUntil ≤ now
      · have hdeleted : (cache.getStale key now).2 =
            { cache with entries := cache.entries.delete key } := by
          simp only [PermissionCache.getStale, henabled, hget, hpast, if_true]
        rw [hdeleted, fst_getStale, fst_getStale, Dict.get?_delete]
        by_cases heq : key' = key
        · simp [heq, hget, hpast]
        · rw [if_neg heq]
      · simp only [PermissionCache.getStale, henabled, hget, if_true, if_neg hpast]
  · simp only [PermissionCache.getStale, if_neg henabled]

lemma stale_staleOnRateLimit (cache : PermissionCache Answer) (failure : Failure) (key key' : Text)
    (now : ℤ) : (staleOnRateLimit (staleOnRateLimit cache failure key now).2 failure key' now).1 =
      (staleOnRateLimit cache failure key' now).1 := by
  cases failure with
  | other => rfl
  | rateLimited => exact getStale_getStale cache key key' now

/-- A stale answer for a place of a slice is the one that the cache has for its check. -/
lemma eq_of_mem_staleSlice {checks : List Check} {failure : Failure} {now : ℤ} {slice : List ℕ}
    {cache : PermissionCache Answer} {answer : Answer}
    (h : (i, some answer) ∈ (staleSlice checks failure now slice cache).1) :
    ∃ c, checks[i]? = some c ∧ (staleOnRateLimit cache failure c.key now).1 = some answer := by
  induction slice generalizing cache with
  | nil => cases h
  | cons j slice ih =>
    rw [staleSlice] at h
    split at h
    · cases h
    · rename_i c hc
      rcases List.mem_cons.mp h with heq | hrest
      · obtain ⟨rfl, hanswer⟩ := Prod.mk.inj heq
        exact ⟨c, hc, hanswer.symm⟩
      · obtain ⟨c', hc', hanswer⟩ := ih hrest
        rw [stale_staleOnRateLimit] at hanswer
        exact ⟨c', hc', hanswer⟩

lemma getElem?_storeStale {stale : List (ℕ × Option Answer)} {r : BatchResult}
    (h : (storeStale results stale)[i]? = some (some r)) :
    results[i]? = some (some r) ∨ (i, some r.answer) ∈ stale := by
  induction stale generalizing results with
  | nil => exact .inl h
  | cons p stale ih =>
    rcases ih h with hold | hnew
    · by_cases heq : p.1 = i
      · subst heq
        obtain ⟨hlt, hval⟩ := List.getElem?_eq_some_iff.mp hold
        rw [List.getElem_set_self] at hval
        obtain ⟨answer, hanswer, rfl⟩ := Option.map_eq_some_iff.mp hval
        exact .inr (List.mem_cons.mpr (.inl (Prod.ext rfl hanswer.symm)))
      · rw [List.getElem?_set_ne heq] at hold
        exact .inl hold
    · exact .inr (List.mem_cons_of_mem _ hnew)

/-- A repeat takes a result to a check with its own key. -/
lemma from_copyRepeats (h : b.From P key place) {repeats : List (ℕ × ℕ)}
    (hrepeats : ∀ q ∈ repeats, q ∈ b.repeats)
    (hresults : ∀ (j : ℕ) (c : Check) (r : BatchResult), b.checks[j]? = some c → c.key = key →
      results[j]? = some (some r) → P r.answer.request) (j : ℕ) (c : Check) (r : BatchResult)
    (hc : b.checks[j]? = some c) (hkey : c.key = key)
    (hr : (copyRepeats results repeats)[j]? = some (some r)) : P r.answer.request := by
  induction repeats generalizing results with
  | nil => exact hresults j c r hc hkey hr
  | cons q repeats ih =>
    refine ih (fun q' hq' => hrepeats q' (List.mem_cons_of_mem _ hq')) ?_ hr
    intro j' c' r' hc' hkey' hr'
    by_cases heq : q.1 = j'
    · subst heq
      obtain ⟨hlt, hval⟩ := List.getElem?_eq_some_iff.mp hr'
      rw [List.getElem_set_self] at hval
      obtain ⟨c₁, c₂, hc₁, hc₂, hsame⟩ := h.repeats q (hrepeats q List.mem_cons_self)
      rw [hc'] at hc₁
      cases hc₁
      exact hresults q.2 c₂ r' hc₂ (hsame.trans hkey') (Option.join_eq_some_iff.mp hval)
    · rw [List.getElem?_set_ne heq] at hr'
      exact hresults j' c' r' hc' hkey' hr'

end Batches

namespace JunjoClient

/-- A batch keeps to requests with the property where its checks have a key. -/
def BatchFrom (P : ℕ → Prop) (s : JunjoClient) (key : Text) (i place : ℕ) : Prop :=
  ∃ b, s.batches[i]? = some b ∧ b.From P key place

/-- The failure that an event hands to a batch, and when. -/
def batchFails (i : ℕ) : ClientEvent → Option (Failure × ℤ)
  | .failSlice j failure now => if j = i then some (failure, now) else none
  | _ => none

variable {s s' : JunjoClient} {key : Text} {i place : ℕ}

lemma batchFrom_setBatch {b : Batch} (hlt : i < s.batches.length) (h : b.From P key place) :
    (s.setBatch i b).BatchFrom P key i place :=
  ⟨b, List.getElem?_set_self hlt, h⟩

/-- A batch asks its next slice, in a request with the property, or is done. -/
lemma batchFrom_nextSlice (hnew : P s.sent.length) {b : Batch} (hlt : i < s.batches.length)
    (h : b.From P key place) : (s.nextSlice i b).BatchFrom P key i place := by
  unfold JunjoClient.nextSlice
  split
  · refine batchFrom_setBatch hlt ⟨h.check, ?_, fun _ _ hstate => (by cases hstate), h.repeats⟩
    exact from_copyRepeats h (fun _ => id) h.results
  · refine batchFrom_setBatch (s := { s with sent := _ }) hlt ⟨h.check, h.results, ?_, h.repeats⟩
    intro request slice hstate
    cases hstate
    exact hnew

lemma getElem?_nextSlice_of_ne {j : ℕ} (hne : j ≠ i) (b : Batch) :
    (s.nextSlice j b).batches[i]? = s.batches[i]? := by
  unfold JunjoClient.nextSlice
  split <;> exact List.getElem?_set_ne hne

/-- A new batch, when what the cache has for the key has the property. -/
lemma batchFrom_checkBatch {requests : List PermissionCheckRequest} {inherit : Bool} {now : ℤ}
    (hnew : P s.sent.length) {request : PermissionCheckRequest}
    (hrequest : requests[place]? = some request) (hkey : (⟨request, inherit⟩ : Check).key = key)
    (hcache : ∀ answer ∈ s.permissionCache.get key now, P answer.request) :
    (s.checkBatch requests inherit now).BatchFrom P key s.batches.length place := by
  have hplan : ∀ checks, (plan s.permissionCache now checks).Ok
      (fun key' answer => key' = key → P answer.request) checks := by
    refine plan_ok fun key' answer hget heq => hcache answer ?_
    rw [← heq, hget]
    rfl
  refine batchFrom_nextSlice ?_ ?_ ⟨?_, ?_, ?_, ?_⟩
  · exact hnew
  · rw [List.length_append]
    exact Nat.lt_succ_self _
  · refine ⟨_, ?_, hkey⟩
    dsimp only
    rw [List.getElem?_map, hrequest, Option.map_some]
  · intro j c r hc hkey hr
    obtain ⟨c', hc', himp⟩ := (hplan _).results j r hr
    rw [hc] at hc'
    cases hc'
    exact himp hkey
  · intro request slice hstate
    cases hstate
  · exact fun q hq => ((hplan _).repeats q hq).2

lemma BatchFrom.checkBatch (h : s.BatchFrom P key i place) (requests : List PermissionCheckRequest)
    (inherit : Bool) (now : ℤ) : (s.checkBatch requests inherit now).BatchFrom P key i place := by
  obtain ⟨b, hb, hfrom⟩ := h
  refine ⟨b, ?_, hfrom⟩
  have hlt : i < s.batches.length := (List.getElem?_eq_some_iff.mp hb).1
  rw [JunjoClient.checkBatch, getElem?_nextSlice_of_ne hlt.ne']
  exact getElem?_append_of_some hb _

lemma BatchFrom.answerSlice (h : s.BatchFrom P key i place) (hnew : P s.sent.length) {j : ℕ}
    {allowed : List Bool} {now : ℤ} (hstep : s.answerSlice j allowed now = some s') :
    s'.BatchFrom P key i place := by
  obtain ⟨b, hb, hfrom⟩ := h
  have hlt : i < s.batches.length := (List.getElem?_eq_some_iff.mp hb).1
  unfold JunjoClient.answerSlice at hstep
  split at hstep
  · rename_i b' hb'
    split at hstep
    · rename_i request slice hstate
      by_cases heq : j = i
      · subst heq
        rw [hb] at hb'
        cases hb'
        split_ifs at hstep
        · cases hstep
          refine batchFrom_nextSlice ?_ ?_ ⟨hfrom.check, ?_, hfrom.asking, hfrom.repeats⟩
          · exact hnew
          · exact hlt
          intro k c r hc hkey hr
          rcases getElem?_storeAnswers hr with hold | hrequest
          · exact hfrom.results k c r hc hkey hold
          · rw [hrequest]
            exact hfrom.asking request slice hstate
        · cases hstep
          exact batchFrom_setBatch hlt ⟨hfrom.check, hfrom.results, fun _ _ hfailed => (by cases hfailed),
            hfrom.repeats⟩
      · refine ⟨b, ?_, hfrom⟩
        split_ifs at hstep
        · cases hstep
          rw [getElem?_nextSlice_of_ne heq]
          exact hb
        · cases hstep
          exact (List.getElem?_set_ne heq).trans hb
    · cases hstep
  · cases hstep

lemma BatchFrom.failSlice (h : s.BatchFrom P key i place) (hnew : P s.sent.length) {j : ℕ}
    {failure : Failure} {now : ℤ} (hstale : j = i → s.StaleFrom P key failure now)
    (hstep : s.failSlice j failure now = some s') : s'.BatchFrom P key i place := by
  obtain ⟨b, hb, hfrom⟩ := h
  have hlt : i < s.batches.length := (List.getElem?_eq_some_iff.mp hb).1
  unfold JunjoClient.failSlice at hstep
  split at hstep
  · rename_i b' hb'
    split at hstep
    · rename_i request slice hstate
      dsimp only at hstep
      by_cases heq : j = i
      · subst heq
        rw [hb] at hb'
        cases hb'
        split_ifs at hstep
        · cases hstep
          refine batchFrom_nextSlice ?_ ?_ ⟨hfrom.check, ?_, hfrom.asking, hfrom.repeats⟩
          · exact hnew
          · exact hlt
          intro k c r hc hkey hr
          rcases getElem?_storeStale hr with hold | hmem
          · exact hfrom.results k c r hc hkey hold
          · obtain ⟨c', hc', hanswer⟩ := eq_of_mem_staleSlice hmem
            rw [hc] at hc'
            cases hc'
            rw [hkey] at hanswer
            exact hstale rfl _ hanswer
        · cases hstep
          exact batchFrom_setBatch hlt ⟨hfrom.check, hfrom.results, fun _ _ hfailed => (by cases hfailed),
            hfrom.repeats⟩
      · refine ⟨b, ?_, hfrom⟩
        split_ifs at hstep
        · cases hstep
          rw [getElem?_nextSlice_of_ne heq]
          exact hb
        · cases hstep
          exact (List.getElem?_set_ne heq).trans hb
    · cases hstep
  · cases hstep

lemma BatchFrom.step (h : s.BatchFrom P key i place) {e : ClientEvent} (hnew : P s.sent.length)
    (hstale : ∀ failure now, batchFails i e = some (failure, now) → s.StaleFrom P key failure now)
    (hstep : s.step e = some s') : s'.BatchFrom P key i place := by
  have hsame : s'.batches = s.batches → s'.BatchFrom P key i place := by
    intro heq
    obtain ⟨b, hb, hfrom⟩ := h
    exact ⟨b, heq ▸ hb, hfrom⟩
  cases e with
  | check c mode now =>
    cases hstep
    exact hsame (batches_check c mode now)
  | stop j =>
    obtain ⟨_, _, -, rfl⟩ := stop_eq hstep
    exact hsame rfl
  | settle shared outcome now =>
    obtain ⟨-, -, hbatches, -⟩ := settle_stays hstep
    exact hsame hbatches
  | receive j now =>
    obtain ⟨_, _, _, _, _, -, -, -, -, rfl⟩ := receive_eq hstep
    exact hsame (batches_finish _ _ _ _)
  | settleDirect j outcome now =>
    obtain ⟨_, _, -, -, rfl⟩ := settleDirect_eq hstep
    exact hsame (batches_finish _ _ _ _)
  | checkBatch requests inherit now =>
    cases hstep
    exact h.checkBatch requests inherit now
  | answerSlice j allowed now => exact h.answerSlice hnew hstep
  | failSlice j failure now =>
    exact h.failSlice hnew (fun heq => hstale failure now (if_pos heq)) hstep
  | clearPermissionCache =>
    cases hstep
    exact hsame rfl

/-! ### Requests -/

lemma length_sent_nextSlice (h : s'.sent = s.sent) (i : ℕ) (b : Batch) :
    s.sent.length ≤ (s'.nextSlice i b).sent.length := by
  rw [← h]
  unfold JunjoClient.nextSlice
  split
  · exact Nat.le_refl _
  · simp

lemma length_sent_check (c : Check) (mode : WaitMode) (now : ℤ) :
    s.sent.length ≤ (s.check c mode now).sent.length := by
  unfold JunjoClient.check
  split
  · exact Nat.le_refl _
  · dsimp only
    split
    · split
      · exact Nat.le_refl _
      · simp
    · simp

/-- Requests are only added. -/
lemma length_sent_step {e : ClientEvent} (hstep : s.step e = some s') :
    s.sent.length ≤ s'.sent.length := by
  cases e with
  | check c mode now =>
    cases hstep
    exact length_sent_check c mode now
  | stop j =>
    obtain ⟨_, _, -, rfl⟩ := stop_eq hstep
    exact Nat.le_refl _
  | settle shared outcome now =>
    obtain ⟨-, -, -, hsent, -⟩ := settle_stays hstep
    rw [hsent]
  | receive j now =>
    obtain ⟨_, _, _, _, _, -, -, -, -, rfl⟩ := receive_eq hstep
    rw [sent_finish]
  | settleDirect j outcome now =>
    obtain ⟨_, _, -, -, rfl⟩ := settleDirect_eq hstep
    rw [sent_finish]
  | checkBatch requests inherit now =>
    cases hstep
    exact length_sent_nextSlice (by rfl) _ _
  | answerSlice j allowed now =>
    simp only [JunjoClient.step, JunjoClient.answerSlice] at hstep
    split at hstep
    · split at hstep
      · split_ifs at hstep
        · cases hstep
          exact length_sent_nextSlice (by rfl) _ _
        · cases hstep
          exact Nat.le_refl _
      · cases hstep
    · cases hstep
  | failSlice j failure now =>
    simp only [JunjoClient.step, JunjoClient.failSlice] at hstep
    split at hstep
    · split at hstep
      · split_ifs at hstep
        · cases hstep
          exact length_sent_nextSlice (by rfl) _ _
        · cases hstep
          exact Nat.le_refl _
      · cases hstep
    · cases hstep
  | clearPermissionCache =>
    cases hstep
    exact Nat.le_refl _

end JunjoClient

end Junjo.Client
