import Junjo.Client.Origins
import Junjo.React.PermissionCache

/-!
# What a React tree shows of permissions

No answer that was requested before an invalidation is kept after it, as long as no fetch after it is
served by what the client kept or had under way. At most one fetch of a key counts, and the number of
kept answers is bounded.
-/

namespace Junjo.React

open Client

/-- An invalidation concerns a check. -/
def Invalidation.Covers (c : Check) : Invalidation → Prop
  | .answer c' => makeCacheKey c = makeCacheKey c'
  | .user userId => c.userId = userId
  | .group groupId => c.groupId = groupId
  | .all => True

/-- No id contains the delimiter. -/
def Delimited (c : Check) : Prop := keyDelimiter ∉ c.userId ∧ keyDelimiter ∉ c.groupId

instance decidableCovers (c : Check) : DecidablePred (Invalidation.Covers c)
  | .answer c' => inferInstanceAs (Decidable (makeCacheKey c = makeCacheKey c'))
  | .user userId => inferInstanceAs (Decidable (c.userId = userId))
  | .group groupId => inferInstanceAs (Decidable (c.groupId = groupId))
  | .all => .isTrue trivial

instance decidableDelimited : DecidablePred Delimited := fun c =>
  inferInstanceAs (Decidable (keyDelimiter ∉ c.userId ∧ keyDelimiter ∉ c.groupId))

/-- The segments of a key tell the user and the group. -/
lemma splitOn_makeCacheKey {c : Check} (h : Delimited c) : ∃ segments,
    (makeCacheKey c).splitOn keyDelimiter = c.userId :: c.groupId :: segments := by
  simp only [makeCacheKey, List.append_assoc, List.cons_append]
  rw [List.splitOn_append_cons_self_of_not_mem h.1, List.splitOn_append_cons_self_of_not_mem h.2]
  exact ⟨_, rfl⟩

namespace PermissionProvider

/-- An invalidation drops the keys that it concerns. -/
lemma drops_iff {c : Check} (h : Delimited c) (i : Invalidation) :
    drops i (makeCacheKey c) = true ↔ i.Covers c := by
  obtain ⟨segments, hsegments⟩ := splitOn_makeCacheKey h
  cases i with
  | answer c' => simp [drops, Invalidation.Covers]
  | user userId => simp [drops, segment, hsegments, Invalidation.Covers]
  | group groupId => simp [drops, segment, hsegments, Invalidation.Covers]
  | all => simp [drops, Invalidation.Covers]

/-! ### Recent answers -/

variable (s : PermissionProvider)

/-- A request is no older than any invalidation that concerns a check. -/
def Recent (c : Check) (request : ℕ) : Prop :=
  ∀ p ∈ s.invalidations, p.1.Covers c → p.2 ≤ request

/-- The failure that an event hands to a fetch, and when. -/
def fetchFails (f : Fetch) (e : ClientEvent) : Option (Failure × ℤ) :=
  match f.source with
  | .call i => s.junjo.callFails i e
  | .batch i _ => JunjoClient.batchFails i e

/-- What a fetch for a check would get from the client without a request. -/
def FromClient (c : Check) (now : ℤ) : Prop :=
  ∀ answer ∈ s.junjo.permissionCache.get c.key now, s.Recent c answer.request

/-- What a fetch for a check would join. -/
def Joins (c : Check) : Prop :=
  ∀ r ∈ s.junjo.checkRequests.entries.get? c.key, ∀ n ∈ s.junjo.numbers[r]?, s.Recent c n

/-- The ids that hooks are given are delimited, and the client serves a fetch that starts or fails
only by requests after the invalidations of its check. -/
def Undisturbed : ProviderEvent → Prop
  | .client e => ∀ p ∈ s.inflight.entries, ∀ f ∈ s.fetches[p.2]?,
      ∀ q ∈ s.fetchFails f e, s.junjo.StaleFrom (s.Recent f.check) f.check.key q.1 q.2
  | .useCan c now => Delimited c ∧ (s.fetches? c = true → s.FromClient c now ∧ s.Joins c)
  | .useCanMany queries inherit fallback now =>
      ∀ q ∈ queries.map fun q => (⟨{ q with context := q.context.or fallback }, inherit⟩ : Check),
        Delimited q ∧ (s.fetches? q = true → s.FromClient q now)
  | .settleFetch _ => True
  | .invalidate _ => True

instance decidableRecent (c : Check) : DecidablePred (s.Recent c) := fun request =>
  inferInstanceAs (Decidable (∀ p ∈ s.invalidations, p.1.Covers c → p.2 ≤ request))

instance decidableStaleFrom (P : ℕ → Prop) [DecidablePred P] (junjo : JunjoClient) (key : Text)
    (failure : Failure) (now : ℤ) : Decidable (junjo.StaleFrom P key failure now) :=
  inferInstanceAs (Decidable
    (∀ answer ∈ (staleOnRateLimit junjo.permissionCache failure key now).1, P answer.request))

instance decidableFromClient (c : Check) (now : ℤ) : Decidable (s.FromClient c now) :=
  inferInstanceAs (Decidable
    (∀ answer ∈ s.junjo.permissionCache.get c.key now, s.Recent c answer.request))

instance decidableJoins (c : Check) : Decidable (s.Joins c) :=
  inferInstanceAs (Decidable (∀ r ∈ s.junjo.checkRequests.entries.get? c.key,
    ∀ n ∈ s.junjo.numbers[r]?, s.Recent c n))

instance decidableServed : DecidablePred s.Undisturbed
  | .client e => inferInstanceAs (Decidable (∀ p ∈ s.inflight.entries, ∀ f ∈ s.fetches[p.2]?,
      ∀ q ∈ s.fetchFails f e, s.junjo.StaleFrom (s.Recent f.check) f.check.key q.1 q.2))
  | .useCan c now => inferInstanceAs (Decidable (Delimited c ∧
      (s.fetches? c = true → s.FromClient c now ∧ s.Joins c)))
  | .useCanMany queries inherit fallback now => inferInstanceAs (Decidable
      (∀ q ∈ queries.map fun q => (⟨{ q with context := q.context.or fallback }, inherit⟩ : Check),
        Delimited q ∧ (s.fetches? q = true → s.FromClient q now)))
  | .settleFetch _ | .invalidate _ => .isTrue trivial

/-- What a fetch waits for keeps to requests with a property. -/
def FetchFrom (P : ℕ → Prop) (junjo : JunjoClient) (f : Fetch) : Prop :=
  match f.source with
  | .call i => junjo.CallFrom P f.check.key i
  | .batch i place => junjo.BatchFrom P f.check.key i place

/-- What holds between events. -/
structure Inv : Prop where
  numbered : s.junjo.Numbered
  noted : ∀ p ∈ s.invalidations, p.2 ≤ s.junjo.sent.length
  asked : ∀ c ∈ s.asked, Delimited c
  entries : ∀ key held, s.entries.get? key = some held → ∀ answer ∈ held.origin,
    ∀ p ∈ s.invalidations, drops p.1 key = true → p.2 ≤ answer.request
  bounded : (s.entries.size : ℤ) ≤ maxEntries
  live : ∀ key i, s.inflight.get? key = some i → ∃ f, s.fetches[i]? = some f ∧ f.key = key ∧
    f.key = makeCacheKey f.check ∧ Delimited f.check ∧ FetchFrom (s.Recent f.check) s.junjo f

variable {s} {s' : PermissionProvider}

lemma inv_new : new.Inv where
  numbered := JunjoClient.numbered_new {}
  noted _ h := by cases h
  asked _ h := by cases h
  entries _ _ h := by cases h
  bounded := by decide
  live _ _ h := by cases h

/-- A request that is not sent yet is recent. -/
lemma Inv.recent_sent (h : s.Inv) (c : Check) : s.Recent c s.junjo.sent.length :=
  fun p hp _ => h.noted p hp

lemma FetchFrom.step {P : ℕ → Prop} {junjo junjo' : JunjoClient} {f : Fetch}
    (h : FetchFrom P junjo f) (hn : junjo.Numbered) (hnew : P junjo.sent.length) {e : ClientEvent}
    (hstale : ∀ q ∈ ({ s with junjo } : PermissionProvider).fetchFails f e,
      junjo.StaleFrom P f.check.key q.1 q.2)
    (hstep : junjo.step e = some junjo') : FetchFrom P junjo' f := by
  unfold FetchFrom at h ⊢
  unfold fetchFails at hstale
  cases hsource : f.source with
  | call i =>
    rw [hsource] at h hstale
    exact h.step hn (fun failure now hfails => hstale (failure, now) hfails) hstep
  | batch i place =>
    rw [hsource] at h hstale
    exact h.step hnew (fun failure now hfails => hstale (failure, now) hfails) hstep

lemma Inv.client (h : s.Inv) {e : ClientEvent} (hquiet : s.Undisturbed (.client e))
    {junjo : JunjoClient} (hstep : s.junjo.step e = some junjo) :
    ({ s with junjo } : PermissionProvider).Inv where
  numbered := h.numbered.step hstep
  noted p hp := (h.noted p hp).trans (JunjoClient.length_sent_step hstep)
  asked := h.asked
  entries := h.entries
  bounded := h.bounded
  live key i hi := by
    obtain ⟨f, hf, hkey, hmake, hdelimited, hfrom⟩ := h.live key i hi
    refine ⟨f, hf, hkey, hmake, hdelimited, ?_⟩
    exact FetchFrom.step (s := s) hfrom h.numbered (h.recent_sent f.check)
      (hquiet (key, i) (Dict.get?_eq_some_iff.mp hi) f hf) hstep

/-- An invalidation that drops no key of a check leaves what is recent. -/
lemma recent_invalidate {c : Check} (hc : Delimited c) {i : Invalidation}
    (hkept : drops i (makeCacheKey c) = false) : (s.invalidate i).Recent c = s.Recent c := by
  have hother : ¬i.Covers c := by
    rw [← drops_iff hc, hkept]
    exact Bool.false_ne_true
  ext request
  simp [Recent, invalidate, or_imp, forall_and, hother]

lemma Inv.invalidate (h : s.Inv) (i : Invalidation) : (s.invalidate i).Inv where
  numbered := h.numbered
  noted p hp := by
    rcases List.mem_append.mp hp with hold | hnew
    · exact h.noted p hold
    · rw [List.mem_singleton.mp hnew]
      exact Nat.le_refl _
  asked := h.asked
  entries key held hheld answer hanswer p hp hdrops := by
    rw [PermissionProvider.invalidate, Dict.get?_filter _ fun key => !drops i key] at hheld
    split_ifs at hheld with hkept
    rcases List.mem_append.mp hp with hold | hnew
    · exact h.entries key held hheld answer hanswer p hold hdrops
    · rw [List.mem_singleton.mp hnew] at hdrops
      simp [hdrops] at hkept
  bounded := by
    have hle : (s.invalidate i).entries.size ≤ s.entries.size := List.length_filter_le _ _
    have hbounded := h.bounded
    omega
  live key j hj := by
    rw [PermissionProvider.invalidate, Dict.get?_filter _ fun key => !drops i key] at hj
    split_ifs at hj with hkept
    obtain ⟨f, hf, hkey, hmake, hdelimited, hfrom⟩ := h.live key j hj
    refine ⟨f, hf, hkey, hmake, hdelimited, ?_⟩
    rw [recent_invalidate hdelimited (by simpa [← hmake, hkey] using hkept)]
    exact hfrom

lemma Inv.register (h : s.Inv) {c : Check} (hc : Delimited c) {source : FetchSource}
    (hfrom : FetchFrom (s.Recent c) s.junjo ⟨makeCacheKey c, c, source⟩) :
    (s.register c source).Inv :=
  { h with
    live := fun key i hi => by
      rw [PermissionProvider.register, Dict.get?_set] at hi
      split_ifs at hi with heq
      · cases hi
        exact ⟨_, List.getElem?_concat_length, heq.symm, rfl, hc, hfrom⟩
      · obtain ⟨f, hf, hrest⟩ := h.live key i hi
        exact ⟨f, getElem?_append_of_some hf _, hrest⟩ }

lemma Inv.ask (h : s.Inv) {checks : List Check} (hchecks : ∀ c ∈ checks, Delimited c) :
    ({ s with asked := s.asked ++ checks } : PermissionProvider).Inv :=
  { h with
    asked := fun c hc => by
      rcases List.mem_append.mp hc with hold | hnew
      · exact h.asked c hold
      · exact hchecks c hnew }

lemma key_checkOptions (c : Check) : (checkOptions c).key = c.key := key_sentInBatch c

lemma Inv.useCan (h : s.Inv) {c : Check} {now : ℤ} (hquiet : s.Undisturbed (.useCan c now)) :
    (s.useCan c now).Inv := by
  obtain ⟨hc, hserved⟩ := hquiet
  have hasked : ({ s with asked := s.asked ++ [c] } : PermissionProvider).Inv :=
    h.ask fun c' hc' => List.mem_singleton.mp hc' ▸ hc
  unfold PermissionProvider.useCan
  dsimp only
  split_ifs with hfetches
  · have hclient := hasked.client (e := .check (checkOptions c) .untilStopped now)
      (fun p _ f _ q hq => by
        unfold fetchFails at hq
        split at hq <;> cases hq) rfl
    refine hclient.register hc ?_
    obtain ⟨hcache, hjoins⟩ := hserved hfetches
    have hcall : (s.junjo.check (checkOptions c) .untilStopped now).CallFrom (s.Recent c)
        (checkOptions c).key s.junjo.calls.length :=
      JunjoClient.callFrom_check h.numbered (h.recent_sent c) (key_checkOptions c ▸ hcache)
        (key_checkOptions c ▸ hjoins)
    rw [key_checkOptions] at hcall
    exact hcall
  · exact hasked

/-- One entry of a batch is registered when there is no answer and no fetch. -/
lemma Inv.prefetchResults (h : s.Inv) {i : ℕ} {l : List (Check × ℕ)}
    (hl : ∀ p ∈ l, Delimited p.1 ∧
      (s.fetches? p.1 = true → s.junjo.BatchFrom (s.Recent p.1) p.1.key i p.2)) :
    (l.foldl (prefetchResult i) s).Inv := by
  induction l generalizing s with
  | nil => exact h
  | cons p l ih =>
    rw [List.foldl_cons]
    by_cases hfetches : s.fetches? p.1 = true
    · have hregister : prefetchResult i s p = s.register p.1 (.batch i p.2) := if_pos hfetches
      obtain ⟨hc, hfrom⟩ := hl p List.mem_cons_self
      rw [hregister]
      refine ih (h.register hc (hfrom hfetches)) fun q hq => ?_
      obtain ⟨hq', hfrom'⟩ := hl q (List.mem_cons_of_mem _ hq)
      refine ⟨hq', fun hlater => hfrom' ?_⟩
      have hle : ∀ key, s.inflight.has key = true →
          (s.inflight.set (makeCacheKey p.1) s.fetches.length).has key = true := by
        intro key hkey
        rw [Dict.has_iff] at hkey ⊢
        exact Dict.mem_keys_set.mpr (.inr hkey)
      simp only [fetches?, PermissionProvider.register, Bool.and_eq_true, Bool.not_eq_true'] at hlater ⊢
      refine ⟨?_, hlater.2⟩
      by_contra hhas
      rw [hle _ (Bool.not_eq_false _ ▸ hhas)] at hlater
      exact absurd hlater.1 (by decide)
    · have hskip : prefetchResult i s p = s := if_neg hfetches
      rw [hskip]
      exact ih h fun q hq => hl q (List.mem_cons_of_mem _ hq)

lemma Inv.useCanMany (h : s.Inv) {queries : List PermissionCheckRequest} {inherit : Bool}
    {fallback : Option PermissionContext} {now : ℤ}
    (hquiet : s.Undisturbed (.useCanMany queries inherit fallback now)) :
    (s.useCanMany queries inherit fallback now).Inv := by
  unfold PermissionProvider.useCanMany
  dsimp only
  generalize hqueries : (queries.map fun q => ({ q with context := q.context.or fallback } :
    PermissionCheckRequest)) = queries'
  have hgiven : ∀ q ∈ queries', Delimited ⟨q, inherit⟩ ∧
      (s.fetches? ⟨q, inherit⟩ = true → s.FromClient ⟨q, inherit⟩ now) := by
    rw [← hqueries]
    intro q hq
    obtain ⟨q', hq', rfl⟩ := List.mem_map.mp hq
    exact hquiet _ (List.mem_map.mpr ⟨q', hq', rfl⟩)
  generalize hmissing : (queries'.filter fun q => !s.inflight.has (makeCacheKey ⟨q, inherit⟩)) = missing
  have hasked : ({ s with asked := s.asked ++ queries'.map fun q => (⟨q, inherit⟩ : Check) } :
      PermissionProvider).Inv := by
    refine h.ask fun c hc => ?_
    obtain ⟨q, hq, rfl⟩ := List.mem_map.mp hc
    exact (hgiven q hq).1
  split_ifs
  · exact hasked
  · have hclient := hasked.client (e := .checkBatch missing inherit now)
      (fun p _ f _ q hq => by
        unfold fetchFails at hq
        split at hq <;> cases hq) rfl
    refine hclient.prefetchResults fun p hp => ?_
    obtain ⟨place, hplace⟩ := List.mem_iff_getElem?.mp hp
    rw [List.getElem?_zipIdx, Nat.zero_add, List.getElem?_map] at hplace
    obtain ⟨c, hc, rfl⟩ := Option.map_eq_some_iff.mp hplace
    obtain ⟨q, hq, rfl⟩ := Option.map_eq_some_iff.mp hc
    have hmem : q ∈ missing := List.mem_of_getElem? hq
    rw [← hmissing] at hmem
    obtain ⟨hdelimited, hserved⟩ := hgiven q (List.mem_filter.mp hmem).1
    refine ⟨hdelimited, fun hfetches => ?_⟩
    exact JunjoClient.batchFrom_checkBatch (h.recent_sent _) hq rfl (hserved hfetches)

lemma origin_of_outcome {P : ℕ → Prop} {f : Fetch} (hfrom : FetchFrom P s.junjo f) {held : Held}
    (houtcome : s.outcome f = some (some held)) : ∀ answer ∈ held.origin, P answer.request := by
  unfold outcome at houtcome
  unfold FetchFrom at hfrom
  cases hsource : f.source with
  | call i =>
    rw [hsource] at houtcome hfrom
    obtain ⟨call, hcall, -, hstate⟩ := hfrom
    dsimp only at houtcome
    rw [hcall, Option.map_some] at houtcome
    split at houtcome
    · rename_i answer hserved
      cases houtcome
      rw [Option.some.inj hserved] at hstate
      rintro _ ⟨⟩
      exact hstate
    · rename_i answer hanswered
      cases houtcome
      rw [Option.some.inj hanswered] at hstate
      rintro _ ⟨⟩
      exact hstate
    · cases houtcome
    · cases houtcome
  | batch i place =>
    rw [hsource] at houtcome hfrom
    obtain ⟨b, hb, ⟨c, hc, hkey⟩, hresults, -⟩ := hfrom
    dsimp only at houtcome
    rw [hb] at houtcome
    dsimp only at houtcome
    split at houtcome
    · split at houtcome
      · rename_i r hr
        cases houtcome
        rintro _ ⟨⟩
        exact hresults place c r hc hkey (Option.join_eq_some_iff.mp hr)
      · cases houtcome
        intro answer hanswer
        cases hanswer
    · cases houtcome
    · cases houtcome

lemma size_dropOldest {κ ν : Type*} {m : ℤ} (hm : 0 ≤ m) (entries : Dict κ ν) :
    ((dropOldest m entries).size : ℤ) ≤ m := by
  rw [dropOldest, Dict.size, Dict.entries_drop, List.length_drop]
  change ((entries.size - (entries.size - m.toNat) : ℕ) : ℤ) ≤ m
  omega

/-- Other answers are kept, and fetches are forgotten. -/
lemma Inv.store (h : s.Inv) {entries : Dict Text Held} {inflight : Dict Text ℕ}
    (hentries : ∀ key held, entries.get? key = some held → s.entries.get? key = some held ∨
      ∀ answer ∈ held.origin, ∀ p ∈ s.invalidations, drops p.1 key = true → p.2 ≤ answer.request)
    (hbounded : (entries.size : ℤ) ≤ maxEntries)
    (hinflight : ∀ key i, inflight.get? key = some i → s.inflight.get? key = some i) :
    ({ s with entries, inflight } : PermissionProvider).Inv where
  numbered := h.numbered
  noted := h.noted
  asked := h.asked
  entries key held hheld := by
    rcases hentries key held hheld with hold | hnew
    · exact h.entries key held hold
    · exact hnew
  bounded := hbounded
  live key i hi := h.live key i (hinflight key i hi)

lemma Inv.settleFetch (h : s.Inv) {i : ℕ} (hstep : s.settleFetch i = some s') : s'.Inv := by
  unfold PermissionProvider.settleFetch at hstep
  split at hstep
  · cases hstep
  · rename_i f hf
    split at hstep
    · cases hstep
    · rename_i held houtcome
      split_ifs at hstep with hlive
      · obtain ⟨f', hf', -, hmake, hdelimited, hfrom⟩ := h.live f.key i hlive
        rw [hf] at hf'
        cases hf'
        have hdeleted : ∀ key j, (s.inflight.delete f.key).get? key = some j →
            s.inflight.get? key = some j := by
          intro key j hj
          rw [Dict.get?_delete] at hj
          split_ifs at hj
          exact hj
        cases held with
        | some held =>
          cases hstep
          refine h.store ?_ (size_dropOldest (by decide) _) hdeleted
          intro key held' hheld'
          have hget := get?_dropOldest hheld'
          rw [Dict.get?_set] at hget
          split_ifs at hget with heq
          · cases hget
            refine .inr fun answer hanswer p hp hdrops => ?_
            refine origin_of_outcome hfrom houtcome answer hanswer p hp ?_
            rwa [← drops_iff hdelimited, ← hmake, ← heq]
          · exact .inl hget
        | none =>
          cases hstep
          exact { h with live := fun key j hj => h.live key j (hdeleted key j hj) }
      · cases hstep
        exact h

lemma Inv.step (h : s.Inv) {e : ProviderEvent} (hquiet : s.Undisturbed e)
    (hstep : s.step e = some s') : s'.Inv := by
  cases e with
  | client e =>
    obtain ⟨junjo, hjunjo, rfl⟩ := Option.map_eq_some_iff.mp hstep
    exact h.client hquiet hjunjo
  | useCan c now =>
    cases hstep
    exact h.useCan hquiet
  | useCanMany queries inherit fallback now =>
    cases hstep
    exact h.useCanMany hquiet
  | settleFetch i => exact h.settleFetch hstep
  | invalidate i =>
    cases hstep
    exact h.invalidate i

/-! ### Runs -/

/-- The fetch with a number counts: what it settles with will be kept. -/
def Live (s : PermissionProvider) (i : ℕ) (f : Fetch) : Prop :=
  s.fetches[i]? = some f ∧ s.inflight.get? f.key = some i

/-- What hooks can rely on. -/
structure Correct (s : PermissionProvider) : Prop where
  /-- What is kept for a check that a hook has asked is no older than its invalidations. -/
  recent : ∀ c ∈ s.asked, ∀ held, s.entries.get? (makeCacheKey c) = some held →
    ∀ answer ∈ held.origin, s.Recent c answer.request
  one_live : ∀ {i j f g}, s.Live i f → s.Live j g → f.key = g.key → i = j
  bounded : (s.entries.size : ℤ) ≤ maxEntries

lemma Inv.correct (h : s.Inv) : s.Correct where
  recent c hc held hheld answer hanswer p hp hcovers :=
    h.entries _ held hheld answer hanswer p hp ((drops_iff (h.asked c hc) p.1).mpr hcovers)
  one_live hi hj hkey := by
    have heq := hi.2.symm.trans (hkey ▸ hj.2)
    exact Option.some.inj heq
  bounded := h.bounded

end PermissionProvider

/-- Whatever the order of reads, fetches, invalidations and what happens in the client, hooks can
rely on the provider, when their ids are delimited and no fetch is served by an answer, or a request
under way, that an invalidation of its check came after. -/
theorem permissions_correct {events : List ProviderEvent}
    (hquiet : ∀ before e after s, events = before ++ e :: after →
      PermissionProvider.run before = some s → s.Undisturbed e)
    {s : PermissionProvider} (hrun : PermissionProvider.run events = some s) : s.Correct := by
  refine PermissionProvider.Inv.correct (runSteps_invariant_of (P := PermissionProvider.Inv)
    (C := PermissionProvider.Undisturbed) ?_ PermissionProvider.inv_new hrun ?_)
  · exact fun s e s' h hquiet hstep => h.step hquiet hstep
  · exact hquiet

/-! ### A read again after an invalidation -/

private def shown : Check := ⟨⟨text "u", text "g", text "read", none⟩, false⟩

/-- A check is read, answered and invalidated. -/
private def readAndInvalidated : List ProviderEvent :=
  [.useCan shown 0, .client (.settle 0 (.ok true) 1), .client (.receive 0 1), .settleFetch 0,
    .invalidate (.user (text "u"))]

/-- It is read again when the client has forgotten the answer. -/
private def readLater : List ProviderEvent :=
  readAndInvalidated ++ [.useCan shown 6000, .client (.settle 1 (.ok false) 6001),
    .client (.receive 1 6001), .settleFetch 1]

theorem permissions_correct_readLater : ∃ s, PermissionProvider.run readLater = some s ∧
    s.entries.get? (makeCacheKey shown) = some ⟨false, some ⟨1, 0, false⟩⟩ ∧ s.Correct := by
  have hheld : (PermissionProvider.run readLater).map (fun s =>
      s.entries.get? (makeCacheKey shown)) = some (some ⟨false, some ⟨1, 0, false⟩⟩) := by
    decide
  obtain ⟨s, hrun, hentry⟩ := Option.map_eq_some_iff.mp hheld
  refine ⟨s, hrun, hentry, permissions_correct (forall_step_of_take ?_) hrun⟩
  decide

/-- It is read again at once. -/
private def readAgain : List ProviderEvent :=
  readAndInvalidated ++ [.useCan shown 2, .settleFetch 1]

/-- The client still has the answer from before the invalidation. -/
theorem permissions_not_correct : ¬ ∀ (events : List ProviderEvent) (s : PermissionProvider),
    PermissionProvider.run events = some s → s.Correct := by
  intro h
  have hold : (PermissionProvider.run readAgain).map (fun s => decide (∃ c ∈ s.asked,
      ∃ held ∈ s.entries.get? (makeCacheKey c), ∃ answer ∈ held.origin,
        ¬s.Recent c answer.request)) = some true := by
    decide
  obtain ⟨s, hrun, hkept⟩ := Option.map_eq_some_iff.mp hold
  obtain ⟨c, hc, held, hheld, answer, hanswer, hnot⟩ := of_decide_eq_true hkept
  exact hnot ((h readAgain s hrun).recent c hc held hheld answer hanswer)

end Junjo.React
