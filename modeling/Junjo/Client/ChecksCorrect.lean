import Junjo.Client.Checks
import Junjo.Core.Lists

/-!
# What the client answers with

A batch answers each check with an answer the server gave to that very check, callers share requests
without ending each other's, and nothing that was asked before a clear is served after it, as long
as no batch brings in an answer over a clear.
-/

namespace Junjo.Client

/-! ### Which check an answer answers -/

/-- An answer was given to a check with this key. -/
def Answer.To (sent : List (List Check)) (key : Text) (answer : Answer) : Prop :=
  ∃ asked c, sent[answer.request]? = some asked ∧ asked[answer.position]? = some c ∧ c.key = key

lemma Answer.To.append {sent : List (List Check)} {key : Text} {answer : Answer}
    (h : answer.To sent key) (more : List (List Check)) : answer.To (sent ++ more) key := by
  obtain ⟨asked, c, hasked, hc, hkey⟩ := h
  exact ⟨asked, c, getElem?_append_of_some hasked more, hc, hkey⟩

/-- All texts of a check survive a query string. -/
def Check.WellFormed (c : Check) : Prop :=
  onUrl c.userId = c.userId ∧ onUrl c.groupId = c.groupId ∧ onUrl c.permission = c.permission ∧
    ∀ context ∈ c.context, ∀ p ∈ context.entries, onUrl p.1 = p.1 ∧ onUrl p.2 = p.2

lemma get?_contextOnUrl {context : PermissionContext}
    (h : ∀ p ∈ context.entries, onUrl p.1 = p.1 ∧ onUrl p.2 = p.2) (k : Text) :
    (contextOnUrl context).get? k = context.get? k := by
  have hsame : contextOnUrl context = Dict.ofList context.sortedEntries := by
    apply List.foldl_ext
    intro params p hp
    obtain ⟨hfst, hsnd⟩ := h p (Dict.mem_sortedEntries.mp hp)
    rw [hfst, hsnd]
  have hnodup : (context.sortedEntries.map Prod.fst).Nodup := by
    rw [Dict.map_fst_sortedEntries]
    exact (List.perm_insertionSort _ _).nodup_iff.mpr context.nodup_keys
  ext v
  rw [hsame, Dict.get?_ofList_eq_some_iff hnodup, Dict.mem_sortedEntries, Dict.get?_eq_some_iff]

lemma permissionContextKey_congr {context context' : PermissionContext}
    (h : ∀ k, context.get? k = context'.get? k) :
    permissionContextKey (some context) = permissionContextKey (some context') := by
  apply canonicalContextKey_congr
  intro k
  rw [Dict.get?_mapValues, Dict.get?_mapValues, h]

lemma key_sentAlone {c : Check} (h : c.WellFormed) : c.sentAlone.key = c.key := by
  obtain ⟨huser, hgroup, hpermission, hcontext⟩ := h
  have hkey : permissionContextKey (c.context.map contextOnUrl) = permissionContextKey c.context := by
    cases hc : c.context with
    | none => rfl
    | some context => exact permissionContextKey_congr (get?_contextOnUrl (hcontext context hc))
  simp only [Check.key, Check.sentAlone, huser, hgroup, hpermission, hkey]

lemma key_sentInBatch (c : Check) : c.sentInBatch.key = c.key := by
  have hkey : permissionContextKey c.sentInBatch.context = permissionContextKey c.context := by
    rw [Check.sentInBatch]
    cases hc : c.context with
    | none => rfl
    | some context =>
      by_cases hempty : context.entries = []
      · have hnone : (some context).filter (fun context => !context.entries.isEmpty) = none := by
          simp [hempty]
        have hkeys : (context.mapValues foldContextValue).keys = [] := by
          rw [Dict.keys_mapValues, Dict.keys, hempty, List.map_nil]
        rw [hnone]
        exact (canonicalContextKey_eq_nil.mpr hkeys).symm
      · have hsome : (some context).filter (fun context => !context.entries.isEmpty) =
            some context := by
          simp [Option.filter, hempty]
        rw [hsome]
  simp only [Check.key, hkey]
  rfl

/-! ### The results of a batch -/

/-- The results there are: each to the check of its place, and those of the cache not asked before
the last clear that preceded the batch. -/
def Batch.Right (sent : List (List Check)) (b : Batch) (results : List (Option BatchResult)) : Prop :=
  ∀ (i : ℕ) (r : BatchResult), results[i]? = some (some r) →
    ∃ c, b.checks[i]? = some c ∧ r.answer.To sent c.key ∧
      (r.cached = true → b.clearedAt ≤ r.answer.request)

def HasResult (results : List (Option BatchResult)) (i : ℕ) : Prop :=
  ∃ r, results[i]? = some (some r)

/-- What is known of a batch while the places `left` are not answered. -/
structure Batch.Filled (sent : List (List Check)) (b : Batch) (left : List ℕ) : Prop where
  length : b.results.length = b.checks.length
  results : b.Right sent b.results
  left_lt : ∀ j ∈ left, j < b.checks.length
  repeats : ∀ p ∈ b.repeats, ∃ c c', b.checks[p.1]? = some c ∧ b.checks[p.2]? = some c' ∧
    c'.key = c.key
  sources : ∀ p ∈ b.repeats, p.2 ∈ left ∨ HasResult b.results p.2
  covered : ∀ i < b.checks.length, i ∈ left ∨ HasResult b.results i ∨ ∃ p ∈ b.repeats, p.1 = i

/-- Every check has a result. -/
structure Batch.Answered (sent : List (List Check)) (b : Batch) : Prop where
  results : b.Right sent b.results
  all : ∀ i < b.checks.length, HasResult b.results i

structure Batch.Ok (sent : List (List Check)) (clearedAt : ℕ) (b : Batch) : Prop where
  clearedAt_le : b.clearedAt ≤ clearedAt
  asking : ∀ {n : ℕ} {slice : List ℕ}, b.state = .asking n slice →
    b.Filled sent (slice ++ b.pending) ∧
      sent[n]? = some (slice.filterMap fun j => (b.checks[j]?).map Check.sentInBatch)
  done : b.state = .done → b.Answered sent

section Batch

variable {sent : List (List Check)} {b : Batch} {left : List ℕ}
  {results : List (Option BatchResult)} {i j : ℕ} {c : Check} {r : BatchResult}

lemma Batch.Right.append (h : b.Right sent results) (more : List (List Check)) :
    b.Right (sent ++ more) results := by
  intro i r hget
  obtain ⟨c, hc, hto, hcached⟩ := h i r hget
  exact ⟨c, hc, hto.append more, hcached⟩

lemma Batch.Filled.append (h : b.Filled sent left) (more : List (List Check)) :
    b.Filled (sent ++ more) left :=
  { h with results := h.results.append more }

lemma Batch.Answered.append (h : b.Answered sent) (more : List (List Check)) :
    b.Answered (sent ++ more) :=
  { h with results := h.results.append more }

lemma Batch.Ok.mono {clearedAt clearedAt' : ℕ} (h : b.Ok sent clearedAt)
    (hle : clearedAt ≤ clearedAt') (more : List (List Check)) : b.Ok (sent ++ more) clearedAt' where
  clearedAt_le := h.clearedAt_le.trans hle
  asking hstate := by
    obtain ⟨hfilled, hsent⟩ := h.asking hstate
    exact ⟨hfilled.append more, getElem?_append_of_some hsent more⟩
  done hstate := (h.done hstate).append more

lemma HasResult.set (h : HasResult results i) (j : ℕ) (r : BatchResult) :
    HasResult (results.set j (some r)) i := by
  obtain ⟨r', hr'⟩ := h
  by_cases heq : j = i
  · subst heq
    exact ⟨r, List.getElem?_set_self (List.getElem?_eq_some_iff.mp hr').1⟩
  · exact ⟨r', by rw [List.getElem?_set_ne heq, hr']⟩

lemma hasResult_set_self (h : j < results.length) : HasResult (results.set j (some r)) j :=
  ⟨r, List.getElem?_set_self h⟩

/-- An answer to the check of a place. -/
lemma Batch.Right.set (h : b.Right sent results) (hc : b.checks[j]? = some c)
    (hto : r.answer.To sent c.key) (hcached : r.cached = true → b.clearedAt ≤ r.answer.request) :
    b.Right sent (results.set j (some r)) := by
  intro i r' hget
  by_cases heq : j = i
  · subst heq
    obtain ⟨hlt, hval⟩ := List.getElem?_eq_some_iff.mp hget
    rw [List.getElem_set_self] at hval
    cases hval
    exact ⟨c, hc, hto, hcached⟩
  · rw [List.getElem?_set_ne heq] at hget
    exact h i r' hget

/-- A result for a place that was left. -/
lemma Batch.Filled.set (h : b.Filled sent (j :: left)) (hc : b.checks[j]? = some c)
    (hto : r.answer.To sent c.key) (hcached : r.cached = true → b.clearedAt ≤ r.answer.request) :
    ({ b with results := b.results.set j (some r) } : Batch).Filled sent left where
  length := by
    rw [List.length_set]
    exact h.length
  results := h.results.set hc hto hcached
  left_lt i hi := h.left_lt i (List.mem_cons_of_mem _ hi)
  repeats := h.repeats
  sources p hp := by
    rcases h.sources p hp with hleft | hsome
    · rcases List.mem_cons.mp hleft with heq | hleft
      · rw [heq]
        exact .inr (hasResult_set_self (h.length ▸ h.left_lt j List.mem_cons_self))
      · exact .inl hleft
    · exact .inr (hsome.set j r)
  covered i hi := by
    rcases h.covered i hi with hleft | hsome | hrepeat
    · rcases List.mem_cons.mp hleft with heq | hleft
      · rw [heq]
        exact .inr (.inl (hasResult_set_self (h.length ▸ h.left_lt j List.mem_cons_self)))
      · exact .inl hleft
    · exact .inr (.inl (hsome.set j r))
    · exact .inr (.inr hrepeat)

/-- Copying results keeps those there are, and fills the places it copies to. -/
lemma copyRepeats_spec (h : b.Filled sent []) (l : List (ℕ × ℕ)) (hl : ∀ p ∈ l, p ∈ b.repeats)
    (hlength : results.length = b.checks.length) (hright : b.Right sent results)
    (hsources : ∀ p ∈ b.repeats, HasResult results p.2) :
    b.Right sent (copyRepeats results l) ∧
      ∀ i, (HasResult results i ∨ ∃ p ∈ l, p.1 = i) → HasResult (copyRepeats results l) i := by
  induction l generalizing results with
  | nil => exact ⟨hright, fun i hi => hi.elim id fun ⟨p, hp, _⟩ => absurd hp List.not_mem_nil⟩
  | cons p l ih =>
    obtain ⟨c, c', hc, hc', hkey⟩ := h.repeats p (hl p List.mem_cons_self)
    obtain ⟨r, hr⟩ := hsources p (hl p List.mem_cons_self)
    obtain ⟨c'', hc'', hto, hcached⟩ := hright p.2 r hr
    rw [hc'] at hc''
    cases hc''
    rw [hkey] at hto
    have hcopy : copyRepeats results (p :: l) = copyRepeats (results.set p.1 (some r)) l := by
      rw [copyRepeats, List.foldl_cons, hr]
      rfl
    have hlt : p.1 < results.length := by
      rw [hlength]
      exact (List.getElem?_eq_some_iff.mp hc).1
    have hset : (results.set p.1 (some r)).length = b.checks.length := by
      rw [List.length_set, hlength]
    rw [hcopy]
    obtain ⟨hall, hfilled⟩ := ih (fun q hq => hl q (List.mem_cons_of_mem _ hq)) hset
      (hright.set hc hto hcached) fun q hq => (hsources q hq).set _ _
    refine ⟨hall, fun i hi => hfilled i ?_⟩
    rcases hi with hsome | ⟨q, hq, rfl⟩
    · exact .inl (hsome.set _ _)
    · rcases List.mem_cons.mp hq with rfl | hq
      · exact .inl (hasResult_set_self hlt)
      · exact .inr ⟨q, hq, rfl⟩

lemma answered_copyRepeats (h : b.Filled sent []) :
    ({ b with results := copyRepeats b.results b.repeats, state := .done } : Batch).Answered sent := by
  have hsources : ∀ p ∈ b.repeats, HasResult b.results p.2 :=
    fun p hp => (h.sources p hp).resolve_left (by simp)
  obtain ⟨hright, hfilled⟩ := copyRepeats_spec h b.repeats (fun _ hp => hp) h.length h.results hsources
  exact ⟨hright, fun i hi => hfilled i ((h.covered i hi).resolve_left (by simp))⟩

/-- What the loop over the checks finds, when the cache answers with a property. -/
structure Plan.Ok (P : Text → Answer → Prop) (checks : List Check) (p : Plan) : Prop where
  length : p.results.length = checks.length
  results : ∀ (i : ℕ) (r : BatchResult), p.results[i]? = some (some r) →
    ∃ c, checks[i]? = some c ∧ P c.key r.answer
  first : ∀ key i, p.firstIndex.get? key = some i →
    i ∈ p.pending ∧ ∃ c, checks[i]? = some c ∧ c.key = key
  pending_lt : ∀ j ∈ p.pending, j < checks.length
  repeats : ∀ q ∈ p.repeats, q.2 ∈ p.pending ∧
    ∃ c c', checks[q.1]? = some c ∧ checks[q.2]? = some c' ∧ c'.key = c.key
  covered : ∀ i < checks.length, i ∈ p.pending ∨ HasResult p.results i ∨ ∃ q ∈ p.repeats, q.1 = i

section Plan

variable {P : Text → Answer → Prop} {checks : List Check} {p : Plan} {cache : PermissionCache Answer}

lemma Plan.Ok.planCheck (h : p.Ok P checks) {now : ℤ}
    (hcache : ∀ key answer, cache.get key now = some answer → P key answer) (c : Check) :
    (planCheck cache now p c).Ok P (checks ++ [c]) := by
  have hself : (checks ++ [c])[p.results.length]? = some c := by
    rw [h.length]
    exact List.getElem?_concat_length
  have hold : ∀ (new : Option BatchResult), (∀ r, new = some r → P c.key r.answer) →
      ∀ (i : ℕ) (r : BatchResult), (p.results ++ [new])[i]? = some (some r) →
        ∃ c', (checks ++ [c])[i]? = some c' ∧ P c'.key r.answer := by
    intro new hnew i r hget
    rcases getElem?_concat_cases hget with hget | ⟨rfl, hr⟩
    · obtain ⟨c', hc', hrest⟩ := h.results i r hget
      exact ⟨c', getElem?_append_of_some hc' _, hrest⟩
    · exact ⟨c, hself, hnew r hr.symm⟩
  have hlength : ∀ new : Option BatchResult,
      (p.results ++ [new]).length = (checks ++ [c]).length := by
    intro new
    rw [List.length_append, List.length_append, h.length]
    rfl
  have hkept : ∀ (i : ℕ) (new : Option BatchResult), HasResult p.results i →
      HasResult (p.results ++ [new]) i :=
    fun i new ⟨r, hr⟩ => ⟨r, getElem?_append_of_some hr _⟩
  have hlt : ∀ i, i < (checks ++ [c]).length → i < checks.length ∨ i = p.results.length := by
    intro i hi
    rw [List.length_append, List.length_singleton] at hi
    rw [h.length]
    omega
  have hfirst : ∀ key i, p.firstIndex.get? key = some i →
      i ∈ p.pending ∧ ∃ c', (checks ++ [c])[i]? = some c' ∧ c'.key = key := by
    intro key i hget
    obtain ⟨hmem, c', hc', hkey⟩ := h.first key i hget
    exact ⟨hmem, c', getElem?_append_of_some hc' _, hkey⟩
  have hpending : ∀ j ∈ p.pending, j < (checks ++ [c]).length := by
    intro j hj
    rw [List.length_append]
    exact Nat.lt_add_right _ (h.pending_lt j hj)
  have hrepeats : ∀ q ∈ p.repeats, q.2 ∈ p.pending ∧ ∃ c₁ c₂, (checks ++ [c])[q.1]? = some c₁ ∧
      (checks ++ [c])[q.2]? = some c₂ ∧ c₂.key = c₁.key := by
    intro q hq
    obtain ⟨hmem, c₁, c₂, hc₁, hc₂, hkey⟩ := h.repeats q hq
    exact ⟨hmem, c₁, c₂, getElem?_append_of_some hc₁ _, getElem?_append_of_some hc₂ _, hkey⟩
  unfold Client.planCheck
  dsimp only
  split
  · rename_i answer hget
    constructor
    · exact hlength _
    · exact hold _ fun r hr => by cases hr; exact hcache _ _ hget
    · exact hfirst
    · exact hpending
    · exact hrepeats
    · intro i hi
      rcases hlt i hi with hi | rfl
      · rcases h.covered i hi with hleft | hsome | hrepeat
        · exact .inl hleft
        · exact .inr (.inl (hkept i _ hsome))
        · exact .inr (.inr hrepeat)
      · exact .inr (.inl ⟨_, List.getElem?_concat_length⟩)
  · split
    · rename_i first hget
      obtain ⟨hmem, c', hc', hkey⟩ := hfirst c.key first hget
      constructor
      · exact hlength _
      · exact hold _ fun r hr => by cases hr
      · exact hfirst
      · exact hpending
      · intro q hq
        rcases List.mem_append.mp hq with hq | hq
        · exact hrepeats q hq
        · rw [List.mem_singleton.mp hq]
          exact ⟨hmem, c, c', hself, hc', hkey⟩
      · intro i hi
        rcases hlt i hi with hi | rfl
        · rcases h.covered i hi with hleft | hsome | ⟨q, hq, heq⟩
          · exact .inl hleft
          · exact .inr (.inl (hkept i _ hsome))
          · exact .inr (.inr ⟨q, List.mem_append_left _ hq, heq⟩)
        · exact .inr (.inr ⟨_, List.mem_append_right _ (List.mem_singleton_self _), rfl⟩)
    · constructor
      · exact hlength _
      · exact hold _ fun r hr => by cases hr
      · intro key i hget
        rw [Dict.get?_set] at hget
        split_ifs at hget with heq
        · cases hget
          exact ⟨List.mem_append_right _ (List.mem_singleton_self _), c, hself, heq.symm⟩
        · obtain ⟨hmem, hrest⟩ := hfirst key i hget
          exact ⟨List.mem_append_left _ hmem, hrest⟩
      · intro j hj
        rcases List.mem_append.mp hj with hj | hj
        · exact hpending j hj
        · rw [List.mem_singleton.mp hj, h.length, List.length_append]
          exact Nat.lt_succ_self _
      · intro q hq
        obtain ⟨hmem, hrest⟩ := hrepeats q hq
        exact ⟨List.mem_append_left _ hmem, hrest⟩
      · intro i hi
        rcases hlt i hi with hi | rfl
        · rcases h.covered i hi with hleft | hsome | hrepeat
          · exact .inl (List.mem_append_left _ hleft)
          · exact .inr (.inl (hkept i _ hsome))
          · exact .inr (.inr hrepeat)
        · exact .inl (List.mem_append_right _ (List.mem_singleton_self _))

lemma plan_ok {now : ℤ} (hcache : ∀ key answer, cache.get key now = some answer → P key answer)
    (checks : List Check) : (plan cache now checks).Ok P checks := by
  have hstart : Plan.Ok P [] {} := by
    constructor
    · rfl
    · intro i r h
      cases h
    · intro key i h
      cases h
    · intro j h
      cases h
    · intro q h
      cases h
    · intro i h
      cases h
  exact foldl_invariant (P := fun passed p => Plan.Ok P passed p) hstart
    (fun passed c p hp => hp.planCheck hcache c) checks

end Plan

/-- The batch that the loop's findings make. -/
lemma Plan.Ok.filled {clearedAt : ℕ} {checks : List Check} {p : Plan}
    (h : p.Ok (fun key answer => answer.To sent key ∧ clearedAt ≤ answer.request) checks)
    (state : BatchState) :
    (⟨checks, clearedAt, p.results, p.pending, p.repeats, state⟩ : Batch).Filled sent p.pending where
  length := h.length
  results i r hr := by
    obtain ⟨c, hc, hto, hle⟩ := h.results i r hr
    exact ⟨c, hc, hto, fun _ => hle⟩
  left_lt := h.pending_lt
  repeats q hq := (h.repeats q hq).2
  sources q hq := .inl (h.repeats q hq).1
  covered := h.covered

/-- The answers to a slice fill its places. -/
lemma storeAnswers_spec {clearedAt request : ℕ} {cache : PermissionCache Answer}
    (hcache : cache.Holds fun key answer => answer.To sent key ∧ clearedAt ≤ answer.request)
    (hrequest : cache.options.enabled = true → clearedAt ≤ request) (now : ℤ)
    {l : List (ℕ × Bool)} {n : ℕ}
    (hto : ∀ (m : ℕ) (q : ℕ × Bool) (c : Check), l[m]? = some q → b.checks[q.1]? = some c →
      (⟨request, n + m, q.2⟩ : Answer).To sent c.key)
    (hfilled : ({ b with results } : Batch).Filled sent (l.map Prod.fst ++ left)) :
    ((storeAnswers b.checks request now n l (cache, results)).1.Holds
      fun key answer => answer.To sent key ∧ clearedAt ≤ answer.request) ∧
    ({ b with results := (storeAnswers b.checks request now n l (cache, results)).2 } :
      Batch).Filled sent left := by
  induction l generalizing n cache results with
  | nil => exact ⟨hcache, hfilled⟩
  | cons q l ih =>
    obtain ⟨j, allowed⟩ := q
    have hlt : j < b.checks.length := hfilled.left_lt j List.mem_cons_self
    have hc : b.checks[j]? = some b.checks[j] := List.getElem?_eq_getElem hlt
    have hfirst := hto 0 (j, allowed) _ rfl hc
    rw [storeAnswers, hc]
    refine ih (hcache.set (fun henabled => ⟨hfirst, hrequest henabled⟩) now) ?_ ?_ ?_
    · rw [PermissionCache.options_set]
      exact hrequest
    · intro m q c hm hc
      have hlater := hto (m + 1) q c hm hc
      rwa [show n + (m + 1) = n + 1 + m by omega] at hlater
    · exact hfilled.set hc hfirst fun h => by cases h

lemma holds_staleOnRateLimit {P : Text → Answer → Prop} {cache : PermissionCache Answer}
    (h : cache.Holds P) (failure : Failure) (key : Text) (now : ℤ) :
    (staleOnRateLimit cache failure key now).2.Holds P ∧
      ∀ answer, (staleOnRateLimit cache failure key now).1 = some answer → P key answer := by
  cases failure with
  | other => exact ⟨h, fun answer hget => by cases hget⟩
  | rateLimited => exact ⟨h.getStale key now, fun answer hget => h.getStale_some hget⟩

lemma holds_staleSlice {P : Text → Answer → Prop} {cache : PermissionCache Answer}
    (h : cache.Holds P) (checks : List Check) (failure : Failure) (now : ℤ) (slice : List ℕ) :
    (staleSlice checks failure now slice cache).2.Holds P := by
  induction slice generalizing cache with
  | nil => exact h
  | cons j slice ih =>
    rw [staleSlice]
    split
    · exact h
    · exact ih (holds_staleOnRateLimit h failure _ now).1

/-- Stale answers for a slice fill its places, when there is one for each. -/
lemma filled_storeStale {clearedAt : ℕ} (hclearedAt : b.clearedAt ≤ clearedAt) (failure : Failure)
    (now : ℤ) {slice : List ℕ} {cache : PermissionCache Answer}
    (hcache : cache.Holds fun key answer => answer.To sent key ∧ clearedAt ≤ answer.request)
    (hfilled : ({ b with results } : Batch).Filled sent (slice ++ left))
    (hall : ((staleSlice b.checks failure now slice cache).1.all fun p => p.2.isSome) = true) :
    ({ b with results := storeStale results (staleSlice b.checks failure now slice cache).1 } :
      Batch).Filled sent left := by
  induction slice generalizing cache results with
  | nil => exact hfilled
  | cons j slice ih =>
    have hlt : j < b.checks.length := hfilled.left_lt j List.mem_cons_self
    have hc : b.checks[j]? = some b.checks[j] := List.getElem?_eq_getElem hlt
    simp only [staleSlice, hc, List.all_cons, Bool.and_eq_true] at hall ⊢
    obtain ⟨hsome, hrest⟩ := hall
    obtain ⟨hholds, hanswer⟩ := holds_staleOnRateLimit hcache failure b.checks[j].key now
    obtain ⟨answer, heq⟩ := Option.isSome_iff_exists.mp hsome
    obtain ⟨hto, hle⟩ := hanswer answer heq
    rw [storeStale, List.foldl_cons, heq]
    exact ih hholds (hfilled.set hc hto fun _ => hclearedAt.trans hle) hrest

end Batch

/-! ### Every step -/

/-- What holds of a call. -/
def Call.Ok (clearedAt : ℕ) (call : Call) : Prop :=
  call.clearedAt ≤ clearedAt ∧
    ∀ answer, call.state = .served answer → call.clearedAt ≤ answer.request

/-- What holds between events. -/
structure JunjoClient.Inv (s : JunjoClient) : Prop where
  sound : s.checkRequests.Sound
  numbers : s.numbers.length = s.checkRequests.keys.length
  shared : ∀ {r n : ℕ} {key : Text}, s.checkRequests.keys[r]? = some key → s.numbers[r]? = some n →
    ∀ allowed, (⟨n, 0, allowed⟩ : Answer).To s.sent key
  registered : ∀ {key : Text} {r n : ℕ}, s.checkRequests.entries.get? key = some r →
    s.numbers[r]? = some n → s.clearedAt ≤ n
  cleared : s.clearedAt ≤ s.sent.length
  cache : s.permissionCache.Holds fun key answer =>
    answer.To s.sent key ∧ s.clearedAt ≤ answer.request
  calls : ∀ call ∈ s.calls, call.Ok s.clearedAt
  batches : ∀ b ∈ s.batches, b.Ok s.sent s.clearedAt

/-- The request that a batch waits for. -/
def Batch.request (b : Batch) : Option ℕ :=
  match b.state with
  | .asking n _ => some n
  | _ => none

/-- A single check is asked in texts that a query string keeps, and the answers to a slice come in
with no clear since it was asked, unless there is no cache. -/
def JunjoClient.Undisturbed (s : JunjoClient) : ClientEvent → Prop
  | .check c _ _ => c.WellFormed
  | .answerSlice i _ _ => ∀ n ∈ (s.batches[i]?).bind Batch.request,
      s.permissionCache.options.enabled = true → s.clearedAt ≤ n
  | _ => True

instance decidableWellFormed (c : Check) : Decidable c.WellFormed :=
  inferInstanceAs (Decidable (_ ∧ _ ∧ _ ∧ ∀ context ∈ c.context, ∀ p ∈ context.entries, _ ∧ _))

instance decidableUndisturbed (s : JunjoClient) : DecidablePred s.Undisturbed
  | .check c _ _ => inferInstanceAs (Decidable c.WellFormed)
  | .answerSlice i _ _ => inferInstanceAs (Decidable (∀ n ∈ (s.batches[i]?).bind Batch.request, _ → _))
  | .stop _ | .settle .. | .receive .. | .settleDirect .. | .checkBatch .. | .failSlice ..
  | .clearPermissionCache => .isTrue trivial

namespace JunjoClient

variable {s s' : JunjoClient}

lemma inv_new (options : PermissionCacheOptions) : (new options).Inv where
  sound := SharedRequests.sound_empty
  numbers := rfl
  shared h := by cases h
  registered h := by cases h
  cleared := Nat.zero_le _
  cache := PermissionCache.holds_new options
  calls _ h := by cases h
  batches _ h := by cases h

lemma Inv.clearPermissionCache (h : s.Inv) : s.clearPermissionCache.Inv where
  sound := h.sound.forget
  numbers := h.numbers
  shared := h.shared
  registered hget := by cases hget
  cleared := Nat.le_refl _
  cache := PermissionCache.holds_clear
  calls call hcall := ⟨(h.calls call hcall).1.trans h.cleared, (h.calls call hcall).2⟩
  batches b hb := by
    have hok := (h.batches b hb).mono h.cleared []
    rwa [List.append_nil] at hok

/-- More requests. -/
lemma Inv.send (h : s.Inv) (more : List (List Check)) : ({ s with sent := s.sent ++ more } :
    JunjoClient).Inv :=
  { h with
    shared := fun hkey hn allowed => (h.shared hkey hn allowed).append more
    cleared := by
      rw [List.length_append]
      exact Nat.le_add_right_of_le h.cleared
    cache := h.cache.imp fun key answer hanswer => ⟨hanswer.1.append more, hanswer.2⟩
    batches := fun b hb => (h.batches b hb).mono (Nat.le_refl _) more }

lemma Inv.addCall (h : s.Inv) {call : Call} (hcall : call.Ok s.clearedAt) :
    ({ s with calls := s.calls ++ [call] } : JunjoClient).Inv :=
  { h with
    calls := fun call' hcall' => by
      rcases List.mem_append.mp hcall' with hold | hnew
      · exact h.calls call' hold
      · rw [List.mem_singleton.mp hnew]
        exact hcall }

lemma Inv.setCall (h : s.Inv) {i : ℕ} {call : Call} (hi : s.calls[i]? = some call)
    {state : CallState}
    (hstate : ∀ answer, state = .served answer → call.clearedAt ≤ answer.request) :
    (s.setCall i call state).Inv :=
  { h with
    calls := fun call' hcall' => by
      rcases List.mem_or_eq_of_mem_set hcall' with hold | rfl
      · exact h.calls call' hold
      · exact ⟨(h.calls call (List.mem_of_getElem? hi)).1, hstate⟩ }

lemma Inv.setCache (h : s.Inv) {cache : PermissionCache Answer}
    (hcache : cache.Holds fun key answer => answer.To s.sent key ∧ s.clearedAt ≤ answer.request) :
    ({ s with permissionCache := cache } : JunjoClient).Inv :=
  { h with cache := hcache }

lemma Inv.setShared (h : s.Inv) {shared : SharedRequests Text Failure Answer} (hsound : shared.Sound)
    (hkeys : shared.keys = s.checkRequests.keys)
    (hentries : ∀ {key r}, shared.entries.get? key = some r →
      s.checkRequests.entries.get? key = some r) :
    ({ s with checkRequests := shared } : JunjoClient).Inv :=
  { h with
    sound := hsound
    numbers := by
      rw [hkeys]
      exact h.numbers
    shared := fun hkey => h.shared (hkeys ▸ hkey)
    registered := fun hget => h.registered (hentries hget) }

/-- A request that is started is the latest of all. -/
lemma Inv.start (h : s.Inv) {c : Check} (hc : c.WellFormed) (mode : WaitMode)
    (hnew : s.checkRequests.entries.has c.key = false) :
    ({ s with
      checkRequests := s.checkRequests.run c.key mode
      numbers := s.numbers ++ [s.sent.length]
      sent := s.sent ++ [[c.sentAlone]] } : JunjoClient).Inv := by
  have hsend := h.send [[c.sentAlone]]
  have hkeys : (s.checkRequests.run c.key mode).keys = s.checkRequests.keys ++ [c.key] := by
    rw [h.sound.keys_run, hnew]
    rfl
  refine { hsend with sound := h.sound.run c.key mode, numbers := ?_, shared := ?_, registered := ?_ }
  · rw [hkeys, List.length_append, List.length_append, h.numbers]
    rfl
  · intro r n key hkey hn allowed
    dsimp only at hkey hn
    rw [hkeys] at hkey
    rcases getElem?_concat_cases hkey with hold | ⟨rfl, rfl⟩
    · rcases getElem?_concat_cases hn with hn | ⟨rfl, -⟩
      · exact hsend.shared hold hn allowed
      · rw [h.numbers, List.getElem?_eq_none (Nat.le_refl _)] at hold
        cases hold
    · rw [← h.numbers, List.getElem?_concat_length] at hn
      cases hn
      exact ⟨[c.sentAlone], c.sentAlone, List.getElem?_concat_length, rfl, key_sentAlone hc⟩
  · intro key r n hget hn
    rcases getElem?_concat_cases hn with hn | ⟨-, rfl⟩
    · rcases SharedRequests.get?_entries_run hget with hold | ⟨-, rfl⟩
      · exact h.registered hold hn
      · rw [← h.numbers, List.getElem?_eq_none (Nat.le_refl _)] at hn
        cases hn
    · exact h.cleared

lemma Inv.check (h : s.Inv) {c : Check} (hc : c.WellFormed) (mode : WaitMode) (now : ℤ) :
    (s.check c mode now).Inv := by
  have hwaiting : ∀ state, (∀ answer, state ≠ .served answer) →
      Call.Ok s.clearedAt ⟨c, s.clearedAt, state⟩ :=
    fun state hstate => ⟨Nat.le_refl _, fun answer hanswer => absurd hanswer (hstate answer)⟩
  unfold JunjoClient.check
  split
  · rename_i answer hget
    refine h.addCall ⟨Nat.le_refl _, fun answer' hanswer => ?_⟩
    obtain rfl := CallState.served.inj hanswer
    exact (h.cache.get hget).2
  · by_cases henabled : s.permissionCache.options.enabled = true
    · rw [if_pos henabled]
      have hstate : Call.Ok s.clearedAt ⟨c, s.clearedAt,
          if mode = .stopped then .failed else .waiting s.checkRequests.waits.length⟩ := by
        apply hwaiting
        intro answer
        split_ifs
        · exact CallState.noConfusion
        · exact CallState.noConfusion
      cases hhas : s.checkRequests.entries.has c.key with
      | true =>
        rw [if_pos rfl]
        have hkeys : (s.checkRequests.run c.key mode).keys = s.checkRequests.keys := by
          rw [h.sound.keys_run, hhas, if_pos rfl]
        refine (h.setShared (h.sound.run c.key mode) hkeys fun hget => ?_).addCall hstate
        rcases SharedRequests.get?_entries_run hget with hold | ⟨hnew, -⟩
        · exact hold
        · rw [hhas] at hnew
          cases hnew
      | false =>
        rw [if_neg Bool.false_ne_true]
        exact (h.start hc mode hhas).addCall hstate
    · rw [if_neg henabled]
      exact (h.send [[c.sentAlone]]).addCall (hwaiting _ fun _ => CallState.noConfusion)

lemma Inv.stop (h : s.Inv) {i : ℕ} (hstep : s.stop i = some s') : s'.Inv := by
  unfold JunjoClient.stop at hstep
  split at hstep
  · rename_i call hi
    split at hstep
    · split at hstep
      · cases hstep
        refine (h.setShared (h.sound.leave _) (SharedRequests.leave_stays _).1
          SharedRequests.get?_entries_leave).setCall hi fun _ => CallState.noConfusion
      · cases hstep
    · cases hstep
  · cases hstep

lemma Inv.settle (h : s.Inv) {r : ℕ} {outcome : Except Failure Bool} {now : ℤ}
    (hstep : s.settle r outcome now = some s') : s'.Inv := by
  unfold JunjoClient.settle at hstep
  split at hstep
  · rename_i e request he hn
    split_ifs at hstep with hopen hregistered
    · have hsettled : ∀ outcome, ({ s with
          checkRequests := s.checkRequests.settle r outcome } : JunjoClient).Inv := fun outcome =>
        h.setShared (h.sound.settle r outcome) (SharedRequests.settle_stays _ _).1
          SharedRequests.get?_entries_settle
      cases outcome with
      | ok allowed =>
        cases hstep
        refine (hsettled _).setCache (h.cache.set (fun _ => ?_) now)
        exact ⟨h.shared (SharedRequests.getElem?_keys he) hn allowed, h.registered hregistered hn⟩
      | error failure =>
        cases hstep
        exact hsettled _
    · cases hstep
      exact h.setShared (h.sound.settle r _) (SharedRequests.settle_stays _ _).1
        SharedRequests.get?_entries_settle
  · cases hstep

lemma Inv.finish (h : s.Inv) {i : ℕ} {call : Call} (hi : s.calls[i]? = some call)
    (outcome : Except Failure Answer) (now : ℤ) : (s.finish i call outcome now).Inv := by
  cases outcome with
  | ok answer => exact h.setCall hi fun _ => CallState.noConfusion
  | error failure =>
    obtain ⟨hholds, hanswer⟩ := holds_staleOnRateLimit h.cache failure call.check.key now
    refine (h.setCache hholds).setCall hi fun answer hserved => ?_
    split at hserved
    · rename_i answer' heq
      obtain rfl := CallState.served.inj hserved
      exact (h.calls call (List.mem_of_getElem? hi)).1.trans (hanswer answer' heq).2
    · cases hserved

lemma Inv.receive (h : s.Inv) {i : ℕ} {now : ℤ} (hstep : s.receive i now = some s') : s'.Inv := by
  unfold JunjoClient.receive at hstep
  split at hstep
  · rename_i call hi
    split at hstep
    · split at hstep
      · split at hstep
        · cases hstep
          refine Inv.finish (h.setShared (h.sound.receive _) (SharedRequests.receive_stays _).1 ?_) hi _ _
          intro key r hget
          rwa [SharedRequests.entries_receive] at hget
        · cases hstep
      · cases hstep
    · cases hstep
  · cases hstep

lemma Inv.settleDirect (h : s.Inv) {i : ℕ} {outcome : Except Failure Bool} {now : ℤ}
    (hstep : s.settleDirect i outcome now = some s') : s'.Inv := by
  unfold JunjoClient.settleDirect at hstep
  split at hstep
  · rename_i call hi
    split at hstep
    · cases hstep
      exact h.finish hi _ now
    · cases hstep
  · cases hstep

/-- One batch becomes another. -/
lemma Inv.setBatch (h : s.Inv) {batches : List Batch} {i : ℕ} {b : Batch}
    (hothers : ∀ j b', j ≠ i → batches[j]? = some b' → b'.Ok s.sent s.clearedAt)
    (hb : b.Ok s.sent s.clearedAt) : ({ s with batches := batches.set i b } : JunjoClient).Inv :=
  { h with
    batches := fun b' hb' => by
      obtain ⟨j, hj⟩ := List.mem_iff_getElem?.mp hb'
      by_cases heq : i = j
      · subst heq
        obtain ⟨hlt, hval⟩ := List.getElem?_eq_some_iff.mp hj
        rw [List.getElem_set_self] at hval
        rw [← hval]
        exact hb
      · rw [List.getElem?_set_ne heq] at hj
        exact hothers j b' (Ne.symm heq) hj }

/-- A batch whose open places are all pending asks its next slice, or is done. -/
lemma Inv.nextSlice (h : s.Inv) {batches : List Batch} {i : ℕ} {b : Batch}
    (hothers : ∀ j b', j ≠ i → batches[j]? = some b' → b'.Ok s.sent s.clearedAt)
    (hb : b.clearedAt ≤ s.clearedAt) (hfilled : b.Filled s.sent b.pending) :
    (({ s with batches } : JunjoClient).nextSlice i b).Inv := by
  unfold JunjoClient.nextSlice
  split
  · rename_i hnil
    rw [hnil] at hfilled
    refine h.setBatch hothers ⟨hb, fun hstate => (by cases hstate), fun _ => ?_⟩
    exact answered_copyRepeats hfilled
  · refine (h.send _).setBatch (fun j b' hne hj => (hothers j b' hne hj).mono (Nat.le_refl _) _)
      ⟨hb, fun hstate => ?_, fun hstate => (by cases hstate)⟩
    cases hstate
    refine ⟨?_, List.getElem?_concat_length⟩
    have hsplit : b.Filled s.sent
        (b.pending.take checkBatchMaxEntries ++ b.pending.drop checkBatchMaxEntries) := by
      rw [List.take_append_drop]
      exact hfilled
    exact { hsplit.append _ with }

lemma Inv.checkBatch (h : s.Inv) (requests : List PermissionCheckRequest) (inherit : Bool) (now : ℤ) :
    (s.checkBatch requests inherit now).Inv := by
  refine h.nextSlice (fun j b' hne hj => ?_) (Nat.le_refl _) ((plan_ok (fun _ _ => h.cache.get) _).filled .done)
  rcases getElem?_concat_cases hj with hold | ⟨heq, -⟩
  · exact h.batches b' (List.mem_of_getElem? hold)
  · exact absurd heq hne

/-- A request for places asks the check of each. -/
lemma getElem?_slice {checks : List Check} {slice : List ℕ} (hlt : ∀ j ∈ slice, j < checks.length)
    {m j : ℕ} {c : Check} (hj : slice[m]? = some j) (hc : checks[j]? = some c) :
    (slice.filterMap fun j => (checks[j]?).map Check.sentInBatch)[m]? = some c.sentInBatch := by
  induction slice generalizing m with
  | nil => cases hj
  | cons k slice ih =>
    have hlt' : k < checks.length := hlt k List.mem_cons_self
    have hk : checks[k]? = some checks[k] := List.getElem?_eq_getElem hlt'
    rw [List.filterMap_cons_some (by rw [hk, Option.map_some])]
    cases m with
    | zero =>
      cases hj
      rw [hc] at hk
      rw [List.getElem?_cons_zero, ← Option.some.inj hk]
    | succ m => exact ih (fun j hj => hlt j (List.mem_cons_of_mem _ hj)) hj

/-- An answer to a slice is to the check of its place. -/
lemma to_of_slice {sent : List (List Check)} {checks : List Check} {slice : List ℕ} {request : ℕ}
    (hsent : sent[request]? = some (slice.filterMap fun j => (checks[j]?).map Check.sentInBatch))
    (hlt : ∀ j ∈ slice, j < checks.length) {m j : ℕ} {c : Check} (hj : slice[m]? = some j)
    (hc : checks[j]? = some c) (allowed : Bool) :
    (⟨request, m, allowed⟩ : Answer).To sent c.key :=
  ⟨_, _, hsent, getElem?_slice hlt hj hc, key_sentInBatch c⟩

lemma Inv.answerSlice (h : s.Inv) {i : ℕ} {allowed : List Bool} {now : ℤ}
    (hquiet : s.Undisturbed (.answerSlice i allowed now))
    (hstep : s.answerSlice i allowed now = some s') : s'.Inv := by
  unfold JunjoClient.answerSlice at hstep
  split at hstep
  · rename_i b hi
    have hok := h.batches b (List.mem_of_getElem? hi)
    have hothers : ∀ j b', j ≠ i → s.batches[j]? = some b' → b'.Ok s.sent s.clearedAt :=
      fun j b' _ hj => h.batches b' (List.mem_of_getElem? hj)
    split at hstep
    · rename_i request slice hstate
      obtain ⟨hfilled, hsent⟩ := hok.asking hstate
      split_ifs at hstep with hlength
      · cases hstep
        have hfst : (slice.zip allowed).map Prod.fst = slice := List.map_fst_zip hlength.ge
        have hto : ∀ (m : ℕ) (q : ℕ × Bool) (c : Check), (slice.zip allowed)[m]? = some q →
            b.checks[q.1]? = some c → (⟨request, 0 + m, q.2⟩ : Answer).To s.sent c.key := by
          intro m q c hm hc
          have hj : slice[m]? = some q.1 := by
            rw [← hfst, List.getElem?_map, hm, Option.map_some]
          rw [Nat.zero_add]
          exact to_of_slice hsent (fun j hj => hfilled.left_lt j (List.mem_append_left _ hj)) hj hc _
        have hrequest : request ∈ (s.batches[i]?).bind Batch.request := by
          rw [hi, Option.bind_some, Batch.request, hstate]
          rfl
        rw [← hfst] at hfilled
        obtain ⟨hcache, hfilled'⟩ :=
          storeAnswers_spec h.cache (hquiet request hrequest) now hto hfilled
        exact (h.setCache hcache).nextSlice hothers hok.clearedAt_le hfilled'
      · cases hstep
        exact h.setBatch hothers ⟨hok.clearedAt_le, fun hstate => (by cases hstate),
          fun hstate => (by cases hstate)⟩
    · cases hstep
  · cases hstep

lemma Inv.failSlice (h : s.Inv) {i : ℕ} {failure : Failure} {now : ℤ}
    (hstep : s.failSlice i failure now = some s') : s'.Inv := by
  unfold JunjoClient.failSlice at hstep
  split at hstep
  · rename_i b hi
    have hok := h.batches b (List.mem_of_getElem? hi)
    have hothers : ∀ j b', j ≠ i → s.batches[j]? = some b' → b'.Ok s.sent s.clearedAt :=
      fun j b' _ hj => h.batches b' (List.mem_of_getElem? hj)
    split at hstep
    · rename_i request slice hstate
      obtain ⟨hfilled, -⟩ := hok.asking hstate
      have hcache := h.setCache (holds_staleSlice h.cache b.checks failure now slice)
      dsimp only at hstep
      split_ifs at hstep with hall
      · cases hstep
        exact hcache.nextSlice hothers hok.clearedAt_le
          (filled_storeStale hok.clearedAt_le failure now h.cache hfilled hall)
      · cases hstep
        exact hcache.setBatch hothers ⟨hok.clearedAt_le, fun hstate => (by cases hstate),
          fun hstate => (by cases hstate)⟩
    · cases hstep
  · cases hstep

lemma Inv.step (h : s.Inv) {e : ClientEvent} (hquiet : s.Undisturbed e)
    (hstep : s.step e = some s') : s'.Inv := by
  cases e with
  | check c mode now =>
    cases hstep
    exact h.check hquiet mode now
  | stop call => exact h.stop hstep
  | settle shared outcome now => exact h.settle hstep
  | receive call now => exact h.receive hstep
  | settleDirect call outcome now => exact h.settleDirect hstep
  | checkBatch requests inherit now =>
    cases hstep
    exact h.checkBatch requests inherit now
  | answerSlice batch allowed now => exact h.answerSlice hquiet hstep
  | failSlice batch failure now => exact h.failSlice hstep
  | clearPermissionCache =>
    cases hstep
    exact h.clearPermissionCache

/-! ### Runs -/

/-- An answer that the server gave to this very check. -/
def Answers (s : JunjoClient) (answer : Answer) (c : Check) : Prop :=
  ∃ asked c', s.sent[answer.request]? = some asked ∧ asked[answer.position]? = some c' ∧ c'.Same c

/-- What callers can rely on. -/
structure Correct (s : JunjoClient) : Prop where
  /-- A key has one registered request at most. -/
  one_registered : ∀ {key key' r r' e e'}, s.checkRequests.entries.get? key = some r →
    s.checkRequests.entries.get? key' = some r' → s.checkRequests.requests[r]? = some e →
    s.checkRequests.requests[r']? = some e' → e.key = e'.key → r = r'
  /-- Every caller of an aborted request has stopped waiting. -/
  aborted : ∀ w ∈ s.checkRequests.waits, ∀ e, s.checkRequests.requests[w.entry]? = some e →
    e.aborted = true → w.state = .left
  /-- A batch that returns has an answer to each check at the place of the check. -/
  positional : ∀ b ∈ s.batches, b.state = .done → ∀ (i : ℕ) (c : Check), b.checks[i]? = some c →
    ∃ r : BatchResult, b.results[i]? = some (some r) ∧ s.Answers r.answer c
  /-- What the cache answers a call with was not asked before a clear that preceded the call. -/
  served_calls : ∀ call ∈ s.calls, ∀ answer, call.state = .served answer →
    call.clearedAt ≤ answer.request
  served_batches : ∀ b ∈ s.batches, b.state = .done → ∀ (i : ℕ) (r : BatchResult),
    b.results[i]? = some (some r) → r.cached = true → b.clearedAt ≤ r.answer.request

lemma Inv.correct (h : s.Inv) : s.Correct where
  one_registered hr hr' he he' hkey := h.sound.eq_of_registered hr hr' he he' hkey
  aborted w hw e he haborted := h.sound.left_of_aborted hw he haborted
  positional b hb hstate i c hc := by
    obtain ⟨hright, hall⟩ := (h.batches b hb).done hstate
    obtain ⟨r, hr⟩ := hall i (List.getElem?_eq_some_iff.mp hc).1
    obtain ⟨c', hc', ⟨asked, c'', hasked, hc'', hkey⟩, -⟩ := hright i r hr
    rw [hc] at hc'
    cases hc'
    exact ⟨r, hr, asked, c'', hasked, hc'', Check.same_of_key hkey⟩
  served_calls call hcall answer hstate := (h.calls call hcall).2 answer hstate
  served_batches b hb hstate i r hr hcached := by
    obtain ⟨-, -, -, hle⟩ := ((h.batches b hb).done hstate).results i r hr
    exact hle hcached

end JunjoClient

private def askedCheck : PermissionCheckRequest := ⟨text "u", text "g", text "read", none⟩

private def askedAlone : Check := ⟨askedCheck, false⟩

/-- A batch that repeats a check, its answer, and the same check on its own before and after a
clear. -/
private def clearedBetween : List ClientEvent :=
  [.checkBatch [askedCheck, askedCheck] false 0, .answerSlice 0 [true] 1, .check askedAlone .forever 2,
    .clearPermissionCache, .check askedAlone .untilStopped 3, .settle 0 (.ok false) 4, .receive 1 4]

/-- The answer to a batch comes in after the clear. -/
private def clearedInFlight : List ClientEvent :=
  [.checkBatch [askedCheck] false 0, .clearPermissionCache, .answerSlice 0 [true] 1,
    .check askedAlone .forever 2]

end Junjo.Client
