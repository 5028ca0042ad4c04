import Junjo.Sdk.ContextRules

/-!
# The canonical key of a context

The canonical key names a normalized context: two contexts have one key when they are equal as maps,
and only the global context has the empty one. The SDK accepts the same contexts and writes the same
keys.
-/

namespace Junjo

/-! ### Folds -/

lemma hasControlCharacter_fold (value : Text) :
    hasControlCharacter (foldContextValue value) = hasControlCharacter value := by
  unfold hasControlCharacter foldContextValue asciiLower
  rw [List.any_map]
  congr 1
  funext c
  apply Bool.eq_iff_iff.mpr
  simp only [Function.comp_apply, lowerUnit_val, Bool.or_eq_true, Bool.and_eq_true,
    decide_eq_true_eq]
  split_ifs <;> omega

/-- The fold of a valid value is valid. -/
lemma contextValueProblem_fold {value : Text} (h : contextValueProblem value = none) :
    contextValueProblem (foldContextValue value) = none := by
  unfold contextValueProblem at h ⊢
  have hlength : (foldContextValue value).length = value.length := length_asciiLower value
  rw [hlength, hasControlCharacter_fold]
  split_ifs at h ⊢
  rfl

/-! ### Accepted contexts -/

/-- A context keeps the rules. -/
structure ContextOk (raw : Dict Text Text) : Prop where
  size : raw.size ≤ maxPermissionContextKeys
  key : ∀ e ∈ raw.entries, contextKeyProblem e.1 = none
  value : ∀ e ∈ raw.entries, contextValueProblem e.2 = none

/-- The folded pairs in key order. -/
def foldedContext (raw : Dict Text Text) : PermissionContext :=
  (raw.mapValues foldContextValue).sorted

lemma setProperty_of_key {context : PermissionContext} {key value : Text}
    (h : contextKeyProblem key = none) :
    setProperty context key value = context.set key value := by
  refine if_neg ?_
  rintro rfl
  revert h
  decide

lemma foldl_set_sortedEntries (raw : Dict Text Text) :
    raw.sortedEntries.foldl (fun c e => c.set e.1 (foldContextValue e.2)) Dict.empty
      = foldedContext raw := by
  have hentries : (foldedContext raw).entries
      = raw.sortedEntries.map fun e => (e.1, foldContextValue e.2) := by
    rw [foldedContext, Dict.sorted_mapValues, Dict.mapValues_entries]
    rfl
  rw [← Dict.ofList_entries (foldedContext raw), hentries, Dict.ofList, List.foldl_map]

/-- The server accepts the contexts that keep the rules, and folds and orders them. -/
lemma normalizeContext_eq_ok {raw : Dict Text Text} {context : PermissionContext} :
    normalizeContext raw = .ok context ↔ ContextOk raw ∧ context = foldedContext raw := by
  have hpair : ∀ (c : PermissionContext) (e : Text × Text) (c' : PermissionContext),
      normalizePair c e = .ok c' ↔
        (contextKeyProblem e.1 = none ∧ contextValueProblem e.2 = none) ∧
          c' = c.set e.1 (foldContextValue e.2) := by
    intro c e c'
    unfold normalizePair
    cases hkey : contextKeyProblem e.1 with
    | some problem => simp
    | none =>
      cases hvalue : contextValueProblem e.2 with
      | some problem => simp
      | none =>
        dsimp only
        rw [setProperty_of_key hkey]
        simp [eq_comm]
  have hloop := foldlM_eq_ok_iff (f := normalizePair) (s := Dict.empty)
    (g := fun c e => c.set e.1 (foldContextValue e.2))
    (P := fun l => ∀ e ∈ l, contextKeyProblem e.1 = none ∧ contextValueProblem e.2 = none)
    (by simp) (fun l e h e' he' => h e' (List.mem_append_left _ he'))
    (fun l e c' hl => by
      rw [hpair, List.forall_mem_append, List.forall_mem_singleton]
      exact ⟨fun h => ⟨⟨hl, h.1⟩, h.2⟩, fun h => ⟨h.1.2, h.2⟩⟩) raw.sortedEntries context
  unfold normalizeContext
  split_ifs with hsize
  · refine ⟨fun h => (by cases h), fun h => ?_⟩
    have := h.1.size
    omega
  · rw [hloop, foldl_set_sortedEntries]
    refine and_congr_left' ⟨fun h => ⟨not_lt.mp hsize, fun e he => ?_, fun e he => ?_⟩,
      fun h e he => ?_⟩
    · exact (h e (Dict.mem_sortedEntries.mpr he)).1
    · exact (h e (Dict.mem_sortedEntries.mpr he)).2
    · have hmem := Dict.mem_sortedEntries.mp he
      exact ⟨h.key e hmem, h.value e hmem⟩

lemma foldedContext_idem (raw : Dict Text Text) :
    foldedContext (foldedContext raw) = foldedContext raw := by
  have hfold : ((raw.mapValues foldContextValue).sorted).mapValues foldContextValue
      = (raw.mapValues foldContextValue).sorted := by
    rw [← Dict.sorted_mapValues, Dict.mapValues_mapValues]
    congr 2
    funext value
    exact foldContextValue_idem value
  unfold foldedContext
  rw [hfold]
  exact Dict.sorted_eq_self (Dict.keys_sorted _)

lemma mem_foldedContext {raw : Dict Text Text} {e : Text × Text}
    (he : e ∈ (foldedContext raw).entries) :
    ∃ e' ∈ raw.entries, e = (e'.1, foldContextValue e'.2) := by
  have hmem : e ∈ (raw.mapValues foldContextValue).entries := Dict.mem_sortedEntries.mp he
  rw [Dict.mapValues_entries] at hmem
  obtain ⟨e', he', rfl⟩ := List.mem_map.mp hmem
  exact ⟨e', he', rfl⟩

/-- What the server accepted it accepts again. -/
lemma contextOk_folded {raw : Dict Text Text} (h : ContextOk raw) :
    ContextOk (foldedContext raw) := by
  refine ⟨?_, fun e he => ?_, fun e he => ?_⟩
  · have hperm := (Dict.keys_perm_of_get?_eq
      (Dict.get?_sorted (raw.mapValues foldContextValue))).length_eq
    rw [Dict.length_keys, Dict.length_keys] at hperm
    have hsize : (raw.mapValues foldContextValue).size = raw.size := by
      rw [← Dict.length_keys, Dict.keys_mapValues, Dict.length_keys]
    rw [foldedContext, hperm, hsize]
    exact h.size
  · obtain ⟨e', he', rfl⟩ := mem_foldedContext he
    exact h.key e' he'
  · obtain ⟨e', he', rfl⟩ := mem_foldedContext he
    exact contextValueProblem_fold (h.value e' he')

namespace Sdk

/-- The SDK accepts the contexts that keep the rules. -/
lemma Context.of_eq_ok {raw : Dict Text Text} {c : Context} :
    Context.of raw = .ok c ↔ ContextOk raw ∧
      c = if raw.entries.isEmpty then Context.global else Context.ofPairs raw := by
  have hproblem : Context.problem raw = none ↔ ContextOk raw := by
    unfold Context.problem
    split_ifs with hsize
    · refine ⟨fun h => (by cases h), fun h => ?_⟩
      have := h.size
      omega
    · rw [List.findSome?_eq_none_iff]
      constructor
      · intro h
        have hall : ∀ e ∈ raw.entries,
            contextKeyProblem e.1 = none ∧ contextValueProblem e.2 = none := by
          intro e he
          have := h e (Dict.mem_sortedEntries.mpr he)
          rw [Context.keyProblem_eq, Context.valueProblem_eq] at this
          cases hkey : contextKeyProblem e.1 with
          | some problem => rw [hkey] at this; cases this
          | none => rw [hkey] at this; exact ⟨rfl, this⟩
        exact ⟨not_lt.mp hsize, fun e he => (hall e he).1, fun e he => (hall e he).2⟩
      · intro h e he
        have hmem := Dict.mem_sortedEntries.mp he
        rw [Context.keyProblem_eq, Context.valueProblem_eq, h.key e hmem]
        exact h.value e hmem
  unfold Context.of
  cases hraw : Context.problem raw with
  | some problem =>
    refine ⟨fun h => (by cases h), fun h => ?_⟩
    rw [hproblem.mpr h.1] at hraw
    cases hraw
  | none =>
    constructor
    · intro h
      cases h
      exact ⟨hproblem.mp hraw, rfl⟩
    · rintro ⟨-, rfl⟩
      rfl

/-- The SDK writes the canonical key of the folded context. -/
lemma Context.canonicalKey_of (raw : Dict Text Text) :
    (if raw.entries.isEmpty then Context.global else Context.ofPairs raw).canonicalKey
      = canonicalContextKey (some (foldedContext raw)) := by
  have hpairs : Context.ofPairs raw = Context.ofPairs (raw.mapValues foldContextValue) := by
    apply Context.ext_values
    change (raw.mapValues foldContextValue).sorted
      = ((raw.mapValues foldContextValue).mapValues foldContextValue).sorted
    rw [Dict.mapValues_mapValues]
    congr 2
    funext value
    exact (foldContextValue_idem value).symm
  have hkey : (Context.ofPairs raw).canonicalKey
      = canonicalContextKey (some (foldedContext raw)) := by
    rw [hpairs, Context.canonicalKey_ofPairs]
    · exact canonicalContextKey_congr fun k => (Dict.get?_sorted _ k).symm
    · rw [Dict.mapValues_mapValues]
      congr 1
      funext value
      exact foldContextValue_idem value
  split_ifs with hempty
  · rw [← hkey]
    have hentries : raw.entries = [] := List.isEmpty_iff.mp hempty
    have hraw : raw = Dict.empty := Dict.ext_entries hentries
    subst hraw
    rfl
  · exact hkey

end Sdk

/-- The canonical key of a normalized context determines it as a map, and is empty for the global
context only; normalizing again changes nothing. The SDK accepts the same contexts, with the same
canonical keys. -/
theorem canonicalContextKey_correct :
    (∀ raw raw' context context', normalizeContext raw = .ok context →
      normalizeContext raw' = .ok context' →
      (canonicalContextKey (some context) = canonicalContextKey (some context') ↔
        ∀ k, context.get? k = context'.get? k)) ∧
    (∀ raw context, normalizeContext raw = .ok context →
      (canonicalContextKey (some context) = [] ↔ context.size = 0) ∧
        (canonicalContextKey (some context) = [] ↔ storedContext context = none) ∧
        normalizeContext context = .ok context) ∧
    (∀ raw, (∃ context, normalizeContext raw = .ok context) ↔ ∃ c, Sdk.Context.of raw = .ok c) ∧
    ∀ raw context c, normalizeContext raw = .ok context → Sdk.Context.of raw = .ok c →
      c.canonicalKey = canonicalContextKey (some context) := by
  refine ⟨fun _ _ _ _ _ _ => ⟨get?_eq_of_canonicalContextKey_eq, canonicalContextKey_congr⟩,
    fun raw context h => ⟨?_, ?_, ?_⟩, fun raw => ⟨?_, ?_⟩, fun raw context c h hc => ?_⟩
  · rw [canonicalContextKey_eq_nil, ← List.length_eq_zero_iff, Dict.length_keys]
  · rw [canonicalContextKey_eq_nil, storedContext]
    split_ifs with hkeys
    · simp [hkeys]
    · simp [hkeys]
  · obtain ⟨hok, rfl⟩ := normalizeContext_eq_ok.mp h
    exact normalizeContext_eq_ok.mpr ⟨contextOk_folded hok, (foldedContext_idem raw).symm⟩
  · rintro ⟨context, h⟩
    exact ⟨_, Sdk.Context.of_eq_ok.mpr ⟨(normalizeContext_eq_ok.mp h).1, rfl⟩⟩
  · rintro ⟨c, h⟩
    exact ⟨_, normalizeContext_eq_ok.mpr ⟨(Sdk.Context.of_eq_ok.mp h).1, rfl⟩⟩
  · obtain ⟨-, rfl⟩ := normalizeContext_eq_ok.mp h
    obtain ⟨-, rfl⟩ := Sdk.Context.of_eq_ok.mp hc
    exact Sdk.Context.canonicalKey_of raw

end Junjo
