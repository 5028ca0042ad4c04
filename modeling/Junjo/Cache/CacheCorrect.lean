import Junjo.Cache.PermissionCache

/-!
# What the permission cache remembers

The cache refines `Lru` with the checked tuple for a key: equal replies on every run. The index
holds a key under a group exactly when a live entry lists the group (`IndexExact`), which is what
lets an invalidation find every entry it must drop.
-/

namespace Junjo

variable {ρ : Type*}

/-! ### Keys -/

/-- What a cached answer is about. -/
structure CheckTuple where
  gameId : Text
  groupId : Text
  userId : Text
  permission : Text
  context : Text
  inherit : Bool
deriving DecidableEq

def checkTuple (gameId groupId userId permission : Text) (opts : PermissionCacheKeyOptions) :
    CheckTuple :=
  ⟨gameId, groupId, userId, permission, opts.context.getD [], opts.inherit.getD false⟩

/-- The key of a tuple. -/
def CheckTuple.key (t : CheckTuple) : Text :=
  cacheKey t.gameId t.groupId t.userId t.permission ⟨some t.inherit, some t.context⟩

lemma key_checkTuple (gameId groupId userId permission : Text) (opts : PermissionCacheKeyOptions) :
    (checkTuple gameId groupId userId permission opts).key =
      cacheKey gameId groupId userId permission opts := rfl

/-- Different tuples have different keys, whatever their texts contain. -/
lemma CheckTuple.key_injective : Function.Injective CheckTuple.key := by
  intro t t' h
  have hparts : ∀ u : CheckTuple, u.key = (if u.inherit then text "i" else text "d") ++
      [u.gameId, u.groupId, u.userId, u.permission, u.context].flatMap keyPart := by
    intro u
    simp [CheckTuple.key, cacheKey, keyPart]
  rw [hparts, hparts] at h
  obtain ⟨hletter, hrest⟩ := List.append_inj h (by split_ifs <;> rfl)
  have hinherit : t.inherit = t'.inherit := by
    revert hletter
    cases t.inherit <;> cases t'.inherit <;> decide
  have hfields := flatMap_keyPart_inj (by simp) hrest
  cases t; cases t'
  simp_all

/-! ### The index -/

namespace PermissionCache

/-- The index holds the key under the group. -/
def Indexed (groupIndex : Dict Text (OrderedSet Text)) (g k : Text) : Prop :=
  ∃ idx, groupIndex.get? g = some idx ∧ k ∈ idx.keys

/-- No index set is empty. -/
def NoEmptySet (groupIndex : Dict Text (OrderedSet Text)) : Prop :=
  ∀ g idx, groupIndex.get? g = some idx → idx.size ≠ 0

/-- The index holds a key under a group exactly when the key's entry lists the group. -/
structure IndexExact (cache : PermissionCache ρ) : Prop where
  indexed_iff : ∀ g k, Indexed cache.groupIndex g k ↔
    ∃ entry, cache.entries.get? k = some entry ∧ g ∈ entry.indexGroups
  noEmptySet : NoEmptySet cache.groupIndex

lemma indexed_set {groupIndex : Dict Text (OrderedSet Text)} {g g' k : Text}
    {idx : OrderedSet Text} :
    Indexed (groupIndex.set g idx) g' k ↔
      g' = g ∧ k ∈ idx.keys ∨ g' ≠ g ∧ Indexed groupIndex g' k := by
  rw [Indexed, Indexed, Dict.get?_set]
  split_ifs with h <;> simp [h]

lemma indexed_delete {groupIndex : Dict Text (OrderedSet Text)} {g g' k : Text} :
    Indexed (groupIndex.delete g) g' k ↔ g' ≠ g ∧ Indexed groupIndex g' k := by
  rw [Indexed, Indexed, Dict.get?_delete]
  split_ifs with h <;> simp [h]

lemma mem_keys_set {s : OrderedSet Text} {k k' : Text} :
    k' ∈ (s.set k ()).keys ↔ k' = k ∨ k' ∈ s.keys := by
  simp only [Dict.mem_keys_iff, Dict.get?_set]
  split_ifs with h <;> simp [h]

lemma mem_keys_delete {s : OrderedSet Text} {k k' : Text} :
    k' ∈ (s.delete k).keys ↔ k' ≠ k ∧ k' ∈ s.keys := by
  simp only [Dict.mem_keys_iff, Dict.get?_delete]
  split_ifs with h <;> simp [h]

lemma keys_eq_nil_iff {s : OrderedSet Text} : s.size = 0 ↔ s.keys = [] := by
  rw [← Dict.length_keys, List.length_eq_zero_iff]

lemma indexed_unindex {groupIndex : Dict Text (OrderedSet Text)} {k g g' k' : Text} :
    Indexed (unindex k groupIndex g) g' k' ↔
      Indexed groupIndex g' k' ∧ ¬ (g' = g ∧ k' = k) := by
  cases hget : groupIndex.get? g with
  | none =>
    simp only [unindex, hget]
    refine ⟨fun h => ⟨h, ?_⟩, And.left⟩
    rintro ⟨rfl, -⟩
    obtain ⟨idx, hidx, -⟩ := h
    simp [hget] at hidx
  | some idx =>
    have hat : Indexed groupIndex g k' ↔ k' ∈ idx.keys := by simp [Indexed, hget]
    simp only [unindex, hget]
    split_ifs with hsize
    · rw [indexed_delete]
      have hall : ∀ k'', k'' ∈ idx.keys → k'' = k := by
        intro k'' hk''
        by_contra hne
        have := mem_keys_delete.mpr ⟨hne, hk''⟩
        rw [keys_eq_nil_iff.mp hsize] at this
        simp at this
      by_cases hg : g' = g
      · subst hg
        simpa [hat] using hall k'
      · simp [hg]
    · rw [indexed_set, mem_keys_delete]
      by_cases hg : g' = g
      · subst hg
        simp [hat, and_comm]
      · simp [hg]

lemma noEmptySet_unindex {groupIndex : Dict Text (OrderedSet Text)} (h : NoEmptySet groupIndex)
    (k g : Text) : NoEmptySet (unindex k groupIndex g) := by
  intro g' idx' hget'
  unfold unindex at hget'
  split at hget'
  · exact h g' idx' hget'
  · split_ifs at hget' with hsize
    · rw [Dict.get?_delete] at hget'
      split_ifs at hget'
      exact h g' idx' hget'
    · rw [Dict.get?_set] at hget'
      split_ifs at hget'
      · rw [← Option.some.inj hget']
        exact hsize
      · exact h g' idx' hget'

lemma indexed_foldl_unindex {groupIndex : Dict Text (OrderedSet Text)} {k g' k' : Text}
    (groups : List Text) :
    Indexed (groups.foldl (unindex k) groupIndex) g' k' ↔
      Indexed groupIndex g' k' ∧ ¬ (g' ∈ groups ∧ k' = k) := by
  induction groups generalizing groupIndex with
  | nil => simp
  | cons g groups ih =>
    rw [List.foldl_cons, ih, indexed_unindex, List.mem_cons]
    tauto

lemma noEmptySet_foldl_unindex {groupIndex : Dict Text (OrderedSet Text)}
    (h : NoEmptySet groupIndex) (k : Text) (groups : List Text) :
    NoEmptySet (groups.foldl (unindex k) groupIndex) := by
  induction groups generalizing groupIndex with
  | nil => exact h
  | cons g groups ih => exact ih (noEmptySet_unindex h k g)

lemma indexed_foldl_addToIndex {groupIndex : Dict Text (OrderedSet Text)} {k g' k' : Text}
    (groups : List Text) :
    Indexed (groups.foldl (addToIndex k) groupIndex) g' k' ↔
      Indexed groupIndex g' k' ∨ g' ∈ groups ∧ k' = k := by
  induction groups generalizing groupIndex with
  | nil => simp
  | cons g groups ih =>
    have hadd : Indexed (addToIndex k groupIndex g) g' k' ↔
        Indexed groupIndex g' k' ∨ g' = g ∧ k' = k := by
      rw [addToIndex, indexed_set, mem_keys_set]
      by_cases hg : g' = g
      · subst hg
        cases hget : groupIndex.get? g' <;> simp [Indexed, hget, or_comm]
      · simp [hg]
    rw [List.foldl_cons, ih, hadd, List.mem_cons]
    tauto

lemma noEmptySet_foldl_addToIndex {groupIndex : Dict Text (OrderedSet Text)}
    (h : NoEmptySet groupIndex) (k : Text) (groups : List Text) :
    NoEmptySet (groups.foldl (addToIndex k) groupIndex) := by
  induction groups generalizing groupIndex with
  | nil => exact h
  | cons g groups ih =>
    refine ih fun g' idx' hget' => ?_
    rw [addToIndex, Dict.get?_set] at hget'
    split_ifs at hget'
    · rw [← Option.some.inj hget', Ne, keys_eq_nil_iff]
      exact List.ne_nil_of_mem (mem_keys_set.mpr (Or.inl rfl))
    · exact h g' idx' hget'

/-! ### Entries -/

lemma IndexExact.evict {cache : PermissionCache ρ} (h : cache.IndexExact) {k : Text}
    {entry : CacheEntry ρ} (hget : cache.entries.get? k = some entry) :
    (cache.evict k entry).IndexExact := by
  refine ⟨fun g k' => ?_, noEmptySet_foldl_unindex h.noEmptySet k _⟩
  rw [PermissionCache.evict, indexed_foldl_unindex, h.indexed_iff, Dict.get?_delete]
  by_cases hk : k' = k
  · subst hk
    simp [hget]
  · simp [hk]

/-- A new entry is filed under the groups it lists. -/
lemma IndexExact.store {cache : PermissionCache ρ} (h : cache.IndexExact) {k : Text}
    (hnone : cache.entries.get? k = none) (entry : CacheEntry ρ) :
    IndexExact { cache with
      entries := cache.entries.set k entry
      groupIndex := entry.indexGroups.foldl (addToIndex k) cache.groupIndex } := by
  refine ⟨fun g k' => ?_, noEmptySet_foldl_addToIndex h.noEmptySet k _⟩
  rw [indexed_foldl_addToIndex, h.indexed_iff, Dict.get?_set]
  by_cases hk : k' = k
  · subst hk
    simp [hnone]
  · simp [hk]

/-- Exactness only reads the entries by key. -/
lemma IndexExact.congr {cache cache' : PermissionCache ρ} (h : cache.IndexExact)
    (hget : ∀ k, cache'.entries.get? k = cache.entries.get? k)
    (hindex : cache'.groupIndex = cache.groupIndex) : cache'.IndexExact := by
  refine ⟨fun g k => ?_, hindex ▸ h.noEmptySet⟩
  rw [hindex, h.indexed_iff, hget]

/-- What evictions do: they remove entries, keep the index exact and leave the settings. -/
structure Evicts (cache cache' : PermissionCache ρ) (p : Text × CacheEntry ρ → Bool) : Prop where
  entries : cache'.entries.entries = cache.entries.entries.filter p
  indexExact : cache'.IndexExact
  ttlMs : cache'.ttlMs = cache.ttlMs
  maxEntries : cache'.maxEntries = cache.maxEntries

lemma evicts_evict {cache : PermissionCache ρ} (h : cache.IndexExact) {k : Text}
    {entry : CacheEntry ρ} (hget : cache.entries.get? k = some entry) :
    Evicts cache (cache.evict k entry) fun p => p.1 ≠ k := ⟨rfl, h.evict hget, rfl, rfl⟩

lemma evicts_evictKey {cache : PermissionCache ρ} (h : cache.IndexExact) (k : Text) :
    Evicts cache (cache.evictKey k) fun p => p.1 ≠ k := by
  rw [evictKey]
  cases hget : cache.entries.get? k with
  | some entry => exact evicts_evict h hget
  | none =>
    refine ⟨(List.filter_eq_self.mpr ?_).symm, h, rfl, rfl⟩
    intro p hp
    have hne : p.1 ≠ k := by
      rintro rfl
      exact Dict.get?_eq_none_iff.mp hget (List.mem_map_of_mem hp)
    simpa using hne

/-- Evicting keys one after the other removes the entries of all of them. -/
lemma evicts_foldl_evictKey {cache : PermissionCache ρ} (h : cache.IndexExact) (keys : List Text) :
    Evicts cache (keys.foldl evictKey cache) fun p => p.1 ∉ keys := by
  induction keys generalizing cache with
  | nil => exact ⟨by simp, h, rfl, rfl⟩
  | cons k keys ih =>
    have hone := evicts_evictKey h k
    have hrest := ih hone.indexExact
    refine ⟨?_, hrest.indexExact, hrest.ttlMs.trans hone.ttlMs,
      hrest.maxEntries.trans hone.maxEntries⟩
    rw [List.foldl_cons, hrest.entries, hone.entries, List.filter_filter]
    exact List.filter_congr fun p _ => by simp [Bool.and_comm]

/-- The sweep evicts the keys of the expired entries. -/
lemma sweepExpired_eq (cache : PermissionCache ρ) (now : ℤ) :
    cache.sweepExpired now =
      (cache.entries.entries.countP fun p => p.2.expiresAt ≤ now,
        ((cache.entries.entries.filter fun p => p.2.expiresAt ≤ now).map Prod.fst).foldl evictKey
          cache) := by
  have hfold : ∀ (l : List (Text × CacheEntry ρ)) (n : ℕ) (c : PermissionCache ρ),
      (l.map Prod.fst).Nodup → (∀ p ∈ l, c.entries.get? p.1 = some p.2) →
      l.foldl (fun acc p => if p.2.expiresAt ≤ now then (acc.1 + 1, acc.2.evict p.1 p.2) else acc)
        (n, c) = (n + l.countP fun p => p.2.expiresAt ≤ now,
          ((l.filter fun p => p.2.expiresAt ≤ now).map Prod.fst).foldl evictKey c) := by
    intro l
    induction l with
    | nil => simp
    | cons p l ih =>
      intro n c hnodup hget
      rw [List.map_cons, List.nodup_cons] at hnodup
      by_cases hexp : p.2.expiresAt ≤ now
      · have hevict : c.evictKey p.1 = c.evict p.1 p.2 := by
          rw [evictKey, hget p List.mem_cons_self]
        have hlater : ∀ q ∈ l, (c.evict p.1 p.2).entries.get? q.1 = some q.2 := by
          intro q hq
          have hne : q.1 ≠ p.1 := fun heq => hnodup.1 (heq ▸ List.mem_map_of_mem hq)
          rw [evict, Dict.get?_delete_of_ne _ hne]
          exact hget q (List.mem_cons_of_mem p hq)
        rw [List.foldl_cons, if_pos hexp, ih _ _ hnodup.2 hlater]
        simp [hexp, hevict, Nat.add_assoc, Nat.add_comm 1]
      · rw [List.foldl_cons, if_neg hexp,
          ih n c hnodup.2 fun q hq => hget q (List.mem_cons_of_mem p hq)]
        simp [hexp]
  rw [sweepExpired, hfold _ 0 cache cache.entries.nodupKeys fun p hp =>
    Dict.get?_eq_some_iff.mpr hp, Nat.zero_add]

lemma evicts_sweepExpired {cache : PermissionCache ρ} (h : cache.IndexExact) (now : ℤ) :
    Evicts cache (cache.sweepExpired now).2 fun p => now < p.2.expiresAt := by
  rw [sweepExpired_eq]
  have hfold := evicts_foldl_evictKey h
    ((cache.entries.entries.filter fun p => p.2.expiresAt ≤ now).map Prod.fst)
  refine ⟨?_, hfold.indexExact, hfold.ttlMs, hfold.maxEntries⟩
  rw [hfold.entries]
  refine List.filter_congr fun p hp => ?_
  rw [decide_eq_decide, List.mem_map]
  constructor
  · intro hnot
    by_contra hexp
    exact hnot ⟨p, List.mem_filter.mpr ⟨hp, by simpa using hexp⟩, rfl⟩
  · rintro hlive ⟨q, hq, heq⟩
    obtain ⟨hmem, hexp⟩ := List.mem_filter.mp hq
    obtain rfl : q = p := List.inj_on_of_nodup_map cache.entries.nodupKeys hmem hp heq
    have : q.2.expiresAt ≤ now := by simpa using hexp
    omega

/-- An invalidation finds every entry that lists the group. -/
lemma evicts_invalidateGroup {cache : PermissionCache ρ} (h : cache.IndexExact) (g : Text) :
    Evicts cache (cache.invalidateGroup g) fun p => g ∉ p.2.indexGroups := by
  have hlisted : ∀ p ∈ cache.entries.entries,
      Indexed cache.groupIndex g p.1 ↔ g ∈ p.2.indexGroups := by
    intro p hp
    rw [h.indexed_iff, Dict.get?_eq_some_iff.mpr hp]
    simp
  rw [invalidateGroup]
  cases hget : cache.groupIndex.get? g with
  | none =>
    refine ⟨(List.filter_eq_self.mpr fun p hp => ?_).symm, h, rfl, rfl⟩
    have : ¬ g ∈ p.2.indexGroups := by
      rw [← hlisted p hp]
      rintro ⟨idx, hidx, -⟩
      simp [hget] at hidx
    simpa using this
  | some idx =>
    have hfold := evicts_foldl_evictKey h idx.keys
    have hnone : ∀ k, ¬ Indexed (idx.keys.foldl evictKey cache).groupIndex g k := by
      intro k hk
      obtain ⟨entry, hentry, hg⟩ := (hfold.indexExact.indexed_iff g k).mp hk
      rw [Dict.get?_eq_some_iff, hfold.entries, List.mem_filter] at hentry
      obtain ⟨idx', hidx', hmem⟩ := (hlisted _ hentry.1).mpr hg
      rw [hget, Option.some.injEq] at hidx'
      subst hidx'
      simpa [hmem] using hentry.2
    refine ⟨?_, ⟨fun g' k => ?_, fun g' idx' hget' => ?_⟩, hfold.ttlMs, hfold.maxEntries⟩
    · rw [hfold.entries]
      refine List.filter_congr fun p hp => ?_
      rw [decide_eq_decide, ← hlisted p hp]
      simp [Indexed, hget]
    · rw [← hfold.indexExact.indexed_iff, indexed_delete]
      refine ⟨And.right, fun hk => ⟨?_, hk⟩⟩
      rintro rfl
      exact hnone k hk
    · rw [Dict.get?_delete] at hget'
      split_ifs at hget'
      exact hfold.indexExact.noEmptySet g' idx' hget'

/-- The overflow loop drops the entries at the front. -/
lemma evictOverflowLoop_spec {cache : PermissionCache ρ} (h : cache.IndexExact) (fuel : ℕ)
    (hfuel : cache.size - cache.maxEntries ≤ fuel) :
    (evictOverflowLoop fuel cache).entries.entries =
        cache.entries.entries.drop (cache.size - cache.maxEntries) ∧
      (evictOverflowLoop fuel cache).IndexExact ∧
      (evictOverflowLoop fuel cache).ttlMs = cache.ttlMs ∧
      (evictOverflowLoop fuel cache).maxEntries = cache.maxEntries := by
  induction fuel generalizing cache with
  | zero =>
    have hzero : cache.size - cache.maxEntries = 0 := by omega
    simp [evictOverflowLoop, hzero, h]
  | succ fuel ih =>
    rw [evictOverflowLoop]
    split_ifs with hfits
    · have hzero : cache.size - cache.maxEntries = 0 := by omega
      simp [hzero, h]
    · obtain ⟨⟨k, entry⟩, rest, hentries⟩ :
          ∃ p rest, cache.entries.entries = p :: rest := by
        refine List.exists_cons_of_ne_nil fun hnil => hfits ?_
        rw [size, Dict.size, hnil]
        exact Nat.zero_le _
      have hget : cache.entries.get? k = some entry :=
        Dict.get?_eq_some_iff.mpr (hentries ▸ List.mem_cons_self)
      have hhead : cache.entries.keys.head? = some k := by rw [Dict.keys, hentries]; rfl
      have hnodup := cache.entries.nodupKeys
      rw [hentries, List.map_cons, List.nodup_cons] at hnodup
      have hevict := evicts_evict h hget
      have hrest : (cache.evict k entry).entries.entries = rest := by
        rw [hevict.entries, hentries, List.filter_cons_of_neg (by simp), List.filter_eq_self]
        intro p hp
        have hne : p.1 ≠ k := by
          intro heq
          exact hnodup.1 (List.mem_map.mpr ⟨p, hp, heq⟩)
        simpa using hne
      have hsize : cache.size = (cache.evict k entry).size + 1 := by
        rw [size, size, Dict.size, Dict.size, hrest, hentries, List.length_cons]
      have hexcess : cache.size - cache.maxEntries =
          (cache.evict k entry).size - (cache.evict k entry).maxEntries + 1 := by
        rw [hevict.maxEntries]
        omega
      obtain ⟨hloop, hexact, httl, hmax⟩ := ih hevict.indexExact (by omega)
      simp only [hhead, hget]
      refine ⟨?_, hexact, httl.trans hevict.ttlMs, hmax.trans hevict.maxEntries⟩
      rw [hloop, hexcess, hrest, hentries, List.drop_succ_cons]

lemma evictOverflow_spec {cache : PermissionCache ρ} (h : cache.IndexExact) :
    cache.evictOverflow.entries.entries =
        cache.entries.entries.drop (cache.size - cache.maxEntries) ∧
      cache.evictOverflow.IndexExact ∧ cache.evictOverflow.ttlMs = cache.ttlMs ∧
      cache.evictOverflow.maxEntries = cache.maxEntries :=
  evictOverflowLoop_spec h _ (Nat.sub_le _ _)

/-- A `set` drops the previous entry of the key, stores the new one and trims. -/
lemma set_eq {cache : PermissionCache ρ} (h : cache.IndexExact)
    (gameId groupId userId permission : Text) (result : ρ) (opts : PermissionCacheSetOptions)
    (now : ℤ) :
    let k := cacheKey gameId groupId userId permission opts.toPermissionCacheKeyOptions
    let entry : CacheEntry ρ := ⟨result, now + cache.ttlMs, indexGroups groupId opts.dependsOn⟩
    cache.set gameId groupId userId permission result opts now =
      evictOverflow
        { cache.evictKey k with
          entries := (cache.evictKey k).entries.set k entry
          groupIndex := entry.indexGroups.foldl (addToIndex k) (cache.evictKey k).groupIndex } := by
  intro k entry
  have hevict := evicts_evictKey h k
  simp only [PermissionCache.set, entry]
  rw [← hevict.ttlMs]
  rfl

/-- A later cache: the index is exact and no entry is new. -/
structure Within (cache cache' : PermissionCache ρ) : Prop where
  indexExact : cache'.IndexExact
  entries : ∀ k entry, cache'.entries.get? k = some entry → cache.entries.get? k = some entry

lemma Evicts.within {cache cache' : PermissionCache ρ} {p : Text × CacheEntry ρ → Bool}
    (h : Evicts cache cache' p) : Within cache cache' := by
  refine ⟨h.indexExact, fun k entry hget => ?_⟩
  rw [Dict.get?_eq_some_iff, h.entries] at hget
  exact Dict.get?_eq_some_iff.mpr (List.mem_of_mem_filter hget)

lemma within_evictOverflow {cache : PermissionCache ρ} (h : cache.IndexExact) :
    Within cache cache.evictOverflow := by
  obtain ⟨hdrop, hexact, -, -⟩ := evictOverflow_spec h
  refine ⟨hexact, fun k entry hget => ?_⟩
  rw [Dict.get?_eq_some_iff, hdrop] at hget
  exact Dict.get?_eq_some_iff.mpr (List.mem_of_mem_drop hget)

lemma within_setMaxEntries {cache : PermissionCache ρ} (h : cache.IndexExact) (maxEntries : ℤ) :
    Within cache (cache.setMaxEntries maxEntries) := by
  have hwithin : Within { cache with maxEntries := atLeastOne maxEntries }
      (cache.setMaxEntries maxEntries) := within_evictOverflow (h.congr (fun _ => rfl) rfl)
  exact ⟨hwithin.indexExact, hwithin.entries⟩

lemma within_clear (cache : PermissionCache ρ) : Within cache cache.clear := by
  refine ⟨⟨fun g k => ?_, fun g idx hget => ?_⟩, fun k entry hget => ?_⟩
  · simp [clear, Indexed]
  · simp [clear] at hget
  · simp [clear] at hget

/-- A read adds no entry, and what it replies is one. -/
lemma get_spec {cache : PermissionCache ρ} (h : cache.IndexExact)
    (gameId groupId userId permission : Text) (opts : PermissionCacheKeyOptions) (now : ℤ) :
    Within cache (cache.get gameId groupId userId permission opts now).2 ∧
      ∀ result, (cache.get gameId groupId userId permission opts now).1 = some result →
        ∃ k entry, cache.entries.get? k = some entry ∧ entry.result = result := by
  rw [get]
  cases hget : cache.entries.get? (cacheKey gameId groupId userId permission opts) with
  | none => exact ⟨⟨h, fun _ _ => id⟩, by simp⟩
  | some entry =>
    by_cases hexp : entry.expiresAt ≤ now
    · simp only [hexp, if_true]
      exact ⟨(evicts_evict h hget).within, by simp⟩
    · simp only [hexp, if_false]
      have hread : ∀ k, ((cache.entries.delete (cacheKey gameId groupId userId permission opts)).set
          (cacheKey gameId groupId userId permission opts) entry).get? k = cache.entries.get? k := by
        intro k
        rw [Dict.get?_set, Dict.get?_delete]
        split_ifs with hk
        · rw [hk, hget]
        · rfl
      refine ⟨⟨h.congr hread rfl, fun k e he => (hread k).symm.trans he⟩, ?_⟩
      rintro result ⟨⟩
      exact ⟨_, entry, hget, rfl⟩

/-- A `set` adds at most the entry it stores. -/
lemma set_spec {cache : PermissionCache ρ} (h : cache.IndexExact)
    (gameId groupId userId permission : Text) (result : ρ) (opts : PermissionCacheSetOptions)
    (now : ℤ) :
    (cache.set gameId groupId userId permission result opts now).IndexExact ∧
      ∀ k entry,
        (cache.set gameId groupId userId permission result opts now).entries.get? k = some entry →
        entry = ⟨result, now + cache.ttlMs, indexGroups groupId opts.dependsOn⟩ ∨
          cache.entries.get? k = some entry := by
  set key := cacheKey gameId groupId userId permission opts.toPermissionCacheKeyOptions with hkey
  have hevict := evicts_evictKey h key
  have hentries : (cache.evictKey key).entries = cache.entries.delete key :=
    Dict.ext_entries hevict.entries
  have hnone : (cache.evictKey key).entries.get? key = none := by
    rw [hentries, Dict.get?_delete_self]
  have hstore := within_evictOverflow (hevict.indexExact.store hnone
    ⟨result, now + cache.ttlMs, indexGroups groupId opts.dependsOn⟩)
  rw [set_eq h, ← hkey]
  refine ⟨hstore.indexExact, fun k entry hget => ?_⟩
  have hmid := hstore.entries k entry hget
  rw [Dict.get?_set] at hmid
  split_ifs at hmid
  · exact Or.inl (Option.some.inj hmid).symm
  · exact Or.inr (hevict.within.entries k entry hmid)

/-! ### The refinement -/

/-- The event an operation stands for. -/
def event (ttlMs : ℤ) : CacheOp ρ → LruEvent CheckTuple Text ρ
  | .get gameId groupId userId permission opts now =>
    .get (checkTuple gameId groupId userId permission opts) now
  | .set gameId groupId userId permission result opts now =>
    .set (checkTuple gameId groupId userId permission opts.toPermissionCacheKeyOptions)
      ⟨result, now + ttlMs, indexGroups groupId opts.dependsOn⟩
  | .sweepExpired now => .sweep now
  | .invalidateGroup groupId => .invalidate groupId
  | .setMaxEntries maxEntries => .resize maxEntries.toNat
  | .clear => .clear

/-- The entry that a record is stored as. -/
def stored (p : CheckTuple × LruRecord Text ρ) : Text × CacheEntry ρ :=
  (p.1.key, ⟨p.2.value, p.2.expiresAt, p.2.groups⟩)

/-- The cache holds the records of the map, in their order. -/
structure Represents (ttlMs : ℤ) (cache : PermissionCache ρ) (lru : Lru CheckTuple Text ρ) :
    Prop where
  entries : cache.entries.entries = lru.records.entries.map stored
  capacity : cache.maxEntries = lru.capacity
  ttlMs : cache.ttlMs = ttlMs
  indexExact : cache.IndexExact

variable {ttlMs : ℤ} {cache cache' : PermissionCache ρ} {lru : Lru CheckTuple Text ρ}

lemma Represents.get? (h : Represents ttlMs cache lru) (t : CheckTuple) :
    cache.entries.get? t.key =
      (lru.records.get? t).map fun r => ⟨r.value, r.expiresAt, r.groups⟩ := by
  ext entry
  simp only [Dict.get?_eq_some_iff, Option.map_eq_some_iff, h.entries, List.mem_map]
  constructor
  · rintro ⟨⟨t', r⟩, hmem, heq⟩
    obtain ⟨hkey, rfl⟩ := Prod.mk.inj heq
    exact ⟨r, CheckTuple.key_injective hkey ▸ hmem, rfl⟩
  · rintro ⟨r, hmem, rfl⟩
    exact ⟨(t, r), hmem, rfl⟩

lemma Represents.size (h : Represents ttlMs cache lru) : cache.size = lru.records.size := by
  rw [PermissionCache.size, Dict.size, h.entries, List.length_map, Dict.size]

/-- Evicting what the map does not keep. -/
lemma Represents.keep (h : Represents ttlMs cache lru) {p : Text × CacheEntry ρ → Bool}
    {p' : CheckTuple × LruRecord Text ρ → Bool} (hevicts : Evicts cache cache' p)
    (hp : ∀ q, p (stored q) = p' q) : Represents ttlMs cache' (lru.keep p') := by
  refine ⟨?_, hevicts.maxEntries.trans h.capacity, hevicts.ttlMs.trans h.ttlMs,
    hevicts.indexExact⟩
  rw [hevicts.entries, h.entries, List.filter_map]
  exact congrArg _ (List.filter_congr fun q _ => hp q)

lemma Represents.keep_key (h : Represents ttlMs cache lru) {t : CheckTuple}
    (hevicts : Evicts cache cache' fun p => p.1 ≠ t.key) :
    Represents ttlMs cache' (lru.keep fun p => p.1 ≠ t) :=
  h.keep hevicts fun q => by
    rw [decide_eq_decide, stored]
    exact CheckTuple.key_injective.ne_iff

/-- Storing an entry last stores its record last. -/
lemma Represents.setLast (h : Represents ttlMs cache lru) (t : CheckTuple) (r : LruRecord Text ρ) :
    ((cache.entries.delete t.key).set t.key ⟨r.value, r.expiresAt, r.groups⟩).entries =
      (lru.records.setLast t r).entries.map stored := by
  have hdelete : (cache.entries.delete t.key).entries =
      (lru.records.delete t).entries.map stored := by
    change cache.entries.entries.filter _ = _
    rw [h.entries, List.filter_map]
    refine congrArg _ (List.filter_congr fun q _ => ?_)
    exact decide_eq_decide.mpr CheckTuple.key_injective.ne_iff
  rw [Dict.entries_set_of_not_mem _ (Dict.not_mem_keys_delete _ _), hdelete, Dict.entries_setLast,
    List.map_append]
  rfl

/-- Cutting off the entries past the capacity. -/
lemma represents_trim {capacity : ℕ} {records : Dict CheckTuple (LruRecord Text ρ)}
    (hentries : cache.entries.entries = records.entries.map stored)
    (hcapacity : cache.maxEntries = capacity) (httl : cache.ttlMs = ttlMs)
    (hexact : cache.IndexExact) (hpos : 0 < capacity) :
    Represents ttlMs cache.evictOverflow (Lru.trim capacity hpos records) := by
  obtain ⟨hdrop, hindex, httl', hmax⟩ := evictOverflow_spec hexact
  refine ⟨?_, hmax.trans hcapacity, httl'.trans httl, hindex⟩
  rw [hdrop, Lru.trim, Dict.entries_drop, List.map_drop, hentries, Lru.excess, PermissionCache.size,
    Dict.size, Dict.size, hentries, List.length_map, hcapacity]

lemma Represents.get (h : Represents ttlMs cache lru) (gameId groupId userId permission : Text)
    (opts : PermissionCacheKeyOptions) (now : ℤ) :
    let t := checkTuple gameId groupId userId permission opts
    Represents ttlMs (cache.get gameId groupId userId permission opts now).2
        (lru.step (.get t now)).1 ∧
      .value (cache.get gameId groupId userId permission opts now).1 =
        (lru.step (.get t now)).2 := by
  intro t
  have hkey : cacheKey gameId groupId userId permission opts = t.key := rfl
  have hget := h.get? t
  simp only [PermissionCache.get, Lru.step, hkey]
  cases hfind : lru.records.get? t with
  | none =>
    simp only [hget, hfind, Option.map_none]
    exact ⟨h, trivial⟩
  | some r =>
    rw [hfind, Option.map_some] at hget
    simp only [hget]
    by_cases hexp : r.expiresAt ≤ now
    · simp only [hexp, if_true]
      exact ⟨h.keep_key (evicts_evict h.indexExact hget), trivial⟩
    · simp only [hexp, if_false]
      refine ⟨⟨?_, h.capacity, h.ttlMs, h.indexExact.congr (fun k => ?_) rfl⟩, trivial⟩
      · rw [h.setLast, Lru.put, Lru.trim, Dict.entries_drop, Lru.excess_setLast_of_get? hfind,
          List.drop_zero]
      · rw [Dict.get?_set, Dict.get?_delete]
        split_ifs with hk
        · rw [hk, hget]
        · rfl

lemma Represents.set (h : Represents ttlMs cache lru) (gameId groupId userId permission : Text)
    (result : ρ) (opts : PermissionCacheSetOptions) (now : ℤ) :
    Represents ttlMs (cache.set gameId groupId userId permission result opts now)
      (lru.put (checkTuple gameId groupId userId permission opts.toPermissionCacheKeyOptions)
        ⟨result, now + ttlMs, indexGroups groupId opts.dependsOn⟩) := by
  set t := checkTuple gameId groupId userId permission opts.toPermissionCacheKeyOptions
  have hkey : cacheKey gameId groupId userId permission opts.toPermissionCacheKeyOptions = t.key :=
    rfl
  have hevict := evicts_evictKey h.indexExact t.key
  have hset := set_eq h.indexExact gameId groupId userId permission result opts now
  rw [hkey, h.ttlMs] at hset
  have hentries : (cache.evictKey t.key).entries = cache.entries.delete t.key :=
    Dict.ext_entries hevict.entries
  have hnone : (cache.evictKey t.key).entries.get? t.key = none := by
    rw [hentries, Dict.get?_delete_self]
  rw [hset]
  apply represents_trim
  · rw [hentries]
    exact h.setLast t ⟨result, now + ttlMs, indexGroups groupId opts.dependsOn⟩
  · exact hevict.maxEntries.trans h.capacity
  · exact hevict.ttlMs.trans h.ttlMs
  · exact hevict.indexExact.store hnone ⟨result, now + ttlMs, indexGroups groupId opts.dependsOn⟩

lemma Represents.setMaxEntries (h : Represents ttlMs cache lru) (maxEntries : ℤ) :
    Represents ttlMs (cache.setMaxEntries maxEntries) (lru.resize maxEntries.toNat) := by
  have hatLeast : atLeastOne maxEntries = max 1 maxEntries.toNat := by
    rw [atLeastOne]
    omega
  rw [PermissionCache.setMaxEntries]
  apply represents_trim
  · exact h.entries
  · exact hatLeast
  · exact h.ttlMs
  · exact h.indexExact.congr (fun _ => rfl) rfl

/-- Every operation keeps the refinement and replies as the map does. -/
lemma Represents.step (h : Represents ttlMs cache lru) (op : CacheOp ρ) :
    Represents ttlMs (cache.step op).1 (lru.step (event ttlMs op)).1 ∧
      (cache.step op).2 = (lru.step (event ttlMs op)).2 := by
  cases op with
  | get gameId groupId userId permission opts now =>
    exact h.get gameId groupId userId permission opts now
  | set gameId groupId userId permission result opts now =>
    exact ⟨h.set gameId groupId userId permission result opts now, rfl⟩
  | sweepExpired now =>
    refine ⟨h.keep (evicts_sweepExpired h.indexExact now) fun _ => rfl, ?_⟩
    simp only [PermissionCache.step, sweepExpired_eq, event, Lru.step, h.entries, List.countP_map]
    rfl
  | invalidateGroup groupId =>
    exact ⟨h.keep (evicts_invalidateGroup h.indexExact groupId) fun _ => decide_eq_decide.mpr Iff.rfl,
      rfl⟩
  | setMaxEntries maxEntries => exact ⟨h.setMaxEntries maxEntries, rfl⟩
  | clear =>
    refine ⟨⟨?_, h.capacity, h.ttlMs, ⟨fun g k => ?_, fun g idx hget => ?_⟩⟩, rfl⟩
    · simp [PermissionCache.step, PermissionCache.clear, event, Lru.step, Lru.keep]
    · simp [PermissionCache.step, PermissionCache.clear, Indexed]
    · simp [PermissionCache.step, PermissionCache.clear] at hget

lemma atLeastOne_pos (n : ℤ) : 0 < atLeastOne n := by
  rw [atLeastOne]
  omega

lemma represents_new (opts : PermissionCacheOptions) :
    Represents (opts.ttlMs.getD permissionCacheTtlMs) (new opts : PermissionCache ρ)
      (Lru.empty (atLeastOne (opts.maxEntries.getD permissionCacheMaxEntries))
        (PermissionCache.atLeastOne_pos _)) := by
  refine ⟨rfl, rfl, rfl, fun g k => ?_, fun g idx hget => ?_⟩
  · simp [new, Indexed]
  · simp [new] at hget

end PermissionCache

/-- Over any operations from a new cache: the replies are those of a map from tuples to records,
the size stays within the cap and the index is exact. A `get` answers a result exactly when the
operations stored it for its tuple, no later one dropped it (another `set` of the tuple, a
`clear`, an invalidation of a group it was filed under, a sweep or a read of it after its expiry,
or the eviction of the least recently used entries past the cap), and it has not expired. -/
theorem permissionCache_correct (opts : PermissionCacheOptions) (ops : List (CacheOp ρ)) :
    let ttlMs := opts.ttlMs.getD permissionCacheTtlMs
    let start : Lru CheckTuple Text ρ :=
      Lru.empty (atLeastOne (opts.maxEntries.getD permissionCacheMaxEntries)) (PermissionCache.atLeastOne_pos _)
    let events := ops.map (PermissionCache.event ttlMs)
    let cache := runOn PermissionCache.step (PermissionCache.new opts) ops
    repliesOn PermissionCache.step (PermissionCache.new opts) ops = repliesOn Lru.step start events ∧
      cache.size ≤ cache.maxEntries ∧
      cache.IndexExact ∧
      (start.run events).records.keys.Sublist (start.uses events).dedup ∧
      ∀ gameId groupId userId permission opts now result,
        let t := checkTuple gameId groupId userId permission opts
        (cache.get gameId groupId userId permission opts now).1 = some result ↔
          ∃ before record after, events = before ++ .set t record :: after ∧
            record.value = result ∧ now < record.expiresAt ∧
            ∀ mid e rest, after = mid ++ e :: rest →
              ¬ (start.run (before ++ .set t record :: mid)).Drops t record e := by
  intro ttlMs start events cache
  have hstep : ∀ (cache : PermissionCache ρ) lru op,
      PermissionCache.Represents ttlMs cache lru →
      PermissionCache.Represents ttlMs (cache.step op).1
          (lru.step (PermissionCache.event ttlMs op)).1 ∧
        (cache.step op).2 = (lru.step (PermissionCache.event ttlMs op)).2 :=
    fun _ _ op h => h.step op
  obtain ⟨hrun, hreplies⟩ := simulation hstep (PermissionCache.represents_new opts) ops
  refine ⟨hreplies, ?_, hrun.indexExact, Lru.keys_run_sublist events, ?_⟩
  · rw [hrun.size, hrun.capacity]
    exact (runOn Lru.step start events).bounded
  · intro gameId groupId userId permission opts now result t
    have hget := (hrun.get gameId groupId userId permission opts now).2
    rw [← LruReply.value.injEq, hget, Lru.reply_get_iff]
    constructor
    · rintro ⟨record, hrecord, hvalue, hlive⟩
      obtain ⟨before, after, hsplit, hkept⟩ := (Lru.get?_run_iff events t record).mp hrecord
      exact ⟨before, record, after, hsplit, hvalue, hlive, hkept⟩
    · rintro ⟨before, record, after, hsplit, hvalue, hlive, hkept⟩
      exact ⟨record, (Lru.get?_run_iff events t record).mpr ⟨before, after, hsplit, hkept⟩, hvalue,
        hlive⟩

end Junjo
