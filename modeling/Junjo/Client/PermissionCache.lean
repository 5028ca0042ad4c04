import Junjo.Core.Encode
import Junjo.Core.Utf8
import Junjo.Permissions.Context

/-!
# The TypeScript client's permission cache

A bounded map from keys to answers that expire after a short time and may be served stale for a
while after it. The key of a check has the lengths of its parts, so no two checks that differ share
a key, except for contexts with one canonical form.
-/

namespace Junjo.Client

/-! ### Checks -/

/-- One entry of a batch. -/
structure PermissionCheckRequest where
  userId : Text
  groupId : Text
  permission : Text
  context : Option PermissionContext

/-- A check as it is asked: an entry and whether parents count. -/
structure Check extends PermissionCheckRequest where
  inherit : Bool

/-- The canonical form of a context: pairs sorted by key, values folded. -/
def permissionContextKey (context : Option PermissionContext) : Text :=
  canonicalContextKey (context.map fun values => values.mapValues foldContextValue)

/-- `PermissionCache.key` -/
def Check.key (c : Check) : Text :=
  [c.userId, c.groupId, c.permission, permissionContextKey c.context].foldl
    (fun out part => out ++ (text "|" ++ lengthPrefixed part))
    (if c.inherit then text "i" else text "d")

/-- The same question: one user, group, permission and mode, and one canonical context. -/
def Check.Same (c c' : Check) : Prop :=
  c.userId = c'.userId ∧ c.groupId = c'.groupId ∧ c.permission = c'.permission ∧
    c.inherit = c'.inherit ∧ permissionContextKey c.context = permissionContextKey c'.context

/-- Checks with one key ask the same, whatever their texts contain. -/
lemma Check.same_of_key {c c' : Check} (h : c.key = c'.key) : c.Same c' := by
  have hparts : ∀ d : Check, d.key = (if d.inherit then text "i" else text "d") ++
      [d.userId, d.groupId, d.permission, permissionContextKey d.context].flatMap keyPart := by
    intro d
    simp [Check.key, keyPart]
  rw [hparts, hparts] at h
  obtain ⟨hletter, hrest⟩ := List.append_inj h (by split_ifs <;> rfl)
  have hinherit : c.inherit = c'.inherit := by
    revert hletter
    cases c.inherit <;> cases c'.inherit <;> decide
  have hfields := flatMap_keyPart_inj (by simp) hrest
  simp only [List.cons.injEq, and_true] at hfields
  exact ⟨hfields.1, hfields.2.1, hfields.2.2.1, hinherit, hfields.2.2.2⟩

/-! ### The cache -/

structure PermissionCacheOptions where
  enabled : Bool := true
  ttlMs : ℤ := 5000
  maxEntries : ℤ := 5000
  serveStaleOnRateLimit : Bool := true
  staleWhileRateLimitedMs : ℤ := 60000

structure CacheEntry (ρ : Type*) where
  result : ρ
  expiresAt : ℤ
  staleUntil : ℤ

structure PermissionCache (ρ : Type*) where
  options : PermissionCacheOptions
  entries : Dict Text (CacheEntry ρ)

/-- `while (entries.size > maxEntries)` delete the oldest. -/
def dropOldest {κ ν : Type*} (maxEntries : ℤ) (entries : Dict κ ν) : Dict κ ν :=
  entries.drop (entries.size - maxEntries.toNat)

lemma get?_dropOldest {κ ν : Type*} [DecidableEq κ] {maxEntries : ℤ} {entries : Dict κ ν} {k : κ}
    {v : ν} (h : (dropOldest maxEntries entries).get? k = some v) : entries.get? k = some v := by
  rw [Dict.get?_eq_some_iff] at h ⊢
  exact (Dict.mem_entries_drop.mp h).1

namespace PermissionCache

variable {ρ : Type*}

def new (options : PermissionCacheOptions) : PermissionCache ρ := ⟨options, Dict.empty⟩

variable (cache : PermissionCache ρ)

/-- Fresh answer. -/
def get (key : Text) (now : ℤ) : Option ρ :=
  if cache.options.enabled then
    match cache.entries.get? key with
    | none => none
    | some entry => if entry.expiresAt ≤ now then none else some entry.result
  else none

/-- Expired-but-recent answer. An entry past its stale window is deleted. -/
def getStale (key : Text) (now : ℤ) : Option ρ × PermissionCache ρ :=
  if cache.options.enabled && cache.options.serveStaleOnRateLimit then
    match cache.entries.get? key with
    | none => (none, cache)
    | some entry =>
      if entry.staleUntil ≤ now then (none, { cache with entries := cache.entries.delete key })
      else (some entry.result, cache)
  else (none, cache)

def set (key : Text) (result : ρ) (now : ℤ) : PermissionCache ρ :=
  if cache.options.enabled then
    let expiresAt := now + cache.options.ttlMs
    let entries := (cache.entries.delete key).set key
      ⟨result, expiresAt, expiresAt + cache.options.staleWhileRateLimitedMs⟩
    { cache with entries := dropOldest cache.options.maxEntries entries }
  else cache

def clear : PermissionCache ρ := { cache with entries := Dict.empty }

/-! ### What the cache holds -/

/-- Every answer in the cache has a property, under its key. -/
def Holds (P : Text → ρ → Prop) : Prop :=
  ∀ key entry, cache.entries.get? key = some entry → P key entry.result

variable {cache} {P : Text → ρ → Prop}

lemma holds_new (options : PermissionCacheOptions) : (new options).Holds P := by
  intro key entry h
  cases h

lemma holds_clear : cache.clear.Holds P := by
  intro key entry h
  cases h

lemma Holds.imp {Q : Text → ρ → Prop} (h : cache.Holds P) (hPQ : ∀ key r, P key r → Q key r) :
    cache.Holds Q :=
  fun key entry hget => hPQ _ _ (h key entry hget)

lemma Holds.get (h : cache.Holds P) {key : Text} {now : ℤ} {r : ρ}
    (hget : cache.get key now = some r) : P key r := by
  unfold PermissionCache.get at hget
  split_ifs at hget
  split at hget
  · cases hget
  · split_ifs at hget
    cases hget
    exact h _ _ ‹_›

lemma Holds.getStale_some (h : cache.Holds P) {key : Text} {now : ℤ} {r : ρ}
    (hget : (cache.getStale key now).1 = some r) : P key r := by
  unfold PermissionCache.getStale at hget
  split_ifs at hget
  split at hget
  · cases hget
  · split_ifs at hget
    cases hget
    exact h _ _ ‹_›

lemma Holds.getStale (h : cache.Holds P) (key : Text) (now : ℤ) :
    (cache.getStale key now).2.Holds P := by
  unfold PermissionCache.getStale
  split_ifs
  · split
    · exact h
    · split_ifs
      · intro key' entry hget
        dsimp only at hget
        rw [Dict.get?_delete] at hget
        split_ifs at hget
        exact h _ _ hget
      · exact h
  · exact h

lemma Holds.set (h : cache.Holds P) {key : Text} {r : ρ}
    (hr : cache.options.enabled = true → P key r) (now : ℤ) : (cache.set key r now).Holds P := by
  unfold PermissionCache.set
  split_ifs with henabled
  · intro key' entry hget
    have hget' := get?_dropOldest hget
    rw [Dict.get?_set] at hget'
    split_ifs at hget' with heq
    · cases hget'
      rw [heq]
      exact hr henabled
    · rw [Dict.get?_delete_of_ne _ heq] at hget'
      exact h _ _ hget'
  · exact h

@[simp] lemma options_set (key : Text) (r : ρ) (now : ℤ) :
    (cache.set key r now).options = cache.options := by
  unfold PermissionCache.set
  split_ifs <;> rfl

end PermissionCache

end Junjo.Client
