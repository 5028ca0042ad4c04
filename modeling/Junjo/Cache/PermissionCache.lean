import Junjo.Core.Dict
import Junjo.Core.Encode
import Junjo.Core.Lru

/-!
# The permission cache

The server keeps the answers of permission checks in memory: an insertion-ordered map from keys
to entries, and for each group the set of keys whose answers depend on it. A hit re-inserts its
key, so the first key is the least recently used one.
-/

namespace Junjo

variable {ρ : Type*}

/-- A cached answer, and every group whose index set holds its key. -/
structure CacheEntry (ρ : Type*) where
  result : ρ
  expiresAt : ℤ
  indexGroups : List Text

/-- An insertion-ordered set. -/
abbrev OrderedSet (κ : Type*) := Dict κ Unit

structure PermissionCacheOptions where
  ttlMs : Option ℤ := none
  maxEntries : Option ℤ := none

/-- The parts of a key that default: a direct check without context. -/
structure PermissionCacheKeyOptions where
  inherit : Option Bool := none
  context : Option Text := none

structure PermissionCacheSetOptions extends PermissionCacheKeyOptions where
  dependsOn : Option (List Text) := none

def permissionCacheTtlMs : ℤ := 60 * 1000

def permissionCacheMaxEntries : ℤ := 100000

structure PermissionCache (ρ : Type*) where
  entries : Dict Text (CacheEntry ρ)
  groupIndex : Dict Text (OrderedSet Text)
  ttlMs : ℤ
  maxEntries : ℕ

/-- `Math.max(1, n)`. -/
def atLeastOne (n : ℤ) : ℕ := (max 1 n).toNat

/-- `|length:part` for each part, after a letter for the keyspace. -/
def cacheKey (gameId groupId userId permission : Text) (opts : PermissionCacheKeyOptions) : Text :=
  [gameId, groupId, userId, permission, opts.context.getD []].foldl
    (fun out p => out ++ (text "|" ++ lengthPrefixed p))
    (if opts.inherit.getD false then text "i" else text "d")

namespace PermissionCache

def new (opts : PermissionCacheOptions) : PermissionCache ρ where
  entries := Dict.empty
  groupIndex := Dict.empty
  ttlMs := opts.ttlMs.getD permissionCacheTtlMs
  maxEntries := atLeastOne (opts.maxEntries.getD permissionCacheMaxEntries)

def size (cache : PermissionCache ρ) : ℕ := cache.entries.size

/-- Take a key out of one group's index set, and drop the set when it becomes empty. -/
def unindex (k : Text) (groupIndex : Dict Text (OrderedSet Text)) (g : Text) :
    Dict Text (OrderedSet Text) :=
  match groupIndex.get? g with
  | none => groupIndex
  | some idx =>
    if (idx.delete k).size = 0 then groupIndex.delete g else groupIndex.set g (idx.delete k)

/-- Put a key into one group's index set. -/
def addToIndex (k : Text) (groupIndex : Dict Text (OrderedSet Text)) (g : Text) :
    Dict Text (OrderedSet Text) :=
  groupIndex.set g (((groupIndex.get? g).getD Dict.empty).set k ())

def evict (cache : PermissionCache ρ) (k : Text) (entry : CacheEntry ρ) : PermissionCache ρ :=
  { cache with
    entries := cache.entries.delete k
    groupIndex := entry.indexGroups.foldl (unindex k) cache.groupIndex }

/-- The loop of `evictOverflow`, for at most `fuel` turns. -/
def evictOverflowLoop : ℕ → PermissionCache ρ → PermissionCache ρ
  | 0, cache => cache
  | fuel + 1, cache =>
    if cache.size ≤ cache.maxEntries then cache
    else match cache.entries.keys.head? with
      | none => cache
      | some oldest =>
        evictOverflowLoop fuel <| match cache.entries.get? oldest with
          | some entry => cache.evict oldest entry
          | none => { cache with entries := cache.entries.delete oldest }

/-- Each turn removes an entry, so there are no more turns than entries. -/
def evictOverflow (cache : PermissionCache ρ) : PermissionCache ρ :=
  evictOverflowLoop cache.size cache

def setMaxEntries (cache : PermissionCache ρ) (maxEntries : ℤ) : PermissionCache ρ :=
  evictOverflow { cache with maxEntries := atLeastOne maxEntries }

def get (cache : PermissionCache ρ) (gameId groupId userId permission : Text)
    (opts : PermissionCacheKeyOptions) (now : ℤ) : Option ρ × PermissionCache ρ :=
  let k := cacheKey gameId groupId userId permission opts
  match cache.entries.get? k with
  | none => (none, cache)
  | some entry =>
    if entry.expiresAt ≤ now then (none, cache.evict k entry)
    else (some entry.result, { cache with entries := (cache.entries.delete k).set k entry })

/-- The groups an answer is filed under: the queried group alone when no others are given. -/
def indexGroups (groupId : Text) (dependsOn : Option (List Text)) : List Text :=
  match dependsOn with
  | some (g :: groups) => (g :: groups).eraseDups
  | _ => [groupId]

def set (cache : PermissionCache ρ) (gameId groupId userId permission : Text) (result : ρ)
    (opts : PermissionCacheSetOptions) (now : ℤ) : PermissionCache ρ :=
  let k := cacheKey gameId groupId userId permission opts.toPermissionCacheKeyOptions
  let cache := match cache.entries.get? k with
    | some previous => cache.evict k previous
    | none => cache
  let groups := indexGroups groupId opts.dependsOn
  evictOverflow
    { cache with
      entries := cache.entries.set k ⟨result, now + cache.ttlMs, groups⟩
      groupIndex := groups.foldl (addToIndex k) cache.groupIndex }

/-- Drops every expired entry and counts them. The source deletes while it iterates, which skips
no other entry, so the entries are those at the start. -/
def sweepExpired (cache : PermissionCache ρ) (now : ℤ) : ℕ × PermissionCache ρ :=
  cache.entries.entries.foldl
    (fun acc p =>
      if p.2.expiresAt ≤ now then (acc.1 + 1, acc.2.evict p.1 p.2) else acc)
    (0, cache)

/-- Drop the entry of a key, if there is one. -/
def evictKey (cache : PermissionCache ρ) (k : Text) : PermissionCache ρ :=
  match cache.entries.get? k with
  | some entry => cache.evict k entry
  | none => cache

def invalidateGroup (cache : PermissionCache ρ) (groupId : Text) : PermissionCache ρ :=
  match cache.groupIndex.get? groupId with
  | none => cache
  | some idx =>
    let cache := idx.keys.foldl evictKey cache
    { cache with groupIndex := cache.groupIndex.delete groupId }

def clear (cache : PermissionCache ρ) : PermissionCache ρ :=
  { cache with
    entries := Dict.empty
    groupIndex := Dict.empty }

end PermissionCache

/-! ### Operations -/

/-- A call of one of the cache's methods, with the clock's reading where it takes one. -/
inductive CacheOp (ρ : Type*) where
  | get (gameId groupId userId permission : Text) (opts : PermissionCacheKeyOptions) (now : ℤ)
  | set (gameId groupId userId permission : Text) (result : ρ) (opts : PermissionCacheSetOptions)
      (now : ℤ)
  | sweepExpired (now : ℤ)
  | invalidateGroup (groupId : Text)
  | setMaxEntries (maxEntries : ℤ)
  | clear

namespace PermissionCache

def step (cache : PermissionCache ρ) : CacheOp ρ → PermissionCache ρ × LruReply ρ
  | .get gameId groupId userId permission opts now =>
    let (result, cache) := cache.get gameId groupId userId permission opts now
    (cache, .value result)
  | .set gameId groupId userId permission result opts now =>
    (cache.set gameId groupId userId permission result opts now, .done)
  | .sweepExpired now =>
    let (removed, cache) := cache.sweepExpired now
    (cache, .removed removed)
  | .invalidateGroup groupId => (cache.invalidateGroup groupId, .done)
  | .setMaxEntries maxEntries => (cache.setMaxEntries maxEntries, .done)
  | .clear => (cache.clear, .done)

end PermissionCache

end Junjo
