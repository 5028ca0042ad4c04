import Junjo.Permissions.Keys
import Junjo.Permissions.Context

/-!
# Resolving a member's check

The server's permission resolution over loaded data: the member's overrides decide first, then
the roles held directly, then their parents layer by layer. Inside a layer the best context score
decides, then the most specific key, and deny wins between the entries that remain.
-/

namespace Junjo

/-- Bounds the role-parent walk. -/
def maxRoleDepth : ℕ := 100

/-- An entry or override limited to a context. -/
structure ResolverContextEntry where
  permission : Text
  value : Bool
  context : PermissionContext
  nonempty : context.keys ≠ []
deriving DecidableEq

structure ResolverRole where
  priority : ℤ
  /-- Global entries, by stored key. -/
  entries : Dict Text Bool
  contextEntries : List ResolverContextEntry
  parents : List Text
deriving DecidableEq

structure ResolverInput where
  mode : PermissionMode
  /-- Global overrides, by stored key. -/
  overrides : Dict Text Bool
  contextOverrides : List ResolverContextEntry
  directRoleIds : List Text
  roles : Dict Text ResolverRole
  /-- The check's context. Empty: only global entries apply. -/
  context : PermissionContext
  /-- The game's `permissions.contexts`. -/
  contexts : ContextInheritance

inductive PermissionSource where
  | none
  | default
  | role
  | override
deriving DecidableEq

structure PermissionCheckResult where
  allowed : Bool
  source : PermissionSource
  viaRoleId : Option Text := Option.none
  viaGroupId : Option Text := Option.none
  context : Option PermissionContext := Option.none
deriving DecidableEq

/-! ### Scores -/

abbrev Chains := Dict Text (Dict Text ℕ)

/-- The inheritance chain of every key in the check's context. -/
def contextChains (context : PermissionContext) (contexts : ContextInheritance) : Chains :=
  Dict.ofList (context.entries.map fun (key, value) =>
    (key, contextChain contexts key (foldContextValue value)))

/-- An applicable entry's place in the precedence: context keys matched, chain distance sum,
specificity rank. -/
@[ext] structure Score where
  keys : ℕ
  distance : ℕ
  rank : ℕ
deriving DecidableEq

/-- Negative when `a` decides ahead of `b`. -/
def compareScore (a b : Score) : ℤ :=
  if a.keys ≠ b.keys then b.keys - a.keys
  else if a.distance ≠ b.distance then a.distance - b.distance
  else a.rank - b.rank

/-- The distance of one pair of an entry's context, when it is in the check's chains. -/
def pairDistance (chains : Chains) (p : Text × Text) : Option ℕ :=
  (chains.get? p.1).bind fun chain => chain.get? (foldContextValue p.2)

/-- The context score of an entry: its keys and the sum of their chain distances, when all of
them are in the check's chains. -/
def contextScore (context : PermissionContext) (chains : Chains) : Option (ℕ × ℕ) :=
  context.entries.foldlM
    (fun (acc : ℕ × ℕ) p => (pairDistance chains p).map fun d => (acc.1 + 1, acc.2 + d)) (0, 0)

/-! ### The best entries of one source -/

/-- The best-scoring applicable entries of one role, or of the overrides. `deny` and `grant` are
absent when no entry of that value has the best score; otherwise they hold the context to report
for it (`none` for global), the smallest canonical key when several qualify. -/
structure SourceBest where
  score : Score
  deny : Option (Option PermissionContext)
  grant : Option (Option PermissionContext)

/-- The context held for a value. -/
def SourceBest.held (best : SourceBest) (value : Bool) : Option (Option PermissionContext) :=
  match value with
  | true => best.grant
  | false => best.deny

/-- Whether a context is to be held for a value: nothing is held yet, or a greater canonical key. -/
def SourceBest.replaces (best : SourceBest) (value : Bool) (context : Option PermissionContext) :
    Bool :=
  match best.held value with
  | none => true
  | some held => decide (canonicalContextKey context < canonicalContextKey held)

/-- Hold a context for a value unless a smaller canonical key is held. -/
def SourceBest.hold (best : SourceBest) (value : Bool) (context : Option PermissionContext) :
    SourceBest :=
  if best.replaces value context then
    match value with
    | true => { best with grant := some context }
    | false => { best with deny := some context }
  else best

def consider (best : Option SourceBest) (score : Score) (value : Bool)
    (context : Option PermissionContext) : SourceBest :=
  match best with
  | none => SourceBest.hold ⟨score, none, none⟩ value context
  | some best =>
    let order := compareScore score best.score
    if 0 < order then best
    else if order < 0 then SourceBest.hold ⟨score, none, none⟩ value context
    else best.hold value context

/-- The most specific global entry, with its rank. -/
def firstGlobal (global : Dict Text Bool) (candidates : List Text) : Option (ℕ × Bool) :=
  candidates.zipIdx.findSome? fun p => (global.get? p.1).map fun value => (p.2, value)

/-- Consider one contextual entry. -/
def considerContextual (candidates : List Text) (chains : Chains) (best : Option SourceBest)
    (entry : ResolverContextEntry) : Option SourceBest :=
  match (rankOf candidates).get? entry.permission with
  | none => best
  | some rank =>
    match contextScore entry.context chains with
    | none => best
    | some (keys, distance) =>
      some (consider best ⟨keys, distance, rank⟩ entry.value (some entry.context))

def sourceBest (global : Dict Text Bool) (contextual : List ResolverContextEntry)
    (candidates : List Text) (chains : Chains) : Option SourceBest :=
  -- Global entries all score (0, 0), so only the most specific matters.
  let best := (firstGlobal global candidates).map fun (rank, value) =>
    consider none ⟨0, 0, rank⟩ value none
  if 0 < chains.size then contextual.foldl (considerContextual candidates chains) best else best

/-! ### Layers of roles -/

/-- The applicable best of one role of a layer. -/
structure LayerHit where
  id : Text
  priority : ℤ
  best : SourceBest

/-- Higher priority first, then the greater role id. -/
def outranks (a b : LayerHit) : Bool :=
  if a.priority ≠ b.priority then decide (b.priority < a.priority) else decide (b.id < a.id)

/-- The context reported for a decision, folded and in key order; absent for a global one. -/
def withContext (result : PermissionCheckResult) (context : Option (Option PermissionContext)) :
    PermissionCheckResult :=
  match context with
  | none | some none => result
  | some (some context) =>
    if context.keys = [] then result
    else { result with context := some (context.mapValues foldContextValue).sorted }

def layerHits (roles : Dict Text ResolverRole) (candidates : List Text) (chains : Chains)
    (layer : List Text) : List LayerHit :=
  layer.filterMap fun id => do
    let role ← roles.get? id
    let best ← sourceBest role.entries role.contextEntries candidates chains
    pure ⟨id, role.priority, best⟩

/-- The best score of a layer. -/
def topScore (hits : List LayerHit) : Option Score :=
  hits.foldl
    (fun top hit =>
      match top with
      | none => some hit.best.score
      | some score => if compareScore hit.best.score score < 0 then some hit.best.score else top)
    none

/-- The highest-ranking role that holds the value at the best score. -/
def topHolder (hits : List LayerHit) (top : Score) (value : Bool) : Option LayerHit :=
  hits.foldl
    (fun holder hit =>
      if compareScore hit.best.score top ≠ 0 then holder
      else if (hit.best.held value).isSome && holder.all (outranks hit ·) then some hit
      else holder)
    none

/-- The answer of one layer of roles, when an entry of the layer applies. -/
def layerAnswer (roles : Dict Text ResolverRole) (candidates : List Text) (chains : Chains)
    (layer : List Text) : Option PermissionCheckResult := do
  let hits := layerHits roles candidates chains layer
  let top ← topScore hits
  match topHolder hits top false with
  | some denier =>
    pure (withContext { allowed := false, source := .role, viaRoleId := denier.id }
      denier.best.deny)
  | none =>
    let granter ← topHolder hits top true
    pure (withContext { allowed := true, source := .role, viaRoleId := granter.id }
      granter.best.grant)

/-- The parents of a role that exist. -/
def liveParents (roles : Dict Text ResolverRole) (id : Text) : List Text :=
  match roles.get? id with
  | none => []
  | some role => role.parents.filter fun parent => roles.has parent

/-- The overrides' answer, when an override applies. -/
def ownAnswer (overrides : Dict Text Bool) (contextOverrides : List ResolverContextEntry)
    (candidates : List Text) (chains : Chains) : Option PermissionCheckResult :=
  (sourceBest overrides contextOverrides candidates chains).map fun own =>
    let allowed := own.deny.isNone
    withContext { allowed := allowed, source := .override } (own.held allowed)

/-- The layer walk, over at most `fuel` layers. -/
def walkRoles (input : ResolverInput) (candidates : List Text) (chains : Chains) (fuel : ℕ) :
    Option PermissionCheckResult :=
  searchLayers (liveParents input.roles) (layerAnswer input.roles candidates chains) fuel []
    (input.directRoleIds.eraseDups.filter fun id => input.roles.has id)

/-- Resolve one member's check from overrides and roles, walking parents up to `depth` steps
from the roles held directly. -/
def resolveWithin (depth : ℕ) (input : ResolverInput) (permission : Text) :
    PermissionCheckResult :=
  let candidates := candidateKeys input.mode permission
  let chains := contextChains input.context input.contexts
  match ownAnswer input.overrides input.contextOverrides candidates chains with
  | some own => own
  | none =>
    match walkRoles input candidates chains (depth + 1) with
    | some decided => decided
    | none => { allowed := false, source := .default }

/-- Resolve one member's check. Membership and status gating happen in the caller. -/
def resolveMemberPermission (input : ResolverInput) (permission : Text) :
    PermissionCheckResult :=
  resolveWithin maxRoleDepth input permission

end Junjo
