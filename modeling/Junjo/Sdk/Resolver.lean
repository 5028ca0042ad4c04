import Junjo.Sdk.Context

/-!
# The Java SDK's permission resolver

Local resolution as the SDK runs it: candidate keys cut at the dots of the key, nullable best
entries, and the hits of a layer kept by index. `compile` prepares the role graph that the server
serves, and `check` gates on the member's status.
-/

namespace Junjo.Sdk

structure PermissionEntry where
  permission : Text
  value : Bool
  context : Context

structure ResolverRole where
  priority : ℤ
  /-- Global entries, by normalized key. -/
  entries : Dict Text Bool
  contextEntries : List PermissionEntry
  parents : List Text

/-- The outcome of a check. A global context when a global entry decided or nothing did. -/
structure PermissionCheckResult where
  allowed : Bool
  source : PermissionSource
  viaRoleId : Option Text := none
  viaGroupId : Option Text := none
  context : Context := Context.global

/-! ### Candidates -/

/-- The candidates of a key cut at every dot below `i` from the right, after those in `out`. Only
the first cut can repeat the key. -/
def cutsBelow (key : Text) : ℕ → List Text → List Text
  | 0, out => out
  | i + 1, out =>
    if key[i]? = some dot then
      let cut := key.take (i + 1) ++ wildcard
      if out.length = 1 && cut = key then cutsBelow key i out else cutsBelow key i (out ++ [cut])
    else cutsBelow key i out

/-- The candidate keys in specificity order, without duplicates. -/
def candidates (mode : PermissionMode) (permission : Text) : List Text :=
  let key := normalizePermissionKey mode permission
  if mode = .exact || key = wildcard then [key]
  else cutsBelow key key.length [key] ++ [wildcard]

/-- The specificity rank of a key among the candidates. -/
def rankOf (candidates : List Text) (key : Text) : Option ℕ := candidates.findIdx? (· = key)

/-! ### The best entries of one source -/

/-- `Integer.compare`. -/
def integerCompare (x y : ℕ) : ℤ := if x < y then -1 else if x = y then 0 else 1

def compareTo (a o : Score) : ℤ :=
  if a.keys ≠ o.keys then integerCompare o.keys a.keys
  else if a.distance ≠ o.distance then integerCompare a.distance o.distance
  else integerCompare a.rank o.rank

/-- `deny` and `grant` are null when no entry of that value has the best score. -/
structure SourceBest where
  score : Score
  deny : Option Context
  grant : Option Context

def SourceBest.held (best : SourceBest) (value : Bool) : Option Context :=
  if value then best.grant else best.deny

def SourceBest.hold (best : SourceBest) (value : Bool) (context : Context) : SourceBest :=
  if (best.held value).all fun held => decide (context.canonicalKey < held.canonicalKey) then
    if value then { best with grant := some context } else { best with deny := some context }
  else best

def consider (best : Option SourceBest) (score : Score) (value : Bool) (context : Context) :
    SourceBest :=
  match best with
  | none => SourceBest.hold ⟨score, none, none⟩ value context
  | some best =>
    let order := compareTo score best.score
    if 0 < order then best
    else if order < 0 then SourceBest.hold ⟨score, none, none⟩ value context
    else best.hold value context

/-- The score of an entry of the rank; null when its context does not apply to the check. -/
def contextScore (context : Context) (chains : Chains) (rank : ℕ) : Option Score :=
  context.values.entries.foldlM
    (fun (score : Score) e =>
      ((chains.get? e.1).bind fun chain => chain.get? e.2).map fun d =>
        { score with keys := score.keys + 1, distance := score.distance + d })
    ⟨0, 0, rank⟩

def considerContextual (candidates : List Text) (chains : Chains) (best : Option SourceBest)
    (entry : PermissionEntry) : Option SourceBest :=
  match rankOf candidates entry.permission with
  | none => best
  | some rank =>
    match contextScore entry.context chains rank with
    | none => best
    | some score => some (consider best score entry.value entry.context)

def sourceBest (global : Dict Text Bool) (contextual : List PermissionEntry)
    (candidates : List Text) (chains : Chains) : Option SourceBest :=
  let best :=
    if global.entries.isEmpty then none
    else (firstGlobal global candidates).map fun (rank, value) =>
      consider none ⟨0, 0, rank⟩ value Context.global
  if !contextual.isEmpty && !chains.entries.isEmpty then
    contextual.foldl (considerContextual candidates chains) best
  else best

/-! ### Layers of roles -/

/-- Whether the role at index `a` of the layer outranks the one at index `b`: higher priority
first, then the greater role id. -/
def outranks (layer : List Text) (roles : Dict Text ResolverRole) (a b : ℕ) : Bool :=
  match layer[a]?, layer[b]? with
  | some ia, some ib =>
    match roles.get? ia, roles.get? ib with
    | some ra, some rb =>
      if ra.priority ≠ rb.priority then decide (rb.priority < ra.priority) else decide (ib < ia)
    | _, _ => false
  | _, _ => false

/-- The best of each role of the layer, by index. -/
def layerBests (roles : Dict Text ResolverRole) (candidates : List Text) (chains : Chains)
    (layer : List Text) : List (Option SourceBest) :=
  layer.map fun id =>
    (roles.get? id).bind fun role => sourceBest role.entries role.contextEntries candidates chains

def topScore (bests : List (Option SourceBest)) : Option Score :=
  bests.foldl
    (fun top best =>
      match best with
      | none => top
      | some best =>
        match top with
        | none => some best.score
        | some score => if compareTo best.score score < 0 then some best.score else top)
    none

/-- The index of the highest-ranking role that holds the value at the best score. -/
def topHolder (layer : List Text) (roles : Dict Text ResolverRole)
    (bests : List (Option SourceBest)) (top : Score) (value : Bool) : Option ℕ :=
  bests.zipIdx.foldl
    (fun holder (best, i) =>
      match best with
      | none => holder
      | some best =>
        if compareTo best.score top ≠ 0 then holder
        else if (best.held value).isSome && holder.all (outranks layer roles i ·) then some i
        else holder)
    none

/-- What the role at the index holds for the value. -/
def heldAt (bests : List (Option SourceBest)) (i : ℕ) (value : Bool) : Option Context :=
  (bests[i]?).join.bind fun best => best.held value

/-- A null context reads as the global one. -/
def answer (allowed : Bool) (source : PermissionSource) (viaRoleId : Option Text)
    (context : Option Context) : PermissionCheckResult where
  allowed := allowed
  source := source
  viaRoleId := viaRoleId
  context := context.getD Context.global

/-- The answer of one layer of roles, or null when no entry of the layer applies. -/
def layerAnswer (roles : Dict Text ResolverRole) (candidates : List Text) (chains : Chains)
    (layer : List Text) : Option PermissionCheckResult :=
  let bests := layerBests roles candidates chains layer
  (topScore bests).bind fun top =>
    match topHolder layer roles bests top false with
    | some denier => some (answer false .role layer[denier]? (heldAt bests denier false))
    | none =>
      (topHolder layer roles bests top true).map fun granter =>
        answer true .role layer[granter]? (heldAt bests granter true)

/-- The parents of a role that exist. -/
def liveParents (roles : Dict Text ResolverRole) (id : Text) : List Text :=
  match roles.get? id with
  | none => []
  | some role => role.parents.filter fun parent => roles.has parent

/-- The overrides' answer, or null when no override applies. -/
def ownAnswer (overrides : Dict Text Bool) (contextOverrides : List PermissionEntry)
    (candidates : List Text) (chains : Chains) : Option PermissionCheckResult :=
  (sourceBest overrides contextOverrides candidates chains).map fun own =>
    let allowed := own.deny.isNone
    answer allowed .override none (if allowed then own.grant else own.deny)

/-- Resolves one active member's check with the check context's chains already computed. -/
def resolve (mode : PermissionMode) (overrides : Dict Text Bool)
    (contextOverrides : List PermissionEntry) (directRoleIds : List Text)
    (roles : Dict Text ResolverRole) (permission : Text) (chains : Chains) :
    PermissionCheckResult :=
  let candidates := candidates mode permission
  match ownAnswer overrides contextOverrides candidates chains with
  | some own => own
  | none =>
    match searchLayers (liveParents roles) (layerAnswer roles candidates chains)
      (maxRoleDepth + 1) [] (directRoleIds.eraseDups.filter fun id => roles.has id) with
    | some decided => decided
    | none => { allowed := false, source := .default }

/-! ### Compiled role graphs -/

/-- A role as the server sends it. -/
structure Role where
  id : Text
  priority : ℤ
  entries : List PermissionEntry
  parents : List Text

/-- A group's roles with the game's mode and context inheritance. -/
structure RoleGraph where
  mode : PermissionMode
  roles : List Role
  contexts : ContextInheritance

/-- One member's inputs to permission resolution. -/
structure MemberAccess where
  status : MemberStatus
  roleIds : List Text
  overrides : List PermissionEntry

/-- Entries normalized in the mode and split into global and contextual ones. -/
def splitEntries (mode : PermissionMode) (entries : List PermissionEntry) :
    Dict Text Bool × List PermissionEntry :=
  entries.foldl
    (fun acc e =>
      let key := normalizePermissionKey mode e.permission
      if e.context.isGlobal then (acc.1.set key e.value, acc.2)
      else (acc.1, acc.2 ++ [{ permission := key, value := e.value, context := e.context }]))
    (Dict.empty, [])

/-- A compiled resolver for one group's role graph. -/
structure GroupResolver where
  mode : PermissionMode
  roles : Dict Text ResolverRole
  inheritance : ContextInheritance

/-- Prepares a role graph for repeated checks. -/
def compile (graph : RoleGraph) (inheritance : ContextInheritance) : GroupResolver where
  mode := graph.mode
  roles := Dict.ofList (graph.roles.map fun r =>
    let split := splitEntries graph.mode r.entries
    (r.id, { priority := r.priority, entries := split.1, contextEntries := split.2,
             parents := r.parents }))
  inheritance := inheritance

/-- Checks a member in a context, with the server's status gate. -/
def GroupResolver.check (resolver : GroupResolver) (access : MemberAccess) (permission : Text)
    (context : Context) : PermissionCheckResult :=
  if access.status ≠ .active then { allowed := false, source := .none }
  else
    let overrides := splitEntries resolver.mode access.overrides
    resolve resolver.mode overrides.1 overrides.2 access.roleIds resolver.roles permission
      (resolver.inheritance.chains context)

end Junjo.Sdk
