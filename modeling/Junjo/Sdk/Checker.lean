import Junjo.Core.Memo
import Junjo.Core.Run
import Junjo.Sdk.Resolver

/-!
# Prepared checks and their memos

The mirror's checks run on prepared forms: the layers of held roles walked once, and a memo of
answers. A member entry keeps a prepared form for each context, and a checker one of its own, with
roles and overrides left out. Both take a prepared form for current by the identity of the objects
it was made from, so objects are kept by reference here: an object is never changed, and a new one
has a reference of its own.
-/

namespace Junjo.Sdk

instance decidableEqContext : DecidableEq Context := fun c c' =>
  decidable_of_iff (c.values.entries = c'.values.entries)
    ⟨fun h => Context.ext_values (Dict.ext_entries h), fun h => by rw [h]⟩

/-! ### Prepared checks -/

/-- The layers of roles that a check walks, at most `fuel`. -/
def layersFrom (succ : Text → List Text) : ℕ → List Text → List Text → List (List Text)
  | 0, _, _ => []
  | fuel + 1, visited, layer =>
    if layer.isEmpty then []
    else layer :: layersFrom succ fuel (visited ++ layer) (nextLayer succ (visited ++ layer) layer)

/-- One active member's checks in one context, without the memo of answers. -/
structure PreparedInputs where
  mode : PermissionMode
  overrides : Dict Text Bool
  contextOverrides : List PermissionEntry
  roles : Dict Text ResolverRole
  chains : Chains
  layers : List (List Text)

/-- A member's overrides, normalized. -/
abbrev CompiledOverrides := Dict Text Bool × List PermissionEntry

def CompiledOverrides.none : CompiledOverrides := (Dict.empty, [])

def GroupResolver.prepare (resolver : GroupResolver) (overrides : CompiledOverrides)
    (directRoleIds : List Text) (context : Context) : PreparedInputs where
  mode := resolver.mode
  overrides := overrides.1
  contextOverrides := overrides.2
  roles := resolver.roles
  chains := resolver.inheritance.chains context
  layers := layersFrom (liveParents resolver.roles) (maxRoleDepth + 1) []
    (directRoleIds.eraseDups.filter fun id => resolver.roles.has id)

def PreparedInputs.compute (p : PreparedInputs) (permission : Text) : PermissionCheckResult :=
  let candidates := candidates p.mode permission
  match ownAnswer p.overrides p.contextOverrides candidates p.chains with
  | some own => own
  | none =>
    match p.layers.findSome? (layerAnswer p.roles candidates p.chains) with
    | some decided => decided
    | none => { allowed := false, source := .default }

/-- The most answers one prepared check keeps. -/
def memoLimit : ℕ := 256

structure Prepared where
  inputs : PreparedInputs
  memo : Dict Text PermissionCheckResult := Dict.empty

def Prepared.check (p : Prepared) (permission : Text) : PermissionCheckResult × Prepared :=
  let answer := p.memo.memoized (fun memo => memoLimit ≤ memo.size) p.inputs.compute permission
  (answer.1, { p with memo := answer.2 })

/-! ### Objects -/

/-- A role graph, compiled with the inheritance in force. -/
structure GroupState where
  graph : RoleGraph
  defaultRoleId : Option Text
  inheritance : ContextInheritance

def GroupState.resolver (group : GroupState) : GroupResolver :=
  compile group.graph group.inheritance

/-- A reference to an object. -/
abbrev Ref := ℕ

/-- The most contexts one member entry keeps prepared checks for. -/
def contextLimit : ℕ := 4

/-- A prepared check, with the group state it was made from. -/
structure Plan where
  group : Ref
  prepared : Prepared

/-- A tracked member, with the prepared checks of its access. Null access is no membership. -/
structure MemberEntry where
  loaded : Bool
  access : Option Ref
  plans : Dict Context Plan := Dict.empty

structure MirrorMemberKey where
  groupId : Text
  userId : Text
deriving DecidableEq

/-- The parts of a published state that checks read. -/
structure PublishedState where
  ready : Bool
  groups : Dict Text Ref
  members : Dict MirrorMemberKey Ref
  /-- The ids of the person that an id names. -/
  people : Dict Text (List Text)

/-- What a compiled checker was made from: the group, the access, and the roles it starts from. -/
structure CompiledChecker where
  group : Ref
  access : Option Ref
  held : List Text
  prepared : Prepared

structure MemberChecker where
  userId : Text
  groupId : Text
  context : Context
  excluded : Finset Text
  noOverrides : Bool
  compiled : Option CompiledChecker := none

/-- A way to derive a checker. -/
inductive Exclusion where
  | roles (roleIds : List Text)
  | overrides

/-- A checker in a caller's hands: the checker of the mirror that it was derived from, and how. -/
structure CheckerHandle where
  checker : Ref
  userId : Text
  groupId : Text
  context : Context
  exclusions : List Exclusion

structure CheckMirror where
  defaultRoleForNonMembers : Bool
  groups : List GroupState := []
  accesses : List MemberAccess := []
  entries : List MemberEntry := []
  checkers : List MemberChecker := []
  handles : List CheckerHandle := []
  state : PublishedState := ⟨false, Dict.empty, Dict.empty, Dict.empty⟩

namespace CheckMirror

variable (m : CheckMirror)

/-! ### Lookups -/

def findMember (s : PublishedState) (userId groupId : Text) : Option Ref :=
  match s.members.get? ⟨groupId, userId⟩ with
  | some entry => some entry
  | none => (((s.people.get? userId).getD [userId]).find? fun id =>
      s.members.has ⟨groupId, id⟩).bind fun id => s.members.get? ⟨groupId, id⟩

/-- The group, the entry and the access that a check runs on. -/
structure Lookup where
  group : Ref
  groupState : GroupState
  entry : Ref
  memberEntry : MemberEntry
  access : Option MemberAccess

/-- Null when the group's graph or the member's access is not loaded. -/
def lookup (userId groupId : Text) : Option Lookup :=
  if m.state.ready then
    (m.state.groups.get? groupId).bind fun group =>
    m.groups[group]?.bind fun groupState =>
    (findMember m.state userId groupId).bind fun entry =>
    m.entries[entry]?.bind fun memberEntry =>
      if memberEntry.loaded then
        some ⟨group, groupState, entry, memberEntry, memberEntry.access.bind (m.accesses[·]?)⟩
      else none
  else none

def defaultRoleApplies (group : GroupState) : Bool :=
  m.defaultRoleForNonMembers && group.defaultRoleId.isSome

/-- `GameMirror.NOT_HELD` -/
def notHeld : PermissionCheckResult := { allowed := false, source := .none }

/-- Whether a lookup is answered without a check. -/
def gated (l : Lookup) : Bool :=
  match l.access with
  | none => !m.defaultRoleApplies l.groupState
  | some access => access.status ≠ .active

/-! ### Checks of the mirror -/

/-- The overrides and roles that a plan starts from. -/
def planInputs (group : GroupState) (access : Option MemberAccess) (context : Context) :
    PreparedInputs :=
  let resolver := group.resolver
  match access with
  | none => resolver.prepare CompiledOverrides.none group.defaultRoleId.toList context
  | some access =>
    resolver.prepare (splitEntries resolver.mode access.overrides) access.roleIds context

/-- `MemberPlans.prepared`: the prepared check for the context, and the plans with it. -/
def prepared (l : Lookup) (context : Context) : Prepared × Dict Context Plan :=
  let plans := l.memberEntry.plans
  let fresh : Prepared := { inputs := planInputs l.groupState l.access context }
  let made := (fresh, plans.putOrClear (contextLimit ≤ plans.size && !plans.has context) context
    ⟨l.group, fresh⟩)
  match plans.get? context with
  | some plan => if plan.group = l.group then (plan.prepared, plans) else made
  | none => made

/-- `GameMirror.result` -/
def check (userId groupId permission : Text) (context : Context) :
    Option PermissionCheckResult × CheckMirror :=
  match m.lookup userId groupId with
  | none => (none, m)
  | some l =>
    if m.gated l then (some notHeld, m)
    else
      let (prepared, plans) := prepared l context
      let (answer, prepared') := prepared.check permission
      let entry := { l.memberEntry with plans := plans.set context ⟨l.group, prepared'⟩ }
      (some answer, { m with entries := m.entries.set l.entry entry })

/-! ### Checkers -/

/-- The roles a checker starts from, exclusions applied. -/
def heldRoles (c : MemberChecker) (group : GroupState) (access : Option MemberAccess) : List Text :=
  let direct := match access with
    | some access => access.roleIds
    | none => if m.defaultRoleApplies group then group.defaultRoleId.toList else []
  direct.filter fun id => id ∉ c.excluded

def checkerOverrides (c : MemberChecker) (group : GroupState) (access : Option MemberAccess) :
    CompiledOverrides :=
  match access with
  | none => CompiledOverrides.none
  | some access =>
    if c.noOverrides then CompiledOverrides.none
    else splitEntries group.resolver.mode access.overrides

def checkerInputs (c : MemberChecker) (group : GroupState) (access : Option MemberAccess) :
    PreparedInputs :=
  group.resolver.prepare (checkerOverrides c group access) (m.heldRoles c group access) c.context

/-- `MemberChecker.compile` -/
def compiled (c : MemberChecker) (l : Lookup) : CompiledChecker :=
  let fresh : CompiledChecker := ⟨l.group, l.memberEntry.access,
    m.heldRoles c l.groupState l.access, { inputs := m.checkerInputs c l.groupState l.access }⟩
  match c.compiled with
  | some compiled =>
    if compiled.group = l.group ∧ compiled.access = l.memberEntry.access then compiled else fresh
  | none => fresh

/-- `MemberChecker.result` -/
def checkerCheck (ref : Ref) (c : MemberChecker) (permission : Text) :
    Option PermissionCheckResult × CheckMirror :=
  match m.lookup c.userId c.groupId with
  | none => (none, m)
  | some l =>
    if m.gated l then (some notHeld, m)
    else
      let compiled := m.compiled c l
      let (answer, prepared) := compiled.prepared.check permission
      let c' := { c with compiled := some { compiled with prepared := prepared } }
      (some answer, { m with checkers := m.checkers.set ref c' })

def excludingRoles (ref : Ref) (c : MemberChecker) (roleIds : List Text) : Ref × CheckMirror :=
  let next := c.excluded ∪ roleIds.toFinset
  if next.card = c.excluded.card then (ref, m)
  else (m.checkers.length,
    { m with checkers := m.checkers ++ [{ c with excluded := next, compiled := none }] })

def excludingOverrides (ref : Ref) (c : MemberChecker) : Ref × CheckMirror :=
  if c.noOverrides then (ref, m)
  else (m.checkers.length,
    { m with checkers := m.checkers ++ [{ c with noOverrides := true, compiled := none }] })

def exclude (ref : Ref) (c : MemberChecker) : Exclusion → Ref × CheckMirror
  | .roles roleIds => m.excludingRoles ref c roleIds
  | .overrides => m.excludingOverrides ref c

/-! ### Runs -/

inductive CheckEvent where
  /-- The applier makes an object. -/
  | newGroup (group : GroupState)
  | newAccess (access : MemberAccess)
  | newEntry (loaded : Bool) (access : Option Ref)
  /-- The applier publishes a state. -/
  | publish (state : PublishedState)
  | check (userId groupId permission : Text) (context : Context)
  | checker (userId groupId : Text) (context : Context)
  | exclude (handle : ℕ) (exclusion : Exclusion)
  | checkerCheck (handle : ℕ) (permission : Text)

/-- Every reference of a state names an object. -/
def Holds (state : PublishedState) : Prop :=
  (∀ e ∈ state.groups.entries, e.2 < m.groups.length) ∧
    ∀ e ∈ state.members.entries, e.2 < m.entries.length

instance decidableHolds (state : PublishedState) : Decidable (m.Holds state) :=
  inferInstanceAs (Decidable (_ ∧ _))

/-- One event, and the answer of a check; `none` when it cannot happen. -/
def next : CheckEvent → Option (Option PermissionCheckResult × CheckMirror)
  | .newGroup group => some (none, { m with groups := m.groups ++ [group] })
  | .newAccess access => some (none, { m with accesses := m.accesses ++ [access] })
  | .newEntry loaded access =>
    if access.all (· < m.accesses.length) then
      some (none, { m with entries := m.entries ++ [{ loaded := loaded, access := access }] })
    else none
  | .publish state => if m.Holds state then some (none, { m with state := state }) else none
  | .check userId groupId permission context => some (m.check userId groupId permission context)
  | .checker userId groupId context =>
    some (none, { m with
      checkers := m.checkers ++ [⟨userId, groupId, context, ∅, false, none⟩]
      handles := m.handles ++ [⟨m.checkers.length, userId, groupId, context, []⟩] })
  | .exclude handle exclusion =>
    m.handles[handle]?.bind fun h => m.checkers[h.checker]?.map fun c =>
      let (ref, m') := m.exclude h.checker c exclusion
      let h' := { h with checker := ref, exclusions := h.exclusions ++ [exclusion] }
      (none, { m' with handles := m'.handles ++ [h'] })
  | .checkerCheck handle permission =>
    m.handles[handle]?.bind fun h => m.checkers[h.checker]?.map fun c =>
      m.checkerCheck h.checker c permission

/-- The state after some events. -/
def run (m : CheckMirror) (events : List CheckEvent) : Option CheckMirror :=
  runSteps (fun m e => (m.next e).map Prod.snd) m events

end CheckMirror

end Junjo.Sdk
