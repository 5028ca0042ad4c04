import Junjo.Mirror.State

/-!
# The mirror's applier

One thread runs the mirror's tasks in turn: stream events, loads, tracks and their retries. Events
ask for reloads that are deferred, coalesced and flushed once the next task is not an event. The
published position is saved with the state, and a restart resumes from the saved one.
-/

namespace Junjo.Mirror

/-! ### Reads of the server -/

/-- What a read of the server comes to. -/
inductive Read (α : Type) where
  | ok (value : α)
  | notFound
  | failed

inductive Subscribed where
  | ok
  /-- The position has expired (410). -/
  | gone
  | failed
deriving DecidableEq

/-- What the reads of one task come to. Where nothing is told apart from a failure, a failed read
is null. -/
structure Reads where
  position : Option ℕ
  /-- A role graph and its default role. -/
  graph : Text → Read (Sdk.RoleGraph × Option Text)
  access : MemberKey → Read MemberAccess
  /-- The answers of a batch, by the id that each was asked for. -/
  accessMany : Text → List Text → Read (Text → Option MemberAccess)
  ban : Text → Option (Option Ban)
  /-- A person's sanctions and the version of the answer. -/
  sanctions : Text → Option (List Sanction × ℕ)
  identities : Text → Option (List Text)
  /-- Every page of the lists. -/
  bans : Option (List Ban)
  sanctionList : Option (List Sanction)
  subscribe : Subscribed

/-! ### Events -/

/-- The events that ask for a reload of their group's graph. -/
inductive GraphEvent where
  | roleCreated | roleUpdated | roleDeleted | permissionGranted | permissionRevoked | groupUpdated
deriving DecidableEq

/-- The events of one membership. -/
inductive MemberEvent where
  | joined | left | updated | banned | unbanned
deriving DecidableEq

inductive Event where
  | graph (type : GraphEvent) (groupId : Text)
  | groupDeleted (groupId : Text)
  | member (type : MemberEvent) (userId groupId : Text) (memberVersion : ℕ)
  | gameUserBanned (userId : Text) (occurredAt : ℤ) (expiresAt : Option ℤ) (reason : Option Text)
      (moderationVersion : ℕ)
  | gameUserUnbanned (userId : Text) (moderationVersion : ℕ)
  | gameUserSanctioned (userId sanctionType : Text) (occurredAt : ℤ) (expiresAt : Option ℤ)
      (reason : Option Text) (moderationVersion : ℕ)
  | gameUserUnsanctioned (userId sanctionType : Text) (moderationVersion : ℕ)
  | identityUpdated (userId changedUserId : Text)
  | identityLinked (userId : Text) (identities : List Text) (linkedUserId : Text)
  | identityUnlinked (userId : Text) (identities : List Text) (unlinkedUserId : Text)
  | permissionsConfigUpdated (mode : PermissionMode) (contexts : Sdk.ContextInheritance)

namespace State

/-- A ban or unban event applies unless the person's bans are known at its version. -/
def applyBan (s : State) (userId : Text) (version : ℕ) (ban : Option Ban) : State :=
  if 0 < version ∧ ∃ known ∈ s.moderationVersions.get? userId, version ≤ known then s
  else (s.withBan userId ban version).withRendered userId

/-- A replacement keeps what the event does not carry: id, start and issuers. -/
def replacement (prior : Option Sanction) (userId type : Text) (occurredAt : ℤ)
    (expiresAt : Option ℤ) (reason : Option Text) (version : ℕ) : Sanction where
  id := prior.bind Sanction.id
  userId := userId
  type := type
  reason := reason
  issuer := prior.bind Sanction.issuer
  issuedBy := prior.bind Sanction.issuedBy
  startedAt := (prior.map Sanction.startedAt).getD occurredAt
  expiresAt := expiresAt
  version := version

/-- A sanction event applies unless the person's sanctions are known at its version. An event that
ends a sanction carries none. -/
def applySanction (s : State) (userId type : Text) (version : ℕ)
    (event : Option (ℤ × Option ℤ × Option Text)) : State :=
  if 0 < version ∧ ∃ known ∈ s.sanctions.versions.get? userId, version ≤ known then s
  else
    let prior := (s.sanctions.byUser.get? userId).bind fun types => types.get? type
    let next := event.map fun e => replacement prior userId type e.1 e.2.1 e.2.2 version
    (s.withSanctions (s.sanctions.put userId type next version)).withRendered userId

/-- A retained member that a member event may be newer than is dropped. -/
def dropOutdatedRetained (s : State) (userId groupId : Text) (memberVersion : ℕ) : State :=
  s.withoutRetained ((s.personKeys userId groupId).filter fun key =>
    (s.retained.get? key).any fun r => memberVersion = 0 || decide (r.version < memberVersion))

end State

/-! ### Tasks -/

/-- What the mirror reloads from the server. -/
inductive Target where
  | graph (groupId : Text)
  | member (key : MemberKey)
  | ban (userId : Text)
  | sanctions (userId : Text)
  /-- Everything, after a gap in the stream. -/
  | everything
deriving DecidableEq

/-- What happened, with the state that it met: for the record only, nothing that the mirror does
depends on it. -/
inductive Mark where
  | applied (before : State) (position : ℕ) (event : Event)
  /-- The event at a position asked for a reload. -/
  | asked (position : ℕ) (target : Target)
  /-- A reload other than a member's succeeded. -/
  | answered (target : Target)
  /-- A member's access was read. -/
  | loaded (before : State) (key : MemberKey) (access : Option MemberAccess)
  /-- The ids of a person were read. -/
  | resolved (before : State) (person : Person)
  /-- A fresh member is tracked under a key, from a retained access or pending. -/
  | tracked (before : State) (now : ℤ) (ids : List Text) (key : MemberKey)
      (kept : Option RetainedMember)
  /-- The member is not tracked any more. -/
  | untracked (key : MemberKey)
  /-- The untracked member's access is kept. -/
  | retained (before : State) (key : MemberKey) (kept : RetainedMember)
  /-- The group and its members are dropped from the mirror. -/
  | dropped (groupId : Text)

/-- A task scheduled for later: a retry, or the loads of queued tracks. -/
inductive Later where
  | reloadGroup (groupId : Text)
  | reloadMember (key : MemberKey)
  | reloadBan (userId : Text)
  | reloadSanctions (userId : Text)
  | resync (position : ℕ)
  | flushTrackLoads
deriving DecidableEq

structure Config where
  initialGroups : List Text
  retainWindow : Option ℤ

structure Applier where
  state : State
  deferredGroups : List Text := []
  deferredMembers : List MemberKey := []
  deferredPosition : Option ℕ := none
  pendingTracks : List MemberKey := []
  trackFlushScheduled : Bool := false
  resumeFromSnapshot : Bool := false
  override : Option Sdk.ContextInheritance := none
  /-- Scheduled tasks, the start apart. -/
  later : List Later := []
  /-- A start is queued or scheduled. -/
  starting : Bool := true
  subscribed : Bool := false
  /-- The last position that the stream handed over. -/
  streamAt : ℕ := 0
  /-- What the last task saw at the head of the queue. -/
  nextIsEvent : Bool := false
  /-- The snapshot file, with the record of the run that saved it. -/
  file : Option (State × List Mark) := none
  log : List Mark := []

/-- The most members that one batched access read names. -/
def accessBatchMax : ℕ := 100

/-- The parts of a list of at most `n`, in order. -/
def batches {α : Type} (n : ℕ) : ℕ → List α → List (List α)
  | 0, _ => []
  | fuel + 1, l => if l.isEmpty then [] else l.take n :: batches n fuel (l.drop n)

namespace Applier

variable (a : Applier)

def withState (s : State) : Applier := { a with state := s }

def mark (m : Mark) : Applier := { a with log := m :: a.log }

def retryLater (task : Later) : Applier := { a with later := a.later ++ [task] }

def hasDeferred : Bool :=
  a.deferredPosition.isSome || !a.deferredGroups.isEmpty || !a.deferredMembers.isEmpty

/-- `position` is that of the event that asks. -/
def deferGroupReload (position : ℕ) (groupId : Text) : Applier :=
  if a.state.groups.has groupId then
    let a := a.mark (.asked position (.graph groupId))
    if groupId ∈ a.deferredGroups then a
    else { a with deferredGroups := a.deferredGroups ++ [groupId] }
  else a

def deferMemberReload (position : ℕ) (key : MemberKey) : Applier :=
  let a := a.mark (.asked position (.member key))
  if key ∈ a.deferredMembers then a
  else { a with deferredMembers := a.deferredMembers ++ [key] }

def reloadMembersOf (position : ℕ) (ids : List Text) : Applier :=
  (a.state.members.keys.filter fun key => key.userId ∈ ids).foldl
    (fun a key => a.deferMemberReload position key) a

/-! ### Graphs -/

/-- A graph compiled with the override, or else with the server inheritance given. -/
def compileGroup (override : Option Sdk.ContextInheritance) (graph : Sdk.RoleGraph)
    (defaultRoleId : Option Text) (server : Sdk.ContextInheritance) : Sdk.GroupState :=
  ⟨graph, defaultRoleId, override.getD server⟩

/-- Every held graph compiled again with the state's effective inheritance. -/
def recompiled (override : Option Sdk.ContextInheritance) (s : State) : State :=
  { s with
    groups := s.groups.mapValues fun g => compileGroup override g.graph g.defaultRoleId s.contexts }

def withServerContexts (override : Option Sdk.ContextInheritance) (s : State)
    (next : Sdk.ContextInheritance) : State :=
  if next = s.contexts then s
  else if override.isSome then s.withContexts next
  else recompiled override (s.withContexts next)

/-- Null when the read fails. -/
def loadGroup (r : Reads) (override : Option Sdk.ContextInheritance) (s : State) (groupId : Text) :
    Option State :=
  match r.graph groupId with
  | .ok (graph, defaultRoleId) =>
    let next := withServerContexts override s graph.contexts
    some (next.withGroup groupId (compileGroup override graph defaultRoleId next.contexts))
  | .notFound => some (s.withoutGroup groupId)
  | .failed => none

/-- The record of a graph's load: a group that the server does not know is dropped. -/
def markGroup (r : Reads) (groupId : Text) : Applier :=
  match r.graph groupId with
  | .ok _ => a.mark (.answered (.graph groupId))
  | .notFound => a.mark (.dropped groupId)
  | .failed => a

def reloadGroup (r : Reads) (groupId : Text) : Applier :=
  match loadGroup r a.override a.state groupId with
  | some s => (a.withState s).markGroup r groupId
  | none => a.retryLater (.reloadGroup groupId)

def reloadGroupIfHeld (r : Reads) (groupId : Text) : Applier :=
  if a.state.groups.has groupId then a.reloadGroup r groupId else a

/-! ### Members -/

/-- The access may show that the id asked for and the rendered id name one person, and a tracked
person needs no retained entry. -/
def putLoaded (s : State) (key : MemberKey) (entry : MemberEntry) : State :=
  let s := s.withMember key entry
  let s := match entry.access with
    | none => s
    | some access =>
      let s := if access.userId = key.userId then s else s.personMerged key.userId access.userId
      s.withRendered access.userId
  s.withoutRetained (s.personKeys key.userId key.groupId)

/-- A loaded entry is stored when its key is still tracked. -/
def applyOne (key : MemberKey) (entry : MemberEntry) : Applier :=
  if a.state.members.has key then
    (a.withState (putLoaded a.state key entry)).mark (.loaded a.state key entry.access)
  else a

/-- Loaded members are published in one state. -/
def applyLoaded (keys : List MemberKey) (entry : MemberKey → MemberEntry) : Applier :=
  keys.foldl (fun a key => a.applyOne key (entry key)) a

def reloadMember (r : Reads) (key : MemberKey) : Applier :=
  if a.state.members.has key then
    match r.access key with
    | .ok access => a.applyLoaded [key] fun _ => .ofRead (some access)
    | .notFound => a.applyLoaded [key] fun _ => .ofRead none
    | .failed => a.retryLater (.reloadMember key)
  else a

/-- Keys of one group. -/
def loadMembers (r : Reads) (groupId : Text) (requested : List MemberKey) : Applier :=
  let keys := requested.filter fun key => a.state.members.has key
  if keys.isEmpty then a
  else
    match r.accessMany groupId (keys.map MemberKey.userId) with
    | .ok answer => a.applyLoaded keys fun key => .ofRead (answer key.userId)
    | .notFound => a.applyLoaded keys fun _ => .ofRead none
    | .failed => keys.foldl (fun a key => a.retryLater (.reloadMember key)) a

/-- One batched read for each group and batch. -/
def loadBatches (r : Reads) (groupId : Text) (keys : List MemberKey) : Applier :=
  (batches accessBatchMax keys.length keys).foldl (fun a batch => a.loadMembers r groupId batch) a

/-- The keys by group, in the order given. -/
def byGroup (keys : List MemberKey) : List (Text × List MemberKey) :=
  (keys.map MemberKey.groupId).eraseDups.map fun groupId =>
    (groupId, keys.filter fun key => key.groupId = groupId)

/-- A group with a single member to reload uses the single read. -/
def reloadMembers (r : Reads) (keys : List MemberKey) : Applier :=
  (byGroup keys).foldl
    (fun a group =>
      match group.2 with
      | [key] => a.reloadMember r key
      | keys => a.loadBatches r group.1 keys) a

def flushTrackLoads (r : Reads) : Applier :=
  (byGroup a.pendingTracks).foldl (fun a group => a.loadBatches r group.1 group.2)
    { a with trackFlushScheduled := false, pendingTracks := [] }

def scheduleTrackFlush : Applier :=
  if a.trackFlushScheduled then a
  else { a.retryLater .flushTrackLoads with trackFlushScheduled := true }

def queueTrackLoad (key : MemberKey) : Applier :=
  let pending :=
    if key ∈ a.pendingTracks then a.pendingTracks else a.pendingTracks ++ [key]
  { a with pendingTracks := pending }.scheduleTrackFlush

/-- The deferred reloads run, each graph once, then the members; then the newest position that the
events reached is published. -/
def flushDeferred (r : Reads) : Applier :=
  let groups := a.deferredGroups
  let members := a.deferredMembers
  let position := a.deferredPosition
  let a := { a with deferredGroups := [], deferredMembers := [], deferredPosition := none }
  let a := groups.foldl (fun a groupId => a.reloadGroupIfHeld r groupId) a
  let a := a.reloadMembers r members
  match position with
  | none => a
  | some p => a.withState (a.state.withPosition p)

/-! ### Bans and sanctions -/

def reloadBan (r : Reads) (userId : Text) : Applier :=
  match r.ban userId with
  | none => a.retryLater (.reloadBan userId)
  | some ban =>
    let s := a.state
    let ids := s.idsWith userId
    let s : State :=
      { s with
        bans := s.bans.filter fun e => e.1 ∉ ids
        moderationVersions := s.moderationVersions.filter fun e => e.1 ∉ ids }
    let s := match ban with
      | none => s
      | some b => (s.withBan b.userId (some b) b.version).withRendered b.userId
    (a.withState s).mark (.answered (.ban userId))

def reloadSanctions (r : Reads) (userId : Text) : Applier :=
  match r.sanctions userId with
  | none => a.retryLater (.reloadSanctions userId)
  | some (list, version) =>
    let next := (a.state.idsWith userId).foldl (fun next id => next.replaceUser id [] 0)
      a.state.sanctions
    let owner := (list.head?.map Sanction.userId).getD userId
    (a.withState (a.state.withSanctions (next.replaceUser owner list version))).mark
      (.answered (.sanctions userId))

/-! ### Events -/

/-- A link or unlink changes which person an id names. The person's ids are recorded from the event,
retained members of every id involved are dropped, and every answer keyed by one of the ids is
reloaded. -/
def relink (r : Reads) (position : ℕ) (rendered : Text) (identities : List Text) (changedId : Text)
    (splitOff : Option Text) : Applier :=
  let ids := (identities ++ [rendered]).eraseDups
  let ids := match splitOff with
    | none => (ids ++ [changedId]).eraseDups
    | some split => ids.filter (· ≠ split)
  let before := a.state
  let s := before.withPerson ⟨ids, some rendered⟩
  let s := match splitOff with
    | none => s
    | some split => s.withPerson ⟨[split], some split⟩
  let affected := (ids ++ [changedId]).eraseDups
  let a := a.withState (s.dropRetainedOf (affected.flatMap before.idsWith))
  let a := affected.foldl
    (fun a id =>
      let a := (a.mark (.asked position (.ban id))).reloadBan r id
      (a.mark (.asked position (.sanctions id))).reloadSanctions r id) a
  a.reloadMembersOf position affected

def applyMember (position : ℕ) (userId groupId : Text) (memberVersion : ℕ) : Applier :=
  match a.state.findMemberKey userId groupId with
  | none => a.withState (a.state.dropOutdatedRetained userId groupId memberVersion)
  | some key =>
    if (a.state.members.get? key).any fun m =>
      m.loaded && decide (0 < memberVersion) && decide (memberVersion ≤ m.version) then a
    else a.deferMemberReload position key

/-- Graphs loaded in another mode are reloaded. -/
def applyConfig (position : ℕ) (mode : PermissionMode) (contexts : Sdk.ContextInheritance) :
    Applier :=
  let a := a.withState (withServerContexts a.override a.state contexts)
  ((a.state.groups.entries.filter fun g => g.2.graph.mode ≠ mode).map Prod.fst).foldl
    (fun a groupId => a.deferGroupReload position groupId) a

def handle (r : Reads) (position : ℕ) : Event → Applier
  | .graph _ groupId => a.deferGroupReload position groupId
  | .groupDeleted groupId =>
    { a with
      deferredGroups := a.deferredGroups.filter (· ≠ groupId)
      state := a.state.withoutGroup groupId
      log := .dropped groupId :: a.log }
  | .member _ userId groupId memberVersion => a.applyMember position userId groupId memberVersion
  | .gameUserBanned userId occurredAt expiresAt reason version =>
    a.withState (a.state.applyBan userId version
      (some ⟨none, userId, occurredAt, expiresAt, reason, none, none, version⟩))
  | .gameUserUnbanned userId version => a.withState (a.state.applyBan userId version none)
  | .gameUserSanctioned userId type occurredAt expiresAt reason version =>
    a.withState (a.state.applySanction userId type version (some (occurredAt, expiresAt, reason)))
  | .gameUserUnsanctioned userId type version =>
    a.withState (a.state.applySanction userId type version none)
  | .identityUpdated userId changedUserId =>
    let ids := (a.state.idsWith userId ++ a.state.idsWith changedUserId).eraseDups
    a.reloadMembersOf position ids
  | .identityLinked userId identities linkedUserId =>
    a.relink r position userId identities linkedUserId none
  | .identityUnlinked userId identities unlinkedUserId =>
    a.relink r position userId identities unlinkedUserId (some unlinkedUserId)
  | .permissionsConfigUpdated mode contexts => a.applyConfig position mode contexts

def apply (r : Reads) (event : Event) (position : ℕ) : Applier :=
  if a.state.ready then
    let a := (a.mark (.applied a.state position event)).handle r position event
    if a.hasDeferred then { a with deferredPosition := some position }
    else a.withState (a.state.withPosition position)
  else a

/-! ### Loads -/

/-- A complete state at a position, with the tracked members carried over. Null when a read
fails. -/
def fullLoad (cfg : Config) (r : Reads) (position : ℕ) : Option State := do
  let old := a.state
  let groups := (cfg.initialGroups ++ old.groups.keys).eraseDups
  let next ← groups.foldlM (fun s groupId => loadGroup r a.override s groupId)
    ((State.empty.withPosition position).withContexts old.contexts)
  let bans ← r.bans
  let sanctions ← r.sanctionList
  let next := (next.withBans bans).withSanctions (SanctionState.of sanctions)
  return (State.withMembers next old.members).markReady

/-- The carried members are reloaded: each may have changed up to the position. -/
def reloadAllMembers (r : Reads) (position : ℕ) : Applier :=
  let keys := a.state.members.keys
  let a := keys.foldl (fun a key => a.mark (.asked position (.member key))) a
  a.reloadMembers r keys

/-- A full load at a position, published. Null when a read fails. -/
def loadAll (cfg : Config) (r : Reads) (position : ℕ) : Option Applier :=
  (a.fullLoad cfg r position).map fun s =>
    ((a.withState s).mark (.answered .everything)).reloadAllMembers r position

def resync (cfg : Config) (r : Reads) (position : ℕ) : Applier :=
  let a := a.mark (.asked position .everything)
  (a.loadAll cfg r position).getD (a.retryLater (.resync position))

/-- What a start does once it has followed the stream from a position: it is over, and the stream
hands over what comes after. -/
def followed (position : ℕ) : Applier :=
  { a with starting := false, subscribed := true, resumeFromSnapshot := false, streamAt := position }

/-- A start without a snapshot. A start that fails is tried again later. -/
def attemptLoad (cfg : Config) (r : Reads) : Applier :=
  match r.position with
  | none => a
  | some position =>
    match a.loadAll cfg r position with
    | none => a
    | some a => if r.subscribe = .ok then a.followed position else a

/-- A start. When the saved position has expired it loads everything, with new reads. -/
def attemptStart (cfg : Config) (r again : Reads) : Applier :=
  if a.resumeFromSnapshot then
    match cfg.initialGroups.foldlM
      (fun s groupId => if s.groups.has groupId then some s else loadGroup r a.override s groupId)
      a.state with
    | none => a
    | some s =>
      let a := a.withState s
      match r.subscribe with
      | .ok => a.followed (s.position.getD 0)
      | .gone => { a with resumeFromSnapshot := false }.attemptLoad cfg again
      | .failed => a
  else a.attemptLoad cfg r

/-! ### Tracks -/

/-- The person an id belongs to, their ids loaded when unknown. Null when the read fails. -/
def ensurePerson (r : Reads) (userId : Text) : Option (Person × Applier) :=
  match a.state.people.get? userId with
  | some p => some (p, a)
  | none =>
    (r.identities userId).map fun list =>
      let ids := if userId ∈ list then list else userId :: list
      let rendered :=
        if list.isEmpty then some userId else ids.find? fun id => id ∈ a.state.renderedIds
      (⟨ids, rendered⟩,
        (a.withState (a.state.withPerson ⟨ids, rendered⟩)).mark (.resolved a.state ⟨ids, rendered⟩))

def withinWindow (cfg : Config) (now : ℤ) (kept : RetainedMember) : Bool :=
  cfg.retainWindow.any fun window => decide (now < kept.lastConnectedAt + window)

/-- The newest of some retained members, the first of equally new ones. -/
def newest : List RetainedMember → Option RetainedMember
  | [] => none
  | kept :: rest =>
    match newest rest with
    | none => some kept
    | some other => if kept.lastConnectedAt < other.lastConnectedAt then some other else some kept

/-- Every retained entry of the person in the group is removed; the newest is returned when its
window has not passed. -/
def takeRetained (cfg : Config) (now : ℤ) (s : State) (p : Person) (userId groupId : Text) :
    Option RetainedMember × State :=
  let keys := (userId :: p.ids).map (MemberKey.mk groupId)
  ((newest (keys.filterMap s.retained.get?)).filter (withinWindow cfg now), s.withoutRetained keys)

/-- A fresh member answers from the retained access, or is pending until it is loaded. -/
def track (cfg : Config) (r : Reads) (now : ℤ) (userId groupId : Text) : Applier :=
  match a.ensurePerson r userId with
  | none => a
  | some (p, a) =>
    let s := a.state
    match s.findMemberKey userId groupId with
    | some _ => a
    | none =>
      let key := ⟨groupId, p.key⟩
      let taken := takeRetained cfg now s p userId groupId
      let entry := match taken.1 with
        | some kept => ⟨true, kept.access, kept.version⟩
        | none => MemberEntry.pending
      let a := (a.withState (taken.2.withMember key entry)).mark
        (.tracked s now (userId :: p.ids) key taken.1)
      let a := if a.state.groups.has groupId then a else a.reloadGroup r groupId
      a.queueTrackLoad key

def untrack (cfg : Config) (now : ℤ) (userId groupId : Text) : Applier :=
  match a.state.findMemberKey userId groupId with
  | none => a
  | some key =>
    match a.state.members.get? key with
    | none => a
    | some m =>
      let s := a.state.withoutMember key
      let dropped := (a.withState s).mark (.untracked key)
      if cfg.retainWindow.isSome && m.loaded then
        let kept := ⟨m.access, now⟩
        (dropped.withState ((s.withoutRetained (s.personKeys key.userId groupId)).withRetained key
          kept)).mark (.retained a.state key kept)
      else dropped

/-- With retention off, every retained member is dropped. -/
def pruneRetained (cfg : Config) (now : ℤ) (s : State) : State :=
  { s with retained := s.retained.filter fun e => withinWindow cfg now e.2 }

/-- A graph followed on its own; a load that fails is not tried again. -/
def trackGroup (r : Reads) (groupId : Text) : Applier :=
  match loadGroup r a.override a.state groupId with
  | some s => (a.withState s).markGroup r groupId
  | none => a

/-! ### The snapshot file -/

/-- What the file holds of a state: members that are still loading are not saved. -/
def saved (s : State) : State := { s with members := s.members.filter fun e => e.2.loaded }

def saveSnapshot : Applier :=
  if a.state.ready then { a with file := some (saved a.state, a.log) } else a

/-- A saved state read back: graphs are compiled again, people and then the ids seen where the
server renders ids come in an order of their own. -/
def loadSnapshot (override : Option Sdk.ContextInheritance) (s : State) (people : List Person)
    (rendered : List Text) : State :=
  let s := recompiled override
    { s with
      ready := true
      members := s.members.mapValues fun e => MemberEntry.ofRead e.access
      people := Dict.empty }
  rendered.foldl State.withRendered (people.foldl State.withPerson s)

/-- A new mirror on the file that an earlier one left. -/
def boot (cfg : Config) (override : Option Sdk.ContextInheritance) (now : ℤ) (people : List Person)
    (rendered : List Text) : Applier :=
  match a.file with
  | none => { state := State.empty, override := override }
  | some (s, log) =>
    { state := pruneRetained cfg now (loadSnapshot override s people rendered)
      override := override
      resumeFromSnapshot := true
      file := a.file
      log := log }

end Applier

/-! ### Turns -/

inductive Task where
  | event (event : Event) (position : ℕ)
  /-- The stream's position has expired, and the stream goes on from a new one. -/
  | resync (position : ℕ)
  | start
  | later (task : Later)
  | track (userId groupId : Text)
  | untrack (userId groupId : Text)
  | trackGroup (groupId : Text)
  | resolve (userId : Text)
  | pruneRetained
  | saveSnapshot
  | setContextInheritance (next : Option Sdk.ContextInheritance)

def Task.isEvent : Task → Bool
  | .event _ _ => true
  | _ => false

/-- One task of the applier, and what its turn meets. -/
structure Turn where
  task : Task
  reads : Reads
  /-- The reads of a start that begins again. -/
  again : Reads
  now : ℤ
  /-- The deferred reloads have waited long enough. -/
  due : Bool
  /-- An event is at the head of the queue after the task. -/
  nextIsEvent : Bool

inductive Step where
  | turn (turn : Turn)
  /-- The process ends and a new mirror starts on the snapshot file. -/
  | restart (override : Option Sdk.ContextInheritance) (now : ℤ) (people : List Person)
      (rendered : List Text)

namespace Applier

variable (cfg : Config) (a : Applier)

/-- The stream hands over each event once, in order. A task runs after what was queued before it. -/
def allows (task : Task) : Bool :=
  (!a.nextIsEvent || task.isEvent) &&
    match task with
    | .event _ position => a.subscribed && decide (a.streamAt < position)
    | .resync position => a.subscribed && decide (a.streamAt ≤ position)
    | .start => a.starting
    | .later task => decide (task ∈ a.later)
    | _ => true

def runLater (r : Reads) : Later → Applier
  | .reloadGroup groupId => a.reloadGroup r groupId
  | .reloadMember key => a.reloadMember r key
  | .reloadBan userId => a.reloadBan r userId
  | .reloadSanctions userId => a.reloadSanctions r userId
  | .resync position => a.resync cfg r position
  | .flushTrackLoads => a.flushTrackLoads r

def runTask (t : Turn) : Applier :=
  match t.task with
  | .event event position => { a with streamAt := position }.apply t.reads event position
  | .resync position => { a with streamAt := position }.resync cfg t.reads position
  | .start => a.attemptStart cfg t.reads t.again
  | .later task => { a with later := a.later.erase task }.runLater cfg t.reads task
  | .track userId groupId => a.track cfg t.reads t.now userId groupId
  | .untrack userId groupId => a.untrack cfg t.now userId groupId
  | .trackGroup groupId => a.trackGroup t.reads groupId
  | .resolve userId => ((a.ensurePerson t.reads userId).map Prod.snd).getD a
  | .pruneRetained => a.withState (pruneRetained cfg t.now a.state)
  | .saveSnapshot => a.saveSnapshot
  | .setContextInheritance next =>
    { a with override := next, state := recompiled next a.state }

/-- Deferred reloads run after a task unless the next one is an event, so they never cross another
task, and never wait too long or past a full batch. -/
def settle (t : Turn) : Applier :=
  if a.hasDeferred then
    if t.nextIsEvent && !(t.due || decide (accessBatchMax ≤ a.deferredMembers.length)) then
      { a with nextIsEvent := true }
    else { a.flushDeferred t.reads with nextIsEvent := false }
  else { a with nextIsEvent := false }

/-- The persons that the file holds, and its rendered ids, in any order. -/
def holds (people : List Person) (rendered : List Text) : Bool :=
  match a.file with
  | none => true
  | some (s, _) =>
    decide (people.toFinset = (s.people.entries.map Prod.snd).toFinset) &&
      decide (rendered.toFinset = s.renderedIds)

def step (a : Applier) : Step → Option Applier
  | .turn t => if a.allows t.task then some ((a.runTask cfg t).settle t) else none
  | .restart override now people rendered =>
    if a.holds people rendered then some (a.boot cfg override now people rendered) else none

end Applier

end Junjo.Mirror
