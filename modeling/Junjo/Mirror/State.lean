import Junjo.Sdk.Checker

/-!
# The mirror's state

The immutable snapshot that the mirror publishes: role graphs, bans and sanctions with the versions
they are known at, tracked and retained members, and the people behind ids. Every change makes a new
state.
-/

namespace Junjo.Mirror

instance decidableEqContextInheritance : DecidableEq Sdk.ContextInheritance := fun c c' =>
  decidable_of_iff (c.inherit = c'.inherit)
    ⟨fun h => by cases c; cases c'; exact congrArg _ h, fun h => by rw [h]⟩

structure MemberKey where
  groupId : Text
  userId : Text
deriving DecidableEq

/-- A member's access as the server sends it, under the id that the server renders. -/
structure MemberAccess where
  userId : Text
  version : ℕ
  access : Sdk.MemberAccess

/-- A tracked member's loaded state. Null access is no membership. -/
structure MemberEntry where
  loaded : Bool
  access : Option MemberAccess
  version : ℕ

def MemberEntry.pending : MemberEntry := ⟨false, none, 0⟩

/-- The entry of a member read: a member that the server does not know has version zero. -/
def MemberEntry.ofRead (access : Option MemberAccess) : MemberEntry :=
  ⟨true, access, (access.map MemberAccess.version).getD 0⟩

/-- One person as far as the mirror knows them: every known id, earliest-linked first, and the id
the server renders, when it was seen. -/
structure Person where
  ids : List Text
  rendered : Option Text
deriving DecidableEq

def Person.key (p : Person) : Text := p.rendered.getD (p.ids.headD [])

/-- A member kept after untrack. -/
structure RetainedMember where
  access : Option MemberAccess
  lastConnectedAt : ℤ

def RetainedMember.version (r : RetainedMember) : ℕ := (r.access.map MemberAccess.version).getD 0

structure Ban where
  id : Option Text
  userId : Text
  bannedAt : ℤ
  expiresAt : Option ℤ
  reason : Option Text
  bannedBy : Option Text
  issuer : Option Text
  version : ℕ
deriving DecidableEq

structure Sanction where
  id : Option Text
  userId : Text
  type : Text
  reason : Option Text
  issuer : Option Text
  issuedBy : Option Text
  startedAt : ℤ
  expiresAt : Option ℤ
  version : ℕ
deriving DecidableEq

/-! ### Sanctions -/

/-- Sanctions by person and type, with the moderation version each person's are known at. -/
structure SanctionState where
  byUser : Dict Text (Dict Text Sanction)
  versions : Dict Text ℕ

namespace SanctionState

def empty : SanctionState := ⟨Dict.empty, Dict.empty⟩

/-- One sanction of a list. -/
def add (s : SanctionState) (x : Sanction) : SanctionState where
  byUser := s.byUser.set x.userId (((s.byUser.get? x.userId).getD Dict.empty).set x.type x)
  versions :=
    if 0 < x.version then
      s.versions.set x.userId (max ((s.versions.get? x.userId).getD 0) x.version)
    else s.versions

def of (list : List Sanction) : SanctionState := list.foldl add empty

/-- A person's sanctions by type, stored or dropped when there is none. -/
def putTypes (byUser : Dict Text (Dict Text Sanction)) (userId : Text)
    (types : Dict Text Sanction) : Dict Text (Dict Text Sanction) :=
  if types.entries.isEmpty then byUser.delete userId else byUser.set userId types

/-- `SanctionState.with` -/
def put (s : SanctionState) (userId type : Text) (sanction : Option Sanction) (version : ℕ) :
    SanctionState :=
  let types := (s.byUser.get? userId).getD Dict.empty
  let types := match sanction with
    | none => types.delete type
    | some x => types.set type x
  { byUser := putTypes s.byUser userId types
    versions := if 0 < version then s.versions.set userId version else s.versions }

def replaceUser (s : SanctionState) (userId : Text) (list : List Sanction) (version : ℕ) :
    SanctionState :=
  let types := list.foldl (fun types x => types.set x.type x) (Dict.empty : Dict Text Sanction)
  let versions := s.versions.delete userId
  { byUser := putTypes (s.byUser.delete userId) userId types
    versions := if 0 < version then versions.set userId version else versions }

end SanctionState

/-! ### The state -/

structure State where
  ready : Bool
  position : Option ℕ
  groups : Dict Text Sdk.GroupState
  bans : Dict Text Ban
  moderationVersions : Dict Text ℕ
  sanctions : SanctionState
  members : Dict MemberKey MemberEntry
  people : Dict Text Person
  renderedIds : Finset Text
  retained : Dict MemberKey RetainedMember
  contexts : Sdk.ContextInheritance

namespace State

def empty : State where
  ready := false
  position := none
  groups := Dict.empty
  bans := Dict.empty
  moderationVersions := Dict.empty
  sanctions := SanctionState.empty
  members := Dict.empty
  people := Dict.empty
  renderedIds := ∅
  retained := Dict.empty
  contexts := ⟨Dict.empty⟩

variable (s : State)

def withPosition (p : ℕ) : State := { s with position := some p }

def withContexts (c : Sdk.ContextInheritance) : State := { s with contexts := c }

def markReady : State := { s with ready := true }

def withGroup (id : Text) (g : Sdk.GroupState) : State := { s with groups := s.groups.set id g }

def withoutGroup (id : Text) : State :=
  { s with
    groups := s.groups.delete id
    members := s.members.filter fun e => e.1.groupId ≠ id
    retained := s.retained.filter fun e => e.1.groupId ≠ id }

def withMember (key : MemberKey) (e : MemberEntry) : State :=
  { s with members := s.members.set key e }

def withMembers (entries : Dict MemberKey MemberEntry) : State :=
  { s with members := entries.entries.foldl (fun d e => d.set e.1 e.2) s.members }

def withoutMember (key : MemberKey) : State := { s with members := s.members.delete key }

def withRetained (key : MemberKey) (r : RetainedMember) : State :=
  { s with retained := s.retained.set key r }

def withoutRetained (keys : List MemberKey) : State :=
  { s with retained := s.retained.filter fun e => e.1 ∉ keys }

/-- An id seen where the server renders ids. -/
def addRendered (id : Text) : State := { s with renderedIds := insert id s.renderedIds }

/-- The bans of a list replace every ban. -/
def withBans (list : List Ban) : State :=
  { s with
    bans := list.foldl (fun d b => d.set b.userId b) Dict.empty
    moderationVersions :=
      list.foldl (fun d b => if 0 < b.version then d.set b.userId b.version else d) Dict.empty
    renderedIds := s.renderedIds ∪ (list.map Ban.userId).toFinset }

def withBan (userId : Text) (ban : Option Ban) (version : ℕ) : State :=
  { s with
    bans := match ban with
      | none => s.bans.delete userId
      | some b => s.bans.set userId b
    moderationVersions :=
      if 0 < version then s.moderationVersions.set userId version else s.moderationVersions }

def withSanctions (next : SanctionState) : State :=
  { s with
    sanctions := next
    renderedIds := s.renderedIds ∪ next.byUser.keys.toFinset }

/-- The person under every id they hold, replacing what each id named before. -/
def withPerson (p : Person) : State :=
  { s with
    people := p.ids.foldl (fun d id => d.set id p) s.people
    renderedIds := match p.rendered with
      | none => s.renderedIds
      | some id => insert id s.renderedIds }

/-- Two ids name the same person, and the server renders that person as the given id. -/
def personMerged (id renderedId : Text) : State :=
  let a := ((s.people.get? id).map Person.ids).getD []
  let b := ((s.people.get? renderedId).map Person.ids).getD []
  s.withPerson ⟨(a ++ b ++ [id, renderedId]).eraseDups, some renderedId⟩

/-- An id seen where the server renders ids; the person it belongs to learns its key. -/
def withRendered (id : Text) : State :=
  let s := s.addRendered id
  match s.people.get? id with
  | none => s
  | some p => if p.rendered = some id then s else s.withPerson ⟨p.ids, some id⟩

@[simp] lemma position_withPerson (p : Person) : (s.withPerson p).position = s.position := rfl

@[simp] lemma groups_withPerson (p : Person) : (s.withPerson p).groups = s.groups := rfl

@[simp] lemma members_withPerson (p : Person) : (s.withPerson p).members = s.members := rfl

@[simp] lemma position_withRendered (id : Text) : (s.withRendered id).position = s.position := by
  dsimp only [withRendered]
  split
  · rfl
  · split <;> rfl

@[simp] lemma groups_withRendered (id : Text) : (s.withRendered id).groups = s.groups := by
  dsimp only [withRendered]
  split
  · rfl
  · split <;> rfl

@[simp] lemma members_withRendered (id : Text) : (s.withRendered id).members = s.members := by
  dsimp only [withRendered]
  split
  · rfl
  · split <;> rfl

@[simp] lemma retained_withRendered (id : Text) : (s.withRendered id).retained = s.retained := by
  dsimp only [withRendered]
  split
  · rfl
  · split <;> rfl

/-! ### Ids -/

def idsOf (userId : Text) : List Text :=
  match s.people.get? userId with
  | none => [userId]
  | some p => p.ids

def idsWith (userId : Text) : List Text := userId :: (s.idsOf userId).filter (· ≠ userId)

def findMemberKey (userId groupId : Text) : Option MemberKey :=
  if s.members.has ⟨groupId, userId⟩ then some ⟨groupId, userId⟩
  else ((s.idsOf userId).map (MemberKey.mk groupId)).find? s.members.has

lemma findMemberKey_eq_some {s : State} {userId groupId : Text} {key : MemberKey}
    (h : s.findMemberKey userId groupId = some key) :
    key ∈ s.members.keys ∧ key.groupId = groupId ∧ key.userId ∈ s.idsWith userId := by
  unfold findMemberKey at h
  split_ifs at h with hdirect
  · obtain rfl := Option.some.inj h
    exact ⟨Dict.has_iff.mp hdirect, rfl, List.mem_cons_self⟩
  · have hkey := List.mem_of_find?_eq_some h
    obtain ⟨id, hid, rfl⟩ := List.mem_map.mp hkey
    refine ⟨Dict.has_iff.mp (List.find?_some h), rfl, ?_⟩
    by_cases heq : id = userId
    · exact heq ▸ List.mem_cons_self
    · exact .tail _ (List.mem_filter.mpr ⟨hid, decide_eq_true heq⟩)

def findMember (userId groupId : Text) : Option MemberEntry :=
  (s.findMemberKey userId groupId).bind s.members.get?

/-- Null when the group's graph or the member's access is not loaded. -/
def lookup (userId groupId : Text) : Option (Sdk.GroupState × Option MemberAccess) :=
  if s.ready then
    (s.groups.get? groupId).bind fun group =>
      ((s.findMember userId groupId).filter MemberEntry.loaded).map fun m => (group, m.access)
  else none

/-- The keys the person holding this id could be retained under in the group. -/
def personKeys (userId groupId : Text) : List MemberKey :=
  (s.idsWith userId).map (MemberKey.mk groupId)

/-- The retained entries under one of these ids, in any group, are dropped. -/
def dropRetainedOf (ids : List Text) : State :=
  { s with retained := s.retained.filter fun e => e.1.userId ∉ ids }

end State

end Junjo.Mirror
