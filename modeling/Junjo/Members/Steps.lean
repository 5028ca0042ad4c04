import Junjo.Members.Writes

/-!
# What a membership write does

`MemberStep` says what a committed write does to one member and which events it stages about the
member, and `Written` what it does to the whole store. Under the lock of a member's row the row
stays as it is, and under the lock of a group so do the group and the status of its members.
-/

namespace Junjo

/-- The events of a write about a member. -/
def MemberResult.eventsOf (a : MemberResult) (key : MemberKey) : List MemberEvent :=
  a.events.filterMap (GroupEvent.about key)

namespace MemberRequest

/-- The clock at the ban check of a request that makes someone an active member. -/
def checkedAt : MemberRequest → Option ℤ
  | .join r => some r.checkedAt
  | .add r => some r.checkedAt
  | .addAgain r _ _ _ => some r.checkedAt
  | .accept r => some r.checkedAt
  | _ => none

/-- The clock of a request that checks a ban or the status before its transaction only. -/
def earlyClock : MemberRequest → Option ℤ
  | .kickAdmin r => some r.now
  | request => request.checkedAt

/-- The member that a request names by its group and person. -/
def target : MemberRequest → Option MemberKey
  | .join r => some r.key
  | .add r => some r.key
  | .addAgain r _ _ _ => some r.key
  | .leave r => some r.key
  | .kick r => some r.key
  | .kickAdmin r => some r.key
  | _ => none

/-- Whether the request is one whose `member.joined` event shows no roles. -/
def showsNoRoles : MemberRequest → Bool
  | .join _ => true
  | .accept _ => true
  | _ => false

/-- The member and the version that a conditional request names. -/
def ifMatch : MemberRequest → Option (MemberKey × ℕ)
  | .kick r => r.ifMatch.map (r.key, ·)
  | .ban r => r.ifMatch.map (r.key, ·)
  | .unban r => r.ifMatch.map (r.key, ·)
  | .patch r => r.ifMatch.map (r.key, ·)
  | .assignRole r => r.ifMatch.map (r.key, ·)
  | .unassignRole r => r.ifMatch.map (r.key, ·)
  | .setOverride r _ => r.ifMatch.map (r.key, ·)
  | .clearOverride r => r.ifMatch.map (r.key, ·)
  | _ => none

end MemberRequest

/-! ### One member -/

/-- The row after an activation. -/
def activated (old : Option Member) (now : ℤ) : Member :=
  match old with
  | none => Member.create now
  | some m => m.activate

lemma activated_status (old : Option Member) (now : ℤ) : (activated old now).status = .active := by
  cases old <;> rfl

/-- The events of an import about one member. -/
def Plan.events (plan : Plan) (key : MemberKey) (actorUserId : Option Text) (new : Member) :
    List MemberEvent :=
  let event (type : MemberEventType) : MemberEvent := ⟨type, key, plan.input.userId, new.version⟩
  (if plan.isJoin then [event (.joined (toPublicMember new plan.finalRoleIds))] else []) ++
    (if plan.rolesChanged then
      [event (.roleChanged plan.rolesAdded plan.rolesRemoved actorUserId)] else []) ++
    if plan.changed ≠ [] then [event (.updated plan.changed)] else []

/-- The row after an import. -/
def Plan.row (plan : Plan) (old : Option Member) (now : ℤ) : Member :=
  match old with
  | none => plan.createRow now
  | some m => plan.apply m

/-- What a committed write does to a member, by what the member was, with the events about it. -/
inductive MemberStep (a : MemberResult) (key : MemberKey) :
    Option Member → Member → List MemberEvent → Prop where
  /-- Someone becomes an active member who was none. -/
  | entered {old : Option Member} {now : ℤ} {userId : Text} {roles shown : Finset Text}
      {changes : List MemberEvent} (hold : ∀ m, old = some m → m.status ≠ .active)
      (htarget : ∀ k, a.request.target = some k → k = key)
      (hcheck : ∀ t, a.request.earlyClock = some t → isGroupBanned a.checked t = false)
      (hchecks : old = none ∨ ∃ t, a.request.checkedAt = some t)
      (hshown : (a.request.showsNoRoles = false ∧ shown = roles) ∨
        (a.request.showsNoRoles = true ∧ shown = ∅ ∧ roles = (activated old now).roles))
      (hchanges : ∀ e ∈ changes, ∃ added actor, added ⊆ roles ∧
        e = ⟨.roleChanged added ∅ actor, key, userId, (activated old now).version⟩) :
      MemberStep a key old { activated old now with roles := roles }
        (⟨.joined (toPublicMember (activated old now) shown), key, userId,
          (activated old now).version⟩ :: changes)
  /-- A departure. The dashboard's kick checks the status before its transaction only. -/
  | departed {m : Member} {status : MemberStatus} {now : ℤ} {userId : Text}
      (hstatus : status = .left ∨ status = .kicked) (htarget : a.request.target = some key)
      (hactive : (m.status = .active ∧ a.request.earlyClock = none) ∨
        (∃ r, a.request = .kickAdmin r) ∧ ∃ m', a.checked = some m' ∧ m'.status = .active) :
      MemberStep a key (some m) (m.depart status now) [⟨.left status, key, userId, m.version + 1⟩]
  | banned {m : Member} {reason : Option Text} {until_ : Option ℤ} {leftAt : ℤ} {userId : Text}
      (hrequest : ∃ r, a.request = .ban r) :
      MemberStep a key (some m) (m.ban until_ leftAt)
        [⟨.banned reason until_, key, userId, m.version + 1⟩]
  /-- A ban of someone without a row. -/
  | bannedNew {reason : Option Text} {until_ : Option ℤ} {now : ℤ} {userId : Text}
      (hrequest : ∃ r, a.request = .ban r) :
      MemberStep a key none
        { Member.create now with status := .banned, bannedUntil := until_, leftAt := some now }
        [⟨.banned reason until_, key, userId, 1⟩]
  | unbanned {m : Member} {userId : Text} (hstatus : m.status = .banned)
      (hrequest : ∃ r, a.request = .unban r ∧ r.key = key) :
      MemberStep a key (some m) m.unban [⟨.unbanned, key, userId, m.version + 1⟩]
  /-- A PATCH is diffed against the row that was read before the transaction. -/
  | patched {m : Member} {patch : MemberPatch} {userId : Text} (hpatch : patch.changed ≠ [])
      (hrequest : ∃ r m', a.request = .patch r ∧ a.checked = some m' ∧
        patch = MemberPatch.diff r m') :
      MemberStep a key (some m) (patch.apply m)
        [⟨.updated patch.changed, key, userId, m.version + 1⟩]
  | roleAssigned {m : Member} {roleId : Text} {actor : Option Text} {userId : Text}
      (hrole : roleId ∉ m.roles)
      (hcheck : ∀ t, a.request.earlyClock = some t →
        m.status = .active ∧ isGroupBanned a.checked t = false) :
      MemberStep a key (some m) { m.bumpVersion with roles := insert roleId m.roles }
        [⟨.roleChanged {roleId} ∅ actor, key, userId, m.version + 1⟩]
  | roleUnassigned {m : Member} {roleId : Text} {actor : Option Text} {userId : Text}
      (hrole : roleId ∈ m.roles) (hrequest : a.request.earlyClock = none) :
      MemberStep a key (some m) { m.bumpVersion with roles := m.roles.erase roleId }
        [⟨.roleChanged ∅ {roleId} actor, key, userId, m.version + 1⟩]
  | overridden {m : Member} {overrides : Dict (Text × Text) MemberOverride} {userId : Text}
      (hoverrides : ∃ slot, overrides.get? slot ≠ m.overrides.get? slot)
      (hrequest : a.request.earlyClock = none) :
      MemberStep a key (some m) { m.bumpVersion with overrides := overrides }
        [⟨.updated [.overrides], key, userId, m.version + 1⟩]
  | imported {old : Option Member} {r : ImportRequest} {plan : Plan}
      (hrequest : a.request = .importMembers r) (hplan : plan = Plan.make r.now plan.input old)
      (hstatus : plan.status ≠ .unchanged) :
      MemberStep a key old (plan.row old r.now)
        (plan.events key r.actorUserId (plan.row old r.now))

/-! ### One invitation -/

/-- What a committed write does to an invitation that it changes. -/
inductive InvitationStep (a : MemberResult) (code : Text) :
    Option Invitation → Option Invitation → Prop where
  | accepted {i : Invitation} {r : RedeemRequest} (hrequest : a.request = .accept r)
      (hcode : r.code = code) (hunused : i.usedAt = none) :
      InvitationStep a code (some i)
        (some { i with usedAt := some r.now, usedByUserId := some r.junjoUserId })
  | declined {i : Invitation} {r : DeclineRequest} (hrequest : a.request = .decline r)
      (hcode : r.code = code) (hunused : i.usedAt = none) :
      InvitationStep a code (some i)
        (some { i with usedAt := some r.now, usedByUserId := r.person.map Prod.fst })
  /-- The row that a revocation found was not used; another write may have used it since. -/
  | revoked {i found : Invitation} {r : RevokeRequest} (hrequest : a.request = .revoke r)
      (hcode : r.code = code) (hfound : a.revoked = some found) (hunused : found.usedAt = none)
      (hsince : i = found ∨ i.usedAt ≠ none) : InvitationStep a code (some i) none

/-! ### The store -/

namespace MemberDb

/-- What the lock of the group keeps of a member. -/
def statusOf (db : MemberDb) (key : MemberKey) : Option (MemberStatus × Option ℤ) :=
  (db.findMember key).map fun m => (m.status, m.bannedUntil)

/-- Whether a person is an active member. -/
def IsActive (db : MemberDb) (key : MemberKey) : Prop :=
  ∃ m, db.findMember key = some m ∧ m.status = .active

/-- The accept of an invitation uses it and makes one person an active member, who was none. -/
structure Accepts (r : RedeemRequest) (i : Invitation) (db db' : MemberDb) : Prop where
  found : db.invitations.get? r.code = some i
  unused : i.usedAt = none
  used : db'.invitations.get? r.code =
    some { i with usedAt := some r.now, usedByUserId := some r.junjoUserId }
  inactive : ¬ db.IsActive ⟨i.groupId, r.junjoUserId⟩
  member : db'.findMember ⟨i.groupId, r.junjoUserId⟩ =
    some (activated (db.findMember ⟨i.groupId, r.junjoUserId⟩) r.now)
  others : ∀ key, key ≠ ⟨i.groupId, r.junjoUserId⟩ → db'.findMember key = db.findMember key

/-- An accept says nothing of groups and events. -/
lemma Accepts.congr {r : RedeemRequest} {i : Invitation} {db db₁ db' : MemberDb}
    (h : Accepts r i db db₁) (hmembers : ∀ key, db'.findMember key = db₁.findMember key)
    (hinvitations : db'.invitations = db₁.invitations) : Accepts r i db db' where
  found := h.found
  unused := h.unused
  used := by rw [hinvitations, h.used]
  inactive := h.inactive
  member := by rw [hmembers, h.member]
  others key hkey := by rw [hmembers, h.others key hkey]

/-- What a committed write did to invitations. -/
structure Redeems (a : MemberResult) (held : List MemberLock) (db db' : MemberDb) : Prop where
  invitations : ∀ code, db'.invitations.get? code = db.invitations.get? code ∨
    (.invitation code ∈ held ∧ InvitationStep a code (db.invitations.get? code)
      (db'.invitations.get? code))
  accepted : ∀ r, a.request = .accept r → ∃ i, Accepts r i db db'
  declined : ∀ r, a.request = .decline r → ∃ i, db.invitations.get? r.code = some i ∧
    i.usedAt = none ∧ db'.invitations.get? r.code =
      some { i with usedAt := some r.now, usedByUserId := r.person.map Prod.fst }
  revoked : ∀ r found, a.request = .revoke r → a.revoked = some found →
    db'.invitations.get? r.code = none ∧
      ∃ i, db.invitations.get? r.code = some i ∧ (i = found ∨ i.usedAt ≠ none)

/-- What a committed write did, without the log. -/
structure Changed (a : MemberResult) (held : List MemberLock) (db db' : MemberDb) : Prop
    extends Redeems a held db db' where
  groups : ∀ id g, db.groups.get? id = some g → db'.groups.get? id = some g ∨
    (.group id ∈ held ∧ ∃ now, db'.groups.get? id = some { g with softDeletedAt := some now })
  members : ∀ key, (db'.findMember key = db.findMember key ∧ a.eventsOf key = []) ∨
    (.member key ∈ held ∧
      (db'.statusOf key = db.statusOf key ∨ .group key.groupId ∈ held) ∧
      ∃ new, db'.findMember key = some new ∧
        MemberStep a key (db.findMember key) new (a.eventsOf key))
  /-- The events are logged in the game of the member's group. -/
  game : ∀ key, a.eventsOf key ≠ [] →
    ∃ g, db'.groups.get? key.groupId = some g ∧ g.gameId = a.gameId
  /-- A conditional write of a row found the version that it names. -/
  ifMatch : ∀ key v m, a.request.ifMatch = some (key, v) → a.eventsOf key ≠ [] →
    db.findMember key = some m → m.version = v
  eventLog : db'.eventLog = db.eventLog

/-- The log after a write. -/
def logged (db : MemberDb) (a : MemberResult) : MemberDb :=
  if a.events.isEmpty then db else db.writeEvents a.gameId a.events

/-- What a committed write did. -/
def Written (a : MemberResult) (held : List MemberLock) (db db' : MemberDb) : Prop :=
  ∃ db₁, Changed a held db db₁ ∧ db' = db₁.logged a

@[simp] lemma findMember_logged (db : MemberDb) (a : MemberResult) (key : MemberKey) :
    (db.logged a).findMember key = db.findMember key := by
  rw [logged]
  split_ifs <;> rfl

@[simp] lemma statusOf_logged (db : MemberDb) (a : MemberResult) (key : MemberKey) :
    (db.logged a).statusOf key = db.statusOf key := by
  rw [statusOf, statusOf, findMember_logged]

@[simp] lemma groups_logged (db : MemberDb) (a : MemberResult) :
    (db.logged a).groups = db.groups := by
  rw [logged]
  split_ifs <;> rfl

@[simp] lemma invitations_logged (db : MemberDb) (a : MemberResult) :
    (db.logged a).invitations = db.invitations := by
  rw [logged]
  split_ifs <;> rfl

end MemberDb

/-! ### What the locks keep -/

/-- The rule for membership writes. -/
def memberDiscipline : Discipline MemberDb MemberLock MemberResult where
  inv _ := True
  effect := MemberDb.Written

abbrev MemberEvolves := Evolves MemberLock.conflicts memberDiscipline

abbrev MemberKeeps : MemberTx MemberResult → List MemberLock →
    (MemberDb → Option MemberDb) → List MemberDb → MemberDb → Prop :=
  Keeps MemberLock.conflicts memberDiscipline

section Evolves

variable {held : List MemberLock} {db db' : MemberDb}

lemma not_mem_of_compatible {held' : List MemberLock} {k : MemberLock}
    (h : Compatible MemberLock.conflicts held held') (hk : k ∈ held) : k ∉ held' :=
  fun hk' => absurd (h k hk k hk') (by simp [MemberLock.conflicts])

/-- Under the lock of its row a member stays. -/
lemma MemberEvolves.member (h : MemberEvolves held db db') {key : MemberKey}
    (hlock : .member key ∈ held) : db'.findMember key = db.findMember key := by
  refine h.preserves (P := fun c => c.findMember key = db.findMember key) ?_ rfl
  rintro c _ a held' - - hcompat ⟨c₁, hchanged, rfl⟩ hc
  rw [MemberDb.findMember_logged]
  rcases hchanged.members key with ⟨hsame, -⟩ | ⟨hlock', -⟩
  · rw [hsame, hc]
  · exact absurd hlock' (not_mem_of_compatible hcompat hlock)

/-- Under the lock of the group a member's status stays. -/
lemma MemberEvolves.status (h : MemberEvolves held db db') {key : MemberKey}
    (hlock : .group key.groupId ∈ held) : db'.statusOf key = db.statusOf key := by
  refine h.preserves (P := fun c => c.statusOf key = db.statusOf key) ?_ rfl
  rintro c _ a held' - - hcompat ⟨c₁, hchanged, rfl⟩ hc
  rw [MemberDb.statusOf_logged]
  rcases hchanged.members key with ⟨hsame, -⟩ | ⟨-, hstatus | hlock', -⟩
  · rw [← hc, MemberDb.statusOf, hsame, MemberDb.statusOf]
  · rw [hstatus, hc]
  · exact absurd hlock' (not_mem_of_compatible hcompat hlock)

/-- Under its lock a group stays. -/
lemma MemberEvolves.group (h : MemberEvolves held db db') {id : Text} {g : Group}
    (hlock : .group id ∈ held) (hg : db.groups.get? id = some g) :
    db'.groups.get? id = some g := by
  refine h.preserves (P := fun c => c.groups.get? id = some g) ?_ hg
  rintro c _ a held' - - hcompat ⟨c₁, hchanged, rfl⟩ hc
  rw [MemberDb.groups_logged]
  rcases hchanged.groups id g hc with hsame | ⟨hlock', -⟩
  · exact hsame
  · exact absurd hlock' (not_mem_of_compatible hcompat hlock)

/-- Under its lock an invitation stays. -/
lemma MemberEvolves.invitation (h : MemberEvolves held db db') {code : Text}
    (hlock : .invitation code ∈ held) :
    db'.invitations.get? code = db.invitations.get? code := by
  refine h.preserves (P := fun c => c.invitations.get? code = db.invitations.get? code) ?_ rfl
  rintro c _ a held' - - hcompat ⟨c₁, hchanged, rfl⟩ hc
  rw [MemberDb.invitations_logged]
  rcases hchanged.invitations code with hsame | ⟨hlock', -⟩
  · rw [hsame, hc]
  · exact absurd hlock' (not_mem_of_compatible hcompat hlock)

/-- An invitation that nobody used is as it was until someone uses it. -/
lemma MemberEvolves.invitationSince (h : MemberEvolves held db db') {code : Text}
    {found : Invitation} (hfound : db.invitations.get? code = some found) :
    ∀ i, db'.invitations.get? code = some i → i = found ∨ i.usedAt ≠ none := by
  refine h.preserves (P := fun c => ∀ i, c.invitations.get? code = some i →
    i = found ∨ i.usedAt ≠ none) ?_ ?_
  · rintro c _ a held' - - - ⟨c₁, hchanged, rfl⟩ hc i hi
    rw [MemberDb.invitations_logged] at hi
    rcases hchanged.invitations code with hsame | ⟨-, hstep⟩
    · exact hc i (hsame ▸ hi)
    · rw [hi] at hstep
      generalize c.invitations.get? code = old at hstep
      cases hstep with
      | accepted _ _ _ => exact .inr (by simp)
      | declined _ _ _ => exact .inr (by simp)
  · intro i hi
    rw [hfound, Option.some.injEq] at hi
    exact .inl hi.symm

/-- An invitation stays one to its group. -/
lemma MemberEvolves.invitationGroup (h : MemberEvolves held db db') {code groupId : Text}
    (hi : ∀ i, db.invitations.get? code = some i → i.groupId = groupId) :
    ∀ i, db'.invitations.get? code = some i → i.groupId = groupId := by
  refine h.preserves (P := fun c => ∀ i, c.invitations.get? code = some i → i.groupId = groupId) ?_ hi
  rintro c _ a held' - - - ⟨c₁, hchanged, rfl⟩ hc i hi
  rw [MemberDb.invitations_logged] at hi
  rcases hchanged.invitations code with hsame | ⟨-, hstep⟩
  · exact hc i (hsame ▸ hi)
  · generalize hold : c.invitations.get? code = old at hstep
    rw [hi] at hstep
    cases hstep with
    | accepted _ _ _ =>
      have hgroup := hc _ hold
      exact hgroup
    | declined _ _ _ =>
      have hgroup := hc _ hold
      exact hgroup

/-- A group stays in its game. -/
lemma MemberEvolves.game (h : MemberEvolves held db db') {id gameId : Text}
    (hg : ∃ g, db.groups.get? id = some g ∧ g.gameId = gameId) :
    ∃ g, db'.groups.get? id = some g ∧ g.gameId = gameId := by
  refine h.preserves (P := fun c => ∃ g, c.groups.get? id = some g ∧ g.gameId = gameId) ?_ hg
  rintro c _ a held' - - - ⟨c₁, hchanged, rfl⟩ ⟨g, hc, hgame⟩
  rw [MemberDb.groups_logged]
  rcases hchanged.groups id g hc with hsame | ⟨-, now, hdeleted⟩
  · exact ⟨g, hsame, hgame⟩
  · exact ⟨_, hdeleted, hgame⟩

end Evolves

end Junjo
