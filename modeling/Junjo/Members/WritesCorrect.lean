import Junjo.Members.Steps

/-!
# Membership writes do what their steps say

Every membership write, with any interleaving of others between its statements, does at its commit
what `Written` says.
-/

namespace Junjo

open MemberWrites

/-- The group is one of the game. -/
def MemberDb.InGame (db : MemberDb) (groupId gameId : Text) : Prop :=
  ∃ g, db.groups.get? groupId = some g ∧ g.gameId = gameId

/-! ### Statements that only read -/

abbrev MemberReads {ρ : Type} : MemberTx ρ → (ρ → Prop) → Prop :=
  Reads MemberLock.conflicts memberDiscipline

lemma reads_assertVersion (expected : Option ℕ) (current : ℕ) :
    MemberReads (assertVersion expected current) fun _ => ∀ v, expected = some v → current = v := by
  cases expected with
  | none => exact Reads.pure fun v hv => by cases hv
  | some v =>
    rw [assertVersion]
    split_ifs with heq
    · exact Reads.pure fun v' hv' => by cases hv'; exact heq.symm
    · exact Reads.throw _ _

lemma reads_checkPasscode (verifySecret : Text → Text → Bool) (group : Group) (r : JoinRequest) :
    MemberReads (checkPasscode verifySecret group r) fun _ => True := by
  rw [checkPasscode]
  split
  · exact Reads.pure trivial
  · split
    · exact Reads.throw _ _
    · split_ifs
      · exact Reads.throw _ _
      · exact Reads.pure trivial
      · exact Reads.throw _ _

lemma reads_checkBanState (gameId : Text) (key : MemberKey) (now : ℤ) :
    MemberReads (checkBanState gameId key now) fun checked => isGroupBanned checked now = false := by
  rw [checkBanState]
  refine Reads.andThen (Reads.query _ fun _ => trivial) fun gameBan => ?_
  split
  · exact Reads.throw _ _
  · refine Reads.andThen (Reads.query _ fun _ => trivial) fun member => ?_
    split_ifs with hbanned
    · exact Reads.throw _ _
    · exact Reads.pure (Bool.eq_false_of_not_eq_true hbanned)

lemma reads_limitReached (groupId : Text) (group : Group) (maxPerUser : Option ℕ)
    (people : List Text) :
    MemberReads (limitReached groupId group maxPerUser people) fun _ => True := by
  cases maxPerUser with
  | none => exact Reads.pure trivial
  | some max =>
    exact Reads.andThen (Reads.lockQuery _ _ fun _ => trivial) fun _ =>
      Reads.query _ fun _ => trivial

lemma reads_withoutRoom (groupId : Text) (maxMembers : Option ℕ) (people : List Text) :
    MemberReads (withoutRoom groupId maxMembers people) fun _ => True := by
  cases maxMembers with
  | none => exact Reads.pure trivial
  | some max => exact Reads.query _ fun _ => trivial

lemma reads_kindLimitFailures (groupId : Text) (group : Group) (limits : Option GroupKindLimits)
    (activating : List Text) :
    MemberReads (kindLimitFailures groupId group limits activating) fun _ => True := by
  cases limits with
  | none => exact Reads.pure trivial
  | some limits =>
    refine Reads.andThen (reads_limitReached _ _ _ _) fun reached => ?_
    exact Reads.andThen (reads_withoutRoom _ _ _) fun full => Reads.pure trivial

lemma reads_assertCanActivate (groupId : Text) (group : Group) (limits : Option GroupKindLimits)
    (junjoUserId : Text) :
    MemberReads (assertCanActivate groupId group limits junjoUserId) fun _ => True := by
  rw [assertCanActivate]
  refine Reads.andThen (reads_kindLimitFailures _ _ _ _) fun failures => ?_
  split
  · exact Reads.throw _ _
  · exact Reads.pure trivial

/-- An activation moves the clock of the group only. -/
lemma reads_afterActivation (groupId : Text) (limits : Option GroupKindLimits) (now : ℤ) :
    MemberReads (afterMembershipChange groupId limits false now) fun _ => True := by
  rw [afterMembershipChange]
  exact Reads.andThen (Reads.lockQuery _ _ fun _ => trivial) fun _ =>
    Reads.pure trivial

lemma reads_assertInvitationTarget (gameId : Text) (targetUserId : Option Text)
    (userId junjoUserId : Text) :
    MemberReads (assertInvitationTarget gameId targetUserId userId junjoUserId) fun _ => True := by
  cases targetUserId with
  | none => exact Reads.pure trivial
  | some target =>
    refine Reads.andThen (Reads.query _ fun _ => trivial) fun person => ?_
    split_ifs
    · exact Reads.pure trivial
    · exact Reads.throw _ _

lemma reads_assertDecliner (r : DeclineRequest) (targetUserId : Option Text) :
    MemberReads (assertDecliner r targetUserId) fun _ => True := by
  rw [assertDecliner]
  split
  · exact Reads.pure trivial
  · exact reads_assertInvitationTarget _ _ _ _

lemma reads_assertRole (groupId roleId : Text) :
    MemberReads (assertRole groupId roleId) fun _ => True := by
  refine Reads.andThen (Reads.query _ fun _ => trivial) fun owner => ?_
  split
  · exact Reads.throw _ _
  · split_ifs
    · exact Reads.throw _ _
    · exact Reads.pure trivial

/-! ### The statements of the writes -/

section Statements

variable {held : List MemberLock} {seen : List MemberDb} {db : MemberDb}

lemma MemberDb.InGame.evolves {db' : MemberDb} {groupId gameId : Text}
    (hgame : db.InGame groupId gameId) (h : MemberEvolves held db db') : db'.InGame groupId gameId :=
  MemberEvolves.game h hgame

lemma keeps_findGroup {gameId id what : Text} {k : Group → MemberTx MemberResult}
    (hk : ∀ group seen' db', db'.InGame id gameId → MemberEvolves held db db' →
      MemberKeeps (k group) held some seen' db') :
    MemberKeeps (MemberWrites.findGroup gameId id what >>= k) held some seen db := by
  rw [MemberWrites.findGroup, bind_assoc, MemberKeeps, keeps_query]
  rintro - _ ⟨⟩ db' hdb'
  cases hfound : db.findGroup gameId id with
  | none => trivial
  | some group =>
    obtain ⟨hgroup, hlive⟩ := Option.filter_eq_some_iff.mp hfound
    simp only [Bool.and_eq_true, decide_eq_true_eq] at hlive
    exact hk group _ db' (MemberEvolves.game hdb' ⟨group, hgroup, hlive.1⟩) hdb'

lemma keeps_findMember {key : MemberKey} {k : Member → MemberTx MemberResult}
    (hk : ∀ member seen' db', db.findMember key = some member → MemberEvolves held db db' →
      MemberKeeps (k member) held some seen' db') :
    MemberKeeps (MemberWrites.findMember key >>= k) held some seen db := by
  rw [MemberWrites.findMember, bind_assoc, MemberKeeps, keeps_query]
  rintro - _ ⟨⟩ db' hdb'
  cases hfound : db.findMember key with
  | none => trivial
  | some member => exact hk member _ db' hfound hdb'

lemma keeps_lockGroupMembership {id : Text} {k : Group → MemberTx MemberResult}
    (hk : ∀ group held' seen' db', held ⊆ held' → .group id ∈ held' → MemberEvolves held db db' →
      db'.groups.get? id = some group → MemberKeeps (k group) held' some seen' db') :
    MemberKeeps (lockGroupMembership id >>= k) held some seen db := by
  rw [lockGroupMembership, bind_assoc, MemberKeeps, keeps_lockQuery]
  rintro - _ ⟨⟩ db' hdb'
  cases hfound : (db.groups.get? id).filter fun g => g.softDeletedAt.isNone with
  | none => trivial
  | some group =>
    obtain ⟨hgroup, -⟩ := Option.filter_eq_some_iff.mp hfound
    have hhas : db.groups.has id = true := Dict.has_iff.mpr (Dict.mem_keys_iff.mpr ⟨_, hgroup⟩)
    rw [if_pos hhas] at hdb' ⊢
    have hlock : .group id ∈ held ++ [.group id] := by simp
    exact hk group _ _ db' (List.subset_append_left _ _) hlock
      (hdb'.mono (List.subset_append_left _ _)) (MemberEvolves.group hdb' hlock hgroup)

lemma keeps_lockMember {key : MemberKey} {k : Member → MemberTx MemberResult}
    (hk : ∀ member held' seen' db', held ⊆ held' → .member key ∈ held' →
      MemberEvolves held db db' → db'.findMember key = some member →
      MemberKeeps (k member) held' some seen' db') :
    MemberKeeps (lockMember key >>= k) held some seen db := by
  rw [lockMember, bind_assoc, MemberKeeps, keeps_lockQuery]
  rintro - _ ⟨⟩ db' hdb'
  cases hfound : db.findMember key with
  | none => trivial
  | some member =>
    have hhas : db.members.has key = true := Dict.has_iff.mpr (Dict.mem_keys_iff.mpr ⟨_, hfound⟩)
    rw [if_pos hhas] at hdb' ⊢
    have hlock : .member key ∈ held ++ [.member key] := by simp
    refine hk member _ _ db' (List.subset_append_left _ _) hlock
      (hdb'.mono (List.subset_append_left _ _)) ?_
    rw [MemberEvolves.member hdb' hlock, hfound]

lemma keeps_lockMemberVersion {key : MemberKey} {expected : Option ℕ}
    {k : Unit → MemberTx MemberResult}
    (hk : ∀ member held' seen' db', held ⊆ held' → .member key ∈ held' →
      MemberEvolves held db db' → db'.findMember key = some member →
      (∀ v, expected = some v → member.version = v) →
      MemberKeeps (k ()) held' some seen' db') :
    MemberKeeps (lockMemberVersion key expected >>= k) held some seen db := by
  rw [lockMemberVersion, bind_assoc]
  refine keeps_lockMember fun member held' seen' db' hheld hlock hdb' hmember => ?_
  refine reads_assertVersion _ _ _ _ _ _ _ fun _ held'' seen'' db'' hversion hheld' hdb'' => ?_
  refine hk member _ _ _ (List.Subset.trans hheld hheld') (hheld' hlock)
    (hdb'.trans (hdb''.mono hheld)) ?_ hversion
  rw [MemberEvolves.member hdb'' hlock, hmember]

end Statements

/-! ### What is written -/

namespace MemberDb

variable {a : MemberResult} {held : List MemberLock} {db db' : MemberDb}

/-- The row of one member is written. -/
structure WritesMember (key : MemberKey) (new : Member) (db db' : MemberDb) : Prop where
  member : db'.findMember key = some new
  others : ∀ k, k ≠ key → db'.findMember k = db.findMember k
  groups : db'.groups = db.groups
  invitations : db'.invitations = db.invitations
  eventLog : db'.eventLog = db.eventLog

lemma writesMember_updateMember {key : MemberKey} {data : Member → Member}
    (h : db.updateMember key data = some db') :
    ∃ m, db.findMember key = some m ∧ WritesMember key (data m) db db' := by
  obtain ⟨m, hm, rfl⟩ := Option.map_eq_some_iff.mp h
  refine ⟨m, hm, Dict.get?_set_self _ _ _, fun k hk => ?_, rfl, rfl, rfl⟩
  exact Dict.get?_set_of_ne _ _ hk

lemma writesMember_insertMember {key : MemberKey} {m : Member}
    (h : db.insertMember key m = some db') :
    db.findMember key = none ∧ WritesMember key m db db' := by
  rw [insertMember] at h
  split_ifs at h with hhas
  cases h
  refine ⟨Dict.get?_eq_none_iff.mpr fun hmem => hhas (Dict.has_iff.mpr hmem),
    Dict.get?_set_self _ _ _, fun k hk => ?_, rfl, rfl, rfl⟩
  exact Dict.get?_set_of_ne _ _ hk

lemma writesMember_insertMemberRole {key : MemberKey} {roleId : Text}
    (h : db.insertMemberRole key roleId = some db') : ∃ m, db.findMember key = some m ∧
      roleId ∉ m.roles ∧ WritesMember key { m with roles := insert roleId m.roles } db db' := by
  obtain ⟨m, hm, hinsert⟩ := Option.bind_eq_some_iff.mp h
  split_ifs at hinsert with hrole
  cases hinsert
  refine ⟨m, hm, hrole, Dict.get?_set_self _ _ _, fun k hk => ?_, rfl, rfl, rfl⟩
  exact Dict.get?_set_of_ne _ _ hk

lemma WritesMember.trans {key : MemberKey} {m m' : Member} {db'' : MemberDb}
    (h : WritesMember key m db db') (h' : WritesMember key m' db' db'') :
    WritesMember key m' db db'' where
  member := h'.member
  others k hk := (h'.others k hk).trans (h.others k hk)
  groups := h'.groups.trans h.groups
  invitations := h'.invitations.trans h.invitations
  eventLog := h'.eventLog.trans h.eventLog

end MemberDb

/-- Whether a request redeems or revokes an invitation. -/
def MemberRequest.usesInvitation : MemberRequest → Bool
  | .accept _ => true
  | .decline _ => true
  | .revoke _ => true
  | _ => false

namespace MemberDb

variable {a : MemberResult} {held : List MemberLock} {db db' : MemberDb}

lemma redeems_of_plain (hplain : a.request.usesInvitation = false)
    (h : db'.invitations = db.invitations) : Redeems a held db db' where
  invitations code := .inl (by rw [h])
  accepted r hr := by rw [hr] at hplain; cases hplain
  declined r hr := by rw [hr] at hplain; cases hplain
  revoked r _ hr := by rw [hr] at hplain; cases hplain

/-- A write of one member. -/
lemma Changed.of_member {key : MemberKey} {new : Member} (hnew : db'.findMember key = some new)
    (hsame : ∀ k, k ≠ key → db'.findMember k = db.findMember k)
    (hgroups : ∀ id g, db.groups.get? id = some g → db'.groups.get? id = some g)
    (hlog : db'.eventLog = db.eventLog) (hredeems : Redeems a held db db')
    (hlock : .member key ∈ held)
    (hstatus : db'.statusOf key = db.statusOf key ∨ .group key.groupId ∈ held)
    (hstep : MemberStep a key (db.findMember key) new (a.eventsOf key))
    (hothers : ∀ k, k ≠ key → a.eventsOf k = [])
    (hgame : db'.InGame key.groupId a.gameId)
    (hmatch : ∀ k v m, a.request.ifMatch = some (k, v) → db.findMember key = some m →
      m.version = v) : Changed a held db db' where
  groups id g hg := .inl (hgroups id g hg)
  members k := by
    by_cases hk : k = key
    · subst hk
      exact .inr ⟨hlock, hstatus, new, hnew, hstep⟩
    · exact .inl ⟨hsame k hk, hothers k hk⟩
  game k hk := by
    by_cases heq : k = key
    · exact heq ▸ hgame
    · exact absurd (hothers k heq) hk
  ifMatch k v m hrequest hevents hm := by
    by_cases heq : k = key
    · exact hmatch k v m hrequest (heq ▸ hm)
    · exact absurd (hothers k heq) hevents
  toRedeems := hredeems
  eventLog := hlog

/-- A write of one member, by a request that leaves invitations alone. -/
lemma Changed.single {key : MemberKey} {new : Member} (h : WritesMember key new db db')
    (hplain : a.request.usesInvitation = false) (hlock : .member key ∈ held)
    (hstatus : db'.statusOf key = db.statusOf key ∨ .group key.groupId ∈ held)
    (hstep : MemberStep a key (db.findMember key) new (a.eventsOf key))
    (hothers : ∀ k, k ≠ key → a.eventsOf k = [])
    (hgame : db.InGame key.groupId a.gameId)
    (hmatch : ∀ k v m, a.request.ifMatch = some (k, v) → db.findMember key = some m →
      m.version = v) : Changed a held db db' := by
  refine Changed.of_member h.member h.others (fun id g hg => by rw [h.groups, hg]) h.eventLog
    (redeems_of_plain hplain h.invitations) hlock hstatus hstep hothers ?_ hmatch
  rw [InGame, h.groups]
  exact hgame

lemma redeems_self (haccept : ∀ r, a.request ≠ .accept r) (hdecline : ∀ r, a.request ≠ .decline r)
    (hrevoked : a.revoked = none) : Redeems a held db db where
  invitations _ := .inl rfl
  accepted r hr := absurd hr (haccept r)
  declined r hr := absurd hr (hdecline r)
  revoked _ _ _ hfound := by rw [hrevoked] at hfound; cases hfound

/-- A write that changed nothing. -/
lemma changed_self (hevents : a.events = []) (hredeems : Redeems a held db db) :
    Changed a held db db where
  toRedeems := hredeems
  groups _ _ hg := .inl hg
  members _ := .inl ⟨rfl, by rw [MemberResult.eventsOf, hevents]; rfl⟩
  game _ hk := absurd (by rw [MemberResult.eventsOf, hevents]; rfl) hk
  ifMatch _ _ _ _ hk := absurd (by rw [MemberResult.eventsOf, hevents]; rfl) hk
  eventLog := rfl

end MemberDb

/-! ### The ends of the writes -/

namespace MemberDb

/-- At most the group is deleted. -/
def Deletes (groupId : Text) (db db' : MemberDb) : Prop :=
  db' = db ∨ ∃ now, db.updateGroup groupId (fun g => { g with softDeletedAt := some now }) = some db'

variable {a : MemberResult} {held : List MemberLock} {db db₁ db' : MemberDb}

lemma Changed.deletes {groupId : Text} (h : Changed a held db db₁) (hlock : .group groupId ∈ held)
    (hdeletes : Deletes groupId db₁ db') : Changed a held db db' := by
  obtain rfl | ⟨now, hupdate⟩ := hdeletes
  · exact h
  obtain ⟨g, hg, rfl⟩ := Option.map_eq_some_iff.mp hupdate
  refine ⟨⟨h.invitations, fun r hr => (h.accepted r hr).imp fun i hi => hi.congr (fun _ => rfl) rfl,
    h.declined, h.revoked⟩, fun id g' hg' => ?_, h.members, fun key hkey => ?_, h.ifMatch,
    h.eventLog⟩
  · by_cases hid : id = groupId
    · subst hid
      refine .inr ⟨hlock, now, ?_⟩
      rw [Dict.get?_set_self]
      rcases h.groups id g' hg' with hsame | ⟨-, now', hdeleted⟩
      · rw [hsame, Option.some.injEq] at hg
        rw [hg]
      · rw [hdeleted] at hg
        cases hg
        rfl
    · rw [Dict.get?_set_of_ne _ _ hid]
      exact h.groups id g' hg'
  · obtain ⟨g', hg', hgame⟩ := h.game key hkey
    by_cases hid : key.groupId = groupId
    · rw [hid, hg] at hg'
      cases hg'
      refine ⟨{ g with softDeletedAt := some now }, ?_, hgame⟩
      rw [hid, Dict.get?_set_self]
    · exact ⟨g', by rwa [Dict.get?_set_of_ne _ _ hid], hgame⟩

/-- More locks than needed. -/
lemma Changed.mono {held' : List MemberLock} (h : Changed a held db db') (hsub : held ⊆ held') :
    Changed a held' db db' where
  groups id g hg := (h.groups id g hg).imp_right fun ⟨hlock, hdeleted⟩ => ⟨hsub hlock, hdeleted⟩
  members key := (h.members key).imp_right fun ⟨hlock, hstatus, hstep⟩ =>
    ⟨hsub hlock, hstatus.imp_right fun hgroup => hsub hgroup, hstep⟩
  game := h.game
  ifMatch := h.ifMatch
  invitations code := (h.invitations code).imp_right fun ⟨hlock, hstep⟩ => ⟨hsub hlock, hstep⟩
  accepted := h.accepted
  declined := h.declined
  revoked := h.revoked
  eventLog := h.eventLog

end MemberDb

section Ends

variable {held : List MemberLock} {change : MemberDb → Option MemberDb} {seen : List MemberDb}
  {db : MemberDb}

/-- A transaction that changed what it should, and then logs its events. -/
lemma keeps_memberFinish {result : MemberResult}
    (h : ∀ db₁ db', MemberEvolves held db db₁ → change db₁ = some db' →
      MemberDb.Changed result held db₁ db') :
    MemberKeeps (finish result) held change seen db := by
  rw [finish]
  split_ifs with hempty
  · rintro - - db' hdb'
    exact ⟨trivial, db', h db db' .refl hdb', by rw [MemberDb.logged, if_pos hempty]⟩
  · rw [MemberKeeps, keeps_write]
    rintro - _ - db₁ h₁ - - db' hdb'
    obtain ⟨db₂, hchange, hwrite⟩ := Option.bind_eq_some_iff.mp hdb'
    cases hwrite
    refine ⟨trivial, db₂, ?_, by rw [MemberDb.logged, if_neg hempty]⟩
    exact (h db₁ db₂ (h₁.mono (List.subset_append_left _ _)) hchange).mono
      (List.subset_append_left _ _)

/-- A transaction that ends with nothing changed. -/
lemma keeps_unchanged {result : MemberResult} (hevents : result.events = [])
    (hredeems : ∀ held db, MemberDb.Redeems result held db db) :
    MemberKeeps (pure result) held some seen db := by
  rintro - - _ ⟨⟩
  exact ⟨trivial, db, MemberDb.changed_self hevents (hredeems held db),
    by rw [MemberDb.logged, hevents]; rfl⟩

lemma keeps_afterMembershipChange {groupId : Text} {limits : Option GroupKindLimits}
    {departed : Bool} {now : ℤ} {k : List GroupEvent → MemberTx MemberResult}
    (hk : ∀ deleted w held' seen' db', held ⊆ held' → .group groupId ∈ held' →
      MemberEvolves held db db' → (∀ key, deleted.filterMap (GroupEvent.about key) = []) →
      (∀ v v', w v = some v' → MemberDb.Deletes groupId v v') →
      MemberKeeps (k deleted) held' (fun c => (change c).bind w) seen' db') :
    MemberKeeps (afterMembershipChange groupId limits departed now >>= k) held change seen db := by
  have hsame : change = fun c => (change c).bind some :=
    funext fun c => (Option.bind_fun_some _).symm
  have hsub : held ⊆ held ++ [.group groupId] := List.subset_append_left _ _
  have hlock : .group groupId ∈ held ++ [MemberLock.group groupId] := by simp
  rw [afterMembershipChange, bind_assoc, MemberKeeps, keeps_lockQuery]
  rintro - view hview db₁ h₁
  split_ifs
  · rw [hsame]
    exact hk [] some _ _ db₁ hsub hlock (h₁.mono hsub) (fun _ => rfl)
      fun v v' hv => .inl (Option.some.inj hv).symm
  · rw [bind_assoc, keeps_query]
    rintro - view' hview' db₂ h₂
    split_ifs
    · rw [hsame]
      exact hk [] some _ _ db₂ hsub hlock ((h₁.trans h₂).mono hsub) (fun _ => rfl)
        fun v v' hv => .inl (Option.some.inj hv).symm
    · rw [bind_assoc, keeps_write]
      rintro - view'' hview'' db₃ h₃
      have hsub' := List.Subset.trans hsub (List.subset_append_left _ [MemberLock.group groupId])
      refine hk [.deleted groupId] _ _ _ db₃ hsub' (by simp)
        (((h₁.trans h₂).mono hsub).trans (h₃.mono hsub')) (fun _ => rfl) fun v v' hv => ?_
      exact .inr ⟨now, hv⟩

/-- The row is updated under its lock, which the update takes if need be. -/
lemma keeps_updateMember {key : MemberKey} {data : Member → Member}
    {k : Option Member → MemberTx MemberResult}
    (hview : ∀ c v, change c = some v → v.findMember key = c.findMember key)
    (hk : ∀ held' seen' db', held ⊆ held' → .member key ∈ held' → MemberEvolves held db db' →
      MemberKeeps (k ((db'.findMember key).map data)) held'
        (fun c => (change c).bind fun v => v.updateMember key data) seen' db') :
    MemberKeeps (MemberWrites.updateMember key data >>= k) held change seen db := by
  rw [MemberWrites.updateMember, MemberKeeps, keeps_write]
  rintro - view hchange db' hdb'
  have hlock : .member key ∈ held ++ [MemberLock.member key] := by simp
  have hsame : (view.findMember key).map data = (db'.findMember key).map data := by
    rw [hview db view hchange, MemberEvolves.member hdb' hlock]
  rw [hsame]
  exact hk _ _ db' (List.subset_append_left _ _) hlock (hdb'.mono (List.subset_append_left _ _))

lemma keeps_bumpMemberVersion {key : MemberKey} {k : Option ℕ → MemberTx MemberResult}
    (hview : ∀ c v, change c = some v → (v.findMember key).map Member.version =
      (c.findMember key).map Member.version)
    (hk : ∀ held' seen' db', held ⊆ held' → .member key ∈ held' → MemberEvolves held db db' →
      MemberKeeps (k ((db'.findMember key).map fun m => m.version + 1)) held'
        (fun c => (change c).bind fun v => v.updateMember key Member.bumpVersion) seen' db') :
    MemberKeeps (bumpMemberVersion key >>= k) held change seen db := by
  rw [bumpMemberVersion, MemberKeeps, keeps_write]
  rintro - view hchange db' hdb'
  have hlock : .member key ∈ held ++ [MemberLock.member key] := by simp
  have hsame : ((view.findMember key).map fun m => m.version + 1) =
      (db'.findMember key).map fun m => m.version + 1 := by
    have hversion := congrArg (Option.map (· + 1)) (hview db view hchange)
    rw [Option.map_map, Option.map_map] at hversion
    rw [MemberEvolves.member hdb' hlock]
    exact hversion
  rw [hsame]
  exact hk _ _ db' (List.subset_append_left _ _) hlock (hdb'.mono (List.subset_append_left _ _))

end Ends

/-! ### Activations -/

section Activations

variable {held : List MemberLock} {change : MemberDb → Option MemberDb} {seen : List MemberDb}
  {db : MemberDb}

lemma MemberDb.statusOf_eq_none {key : MemberKey} :
    db.statusOf key = none ↔ db.findMember key = none := Option.map_eq_none_iff

lemma keeps_activate {key : MemberKey} {existing : Option Member} {now : ℤ}
    {k : Option Member → MemberTx MemberResult} (hgroup : .group key.groupId ∈ held)
    (hexisting : db.statusOf key = existing.map fun m => (m.status, m.bannedUntil))
    (hinactive : ∀ m, existing = some m → m.status ≠ .active)
    (hview : ∀ c v, change c = some v → v.findMember key = c.findMember key)
    (hk : ∀ w held' seen' db', held ⊆ held' → .member key ∈ held' → MemberEvolves held db db' →
      (∀ m, db'.findMember key = some m → m.status ≠ .active) →
      (∀ v v', w v = some v' →
        MemberDb.WritesMember key (activated (v.findMember key) now) v v') →
      MemberKeeps (k (some (activated (db'.findMember key) now))) held'
        (fun c => (change c).bind w) seen' db') :
    MemberKeeps (activate key existing now >>= k) held change seen db := by
  cases existing with
  | none =>
    rw [activate, MemberWrites.insertMember, MemberKeeps, keeps_write]
    rintro - view hchange db' hdb'
    have hevolves : MemberEvolves held db db' := hdb'.mono (List.subset_append_left _ _)
    have hnone : db'.findMember key = none := by
      rw [← MemberDb.statusOf_eq_none, MemberEvolves.status hevolves hgroup, hexisting]
      rfl
    have hnew := hk (fun v => v.insertMember key (Member.create now)) _
      (seen ++ [view]) db' (List.subset_append_left _ [.member key]) (by simp) hevolves
      (by rw [hnone]; simp) ?_
    · rwa [hnone] at hnew
    · intro v v' hw
      obtain ⟨hfree, hwrites⟩ := MemberDb.writesMember_insertMember hw
      rwa [hfree]
  | some m =>
    refine keeps_updateMember hview fun held' seen' db' hheld hlock hdb' => ?_
    have hstatus := (MemberEvolves.status hdb' hgroup).trans hexisting
    obtain ⟨m', hm', hsame⟩ := Option.map_eq_some_iff.mp hstatus
    have hnew := hk (fun v => v.updateMember key Member.activate) held' seen' db' hheld hlock hdb'
      ?_ ?_
    · rw [hm'] at hnew
      rwa [hm']
    · intro m'' hm''
      rw [hm', Option.some.injEq] at hm''
      have hsame' : m'.status = m.status := (Prod.ext_iff.mp hsame).1
      rw [← hm'', hsame']
      exact hinactive m rfl
    · intro v v' hw
      obtain ⟨m'', hm'', hwrites⟩ := MemberDb.writesMember_updateMember hw
      rwa [hm'']

/-- What the read of the row under the group's lock says later. -/
lemma MemberEvolves.statusOf_eq {db' : MemberDb} (h : MemberEvolves held db db') (key : MemberKey)
    (hgroup : .group key.groupId ∈ held) :
    db'.statusOf key = (db.findMember key).map fun m => (m.status, m.bannedUntil) :=
  MemberEvolves.status h hgroup

lemma not_active_of_any {existing : Option Member}
    (h : ¬ (existing.any fun m => m.status = .active) = true) :
    ∀ m, existing = some m → m.status ≠ .active := by
  rintro m rfl hactive
  exact h (by simp [hactive])

/-- The events of a write that stages events about one member. -/
lemma eventsOf_target {request : MemberRequest} {gameId : Text} {checked : Option Member}
    (events : List MemberEvent) {key : MemberKey} (h : ∀ e ∈ events, e.key = key) (k : MemberKey) :
    (MemberResult.mk request gameId checked (events.map GroupEvent.member) none).eventsOf k =
      if key = k then events else [] := by
  rw [MemberResult.eventsOf, List.filterMap_map]
  split_ifs with hk
  · subst hk
    have hall : ∀ e ∈ events, (GroupEvent.about key ∘ GroupEvent.member) e = some e := by
      intro e he
      rw [Function.comp_apply, GroupEvent.about, if_pos (h e he)]
    rw [List.filterMap_congr hall, List.filterMap_some]
  · refine List.filterMap_eq_nil_iff.mpr fun e he => ?_
    rw [Function.comp_apply, GroupEvent.about, if_neg]
    rwa [h e he]

lemma eventsOf_joined {request : MemberRequest} {checked : Option Member} {target : MemberTarget}
    {member : Member} {roleIds : Finset Text} (key : MemberKey) :
    (MemberResult.mk request target.gameId checked
      [joinedEvent target member roleIds] none).eventsOf key = if target.key = key then
        [⟨.joined (toPublicMember member roleIds), target.key, target.userId, member.version⟩]
      else [] :=
  eventsOf_target [_] (by simp) key

/-- The step of a join or an accept. -/
lemma memberStep_joined {request : MemberRequest} {checked : Option Member} (target : MemberTarget)
    {old : Option Member} {now t : ℤ} (hold : ∀ m, old = some m → m.status ≠ .active)
    (htarget : ∀ k, request.target = some k → k = target.key)
    (htime : request.checkedAt = some t) (hearly : request.earlyClock = some t)
    (hchecked : isGroupBanned checked t = false) (hshows : request.showsNoRoles = true) :
    MemberStep ⟨request, target.gameId, checked, [joinedEvent target (activated old now) ∅], none⟩
      target.key old (activated old now)
      ((MemberResult.mk request target.gameId checked
        [joinedEvent target (activated old now) ∅] none).eventsOf target.key) := by
  rw [eventsOf_joined, if_pos rfl]
  refine MemberStep.entered hold htarget (fun t' ht' => ?_) (.inr ⟨t, htime⟩)
    (.inr ⟨hshows, rfl, rfl⟩) fun e he => absurd he (by simp)
  rw [hearly, Option.some.injEq] at ht'
  rwa [← ht']

lemma keeps_join (verifySecret : Text → Text → Bool) (r : JoinRequest) :
    MemberKeeps (MemberWrites.join verifySecret r) [] some [] db := by
  rw [MemberWrites.join]
  refine keeps_findGroup fun group seen db₁ hgame h₁ => ?_
  split_ifs
  · trivial
  · trivial
  refine reads_checkPasscode _ _ _ _ _ _ _ _ fun _ held seen db₂ _ _ h₂ => ?_
  refine reads_checkBanState _ _ _ _ _ _ _ _ fun checked held seen db₃ hchecked hheld₃ h₃ => ?_
  rw [keeps_query]
  rintro - _ ⟨⟩ db₄ h₄
  refine keeps_lockGroupMembership fun locked held seen db₅ hheld₅ hlock h₅ _ => ?_
  rw [MemberKeeps, keeps_query]
  rintro - _ ⟨⟩ db₆ h₆
  split_ifs with hactive
  · trivial
  refine reads_assertCanActivate _ _ _ _ _ _ _ _ _ fun _ held seen db₇ _ hheld₇ h₇ => ?_
  refine reads_afterActivation _ _ _ _ _ _ _ _ fun _ held seen db₈ _ hheld₈ h₈ => ?_
  have hlock₈ := hheld₈ (hheld₇ hlock)
  have hstatus := MemberEvolves.statusOf_eq (h₆.trans (h₇.trans (h₈.mono hheld₇))) r.key hlock
  refine keeps_activate hlock₈ hstatus (not_active_of_any hactive) (fun _ _ h => by cases h; rfl)
    fun w held seen db₉ hheld₉ hmember h₉ hold hw => ?_
  refine keeps_memberFinish fun c c' hc hchange => ?_
  have hwrites := hw c c' (by simpa using hchange)
  have hsame := MemberEvolves.member hc hmember
  rw [← hsame] at hold ⊢
  refine MemberDb.Changed.single hwrites rfl hmember (.inr (hheld₉ hlock₈))
    (memberStep_joined r.toMemberTarget hold (fun k hk => (Option.some.inj hk).symm) rfl rfl
      hchecked rfl) (fun k hk => ?_) ?_
    (fun _ _ _ h => by cases h)
  · rw [Option.toList_some, List.map_singleton, eventsOf_joined, if_neg fun h => hk h.symm]
  · exact (((((((hgame.evolves h₂).evolves h₃).evolves h₄).evolves h₅).evolves h₆).evolves
      h₇).evolves h₈).evolves h₉ |>.evolves hc

lemma MemberRequest.ne_accept {request : MemberRequest} (h : request.usesInvitation = false)
    (r : RedeemRequest) : request ≠ .accept r := by
  rintro rfl
  cases h

lemma MemberRequest.ne_decline {request : MemberRequest} (h : request.usesInvitation = false)
    (r : DeclineRequest) : request ≠ .decline r := by
  rintro rfl
  cases h

lemma eventsOf_roleChanged {request : MemberRequest} {checked : Option Member}
    {target : MemberTarget} {added removed : Finset Text} {actor : Option Text} {version : ℕ}
    (key : MemberKey) :
    (MemberResult.mk request target.gameId checked
      [roleChangedEvent target added removed actor version] none).eventsOf key =
      if target.key = key then
        [⟨.roleChanged added removed actor, target.key, target.userId, version⟩] else [] :=
  eventsOf_target [_] (by simp) key

/-- A role for someone who is active already. -/
lemma keeps_addRole {r : AddRequest} {request : MemberRequest} {checked : Option Member}
    {roleId : Text} (hplain : request.usesInvitation = false) (hmatch : request.ifMatch = none)
    (hcheck : ∀ t, request.earlyClock = some t → isGroupBanned checked t = false)
    (hgroup : .group r.groupId ∈ held)
    (hactive : ∃ until_, db.statusOf r.key = some (.active, until_))
    (hgame : db.InGame r.groupId r.gameId) :
    MemberKeeps (do
      let version ← bumpMemberVersion r.key
      write (fun _ => [.member r.key]) (fun _ => ()) fun db => db.insertMemberRole r.key roleId
      finish ⟨request, r.gameId, checked, version.toList.map
        (roleChangedEvent r.toMemberTarget {roleId} ∅ r.actorUserId), none⟩) held some seen db := by
  refine keeps_bumpMemberVersion (fun _ _ h => by cases h; rfl)
    fun held₁ seen₁ db₁ hheld₁ hmember h₁ => ?_
  rw [MemberKeeps, keeps_write]
  rintro - view hview db₂ h₂
  refine keeps_memberFinish fun c c' hc hchange => ?_
  obtain ⟨v, hv, hrole⟩ := Option.bind_eq_some_iff.mp hchange
  obtain ⟨m, hm, hbump⟩ := MemberDb.writesMember_updateMember hv
  obtain ⟨m', hm', hfree, hinsert⟩ := MemberDb.writesMember_insertMemberRole hrole
  rw [hbump.member, Option.some.injEq] at hm'
  subst hm'
  have hevolves := (h₂.mono (List.subset_append_left _ _)).trans (hc.mono (List.subset_append_left _ _))
  have hsame : db₁.findMember r.key = some m := by
    rw [← hm, MemberEvolves.member hevolves hmember]
  rw [hsame]
  refine MemberDb.Changed.single (hbump.trans hinsert) hplain (by simp) (.inl ?_) ?_ ?_ ?_ ?_
  · rw [MemberDb.statusOf, MemberDb.statusOf, hinsert.member, hm]
    rfl
  · rw [hm]
    exact (eventsOf_roleChanged r.key).symm ▸ by
      rw [if_pos rfl]
      refine MemberStep.roleAssigned hfree fun t ht => ⟨?_, hcheck t ht⟩
      obtain ⟨until_, hactive⟩ := hactive
      rw [← MemberEvolves.status (h₁.trans (hevolves.mono hheld₁)) hgroup, MemberDb.statusOf, hm,
        Option.map_some, Option.some.injEq, Prod.mk.injEq] at hactive
      exact hactive.1
  · intro k hk
    exact (eventsOf_roleChanged k).trans (if_neg fun h => hk h.symm)
  · exact (hgame.evolves h₁).evolves hevolves
  · intro k v m h
    rw [hmatch] at h
    cases h

/-- The step of an add that makes someone active. -/
lemma memberStep_added {request : MemberRequest} {checked : Option Member} {target : MemberTarget}
    {old : Option Member} {now t : ℤ} {roles : Finset Text} {changes : List MemberEvent}
    (hold : ∀ m, old = some m → m.status ≠ .active) (htarget : request.target = some target.key)
    (htime : request.checkedAt = some t)
    (hcheck : ∀ t, request.earlyClock = some t → isGroupBanned checked t = false)
    (hshows : request.showsNoRoles = false)
    (hchanges : ∀ e ∈ changes, ∃ added actor, added ⊆ roles ∧ e =
      ⟨.roleChanged added ∅ actor, target.key, target.userId, (activated old now).version⟩) :
    let events := ⟨.joined (toPublicMember (activated old now) roles), target.key, target.userId,
      (activated old now).version⟩ :: changes
    let a : MemberResult := ⟨request, target.gameId, checked, events.map .member, none⟩
    MemberStep a target.key old { activated old now with roles := roles } (a.eventsOf target.key) ∧
      ∀ k, k ≠ target.key → a.eventsOf k = [] := by
  intro events a
  have hkeys : ∀ e ∈ events, e.key = target.key := by
    intro e he
    rcases List.mem_cons.mp he with rfl | he
    · rfl
    · obtain ⟨_, _, -, rfl⟩ := hchanges e he
      rfl
  constructor
  · rw [eventsOf_target events hkeys, if_pos rfl]
    refine MemberStep.entered hold (fun k hk => ?_) hcheck (.inr ⟨t, htime⟩) (.inl ⟨hshows, rfl⟩)
      hchanges
    rw [htarget, Option.some.injEq] at hk
    exact hk.symm
  · intro k hk
    rw [eventsOf_target events hkeys, if_neg fun h => hk h.symm]

lemma keeps_addTransaction {r : AddRequest} {request : MemberRequest}
    {limits : Option GroupKindLimits} {checked : Option Member}
    (htarget : request.target = some r.key) (htime : request.checkedAt = some r.checkedAt)
    (hcheck : ∀ t, request.earlyClock = some t → isGroupBanned checked t = false)
    (hshows : request.showsNoRoles = false) (hplain : request.usesInvitation = false)
    (hmatch : request.ifMatch = none) (hgame : db.InGame r.groupId r.gameId) :
    MemberKeeps (addTransaction r request limits checked) held some seen db := by
  have hifMatch : ∀ (k : MemberKey) (v : ℕ), request.ifMatch ≠ some (k, v) := by
    rw [hmatch]
    exact fun _ _ h => by cases h
  rw [addTransaction]
  refine keeps_lockGroupMembership fun locked held seen db₁ hheld₁ hlock h₁ _ => ?_
  have hgame := hgame.evolves h₁
  rw [MemberKeeps, keeps_query]
  rintro - _ ⟨⟩ db₂ h₂
  have hgame := hgame.evolves h₂
  split
  · rename_i hactive
    rw [keeps_query]
    rintro - _ ⟨⟩ db₃ h₃
    split
    · exact keeps_unchanged rfl fun _ _ => MemberDb.redeems_of_plain hplain rfl
    · refine keeps_addRole hplain hmatch hcheck hlock ?_ (hgame.evolves h₃)
      obtain ⟨m, hm, hstatus⟩ := (Option.any_eq_true _ _).mp hactive
      refine ⟨m.bannedUntil, ?_⟩
      rw [MemberEvolves.status (h₂.trans h₃) hlock, MemberDb.statusOf, hm, Option.map_some,
        of_decide_eq_true hstatus]
  · rename_i hactive
    refine reads_assertCanActivate _ _ _ _ _ _ _ _ _ fun _ held seen db₃ _ hheld₃ h₃ => ?_
    refine reads_afterActivation _ _ _ _ _ _ _ _ fun _ held seen db₄ _ hheld₄ h₄ => ?_
    have hgame := (hgame.evolves h₃).evolves h₄
    have hlock₄ := hheld₄ (hheld₃ hlock)
    have hstatus := MemberEvolves.statusOf_eq (h₂.trans (h₃.trans (h₄.mono hheld₃))) r.key hlock
    refine keeps_activate hlock₄ hstatus (not_active_of_any hactive) (fun _ _ h => by cases h; rfl)
      fun w held seen db₅ hheld₅ hmember h₅ hold hw => ?_
    have hgame := hgame.evolves h₅
    rw [MemberKeeps, keeps_query]
    rintro - view hview db₆ h₆
    have hprior : (if (db₁.findMember r.key).isSome = true then
        ((view.findMember r.key).map Member.roles).getD ∅ else ∅) =
        (activated (db₅.findMember r.key) r.now).roles := by
      have hwrites := hw db₅ view (by simpa using hview)
      rw [hwrites.member]
      cases hexisting : db₁.findMember r.key with
      | some _ => rfl
      | none =>
        have hstatus₅ := (MemberEvolves.status h₅ hlock₄).trans hstatus
        rw [hexisting] at hstatus₅
        rw [MemberDb.statusOf_eq_none.mp hstatus₅]
        rfl
    rw [hprior]
    have hsame₆ := MemberEvolves.member h₆ hmember
    split
    · refine keeps_memberFinish fun c c' hc hchange => ?_
      have hwrites := hw c c' (by simpa using hchange)
      have hsame := (MemberEvolves.member hc hmember).trans hsame₆
      rw [← hsame] at hold ⊢
      obtain ⟨hstep, hothers⟩ := @memberStep_added request checked r.toMemberTarget _ r.now _
        (activated (c.findMember r.key) r.now).roles [] hold htarget htime hcheck hshows (by simp)
      exact MemberDb.Changed.single hwrites hplain hmember (.inr (hheld₅ hlock₄)) hstep hothers
        ((hgame.evolves h₆).evolves hc) fun k v _ h => absurd h (hifMatch k v)
    · rename_i roleId hrole
      rw [keeps_write]
      rintro - view' hview' db₇ h₇
      refine keeps_memberFinish fun c c' hc hchange => ?_
      obtain ⟨v, hv, hinsert⟩ := Option.bind_eq_some_iff.mp hchange
      have hwrites := hw c v (by simpa using hv)
      obtain ⟨m, hm, hfree, hinsert⟩ := MemberDb.writesMember_insertMemberRole hinsert
      have h₇ : MemberEvolves held db₆ c := (h₇.mono (List.subset_append_left _ _)).trans
        (hc.mono (List.subset_append_left _ _))
      have hsame := (MemberEvolves.member h₇ hmember).trans hsame₆
      rw [hwrites.member, Option.some.injEq] at hm
      subst hm
      rw [← hsame] at hold ⊢
      obtain ⟨hstep, hothers⟩ := @memberStep_added request checked r.toMemberTarget _ r.now _
        (insert roleId (activated (c.findMember r.key) r.now).roles)
        [_] hold htarget htime hcheck hshows fun e he =>
          ⟨{roleId}, r.actorUserId, by simp, List.mem_singleton.mp he⟩
      exact MemberDb.Changed.single (hwrites.trans hinsert) hplain (by simp)
        (.inr (List.mem_append_left _ (hheld₅ hlock₄))) hstep hothers
        ((hgame.evolves h₆).evolves h₇) fun k v _ h => absurd h (hifMatch k v)

lemma keeps_add (r : AddRequest) : MemberKeeps (MemberWrites.add r) [] some [] db := by
  rw [MemberWrites.add]
  refine keeps_findGroup fun group seen db₁ hgame h₁ => ?_
  have hrole : MemberReads ((r.roleId.map (assertRole r.groupId)).getD (pure ())) fun _ => True := by
    cases r.roleId with
    | none => exact Reads.pure trivial
    | some roleId => exact reads_assertRole _ _
  refine hrole _ _ _ _ _ fun _ held seen db₂ _ _ h₂ => ?_
  refine reads_checkBanState _ _ _ _ _ _ _ _ fun checked held seen db₃ hchecked _ h₃ => ?_
  rw [keeps_query]
  rintro - _ ⟨⟩ db₄ h₄
  exact keeps_addTransaction rfl rfl (fun _ ht => Option.some.inj ht ▸ hchecked) rfl rfl rfl
    (((hgame.evolves h₂).evolves h₃).evolves h₄)

lemma keeps_addAgain (r : AddRequest) (limits : Option GroupKindLimits) (checked : Option Member)
    (passed : isGroupBanned checked r.checkedAt = false) :
    MemberKeeps (MemberWrites.addAgain r limits checked passed) [] some [] db :=
  keeps_findGroup fun _ _ _ hgame _ =>
    keeps_addTransaction rfl rfl (fun _ ht => Option.some.inj ht ▸ passed) rfl rfl rfl hgame

/-! ### Invitations -/

lemma keeps_loadRedemptionTarget {code gameId : Text} {now : ℤ}
    {k : Invitation → MemberTx MemberResult} (hk : ∀ i seen' db',
      (∀ i', db'.invitations.get? code = some i' → i'.groupId = i.groupId) →
      db'.InGame i.groupId gameId → MemberKeeps (k i) held some seen' db') :
    MemberKeeps (loadRedemptionTarget code gameId now >>= k) held some seen db := by
  rw [loadRedemptionTarget, bind_assoc, MemberKeeps, keeps_query]
  rintro - _ ⟨⟩ db' hdb'
  split
  · trivial
  · rename_i i group hfound
    obtain ⟨i', hi, hfound⟩ := Option.bind_eq_some_iff.mp hfound
    obtain ⟨group', hgroup, hpair⟩ := Option.map_eq_some_iff.mp hfound
    cases hpair
    split_ifs with hgame
    · trivial
    · trivial
    · trivial
    · trivial
    · refine hk i _ db' (MemberEvolves.invitationGroup hdb' fun i' hi' => ?_)
        (MemberEvolves.game hdb' ⟨group, hgroup, not_not.mp hgame⟩)
      rw [hi, Option.some.injEq] at hi'
      rw [hi']

/-- Whether an invitation can still be consumed. -/
def MemberDb.unused (db : MemberDb) (code : Text) : Bool :=
  (db.invitations.get? code).any fun i => i.usedAt.isNone

lemma MemberDb.unused_iff {code : Text} :
    db.unused code = true ↔ ∃ i, db.invitations.get? code = some i ∧ i.usedAt = none := by
  simp [MemberDb.unused, Option.any_eq_true]

lemma MemberDb.consumeInvitation_of_unused {code : Text} {usedAt : ℤ} {usedBy : Option Text}
    {i : Invitation} (hi : db.invitations.get? code = some i) (hunused : i.usedAt = none) :
    let used : Invitation := { i with usedAt := some usedAt, usedByUserId := usedBy }
    db.consumeInvitation code usedAt usedBy =
      { db with invitations := db.invitations.set code used } := by
  rw [MemberDb.consumeInvitation, hi]
  simp [hunused]

/-- The consumption of an invitation, which holds it to the end. -/
lemma keeps_consumeInvitation {code : Text} {usedAt : ℤ} {usedBy : Option Text}
    {k : ℕ → MemberTx MemberResult} (hzero : ∀ held' change' seen' db',
      MemberKeeps (k 0) held' change' seen' db')
    (hk : ∀ held' seen' db' i, held ⊆ held' → .invitation code ∈ held' →
      MemberEvolves held db db' → db'.invitations.get? code = some i → i.usedAt = none →
      db.invitations.get? code = some i →
      MemberKeeps (k 1) held' (fun c => some (c.consumeInvitation code usedAt usedBy)) seen' db') :
    MemberKeeps (consumeInvitation code usedAt usedBy >>= k) held some seen db := by
  rw [consumeInvitation, MemberKeeps, keeps_write]
  rintro - _ ⟨⟩ db' hdb'
  cases hunused : db.unused code with
  | false =>
    rw [MemberDb.unused] at hunused
    simp only [hunused]
    exact hzero _ _ _ _
  | true =>
    obtain ⟨i, hi, hnone⟩ := MemberDb.unused_iff.mp hunused
    rw [MemberDb.unused] at hunused
    simp only [hunused, if_true] at hdb' ⊢
    have hlock : .invitation code ∈ held ++ [MemberLock.invitation code] := by simp
    refine hk _ _ db' i (List.subset_append_left _ _) hlock
      (hdb'.mono (List.subset_append_left _ _)) ?_ hnone hi
    rw [MemberEvolves.invitation hdb' hlock, hi]

lemma MemberDb.consumeInvitation_same {code : Text} {usedAt : ℤ} {usedBy : Option Text} :
    (∀ key, (db.consumeInvitation code usedAt usedBy).findMember key = db.findMember key) ∧
    (db.consumeInvitation code usedAt usedBy).groups = db.groups ∧
    (db.consumeInvitation code usedAt usedBy).eventLog = db.eventLog := by
  rw [MemberDb.consumeInvitation]
  split
  · split_ifs <;> exact ⟨fun _ => rfl, rfl, rfl⟩
  · exact ⟨fun _ => rfl, rfl, rfl⟩

/-- The code that a redemption marks as used, with the clock and the person. -/
lemma redeems_of_used {a : MemberResult} {db₁ db' : MemberDb} {code : Text} {usedAt : ℤ}
    {usedBy : Option Text} {i : Invitation} (hi : db.invitations.get? code = some i)
    (hunused : i.usedAt = none) (hlock : .invitation code ∈ held)
    (hdb' : db'.invitations = (db.consumeInvitation code usedAt usedBy).invitations)
    (hdb₁ : ∀ key, db₁.findMember key = db.findMember key)
    (hrequest : (∃ r, a.request = .accept r ∧ r.code = code ∧ r.now = usedAt ∧
        some r.junjoUserId = usedBy ∧ ¬ db.IsActive ⟨i.groupId, r.junjoUserId⟩ ∧
        MemberDb.WritesMember ⟨i.groupId, r.junjoUserId⟩
          (activated (db.findMember ⟨i.groupId, r.junjoUserId⟩) r.now) db₁ db') ∨
      ∃ r, a.request = .decline r ∧ r.code = code ∧ r.now = usedAt ∧
        r.person.map Prod.fst = usedBy) : MemberDb.Redeems a held db db' := by
  rw [MemberDb.consumeInvitation_of_unused hi hunused] at hdb'
  have hused : db'.invitations.get? code =
      some { i with usedAt := some usedAt, usedByUserId := usedBy } := by
    rw [hdb', Dict.get?_set_self]
  refine ⟨fun code' => ?_, fun r hr => ?_, fun r hr => ?_, fun r _ hr _ => ?_⟩
  · by_cases hcode : code' = code
    · subst hcode
      refine .inr ⟨hlock, ?_⟩
      rw [hi, hused]
      obtain ⟨r, hr, rfl, rfl, rfl, -⟩ | ⟨r, hr, rfl, rfl, rfl⟩ := hrequest
      · exact InvitationStep.accepted hr rfl hunused
      · exact InvitationStep.declined hr rfl hunused
    · exact .inl (by rw [hdb', Dict.get?_set_of_ne _ _ hcode])
  · obtain ⟨r', hr', rfl, rfl, rfl, hinactive, hwrites⟩ | ⟨r', hr', -⟩ := hrequest
    · rw [hr] at hr'
      cases hr'
      exact ⟨i, hi, hunused, hused, hinactive, hwrites.member,
        fun key hkey => (hwrites.others key hkey).trans (hdb₁ key)⟩
    · rw [hr] at hr'
      cases hr'
  · obtain ⟨r', hr', -⟩ | ⟨r', hr', rfl, rfl, rfl⟩ := hrequest
    · rw [hr] at hr'
      cases hr'
    · rw [hr] at hr'
      cases hr'
      exact ⟨i, hi, hunused, hused⟩
  · obtain ⟨r', hr', -⟩ | ⟨r', hr', -⟩ := hrequest
    all_goals
      rw [hr] at hr'
      cases hr'

lemma keeps_accept (r : RedeemRequest) : MemberKeeps (MemberWrites.accept r) [] some [] db := by
  rw [MemberWrites.accept]
  refine keeps_loadRedemptionTarget fun invitation seen db₁ hinvitation hgame => ?_
  refine reads_assertInvitationTarget _ _ _ _ _ _ _ _ _ fun _ held seen db₂ _ _ h₂ => ?_
  refine reads_checkBanState _ _ _ _ _ _ _ _ fun checked held seen db₃ hchecked _ h₃ => ?_
  have hinvitation := MemberEvolves.invitationGroup h₂ hinvitation
  have hinvitation := MemberEvolves.invitationGroup h₃ hinvitation
  have hgame := (hgame.evolves h₂).evolves h₃
  refine keeps_lockGroupMembership fun locked held seen db₄ _ hlock h₄ _ => ?_
  rw [MemberKeeps, keeps_query]
  rintro - _ ⟨⟩ db₅ h₅
  rw [keeps_query]
  rintro - _ ⟨⟩ db₆ h₆
  have hinvitation := MemberEvolves.invitationGroup h₄ hinvitation
  have hinvitation := MemberEvolves.invitationGroup (h₅.trans h₆) hinvitation
  have hgame := (hgame.evolves h₄).evolves (h₅.trans h₆)
  split
  · trivial
  rename_i hactive
  refine reads_assertCanActivate _ _ _ _ _ _ _ _ _ fun _ held seen db₇ _ hheld₇ h₇ => ?_
  refine reads_afterActivation _ _ _ _ _ _ _ _ fun _ held seen db₈ _ hheld₈ h₈ => ?_
  have hinvitation := MemberEvolves.invitationGroup h₇ hinvitation
  have hinvitation := MemberEvolves.invitationGroup h₈ hinvitation
  have hgame := (hgame.evolves h₇).evolves h₈
  refine keeps_consumeInvitation (fun _ _ _ _ => trivial)
    fun held seen db₉ i hheld₉ hcode h₉ hi hunused hi₈ => ?_
  have hgroup := hinvitation i hi₈
  have hlock₉ := hheld₉ (hheld₈ (hheld₇ hlock))
  let key : MemberKey := ⟨invitation.groupId, r.junjoUserId⟩
  have hstatus := MemberEvolves.statusOf_eq
    (h₆.trans (h₇.trans ((h₈.mono hheld₇).trans (h₉.mono (List.Subset.trans hheld₇ hheld₈))))) key
    hlock
  refine keeps_activate hlock₉ hstatus (not_active_of_any hactive)
    (fun c v h => by cases h; exact MemberDb.consumeInvitation_same.1 _)
    fun w held seen db₁₀ hheld₁₀ hmember h₁₀ hold hw => ?_
  refine keeps_memberFinish fun c c' hc hchange => ?_
  have hwrites := hw _ c' (by simpa using hchange)
  obtain ⟨hmembers, hgroups, hlog⟩ := @MemberDb.consumeInvitation_same c r.code r.now
    (some r.junjoUserId)
  rw [hmembers] at hwrites
  have hsame := MemberEvolves.member hc hmember
  have hi : c.invitations.get? r.code = some i := by
    rw [MemberEvolves.invitation hc (hheld₁₀ hcode), MemberEvolves.invitation h₁₀ hcode, hi]
  rw [← hsame] at hold ⊢
  refine MemberDb.Changed.of_member hwrites.member
    (fun k hk => (hwrites.others k hk).trans (hmembers k))
    (fun id g hg => by rw [hwrites.groups, hgroups, hg]) (hwrites.eventLog.trans hlog) ?_ hmember (.inr (hheld₁₀ hlock₉))
    (memberStep_joined ⟨r.gameId, invitation.groupId, r.junjoUserId, r.userId⟩ hold
      (fun k hk => by cases hk) rfl rfl hchecked rfl)
    (fun k hk => ?_) ?_ (fun _ _ _ h => by cases h)
  · refine redeems_of_used hi hunused (hheld₁₀ hcode) hwrites.invitations hmembers
      (.inl ⟨r, rfl, rfl, rfl, rfl, ?_, ?_⟩)
    · rw [hgroup]
      exact fun ⟨m, hm, hactive⟩ => hold m hm hactive
    · rw [hgroup]
      exact hwrites
  · rw [Option.toList_some, List.map_singleton]
    exact (eventsOf_joined k).trans (if_neg fun h => hk h.symm)
  · rw [MemberDb.InGame, hwrites.groups, hgroups]
    exact ((hgame.evolves h₉).evolves h₁₀).evolves hc

lemma keeps_decline (r : DeclineRequest) : MemberKeeps (MemberWrites.decline r) [] some [] db := by
  rw [MemberWrites.decline]
  refine keeps_loadRedemptionTarget fun invitation seen db₁ _ _ => ?_
  refine reads_assertDecliner _ _ _ _ _ _ _ fun _ held seen db₂ _ _ h₂ => ?_
  refine keeps_consumeInvitation (fun _ _ _ _ => trivial)
    fun held seen db₃ i hheld₃ hcode h₃ hi hunused _ => ?_
  rw [if_neg one_ne_zero]
  rintro - - _ ⟨⟩
  refine ⟨trivial, db₃.consumeInvitation r.code r.now (r.person.map Prod.fst), ?_, rfl⟩
  obtain ⟨hmembers, hgroups, hlog⟩ := @MemberDb.consumeInvitation_same db₃ r.code r.now
    (r.person.map Prod.fst)
  have hredeems := @redeems_of_used held db₃ ⟨.decline r, r.gameId, none, [], none⟩ _ _ r.code r.now
    (r.person.map Prod.fst) i hi hunused hcode rfl hmembers (.inr ⟨r, rfl, rfl, rfl, rfl⟩)
  exact ⟨hredeems, fun id g hg => .inl (by rw [hgroups, hg]),
    fun key => .inl ⟨hmembers key, rfl⟩, fun key hkey => absurd rfl hkey,
    fun key _ _ _ hkey => absurd rfl hkey, hlog⟩

lemma keeps_revoke (r : RevokeRequest) : MemberKeeps (MemberWrites.revoke r) [] some [] db := by
  rw [MemberWrites.revoke, MemberKeeps, keeps_query]
  rintro - _ ⟨⟩ db₁ h₁
  split
  · trivial
  · rename_i invitation group hfound
    obtain ⟨i, hinvitation, hgroup⟩ := Option.bind_eq_some_iff.mp hfound
    obtain ⟨g, -, hpair⟩ := Option.map_eq_some_iff.mp hgroup
    cases hpair
    split_ifs with hgame hunused
    · trivial
    · exact keeps_unchanged rfl fun _ _ =>
        MemberDb.redeems_self (fun _ h => by cases h) (fun _ h => by cases h) rfl
    · rw [keeps_write]
      rintro - _ ⟨⟩ db₂ h₂ - - db' hdb'
      have hdelete : db₂.deleteInvitation r.code = some db' := by simpa using hdb'
      rw [MemberDb.deleteInvitation] at hdelete
      split_ifs at hdelete with hhas
      cases hdelete
      obtain ⟨i, hi⟩ := Dict.mem_keys_iff.mp (Dict.has_iff.mp hhas)
      have hsince : i = invitation ∨ i.usedAt ≠ none := MemberEvolves.invitationSince
        (h₁.trans (h₂.mono (List.subset_append_left _ _))) hinvitation i hi
      refine ⟨trivial, { db₂ with invitations := db₂.invitations.delete r.code },
        ⟨⟨fun code => ?_, fun _ h => (by cases h), fun _ h => (by cases h), ?_⟩, fun _ _ hg => .inl hg,
        fun _ => .inl ⟨rfl, rfl⟩, fun _ hkey => absurd rfl hkey,
        fun _ _ _ _ hkey => absurd rfl hkey, rfl⟩, rfl⟩
      · by_cases hcode : code = r.code
        · subst hcode
          refine .inr ⟨by simp, ?_⟩
          rw [hi, Dict.get?_delete_self]
          exact InvitationStep.revoked rfl rfl rfl (by simpa using hunused) hsince
        · exact .inl (Dict.get?_delete_of_ne _ hcode)
      · rintro _ _ ⟨⟩ ⟨⟩
        exact ⟨Dict.get?_delete_self _ _, i, hi, hsince⟩

end Activations

/-! ### Departures and bans -/

section Departures

variable {held : List MemberLock} {seen : List MemberDb} {db : MemberDb}

lemma eventsOf_append_deleted {request : MemberRequest} {gameId : Text} {checked : Option Member}
    {events deleted : List GroupEvent}
    (h : ∀ key, deleted.filterMap (GroupEvent.about key) = []) (key : MemberKey) :
    (MemberResult.mk request gameId checked (events ++ deleted) none).eventsOf key =
      (MemberResult.mk request gameId checked events none).eventsOf key := by
  rw [MemberResult.eventsOf, List.filterMap_append, h key, List.append_nil]
  rfl

/-- The end of a write that updates a row under the group's lock, maybe the last one of the
group. -/
lemma keeps_updateAndClose (target : MemberTarget) (event : Member → MemberEvent)
    {request : MemberRequest} {checked : Option Member} {data : Member → Member}
    {limits : Option GroupKindLimits} {departed : Bool} {now : ℤ}
    (hkey : ∀ m, (event m).key = target.key)
    (hplain : request.usesInvitation = false) (hgroup : .group target.groupId ∈ held)
    (hgame : db.InGame target.groupId target.gameId)
    (hstep : ∀ c m, MemberEvolves held db c → c.findMember target.key = some m →
      (∀ k v, request.ifMatch = some (k, v) → m.version = v) ∧
      ∀ a : MemberResult, a.request = request → a.checked = checked →
        MemberStep a target.key (some m) (data m) [event (data m)]) :
    MemberKeeps (do
      let member ← MemberWrites.updateMember target.key data
      let deleted ← afterMembershipChange target.groupId limits departed now
      finish ⟨request, target.gameId, checked,
        member.toList.map (fun m => .member (event m)) ++ deleted, none⟩) held some seen db := by
  refine keeps_updateMember (fun _ _ h => by cases h; rfl)
    fun held₁ seen₁ db₁ hheld₁ hmember h₁ => ?_
  refine keeps_afterMembershipChange fun deleted w held₂ seen₂ db₂ hheld₂ hlock₂ h₂ hdeleted hw => ?_
  refine keeps_memberFinish fun c c' hc hchange => ?_
  obtain ⟨v, hv, hclose⟩ := Option.bind_eq_some_iff.mp hchange
  obtain ⟨m, hm, hwrites⟩ := MemberDb.writesMember_updateMember (Option.bind_some _ _ ▸ hv)
  have hevolves := h₂.trans (hc.mono hheld₂)
  have hsame : db₁.findMember target.key = some m := by
    rw [← hm, MemberEvolves.member hevolves hmember]
  rw [hsame]
  obtain ⟨hversion, hstep⟩ := hstep c m (h₁.trans (hevolves.mono hheld₁)) hm
  have hevents : ∀ key, (MemberResult.mk request target.gameId checked
      ((some (data m)).toList.map (fun m => .member (event m)) ++ deleted) none).eventsOf key =
      if target.key = key then [event (data m)] else [] := fun key =>
    (eventsOf_append_deleted hdeleted key).trans (eventsOf_target [_] (by simpa using hkey _) key)
  refine MemberDb.Changed.deletes ?_ hlock₂ (hw v c' hclose)
  refine MemberDb.Changed.single hwrites hplain (hheld₂ hmember) (.inr (hheld₂ (hheld₁ hgroup)))
    ?_ ?_ ((hgame.evolves h₁).evolves hevolves) ?_
  · rw [hm]
    exact (hevents target.key).trans (if_pos rfl) ▸ hstep _ rfl rfl
  · exact fun k hk => (hevents k).trans (if_neg fun h => hk h.symm)
  · intro k v' m' hmatch hm'
    rw [hm, Option.some.injEq] at hm'
    exact hm' ▸ hversion k v' hmatch

lemma keeps_depart {target : MemberTarget} {request : MemberRequest} {checked : Option Member}
    {status : MemberStatus} {limits : Option GroupKindLimits} {now : ℤ}
    (hplain : request.usesInvitation = false) (hgroup : .group target.groupId ∈ held)
    (hgame : db.InGame target.groupId target.gameId)
    (hstatus : status = .left ∨ status = .kicked) (htarget : request.target = some target.key)
    (hstep : ∀ c m, MemberEvolves held db c → c.findMember target.key = some m →
      (∀ k v, request.ifMatch = some (k, v) → m.version = v) ∧
      ((m.status = .active ∧ request.earlyClock = none) ∨
        (∃ r, request = .kickAdmin r) ∧ ∃ m', checked = some m' ∧ m'.status = .active)) :
    MemberKeeps (MemberWrites.depart request target checked status limits now) held some seen
      db := by
  rw [MemberWrites.depart]
  refine keeps_updateAndClose target (fun m => ⟨.left status, target.key, target.userId, m.version⟩)
    (fun _ => rfl) hplain hgroup hgame fun c m hc hm => ?_
  obtain ⟨hversion, hactive⟩ := hstep c m hc hm
  refine ⟨hversion, ?_⟩
  rintro a rfl rfl
  exact MemberStep.departed hstatus htarget hactive

lemma keeps_leave (r : LeaveRequest) : MemberKeeps (MemberWrites.leave r) [] some [] db := by
  rw [MemberWrites.leave]
  refine keeps_findGroup fun group seen db₁ hgame h₁ => ?_
  refine keeps_findMember fun member seen db₂ _ h₂ => ?_
  split
  · exact keeps_unchanged rfl fun _ _ => MemberDb.redeems_of_plain rfl rfl
  rw [MemberKeeps, keeps_query]
  rintro - _ ⟨⟩ db₃ h₃
  refine keeps_lockGroupMembership fun _ held seen db₄ _ hgroup h₄ _ => ?_
  refine keeps_lockMember fun current held seen db₅ hheld₅ hlock h₅ hcurrent => ?_
  split
  · exact keeps_unchanged rfl fun _ _ => MemberDb.redeems_of_plain rfl rfl
  · rename_i hactive
    refine keeps_depart rfl (hheld₅ hgroup)
      ((((hgame.evolves h₂).evolves h₃).evolves h₄).evolves h₅) (.inl rfl) rfl
      fun c m hc hm => ?_
    rw [← MemberEvolves.member hc hlock, hm, Option.some.injEq] at hcurrent
    exact ⟨fun _ _ h => (by cases h), .inl ⟨hcurrent ▸ not_not.mp hactive, rfl⟩⟩

/-- The version that a request names. -/
lemma version_of_ifMatch {ifMatch : Option ℕ} {key k : MemberKey} {v version : ℕ}
    (h : ∀ v, ifMatch = some v → version = v) (hmatch : ifMatch.map (key, ·) = some (k, v)) :
    version = v := by
  obtain ⟨v', hv, hpair⟩ := Option.map_eq_some_iff.mp hmatch
  cases hpair
  exact h _ hv

lemma keeps_kick (r : KickRequest) : MemberKeeps (MemberWrites.kick r) [] some [] db := by
  rw [MemberWrites.kick]
  refine keeps_findGroup fun group seen db₁ hgame h₁ => ?_
  refine keeps_findMember fun member seen db₂ _ h₂ => ?_
  split
  · refine reads_assertVersion _ _ _ _ _ _ _ fun _ held seen db₃ _ _ h₃ => ?_
    exact keeps_unchanged rfl fun _ _ => MemberDb.redeems_of_plain rfl rfl
  rw [MemberKeeps, keeps_query]
  rintro - _ ⟨⟩ db₃ h₃
  refine keeps_lockGroupMembership fun _ held seen db₄ _ hgroup h₄ _ => ?_
  refine keeps_lockMember fun current held seen db₅ hheld₅ hlock h₅ hcurrent => ?_
  refine reads_assertVersion _ _ _ _ _ _ _ fun _ held seen db₆ hversion hheld₆ h₆ => ?_
  split
  · exact keeps_unchanged rfl fun _ _ => MemberDb.redeems_of_plain rfl rfl
  · rename_i hactive
    refine keeps_depart rfl (hheld₆ (hheld₅ hgroup))
      (((((hgame.evolves h₂).evolves h₃).evolves h₄).evolves h₅).evolves h₆) (.inr rfl) rfl
      fun c m hc hm => ?_
    rw [← MemberEvolves.member (h₆.trans (hc.mono hheld₆)) hlock, hm, Option.some.injEq] at hcurrent
    rw [← hcurrent] at hversion hactive
    exact ⟨fun _ _ h => version_of_ifMatch hversion h, .inl ⟨not_not.mp hactive, rfl⟩⟩

lemma keeps_kickAdmin (r : LeaveRequest) :
    MemberKeeps (MemberWrites.kickAdmin r) [] some [] db := by
  rw [MemberWrites.kickAdmin]
  refine keeps_findGroup fun group seen db₁ hgame h₁ => ?_
  refine keeps_findMember fun member seen db₂ _ h₂ => ?_
  split
  · exact keeps_unchanged rfl fun _ _ => MemberDb.redeems_of_plain rfl rfl
  rename_i hactive
  rw [MemberKeeps, keeps_query]
  rintro - _ ⟨⟩ db₃ h₃
  refine keeps_lockGroupMembership fun _ held seen db₄ _ hgroup h₄ _ => ?_
  refine keeps_depart rfl hgroup (((hgame.evolves h₂).evolves h₃).evolves h₄) (.inr rfl) rfl
    fun c m _ _ => ?_
  exact ⟨fun _ _ h => (by cases h), .inr ⟨⟨r, rfl⟩, member, rfl, not_not.mp hactive⟩⟩

lemma keeps_ban (r : MemberBanRequest) : MemberKeeps (MemberWrites.ban r) [] some [] db := by
  rw [MemberWrites.ban]
  refine keeps_findGroup fun group seen db₁ hgame h₁ => ?_
  rw [MemberKeeps, keeps_query]
  rintro - _ ⟨⟩ db₂ h₂
  refine keeps_lockGroupMembership fun _ held seen db₃ _ hgroup h₃ _ => ?_
  rw [MemberKeeps, keeps_query]
  rintro - _ ⟨⟩ db₄ h₄
  have hgame := ((hgame.evolves h₂).evolves h₃).evolves h₄
  cases hexisting : db₃.findMember r.key with
  | some existing =>
    rw [banRow, bind_assoc]
    refine keeps_lockMemberVersion fun current held seen db₅ hheld₅ hlock h₅ hcurrent hversion => ?_
    refine keeps_updateAndClose r.toMemberTarget
      (fun m => ⟨.banned r.reason r.expiresAt, r.key, r.userId, m.version⟩) (fun _ => rfl) rfl
      (hheld₅ hgroup) (hgame.evolves h₅)
      fun c m hc hm => ⟨fun _ _ h => version_of_ifMatch (fun v hv => ?_) h, ?_⟩
    · rw [← MemberEvolves.member hc hlock, hm, Option.some.injEq] at hcurrent
      exact hcurrent ▸ hversion v hv
    · rintro a ha -
      exact MemberStep.banned ⟨r, ha⟩
  | none =>
    rw [banRow, MemberWrites.insertMember, keeps_write]
    rintro - _ ⟨⟩ db₅ h₅
    refine keeps_afterMembershipChange fun deleted w held₆ seen₆ db₆ hheld₆ hlock₆ h₆ hdeleted hw => ?_
    refine keeps_memberFinish fun c c' hc hchange => ?_
    obtain ⟨v, hv, hclose⟩ := Option.bind_eq_some_iff.mp hchange
    obtain ⟨hnone, hwrites⟩ := MemberDb.writesMember_insertMember (Option.bind_some _ _ ▸ hv)
    have hevents : ∀ key, (MemberResult.mk (.ban r) r.gameId none
        ([.member ⟨.banned r.reason r.expiresAt, r.key, r.userId, 1⟩] ++ deleted) none).eventsOf key =
        if r.key = key then [⟨.banned r.reason r.expiresAt, r.key, r.userId, 1⟩] else [] :=
      fun key => (eventsOf_append_deleted hdeleted key).trans (eventsOf_target [_] (by simp) key)
    refine MemberDb.Changed.deletes ?_ hlock₆ (hw v c' hclose)
    refine MemberDb.Changed.single hwrites rfl (hheld₆ (by simp))
      (.inr (hheld₆ (List.mem_append_left _ hgroup))) ?_ ?_
      (((hgame.evolves h₅).evolves h₆).evolves hc) fun _ _ m _ hm => ?_
    · rw [hnone]
      exact (hevents r.key).trans (if_pos rfl) ▸ MemberStep.bannedNew ⟨r, rfl⟩
    · exact fun k hk => (hevents k).trans (if_neg fun h => hk h.symm)
    · rw [hnone] at hm
      cases hm

lemma keeps_unban (r : MemberUnbanRequest) : MemberKeeps (MemberWrites.unban r) [] some [] db := by
  rw [MemberWrites.unban]
  refine keeps_findGroup fun group seen db₁ hgame h₁ => ?_
  rw [MemberKeeps, keeps_query]
  rintro - _ ⟨⟩ db₂ h₂
  split
  · trivial
  refine keeps_lockGroupMembership fun _ held seen db₃ _ hgroup h₃ _ => ?_
  refine keeps_lockMember fun current held seen db₄ hheld₄ hlock h₄ hcurrent => ?_
  split
  · trivial
  rename_i hbanned
  refine reads_assertVersion _ _ _ _ _ _ _ fun _ held seen db₅ hversion hheld₅ h₅ => ?_
  refine keeps_updateMember (fun _ _ h => by cases h; rfl)
    fun held seen db₆ hheld₆ hmember h₆ => ?_
  refine reads_afterActivation _ _ _ _ _ _ _ _ fun _ held seen db₇ _ hheld₇ h₇ => ?_
  refine keeps_memberFinish fun c c' hc hchange => ?_
  obtain ⟨m, hm, hwrites⟩ := MemberDb.writesMember_updateMember (Option.bind_some _ _ ▸ hchange)
  have hevolves := h₇.trans (hc.mono hheld₇)
  have hsame : db₆.findMember r.key = some m := by
    rw [← hm, MemberEvolves.member hevolves hmember]
  rw [← MemberEvolves.member (h₅.trans ((h₆.trans (hevolves.mono hheld₆)).mono hheld₅)) hlock, hm,
    Option.some.injEq] at hcurrent
  rw [← hcurrent] at hversion hbanned
  rw [hsame]
  have hevents := @eventsOf_target (.unban r) r.gameId (db₁.findMember r.key)
    [⟨.unbanned, r.key, r.userId, m.version + 1⟩] r.key (by simp)
  refine MemberDb.Changed.single hwrites rfl (hheld₇ hmember)
    (.inr (hheld₇ (hheld₆ (hheld₅ (hheld₄ hgroup))))) ?_
    (fun k hk => (hevents k).trans (if_neg fun h => hk h.symm)) ?_ fun k v m' hmatch hm' => ?_
  · rw [hm]
    exact (hevents r.key).trans (if_pos rfl) ▸ MemberStep.unbanned (not_not.mp hbanned) ⟨r, rfl, rfl⟩
  · exact ((((((hgame.evolves h₂).evolves h₃).evolves h₄).evolves h₅).evolves h₆).evolves
      hevolves)
  · rw [hm, Option.some.injEq] at hm'
    exact hm' ▸ version_of_ifMatch hversion hmatch

end Departures

/-! ### Metadata, roles and overrides -/

section Rows

variable {held : List MemberLock} {seen : List MemberDb} {db : MemberDb}

/-- The commit of a write of a row that is locked, with one event about it. -/
lemma changed_row {target : MemberTarget} {request : MemberRequest} {checked : Option Member}
    {c c' : MemberDb} {m new : Member} (event : MemberEvent) (hkey : event.key = target.key)
    (hplain : request.usesInvitation = false) (hlock : .member target.key ∈ held)
    (hm : c.findMember target.key = some m) (hwrites : MemberDb.WritesMember target.key new c c')
    (hstatus : new.status = m.status ∧ new.bannedUntil = m.bannedUntil)
    (hgame : c.InGame target.groupId target.gameId)
    (hversion : ∀ k v, request.ifMatch = some (k, v) → m.version = v)
    (hstep : ∀ a : MemberResult, a.request = request → a.checked = checked →
      MemberStep a target.key (some m) new [event]) :
    MemberDb.Changed ⟨request, target.gameId, checked, [.member event], none⟩ held c c' := by
  have hevents := @eventsOf_target request target.gameId checked [event] target.key
    (by simpa using hkey)
  refine MemberDb.Changed.single hwrites hplain hlock (.inl ?_) ?_
    (fun k hk => (hevents k).trans (if_neg fun h => hk h.symm)) hgame fun k v m' hmatch hm' => ?_
  · rw [MemberDb.statusOf, MemberDb.statusOf, hwrites.member, hm]
    simp [hstatus.1, hstatus.2]
  · rw [hm]
    exact (hevents target.key).trans (if_pos rfl) ▸ hstep _ rfl rfl
  · rw [hm, Option.some.injEq] at hm'
    exact hm' ▸ hversion k v hmatch

lemma keeps_patch (r : MemberPatchRequest) :
    MemberKeeps (MemberWrites.patch r) [] some [] db := by
  rw [MemberWrites.patch]
  refine keeps_findGroup fun group seen db₁ hgame h₁ => ?_
  refine keeps_findMember fun member seen db₂ _ h₂ => ?_
  dsimp only
  split
  · refine reads_assertVersion _ _ _ _ _ _ _ fun _ held seen db₃ _ _ h₃ => ?_
    exact keeps_unchanged rfl fun _ _ => MemberDb.redeems_of_plain rfl rfl
  rename_i hpatch
  refine keeps_lockMemberVersion fun current held seen db₃ _ hlock h₃ hcurrent hversion => ?_
  refine keeps_updateMember (fun _ _ h => by cases h; rfl)
    fun held seen db₄ hheld₄ hmember h₄ => ?_
  refine keeps_memberFinish fun c c' hc hchange => ?_
  obtain ⟨m, hm, hwrites⟩ := MemberDb.writesMember_updateMember (Option.bind_some _ _ ▸ hchange)
  have hsame : db₄.findMember r.key = some m := by rw [← hm, MemberEvolves.member hc hmember]
  rw [← MemberEvolves.member (h₄.trans (hc.mono hheld₄)) hlock, hm, Option.some.injEq] at hcurrent
  rw [← hcurrent] at hversion
  rw [hsame]
  exact changed_row ⟨.updated (MemberPatch.diff r member).changed, r.key, r.userId, m.version + 1⟩
    rfl rfl hmember hm hwrites ⟨rfl, rfl⟩ ((((hgame.evolves h₂).evolves h₃).evolves h₄).evolves hc)
    (fun _ _ h => version_of_ifMatch hversion h) fun a ha hchecked =>
      MemberStep.patched hpatch ⟨r, member, ha, hchecked, rfl⟩

/-- The end of a write that changed the rows hanging on a member. -/
lemma keeps_bumpAndLog (target : MemberTarget) (event : ℕ → MemberEvent) (f : Member → Member)
    {request : MemberRequest} {w : MemberDb → Option MemberDb}
    (hw : ∀ c v, w c = some v → ∃ m, c.findMember target.key = some m ∧
      MemberDb.WritesMember target.key (f m) c v)
    (hf : ∀ m, (f m).version = m.version ∧ (f m).status = m.status ∧
      (f m).bannedUntil = m.bannedUntil)
    (hkey : ∀ v, (event v).key = target.key) (hplain : request.usesInvitation = false)
    (hgame : db.InGame target.groupId target.gameId)
    (hstep : ∀ c v m, MemberEvolves held db c → w c = some v → c.findMember target.key = some m →
      (∀ k v, request.ifMatch = some (k, v) → m.version = v) ∧
      ∀ a : MemberResult, a.request = request →
        MemberStep a target.key (some m) (f m).bumpVersion [event (m.version + 1)]) :
    MemberKeeps (do
      let version ← bumpMemberVersion target.key
      finish ⟨request, target.gameId, none, version.toList.map fun v => .member (event v), none⟩) held
      (fun c => (some c).bind w) seen db := by
  refine keeps_bumpMemberVersion (fun c v hv => ?_) fun held₁ seen₁ db₁ hheld₁ hmember h₁ => ?_
  · obtain ⟨m, hm, hwrites⟩ := hw c v (by simpa using hv)
    rw [hm, hwrites.member, Option.map_some, Option.map_some, (hf m).1]
  refine keeps_memberFinish fun c c' hc hchange => ?_
  obtain ⟨v, hv, hbump⟩ := Option.bind_eq_some_iff.mp hchange
  rw [Option.bind_some] at hv
  obtain ⟨m, hm, hwrites⟩ := hw c v hv
  obtain ⟨m', hm', hwrites'⟩ := MemberDb.writesMember_updateMember hbump
  rw [hwrites.member, Option.some.injEq] at hm'
  subst hm'
  have hsame : db₁.findMember target.key = some m := by
    rw [← hm, MemberEvolves.member hc hmember]
  rw [hsame]
  obtain ⟨hversion, hstep⟩ := hstep c v m (h₁.trans (hc.mono hheld₁)) hv hm
  exact changed_row (event (m.version + 1)) (hkey _) hplain hmember hm (hwrites.trans hwrites')
    (hf m).2 ((hgame.evolves h₁).evolves hc) hversion fun a ha _ => hstep a ha

lemma keeps_assignRole (r : MemberRoleRequest) :
    MemberKeeps (MemberWrites.assignRole r) [] some [] db := by
  rw [MemberWrites.assignRole]
  refine keeps_findGroup fun group seen db₁ hgame h₁ => ?_
  refine keeps_findMember fun member seen db₂ _ h₂ => ?_
  refine reads_assertRole _ _ _ _ _ _ _ fun _ held seen db₃ _ _ h₃ => ?_
  rw [keeps_query]
  rintro - _ ⟨⟩ db₄ h₄
  have hgame := ((hgame.evolves h₂).evolves h₃).evolves h₄
  split
  · refine reads_assertVersion _ _ _ _ _ _ _ fun _ held seen db₅ _ _ h₅ => ?_
    exact keeps_unchanged rfl fun _ _ => MemberDb.redeems_of_plain rfl rfl
  refine keeps_lockMemberVersion fun current held seen db₅ _ hlock h₅ hcurrent hversion => ?_
  rw [MemberKeeps, keeps_write]
  rintro - _ ⟨⟩ db₆ h₆
  refine keeps_bumpAndLog r.toMemberTarget
    (fun v => ⟨.roleChanged {r.roleId} ∅ r.actorUserId, r.key, r.userId, v⟩)
    (fun m => { m with roles := insert r.roleId m.roles }) (fun c v h => ?_)
    (fun m => ⟨rfl, rfl, rfl⟩) (fun _ => rfl) rfl
    ((hgame.evolves h₅).evolves h₆) fun c v m hc hv hm => ?_
  · obtain ⟨m, hm, -, hwrites⟩ := MemberDb.writesMember_insertMemberRole h
    exact ⟨m, hm, hwrites⟩
  · obtain ⟨m', hm', hfree, -⟩ := MemberDb.writesMember_insertMemberRole hv
    rw [hm, Option.some.injEq] at hm'
    subst hm'
    have hevolves := (h₆.trans hc).mono (List.subset_append_left _ _)
    rw [← MemberEvolves.member hevolves hlock, hm, Option.some.injEq] at hcurrent
    exact ⟨fun _ _ h => version_of_ifMatch (hcurrent ▸ hversion) h,
      fun a ha => MemberStep.roleAssigned hfree fun t ht => by rw [ha] at ht; cases ht⟩

lemma keeps_unassignRole (r : MemberRoleRequest) :
    MemberKeeps (MemberWrites.unassignRole r) [] some [] db := by
  rw [MemberWrites.unassignRole]
  refine keeps_findGroup fun group seen db₁ hgame h₁ => ?_
  refine keeps_findMember fun member seen db₂ _ h₂ => ?_
  rw [MemberKeeps, keeps_query]
  rintro - _ ⟨⟩ db₃ h₃
  have hgame := (hgame.evolves h₂).evolves h₃
  split
  · refine reads_assertVersion _ _ _ _ _ _ _ fun _ held seen db₄ _ _ h₄ => ?_
    exact keeps_unchanged rfl fun _ _ => MemberDb.redeems_of_plain rfl rfl
  refine keeps_lockMemberVersion fun current held seen db₄ _ hlock h₄ hcurrent hversion => ?_
  rw [MemberKeeps, keeps_write]
  rintro - _ ⟨⟩ db₅ h₅
  have hgame := (hgame.evolves h₄).evolves h₅
  rw [hcurrent]
  split
  · -- the role was taken away before the lock
    rename_i hgone
    have hsame : current.roles.erase r.roleId = current.roles :=
      Finset.erase_eq_of_notMem (by simpa using hgone)
    rintro - - c' hc'
    obtain ⟨m, hm, hwrites⟩ := MemberDb.writesMember_updateMember (by simpa using hc')
    have hmember := MemberEvolves.member h₅ (List.mem_append_left _ hlock)
    rw [hmember, hcurrent, Option.some.injEq] at hm
    subst hm
    refine ⟨trivial, c', ⟨MemberDb.redeems_of_plain rfl hwrites.invitations,
      fun id g hg => .inl (by rw [hwrites.groups, hg]), fun key => .inl ⟨?_, rfl⟩,
      fun _ hkey => absurd rfl hkey, fun _ _ _ _ hkey => absurd rfl hkey, hwrites.eventLog⟩, rfl⟩
    by_cases hkey : key = r.key
    · rw [hkey, hwrites.member, hmember, hcurrent]
      simp only [hsame]
    · exact hwrites.others key hkey
  · rename_i hheld
    refine keeps_bumpAndLog r.toMemberTarget
      (fun v => ⟨.roleChanged ∅ {r.roleId} r.actorUserId, r.key, r.userId, v⟩)
      (fun m => { m with roles := m.roles.erase r.roleId })
      (fun c v h => MemberDb.writesMember_updateMember h) (fun m => ⟨rfl, rfl, rfl⟩)
      (fun _ => rfl) rfl hgame fun c v m hc hv hm => ?_
    have hevolves := (h₅.trans hc).mono (List.subset_append_left _ _)
    rw [← MemberEvolves.member hevolves hlock, hm, Option.some.injEq] at hcurrent
    subst hcurrent
    exact ⟨fun _ _ h => version_of_ifMatch hversion h,
      fun a ha => MemberStep.roleUnassigned (by simpa using hheld) (by rw [ha]; rfl)⟩

lemma keeps_setOverride (r : OverrideRequest) (grant : Bool) :
    MemberKeeps (MemberWrites.setOverride r grant) [] some [] db := by
  rw [MemberWrites.setOverride]
  refine keeps_findGroup fun group seen db₁ hgame h₁ => ?_
  refine keeps_findMember fun member seen db₂ _ h₂ => ?_
  rw [permissionMode, MemberKeeps, keeps_query]
  rintro - _ ⟨⟩ db₃ h₃
  have hgame := (hgame.evolves h₂).evolves h₃
  split
  · trivial
  rename_i permission hpermission
  dsimp only
  refine keeps_lockMemberVersion fun current held seen db₄ _ hlock h₄ hcurrent hversion => ?_
  rw [MemberKeeps, keeps_query]
  rintro - _ ⟨⟩ db₅ h₅
  split
  · exact keeps_unchanged rfl fun _ _ => MemberDb.redeems_of_plain rfl rfl
  rename_i hgrant
  rw [keeps_write]
  rintro - _ ⟨⟩ db₆ h₆
  refine keeps_bumpAndLog r.toMemberTarget (fun v => ⟨.updated [.overrides], r.key, r.userId, v⟩) _
    (fun c v h => MemberDb.writesMember_updateMember h) (fun m => ⟨rfl, rfl, rfl⟩)
    (fun _ => rfl) rfl (((hgame.evolves h₄).evolves h₅).evolves h₆) fun c v m hc hv hm => ?_
  have hevolves := h₅.trans ((h₆.trans hc).mono (List.subset_append_left _ _))
  rw [hcurrent, Option.bind_some] at hgrant
  rw [← MemberEvolves.member hevolves hlock, hm, Option.some.injEq] at hcurrent
  subst hcurrent
  refine ⟨fun _ _ h => version_of_ifMatch hversion h, fun a ha => MemberStep.overridden
    ⟨(permission, canonicalContextKey (some r.context)), fun heq => hgrant ?_⟩
    (by rw [ha]; rfl)⟩
  rw [Dict.get?_set_self] at heq
  rw [← heq, Option.map_some]
  split <;> rfl

lemma keeps_clearOverride (r : OverrideRequest) :
    MemberKeeps (MemberWrites.clearOverride r) [] some [] db := by
  rw [MemberWrites.clearOverride]
  refine keeps_findGroup fun group seen db₁ hgame h₁ => ?_
  refine keeps_findMember fun member seen db₂ _ h₂ => ?_
  rw [permissionMode, MemberKeeps, keeps_query]
  rintro - _ ⟨⟩ db₃ h₃
  have hgame := (hgame.evolves h₂).evolves h₃
  dsimp only
  generalize (normalizePermissionKey _ r.permission, canonicalContextKey (some r.context)) = slot
  refine keeps_lockMemberVersion fun current held seen db₄ _ hlock h₄ hcurrent hversion => ?_
  rw [MemberKeeps, keeps_query]
  rintro - _ ⟨⟩ db₅ h₅
  split
  · exact keeps_unchanged rfl fun _ _ => MemberDb.redeems_of_plain rfl rfl
  rename_i hexisting
  rw [keeps_write]
  rintro - _ ⟨⟩ db₆ h₆
  refine keeps_bumpAndLog r.toMemberTarget (fun v => ⟨.updated [.overrides], r.key, r.userId, v⟩) _
    (fun c v h => MemberDb.writesMember_updateMember h) (fun m => ⟨rfl, rfl, rfl⟩)
    (fun _ => rfl) rfl (((hgame.evolves h₄).evolves h₅).evolves h₆) fun c v m hc hv hm => ?_
  have hevolves := h₅.trans ((h₆.trans hc).mono (List.subset_append_left _ _))
  rw [hcurrent, Option.bind_some] at hexisting
  rw [← MemberEvolves.member hevolves hlock, hm, Option.some.injEq] at hcurrent
  subst hcurrent
  refine ⟨fun _ _ h => version_of_ifMatch hversion h, fun a ha => MemberStep.overridden
    ⟨slot, fun heq => hexisting (Option.isNone_iff_eq_none.mpr ?_)⟩
    (by rw [ha]; rfl)⟩
  rw [← heq, Dict.get?_delete_self]

end Rows

/-! ### A new group -/

section Create

variable {held : List MemberLock} {seen : List MemberDb} {db : MemberDb}

lemma reads_lockGroupMembership (groupId : Text) :
    MemberReads (lockGroupMembership groupId) fun _ => True := by
  refine Reads.andThen (Reads.lockQuery _ _ fun _ => trivial) fun group => ?_
  split
  · exact Reads.throw _ _
  · exact Reads.pure trivial

lemma MemberDb.insertGroup_spec {id : Text} {group : Group} {db' : MemberDb}
    (h : db.insertGroup id group = some db') :
    (∀ key, db'.findMember key = db.findMember key) ∧
    (∀ id' g, db.groups.get? id' = some g → db'.groups.get? id' = some g) ∧
    db'.groups.get? id = some group ∧ db'.invitations = db.invitations ∧
    db'.eventLog = db.eventLog := by
  rw [MemberDb.insertGroup] at h
  split_ifs at h with hhas
  cases h
  refine ⟨fun _ => rfl, fun id' g hg => ?_, Dict.get?_set_self _ _ _, rfl, rfl⟩
  have hne : id' ≠ id := by
    rintro rfl
    exact hhas (Dict.has_iff.mpr (Dict.mem_keys_iff.mpr ⟨_, hg⟩))
  exact (Dict.get?_set_of_ne _ _ hne).trans hg

/-- The commit of a group with its creator. -/
lemma changed_creator {r : CreateGroupRequest} {junjoUserId userId : Text} {group : Group}
    {roles : Finset Text} {c v c' : MemberDb} (hgame : group.gameId = r.gameId)
    (hgroup : c.insertGroup r.fresh group = some v)
    (hnone : v.findMember ⟨r.fresh, junjoUserId⟩ = none)
    (hwrites : MemberDb.WritesMember ⟨r.fresh, junjoUserId⟩
      { Member.create r.now with roles := roles } v c')
    (hlock : .member ⟨r.fresh, junjoUserId⟩ ∈ held) (hlock' : .group r.fresh ∈ held) :
    MemberDb.Changed ⟨.createGroup r, r.gameId, none,
      [joinedEvent ⟨r.gameId, r.fresh, junjoUserId, userId⟩ (Member.create r.now) roles], none⟩ held c
      c' := by
  obtain ⟨hmembers, hgroups, hself, hinvitations, hlog⟩ := MemberDb.insertGroup_spec hgroup
  rw [hmembers] at hnone
  have hevents := @eventsOf_joined (.createGroup r) none
    ⟨r.gameId, r.fresh, junjoUserId, userId⟩ (Member.create r.now) roles
  refine MemberDb.Changed.of_member hwrites.member
    (fun k hk => (hwrites.others k hk).trans (hmembers k))
    (fun id g hg => by rw [hwrites.groups, hgroups id g hg]) (hwrites.eventLog.trans hlog)
    (MemberDb.redeems_of_plain rfl (hwrites.invitations.trans hinvitations)) hlock (.inr hlock') ?_
    (fun k hk => (hevents k).trans (if_neg fun h => hk h.symm)) ?_ (fun _ _ _ h => by cases h)
  · rw [hnone]
    refine (hevents _).trans (if_pos rfl) ▸ ?_
    exact MemberStep.entered (by simp) (fun k hk => by cases hk) (fun t ht => by cases ht) (.inl rfl)
      (.inl ⟨rfl, rfl⟩) fun e he => absurd he (by simp)
  · exact ⟨group, by rw [hwrites.groups, hself], hgame⟩

lemma keeps_createGroup (r : CreateGroupRequest) :
    MemberKeeps (MemberWrites.createGroup r) [] some [] db := by
  rw [MemberWrites.createGroup, MemberKeeps, keeps_write]
  rintro - _ ⟨⟩ db₁ h₁
  split
  · rintro - - db' hdb'
    obtain ⟨hmembers, hgroups, -, hinvitations, hlog⟩ := MemberDb.insertGroup_spec
      (by simpa using hdb')
    exact ⟨trivial, db', ⟨MemberDb.redeems_of_plain rfl hinvitations,
      fun id g hg => .inl (hgroups id g hg), fun key => .inl ⟨hmembers key, rfl⟩,
      fun _ hkey => absurd rfl hkey, fun _ _ _ _ hkey => absurd rfl hkey, hlog⟩, rfl⟩
  · rename_i junjoUserId userId hcreator
    refine reads_lockGroupMembership _ _ _ _ _ _ fun locked held seen db₂ _ hheld₂ h₂ => ?_
    rw [keeps_query]
    rintro - _ - db₃ h₃
    refine reads_assertCanActivate _ _ _ _ _ _ _ _ _ fun _ held seen db₄ _ hheld₄ h₄ => ?_
    have hgroup : .group r.fresh ∈ held := hheld₄ (hheld₂ (by simp))
    rw [MemberWrites.insertMember, keeps_write]
    rintro - _ - db₅ h₅
    rw [keeps_query]
    rintro - _ - db₆ h₆
    split
    · refine keeps_memberFinish fun c c' hc hchange => ?_
      obtain ⟨v, hv, hinsert⟩ := Option.bind_eq_some_iff.mp hchange
      obtain ⟨hnone, hwrites⟩ := MemberDb.writesMember_insertMember hinsert
      exact changed_creator rfl (by simpa using hv) hnone hwrites (by simp [MemberTarget.key])
        (List.mem_append_left _ hgroup)
    · rw [keeps_write]
      rintro - _ - db₇ h₇
      refine keeps_memberFinish fun c c' hc hchange => ?_
      obtain ⟨v', hv', hrole⟩ := Option.bind_eq_some_iff.mp hchange
      obtain ⟨v, hv, hinsert⟩ := Option.bind_eq_some_iff.mp hv'
      obtain ⟨hnone, hwrites⟩ := MemberDb.writesMember_insertMember hinsert
      obtain ⟨m, hm, -, hwrites'⟩ := MemberDb.writesMember_insertMemberRole hrole
      rw [hwrites.member, Option.some.injEq] at hm
      subst hm
      exact changed_creator rfl (by simpa using hv) hnone (hwrites.trans hwrites')
        (by simp [MemberTarget.key]) (by simp [hgroup])

end Create

end Junjo
