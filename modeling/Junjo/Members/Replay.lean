import Junjo.Members.Runs

/-!
# Members by their events

The events about a member, replayed in the order of the log, leave a subscriber with the member's
roles while it is active, provided that each `member.joined` event shows the member as it is
stored. A join or an accept shows no roles, so that fails for those who come back with roles.
-/

namespace Junjo

/-! ### Replaying events -/

/-- What an event about a member leaves of its roles; `none` for someone who is no active member. -/
def MemberEventType.replay : MemberEventType → Option (Finset Text) → Option (Finset Text)
  | .joined member, _ => some member.roles
  | .left _, _ => none
  | .banned _ _, _ => none
  | .roleChanged added removed _, roles => roles.map fun roles => roles \ removed ∪ added
  | .unbanned, roles => roles
  | .updated _, roles => roles

/-- The roles that some events leave an active member with. -/
def replayFrom (roles : Option (Finset Text)) (events : List MemberEvent) : Option (Finset Text) :=
  events.foldl (fun roles e => e.type.replay roles) roles

lemma replayFrom_append (roles : Option (Finset Text)) (events events' : List MemberEvent) :
    replayFrom roles (events ++ events') = replayFrom (replayFrom roles events) events' :=
  List.foldl_append

/-- The roles of an active member. -/
def activeRoles (member : Option Member) : Option (Finset Text) :=
  (member.filter fun m => m.status = .active).map Member.roles

lemma activeRoles_some (m : Member) :
    activeRoles (some m) = if m.status = .active then some m.roles else none := by
  rw [activeRoles, Option.filter_some]
  split_ifs <;> simp_all

lemma activeRoles_of_inactive {m : Member} (h : m.status ≠ .active) :
    activeRoles (some m) = none := by
  rw [activeRoles_some, if_neg h]

lemma activeRoles_congr {m m' : Member} (hstatus : m'.status = m.status)
    (hroles : m'.roles = m.roles) : activeRoles (some m') = activeRoles (some m) := by
  rw [activeRoles_some, activeRoles_some, hstatus, hroles]

/-- A join or an accept finds no roles on the row of someone who is no active member. -/
def MemberResult.JoinsWithoutRoles (a : MemberResult) (db : MemberDb) : Prop :=
  a.request.showsNoRoles = true → ∀ key m, a.eventsOf key ≠ [] → db.findMember key = some m →
    m.status ≠ .active → m.roles = ∅

/-- Every `member.joined` event of a write shows the member as the write leaves it. -/
def MemberResult.ShowsStored (a : MemberResult) (db : MemberDb) : Prop :=
  ∀ key e member, e ∈ a.eventsOf key → e.type = .joined member →
    ∃ m, db.findMember key = some m ∧ member = toPublicMember m m.roles

/-! ### One write -/

section Steps

variable {a : MemberResult} {key : MemberKey} {old : Option Member} {new : Member}
  {events : List MemberEvent}

lemma MemberRequest.early_of_showsNoRoles {request : MemberRequest}
    (h : request.showsNoRoles = true) :
    (∃ t, request.earlyClock = some t) ∧ ∀ r, request ≠ .kickAdmin r := by
  cases request with
  | join r => exact ⟨⟨_, rfl⟩, nofun⟩
  | accept r => exact ⟨⟨_, rfl⟩, nofun⟩
  | _ => cases h

lemma replayFrom_unchanged {roles : Option (Finset Text)}
    (h : ∀ e ∈ events, e.type.replay roles = roles) : replayFrom roles events = roles := by
  induction events with
  | nil => rfl
  | cons e events ih =>
    rw [replayFrom, List.foldl_cons, h e List.mem_cons_self]
    exact ih fun e' he' => h e' (List.mem_cons_of_mem _ he')

/-- The role event of an import, replayed. -/
lemma Plan.replay_roles {plan : Plan} {actorUserId : Option Text} {version : ℕ}
    (roles : Option (Finset Text)) :
    replayFrom roles (if plan.rolesChanged then [⟨.roleChanged plan.rolesAdded plan.rolesRemoved
      actorUserId, key, plan.input.userId, version⟩] else []) =
      roles.map fun roles => roles \ plan.rolesRemoved ∪ plan.rolesAdded := by
  split_ifs with hchanged
  · rfl
  · simp only [Plan.rolesChanged, Bool.or_eq_true, decide_eq_true_eq, not_or, not_not] at hchanged
    simp only [hchanged.1, hchanged.2, Finset.sdiff_empty, Finset.union_empty, Option.map_id']
    rfl

/-- The events of an import, replayed. -/
lemma Plan.replay_events {plan : Plan} {now : ℤ} {actorUserId : Option Text}
    (hplan : plan = Plan.make now plan.input old) (hstatus : plan.status ≠ .unchanged) :
    replayFrom (activeRoles old) (plan.events key actorUserId (plan.row old now)) =
      activeRoles (some (plan.row old now)) := by
  obtain ⟨hroles, hprior, hagain⟩ := Plan.row_roles hplan
  rw [activeRoles_some, hroles, Plan.events, replayFrom_append, replayFrom_append,
    Plan.replay_roles, replayFrom_unchanged]
  · obtain ⟨hjoin, hactive⟩ | ⟨hjoin, m, rfl, hkept⟩ := Plan.row_status hplan hstatus
    · rw [if_pos hjoin, if_pos hactive]
      exact congrArg some hagain
    · rw [hjoin, hkept]
      change (activeRoles (some m)).map _ = _
      rw [activeRoles_some]
      split_ifs
      · exact congrArg some hprior
      · rfl
  · intro e he
    split_ifs at he
    · rw [List.mem_singleton.mp he]
      rfl
    · cases he

/-- Replayed on the roles before, the events of a write give the roles after it. -/
lemma MemberStep.replay (h : MemberStep a key old new events)
    (hroles : a.request.showsNoRoles = true → ∀ m, old = some m → m.status ≠ .active →
      m.roles = ∅) :
    replayFrom (activeRoles old) events = activeRoles (some new) ∧
      ∀ e ∈ events, ∀ member, e.type = .joined member → member = toPublicMember new new.roles := by
  have hplain : ∀ {e : MemberEvent}, events = [e] → (∀ member, e.type ≠ .joined member) →
      ∀ e ∈ events, ∀ member, e.type = .joined member → member = toPublicMember new new.roles := by
    rintro e rfl he e' he' member hmember
    rw [List.mem_singleton.mp he'] at hmember
    exact absurd hmember (he member)
  cases h with
  | @entered _ now _ roles shown changes hold _ _ _ hshown hchanges =>
    have hshown : shown = roles := by
      obtain ⟨-, hshown⟩ | ⟨hshows, rfl, hroles'⟩ := hshown
      · exact hshown
      · rw [hroles']
        cases old with
        | none => rfl
        | some m => exact (hroles hshows m rfl (hold m rfl)).symm
    subst hshown
    have hchanged : ∀ e ∈ changes, e.type.replay (some shown) = some shown := by
      intro e he
      obtain ⟨added, actor, hadded, rfl⟩ := hchanges e he
      simp [MemberEventType.replay, hadded]
    constructor
    · rw [activeRoles_some, if_pos (activated_status old now)]
      exact replayFrom_unchanged hchanged
    · intro e he member hmember
      rcases List.mem_cons.mp he with rfl | he
      · cases hmember
        rfl
      · obtain ⟨_, _, -, rfl⟩ := hchanges e he
        cases hmember
  | departed hstatus _ _ =>
    refine ⟨(activeRoles_of_inactive ?_).symm, hplain rfl fun _ => nofun⟩
    rcases hstatus with rfl | rfl <;> nofun
  | banned _ =>
    exact ⟨(activeRoles_of_inactive (by simp [Member.ban])).symm, hplain rfl fun _ => nofun⟩
  | bannedNew _ => exact ⟨(activeRoles_of_inactive (by simp)).symm, hplain rfl fun _ => nofun⟩
  | @unbanned m _ hbanned _ =>
    refine ⟨?_, hplain rfl fun _ => nofun⟩
    rw [activeRoles_of_inactive (m := m) (by simp [hbanned]),
      activeRoles_of_inactive (by simp [Member.unban])]
    rfl
  | @patched m patch _ _ _ =>
    exact ⟨(@activeRoles_congr m (patch.apply m) rfl rfl).symm, hplain rfl fun _ => nofun⟩
  | @roleAssigned m roleId _ _ _ _ =>
    refine ⟨?_, hplain rfl fun _ => nofun⟩
    rw [activeRoles_some, activeRoles_some]
    change Option.map _ _ = if m.status = .active then _ else _
    split_ifs
    · rw [Option.map_some, Finset.sdiff_empty, Finset.union_comm, Finset.insert_eq]
    · rfl
  | @roleUnassigned m roleId _ _ _ _ =>
    refine ⟨?_, hplain rfl fun _ => nofun⟩
    rw [activeRoles_some, activeRoles_some]
    change Option.map _ _ = if m.status = .active then _ else _
    split_ifs
    · rw [Option.map_some, Finset.union_empty, Finset.sdiff_singleton_eq_erase]
    · rfl
  | @overridden m overrides _ _ _ =>
    exact ⟨(@activeRoles_congr m { m.bumpVersion with overrides := overrides } rfl rfl).symm,
      hplain rfl fun _ => nofun⟩
  | @imported _ r plan _ hplan hstatus =>
    refine ⟨Plan.replay_events hplan hstatus, fun e he member hmember => ?_⟩
    rw [(Plan.row_roles hplan).1]
    simp only [Plan.events, List.mem_append, List.mem_ite_nil_right, List.mem_singleton] at he
    obtain (⟨-, rfl⟩ | ⟨-, rfl⟩) | ⟨-, rfl⟩ := he
    · cases hmember
      rfl
    · cases hmember
    · cases hmember

/-- A join or an accept that shows the member as stored found no roles on its row. -/
lemma MemberStep.joins_without_roles {m : Member} (h : MemberStep a key (some m) new events)
    (hstored : ∀ e ∈ events, ∀ member, e.type = .joined member →
      member = toPublicMember new new.roles)
    (hshows : a.request.showsNoRoles = true) (hinactive : m.status ≠ .active) : m.roles = ∅ := by
  obtain ⟨⟨t, hearly⟩, hkick⟩ := MemberRequest.early_of_showsNoRoles hshows
  have hlate : ∀ {request}, a.request = request → request.earlyClock = none → m.roles = ∅ := by
    rintro _ rfl hnone
    rw [hnone] at hearly
    cases hearly
  cases h with
  | entered _ _ _ _ hshown _ =>
    obtain ⟨hshows', -⟩ | ⟨-, rfl, hroles⟩ := hshown
    · rw [hshows] at hshows'
      cases hshows'
    · have hnone := congrArg PublicMember.roles (hstored _ List.mem_cons_self _ rfl)
      exact hroles.symm.trans hnone.symm
  | departed _ _ hactive =>
    rcases hactive with ⟨-, hnone⟩ | ⟨⟨r, hr⟩, -⟩
    · exact hlate rfl hnone
    · exact absurd hr (hkick r)
  | banned hrequest =>
    obtain ⟨r, hr⟩ := hrequest
    exact hlate hr rfl
  | unbanned _ hrequest =>
    obtain ⟨r, hr, -⟩ := hrequest
    exact hlate hr rfl
  | patched _ hrequest =>
    obtain ⟨r, -, hr, -⟩ := hrequest
    exact hlate hr rfl
  | roleAssigned _ hcheck => exact absurd (hcheck t hearly).1 hinactive
  | roleUnassigned _ hrequest => exact hlate rfl hrequest
  | overridden _ hrequest => exact hlate rfl hrequest
  | imported hrequest _ _ => exact hlate hrequest rfl

end Steps

/-! ### Runs -/

/-- The events of each member, replayed, give the roles that it is stored with. -/
structure MemberDb.Replayed (db : MemberDb) : Prop where
  placed : db.Placed
  roles : ∀ gameId key, db.InGame key.groupId gameId →
    replayFrom none (db.memberEvents gameId key) = activeRoles (db.findMember key)
  others : ∀ gameId key, ¬ db.InGame key.groupId gameId → db.memberEvents gameId key = []

/-- A store without members and events. -/
lemma MemberDb.replayed_of_new {db : MemberDb} (hmembers : db.members = Dict.empty)
    (hlog : db.eventLog = EventLog.empty) : db.Replayed := by
  have hnone : ∀ key, db.findMember key = none := by
    intro key
    rw [MemberDb.findMember, hmembers]
    rfl
  have hempty : ∀ gameId key, db.memberEvents gameId key = [] := by
    intro gameId key
    rw [MemberDb.memberEvents, hlog]
    rfl
  refine ⟨fun key m hm => ?_, fun gameId key _ => ?_, fun gameId key _ => hempty gameId key⟩
  · rw [hnone] at hm
    cases hm
  · rw [hnone, hempty]
    rfl

section Runs

variable {a : MemberResult} {held : List MemberLock} {db db' : MemberDb}
  {verifySecret : Text → Text → Bool} {start : MemberDb} {events : List (TxEvent MemberRequest)}

/-- What one write keeps. -/
lemma MemberDb.Written.replayed (h : MemberDb.Written a held db db')
    (hroles : a.JoinsWithoutRoles db) (hdb : db.Replayed) : db'.Replayed := by
  refine ⟨h.placed hdb.placed, fun gameId key hgame => ?_, fun gameId key hgame => ?_⟩
  · have hbefore : replayFrom none (db.memberEvents gameId key) =
        activeRoles (db.findMember key) := by
      by_cases hgame' : db.InGame key.groupId gameId
      · exact hdb.roles gameId key hgame'
      · rw [hdb.others gameId key hgame']
        cases hold : db.findMember key with
        | none => rfl
        | some m =>
          obtain ⟨gameId', hplaced⟩ := hdb.placed key m hold
          rw [(h.inGame hplaced).unique hgame] at hplaced
          exact absurd hplaced hgame'
    obtain ⟨hsame, hnone⟩ | ⟨new, hnew, hstep⟩ := h.member key
    · rw [h.memberEvents, hnone, ite_self, List.append_nil, hbefore, hsame]
    · rw [h.memberEvents, if_pos ((h.game hstep.events_ne).unique hgame), replayFrom_append,
        hbefore, hnew]
      refine (hstep.replay fun hshows m hm hinactive => ?_).1
      exact hroles hshows key m hstep.events_ne hm hinactive
  · rw [h.memberEvents, hdb.others gameId key fun hgame' => hgame (h.inGame hgame')]
    split_ifs with heq
    · by_contra hevents
      exact hgame (heq ▸ h.game hevents)
    · rfl

/-- Every `member.joined` event of a run shows the member as its write leaves it, and after any part
of the run the events of a member, replayed, give the roles that it is stored with. -/
structure JoinsReplayed (verifySecret : Text → Text → Bool) (start : MemberDb)
    (events : List (TxEvent MemberRequest)) : Prop where
  stored : ∀ c ∈ MemberServer.commits verifySecret start events, c.result.ShowsStored c.after
  replayed : ∀ before after server, events = before ++ after →
    MemberServer.run verifySecret start before = some server → ∀ gameId key,
    server.committed.InGame key.groupId gameId →
    replayFrom none (server.committed.memberEvents gameId key) =
      activeRoles (server.committed.findMember key)

/-- Events show members as they are stored exactly in the runs whose joins and accepts find no roles
on the rows of those who come back. -/
theorem joins_replayed_iff (hstart : start.Replayed) :
    JoinsReplayed verifySecret start events ↔
      ∀ c ∈ MemberServer.commits verifySecret start events,
        c.result.JoinsWithoutRoles c.before := by
  constructor
  · intro h c hc hshows key m hevents hm hinactive
    obtain ⟨held, hwritten⟩ := MemberServer.commit_written hc
    obtain ⟨-, hnone⟩ | ⟨new, hnew, hstep⟩ := hwritten.member key
    · exact absurd hnone hevents
    · rw [hm] at hstep
      refine hstep.joins_without_roles (fun e he member hmember => ?_) hshows hinactive
      obtain ⟨m', hm', hmember⟩ := h.stored c hc key e member he hmember
      rw [hnew, Option.some.injEq] at hm'
      rw [hmember, hm']
  · intro h
    refine ⟨fun c hc key e member he hmember => ?_, ?_⟩
    · obtain ⟨held, hwritten⟩ := MemberServer.commit_written hc
      obtain ⟨-, hnone⟩ | ⟨new, hnew, hstep⟩ := hwritten.member key
      · rw [hnone] at he
        cases he
      · refine ⟨new, hnew, (hstep.replay fun hshows m hm hinactive => ?_).2 e he member hmember⟩
        exact h c hc hshows key m hstep.events_ne hm hinactive
    · rintro before after server rfl hrun gameId key hgame
      refine MemberDb.Replayed.roles ?_ gameId key hgame
      refine MemberServer.run_induct (J := fun db _ => db.Replayed) hrun ?_ hstart
      rintro c hc log ⟨held, hwritten⟩ hbefore
      refine hwritten.replayed (h c ?_) hbefore
      rw [MemberServer.commits, Database.commits_append hrun]
      exact List.mem_append_left _ hc

end Runs

/-! ### Someone who comes back with a role -/

/-- A group with one role. -/
private def roleGroup : MemberDb where
  __ := MemberDb.empty
  groups := Dict.empty.set (text "guild") ⟨text "game", text "clan", .isPublic, none, none, none⟩
  roles := Dict.empty.set (text "officer") (text "guild")

private def returningTarget : MemberTarget := ⟨text "game", text "guild", text "ann", text "ann"⟩

/-- Someone is added with the role and leaves. -/
private def addAndLeave : List (TxEvent MemberRequest) :=
  .start 0 (.add ⟨returningTarget, some (text "officer"), none, 1, 2⟩) ::
    List.replicate 13 (.advance 0) ++
    .start 0 (.leave ⟨returningTarget, 3⟩) :: List.replicate 9 (.advance 0)

/-- She joins again. -/
private def addLeaveJoin : List (TxEvent MemberRequest) :=
  addAndLeave ++ .start 0 (.join ⟨returningTarget, none, true, 4, 5⟩) ::
    List.replicate 10 (.advance 0)

theorem joins_replayed_addAndLeave : ∃ server,
    MemberServer.run (fun _ _ => true) roleGroup addAndLeave = some server ∧
      server.log.length = 2 ∧ JoinsReplayed (fun _ _ => true) roleGroup addAndLeave := by
  have hboth : (MemberServer.run (fun _ _ => true) roleGroup addAndLeave).map (fun server =>
      server.log.length) = some 2 := by
    decide
  have hshown : (MemberServer.commits (fun _ _ => true) roleGroup addAndLeave).all (fun c =>
      !c.result.request.showsNoRoles) = true := by
    decide
  obtain ⟨server, hrun, hlog⟩ := Option.map_eq_some_iff.mp hboth
  refine ⟨server, hrun, hlog, (joins_replayed_iff (MemberDb.replayed_of_new rfl rfl)).mpr ?_⟩
  intro c hc hshows
  have hnone := List.all_eq_true.mp hshown c hc
  rw [hshows] at hnone
  cases hnone

/-- Her `member.joined` event shows no roles, and she has one. -/
theorem joined_without_stored_roles : ¬ ∀ (verifySecret : Text → Text → Bool) (start : MemberDb)
    (events : List (TxEvent MemberRequest)), start.Replayed →
      JoinsReplayed verifySecret start events := by
  intro h
  have hlost : (MemberServer.commits (fun _ _ => true) roleGroup addLeaveJoin).any (fun c =>
      ((c.result.eventsOf returningTarget.key).any fun e =>
        match e.type with
        | .joined member => member.roles = ∅
        | _ => false) &&
      ((c.after.findMember returningTarget.key).any fun m => m.roles ≠ ∅)) = true := by
    decide
  obtain ⟨c, hc, hlost⟩ := List.any_eq_true.mp hlost
  rw [Bool.and_eq_true, List.any_eq_true, Option.any_eq_true] at hlost
  obtain ⟨⟨e, he, hshown⟩, m, hm, hroles⟩ := hlost
  have hstored := (h _ _ _ (MemberDb.replayed_of_new rfl rfl)).stored c hc returningTarget.key e
  split at hshown
  · rename_i member hmember
    obtain ⟨m', hm', heq⟩ := hstored member he hmember
    rw [hm, Option.some.injEq] at hm'
    rw [heq, hm'.symm] at hshown
    exact of_decide_eq_true hroles (of_decide_eq_true hshown)
  · cases hshown

end Junjo
