import Junjo.Members.ImportCorrect

/-!
# Runs of membership writes

Every write keeps the rule for membership writes, so what the rule says of a commit holds of each
commit of every run.
-/

namespace Junjo

lemma MemberLock.conflicts_comm (k l : MemberLock) : conflicts k l = conflicts l k := by
  rw [conflicts, conflicts]
  exact decide_eq_decide.mpr eq_comm

/-- Every membership write does what its step says. -/
theorem keeps_members (verifySecret : Text → Text → Bool) (r : MemberRequest) (db : MemberDb) :
    MemberKeeps (r.program verifySecret) [] some [] db := by
  cases r with
  | createGroup r => exact keeps_createGroup r
  | join r => exact keeps_join verifySecret r
  | add r => exact keeps_add r
  | addAgain r limits checked passed => exact keeps_addAgain r limits checked passed
  | accept r => exact keeps_accept r
  | decline r => exact keeps_decline r
  | revoke r => exact keeps_revoke r
  | importMembers r => exact keeps_importMembers r
  | leave r => exact keeps_leave r
  | kick r => exact keeps_kick r
  | kickAdmin r => exact keeps_kickAdmin r
  | ban r => exact keeps_ban r
  | unban r => exact keeps_unban r
  | patch r => exact keeps_patch r
  | assignRole r => exact keeps_assignRole r
  | unassignRole r => exact keeps_unassignRole r
  | setOverride r grant => exact keeps_setOverride r grant
  | clearOverride r => exact keeps_clearOverride r

/-- What a committed write did to one member. -/
lemma MemberDb.Written.member {a : MemberResult} {held : List MemberLock} {db db' : MemberDb}
    (h : MemberDb.Written a held db db') (key : MemberKey) :
    (db'.findMember key = db.findMember key ∧ a.eventsOf key = []) ∨
      ∃ new, db'.findMember key = some new ∧
        MemberStep a key (db.findMember key) new (a.eventsOf key) := by
  obtain ⟨db₁, hchanged, rfl⟩ := h
  rw [MemberDb.findMember_logged]
  exact (hchanged.members key).imp_right fun ⟨_, _, hstep⟩ => hstep

/-! ### The events about one member -/

/-- A game's logged events about a member, oldest first. -/
def MemberDb.memberEvents (db : MemberDb) (gameId : Text) (key : MemberKey) : List MemberEvent :=
  (db.eventLog.read gameId).filterMap (GroupEvent.about key)

/-- Every member row is one of a group. -/
def MemberDb.Placed (db : MemberDb) : Prop :=
  ∀ key m, db.findMember key = some m → ∃ gameId, db.InGame key.groupId gameId

section Written

variable {a : MemberResult} {held : List MemberLock} {db db' : MemberDb}

lemma MemberDb.InGame.unique {id gameId gameId' : Text} (h : db.InGame id gameId)
    (h' : db.InGame id gameId') : gameId = gameId' := by
  obtain ⟨g, hg, rfl⟩ := h
  obtain ⟨g', hg', rfl⟩ := h'
  rw [hg, Option.some.injEq] at hg'
  rw [hg']

lemma MemberDb.Written.inGame (h : MemberDb.Written a held db db') {id gameId : Text}
    (hgame : db.InGame id gameId) : db'.InGame id gameId := by
  obtain ⟨db₁, hchanged, rfl⟩ := h
  obtain ⟨g, hg, rfl⟩ := hgame
  rw [MemberDb.InGame, MemberDb.groups_logged]
  rcases hchanged.groups id g hg with hsame | ⟨-, now, hdeleted⟩
  · exact ⟨g, hsame, rfl⟩
  · exact ⟨_, hdeleted, rfl⟩

lemma MemberDb.Written.game (h : MemberDb.Written a held db db') {key : MemberKey}
    (hevents : a.eventsOf key ≠ []) : db'.InGame key.groupId a.gameId := by
  obtain ⟨db₁, hchanged, rfl⟩ := h
  rw [MemberDb.InGame, MemberDb.groups_logged]
  exact hchanged.game key hevents

lemma Plan.events_ne {plan : Plan} {now : ℤ} {old : Option Member} {key : MemberKey}
    {actorUserId : Option Text} {new : Member} (hplan : plan = Plan.make now plan.input old)
    (hstatus : plan.status ≠ .unchanged) : plan.events key actorUserId new ≠ [] := by
  intro hempty
  simp only [Plan.events, List.append_eq_nil_iff, ite_eq_right_iff, List.cons_ne_nil, imp_false,
    not_not] at hempty
  obtain ⟨⟨hjoin, hroles⟩, hchanged⟩ := hempty
  cases hupdated : plan.status with
  | created => simp [Plan.isJoin, hupdated] at hjoin
  | reactivated => simp [Plan.isJoin, hupdated] at hjoin
  | unchanged => exact hstatus hupdated
  | updated =>
    rw [hplan] at hupdated hroles hchanged
    rcases Plan.changed_of_updated hupdated with h | h
    · exact hroles h
    · exact h hchanged

/-- A write that changes a member logs something about it. -/
lemma MemberStep.events_ne {key : MemberKey} {old : Option Member} {new : Member}
    {events : List MemberEvent} (h : MemberStep a key old new events) : events ≠ [] := by
  cases h with
  | imported _ hplan hstatus => exact Plan.events_ne hplan hstatus
  | _ => exact List.cons_ne_nil _ _

lemma MemberDb.Written.placed (h : MemberDb.Written a held db db') (hplaced : db.Placed) :
    db'.Placed := by
  intro key m hm
  obtain ⟨hsame, -⟩ | ⟨new, hnew, hstep⟩ := h.member key
  · obtain ⟨gameId, hgame⟩ := hplaced key m (hsame ▸ hm)
    exact ⟨gameId, h.inGame hgame⟩
  · exact ⟨a.gameId, h.game hstep.events_ne⟩

/-- A write adds its events to the log of the member's game. -/
lemma MemberDb.Written.memberEvents (h : MemberDb.Written a held db db') (gameId : Text)
    (key : MemberKey) : db'.memberEvents gameId key =
      db.memberEvents gameId key ++ if a.gameId = gameId then a.eventsOf key else [] := by
  obtain ⟨db₁, hchanged, rfl⟩ := h
  rw [MemberDb.memberEvents, MemberDb.memberEvents, MemberDb.logged, ← hchanged.eventLog]
  split_ifs with hempty hgame hgame
  · rw [MemberResult.eventsOf, List.isEmpty_iff.mp hempty, List.filterMap_nil, List.append_nil]
  · rw [List.append_nil]
  · rw [MemberDb.writeEvents, EventLog.read_write, if_pos hgame, List.filterMap_append]
    rfl
  · rw [MemberDb.writeEvents, EventLog.read_write, if_neg hgame, List.append_nil, List.append_nil]

end Written

namespace MemberServer

variable {verifySecret : Text → Text → Bool} {start : MemberDb}
  {events : List (TxEvent MemberRequest)} {server : MemberServer}

/-- One event of membership writes. -/
def next (verifySecret : Text → Text → Bool) :
    MemberServer → TxEvent MemberRequest → Option MemberServer :=
  Database.next MemberLock.conflicts (MemberRequest.program verifySecret)

/-- The commits of a run of membership writes. -/
def commits (verifySecret : Text → Text → Bool) (start : MemberDb)
    (events : List (TxEvent MemberRequest)) : List (Commit MemberDb MemberResult) :=
  Database.commits MemberLock.conflicts (MemberRequest.program verifySecret)
    { committed := start } events

/-- What each commit does. -/
lemma commit_written {c : Commit MemberDb MemberResult} (hc : c ∈ commits verifySecret start events) :
    ∃ held, MemberDb.Written c.result held c.before c.after :=
  Database.commit_effect MemberLock.conflicts_comm (keeps_members verifySecret)
    (fun _ _ _ => trivial) (Database.good_start trivial) hc

/-- What each commit keeps holds after a run. -/
lemma run_induct {J : MemberDb → List MemberResult → Prop}
    (hrun : run verifySecret start events = some server)
    (hstep : ∀ c ∈ commits verifySecret start events, ∀ log,
      (∃ held, MemberDb.Written c.result held c.before c.after) →
      J c.before log → J c.after (log ++ [c.result])) (hstart : J start []) :
    J server.committed server.log :=
  Database.commits_induct hrun (fun c hc log hbefore => hstep c hc log (commit_written hc) hbefore)
    hstart

end MemberServer

end Junjo
