import Junjo.Core.SetChange
import Junjo.Members.Replay
import Junjo.React.MembersView

/-!
# A member list follows the server

The events about a member are changes to its roles, and what the list shows of a member turns into
what the server has by the events that are still to be applied. A page of more rows breaks that when
it brings a row about which the stream has delivered an event since the page was read: the list
ignored the event, for want of the row.
-/

namespace Junjo.React

/-! ### Events as changes of roles -/

/-- What an event does to the roles of an active member. -/
def MemberEventType.change : MemberEventType → SetChange Text
  | .joined member => if member.status = .active then .put member.roles else .keep
  | .left _ => .clear
  | .banned _ _ => .clear
  | .unbanned => .clear
  | .updated _ => .keep
  | .roleChanged added removed _ => .change removed added

/-- What an event of a group does to the roles of one member. -/
def rolesChange (key : MemberKey) : GroupEvent → SetChange Text
  | .member event => if event.key = key then MemberEventType.change event.type else .keep
  | .deleted _ => .keep

lemma replay_rolesChange (key : MemberKey) (events : List GroupEvent) (s : Option (Finset Text)) :
    SetChange.replay (events.map (rolesChange key)) s =
      SetChange.replay ((events.filterMap (GroupEvent.about key)).map fun e =>
        MemberEventType.change e.type) s := by
  induction events generalizing s with
  | nil => rfl
  | cons e events ih =>
    rw [List.map_cons, SetChange.replay_cons, ih]
    cases e with
    | deleted groupId =>
      rw [rolesChange, SetChange.apply_keep]
      rfl
    | member event =>
      by_cases hkey : event.key = key
      · have habout : GroupEvent.about key (.member event) = some event := if_pos hkey
        rw [List.filterMap_cons_some habout, List.map_cons, SetChange.replay_cons, rolesChange,
          if_pos hkey]
      · have habout : GroupEvent.about key (.member event) = none := if_neg hkey
        rw [List.filterMap_cons_none habout, rolesChange, if_neg hkey, SetChange.apply_keep]

/-- Joins show active members, and only someone without a membership is unbanned. -/
lemma MemberStep.plain {a : MemberResult} {key : MemberKey} {old : Option Member} {new : Member}
    {events : List MemberEvent} (h : MemberStep a key old new events) :
    (∀ e ∈ events, e.type ≠ .unbanned ∧
      ∀ member, e.type = .joined member → member.status = .active) ∨
    activeRoles old = none ∧ ∃ e, events = [e] ∧ e.type = .unbanned := by
  have hone : ∀ {e : MemberEvent}, e.type ≠ .unbanned → (∀ member, e.type ≠ .joined member) →
      ∀ e' ∈ [e], e'.type ≠ .unbanned ∧
        ∀ member, e'.type = .joined member → member.status = .active := by
    rintro e hunbanned hjoined e' he'
    rw [List.mem_singleton.mp he']
    exact ⟨hunbanned, fun member hmember => absurd hmember (hjoined member)⟩
  cases h with
  | @entered _ now _ _ _ changes _ _ _ _ _ hchanges =>
    refine .inl fun e he => ?_
    rcases List.mem_cons.mp he with rfl | he
    · refine ⟨nofun, fun member hmember => ?_⟩
      cases hmember
      exact activated_status old now
    · obtain ⟨_, _, -, rfl⟩ := hchanges e he
      exact ⟨nofun, nofun⟩
  | departed _ _ _ => exact .inl (hone nofun nofun)
  | banned _ => exact .inl (hone nofun nofun)
  | bannedNew _ => exact .inl (hone nofun nofun)
  | @unbanned m _ hstatus _ =>
    exact .inr ⟨activeRoles_of_inactive (by simp [hstatus]), _, rfl, rfl⟩
  | patched _ _ => exact .inl (hone nofun nofun)
  | roleAssigned _ _ => exact .inl (hone nofun nofun)
  | roleUnassigned _ _ => exact .inl (hone nofun nofun)
  | overridden _ _ => exact .inl (hone nofun nofun)
  | imported _ hplan hstatus =>
    refine .inl fun e he => ?_
    simp only [Plan.events, List.mem_append, List.mem_ite_nil_right, List.mem_singleton] at he
    obtain (⟨hjoin, rfl⟩ | ⟨-, rfl⟩) | ⟨-, rfl⟩ := he
    · refine ⟨nofun, fun member hmember => ?_⟩
      cases hmember
      obtain ⟨-, hactive⟩ | ⟨hnone, -⟩ := Plan.row_status hplan hstatus
      · exact hactive
      · rw [hjoin] at hnone
        cases hnone
    · exact ⟨nofun, nofun⟩
    · exact ⟨nofun, nofun⟩

/-- Events without an unban change the roles as their replay says. -/
lemma replay_change {events : List MemberEvent} (h : ∀ e ∈ events, e.type ≠ .unbanned ∧
      ∀ member, e.type = .joined member → member.status = .active) (s : Option (Finset Text)) :
    SetChange.replay (events.map fun e => MemberEventType.change e.type) s = replayFrom s events := by
  induction events generalizing s with
  | nil => rfl
  | cons e events ih =>
    have happly : (MemberEventType.change e.type).apply s = e.type.replay s := by
      obtain ⟨hunbanned, hjoined⟩ := h e List.mem_cons_self
      cases htype : e.type with
      | joined member =>
        rw [MemberEventType.change, if_pos (hjoined member htype)]
        rfl
      | unbanned => exact absurd htype hunbanned
      | updated changed =>
        rw [MemberEventType.change, SetChange.apply_keep]
        rfl
      | _ => rfl
    rw [List.map_cons, SetChange.replay_cons, happly, ih fun e' he' => h e' (List.mem_cons_of_mem _ he')]
    rfl

/-- The events of a write about a member turn its roles before into those after. -/
lemma MemberStep.change {a : MemberResult} {key : MemberKey} {old : Option Member} {new : Member}
    {events : List MemberEvent} (h : MemberStep a key old new events)
    (hroles : a.request.showsNoRoles = true → ∀ m, old = some m → m.status ≠ .active →
      m.roles = ∅) :
    SetChange.replay (events.map fun e => MemberEventType.change e.type) (activeRoles old) =
      activeRoles (some new) := by
  have hreplay := (h.replay hroles).1
  rcases MemberStep.plain h with hplain | ⟨hnone, e, rfl, htype⟩
  · rw [replay_change hplain, hreplay]
  · rw [← hreplay, hnone, replayFrom, List.foldl_cons, htype, List.map_singleton, htype]
    rfl

/-! ### The group's log -/

section Log

variable {a : MemberResult} {held : List MemberLock} {db db' : MemberDb} {gameId groupId : Text}

/-- The events that a write adds to a group's. -/
def newEvents (a : MemberResult) (gameId groupId : Text) : List GroupEvent :=
  if a.gameId = gameId then a.events.filter fun e => GroupEvent.groupId e = groupId else []

lemma groupEvents_written (h : MemberDb.Written a held db db') (gameId groupId : Text) :
    groupEvents db' gameId groupId = groupEvents db gameId groupId ++ newEvents a gameId groupId := by
  obtain ⟨db₁, hchanged, rfl⟩ := h
  rw [groupEvents, groupEvents, newEvents, MemberDb.logged, ← hchanged.eventLog]
  split_ifs with hempty hgame hgame
  · rw [List.isEmpty_iff.mp hempty, List.filter_nil, List.append_nil]
  · rw [List.append_nil]
  · rw [MemberDb.writeEvents, EventLog.read_write, if_pos hgame, List.filter_append]
  · rw [MemberDb.writeEvents, EventLog.read_write, if_neg hgame, List.append_nil, List.append_nil]

/-- A group's events about one of its members are all the events about it. -/
lemma filterMap_about_filter (key : MemberKey) (events : List GroupEvent) :
    (events.filter fun e => GroupEvent.groupId e = key.groupId).filterMap (GroupEvent.about key) =
      events.filterMap (GroupEvent.about key) := by
  rw [List.filterMap_filter]
  refine List.filterMap_congr fun e _ => ?_
  cases e with
  | deleted groupId => simp [GroupEvent.about]
  | member event =>
    by_cases hkey : event.key = key
    · simp [GroupEvent.groupId, hkey]
    · have habout : GroupEvent.about key (.member event) = none := if_neg hkey
      rw [habout, ite_self]

/-- A write whose joins show the stored roles changes the roles of a group's members as the events
that it adds say. -/
lemma roles_written (h : MemberDb.Written a held db db') (hroles : a.JoinsWithoutRoles db)
    (hgame : db.InGame groupId gameId) (junjoUserId : Text) :
    activeRoles (db'.findMember ⟨groupId, junjoUserId⟩) =
      SetChange.replay ((newEvents a gameId groupId).map (rolesChange ⟨groupId, junjoUserId⟩))
        (activeRoles (db.findMember ⟨groupId, junjoUserId⟩)) := by
  have hfilter := filterMap_about_filter ⟨groupId, junjoUserId⟩ a.events
  obtain ⟨hsame, hnone⟩ | ⟨new, hnew, hstep⟩ := h.member ⟨groupId, junjoUserId⟩
  · rw [replay_rolesChange, newEvents, hsame]
    split_ifs
    · rw [hfilter]
      rw [MemberResult.eventsOf] at hnone
      rw [hnone]
      rfl
    · rfl
  · have heq : a.gameId = gameId := (h.game hstep.events_ne).unique (h.inGame hgame)
    rw [replay_rolesChange, newEvents, if_pos heq, hfilter, hnew]
    refine (MemberStep.change hstep fun hshows m hm hinactive => ?_).symm
    exact hroles hshows _ m hstep.events_ne hm hinactive

end Log

/-! ### What a list shows of a member -/

/-- The roles that a list shows of a user. -/
def rolesOf (members : List ListedMember) (userId : Text) : Option (Finset Text) :=
  (members.find? fun m => m.userId = userId).map ListedMember.roles

section Lists

variable {members : List ListedMember} {userId : Text}

@[simp] lemma rolesOf_nil (userId : Text) : rolesOf [] userId = none := rfl

lemma rolesOf_cons (m : ListedMember) (members : List ListedMember) (userId : Text) :
    rolesOf (m :: members) userId = if m.userId = userId then some m.roles else rolesOf members userId := by
  rw [rolesOf, rolesOf, List.find?_cons]
  by_cases h : m.userId = userId
  · simp [h]
  · simp [h]

lemma rolesOf_append (members members' : List ListedMember) (userId : Text) :
    rolesOf (members ++ members') userId = (rolesOf members userId).or (rolesOf members' userId) := by
  rw [rolesOf, List.find?_append, Option.map_or, ← rolesOf, ← rolesOf]

lemma rolesOf_eq_none_iff : rolesOf members userId = none ↔ ∀ m ∈ members, m.userId ≠ userId := by
  simp [rolesOf]

lemma rolesOf_filter (members : List ListedMember) (userId userId' : Text) :
    rolesOf (members.filter fun m => m.userId ≠ userId) userId' =
      if userId = userId' then none else rolesOf members userId' := by
  induction members with
  | nil => simp
  | cons m members ih =>
    rw [List.filter_cons]
    by_cases hm : m.userId = userId
    · rw [if_neg (by simp [hm]), ih, rolesOf_cons, hm]
      split_ifs <;> rfl
    · rw [if_pos (by simp [hm]), rolesOf_cons, ih, rolesOf_cons]
      split_ifs with hm' heq
      · exact absurd (hm'.trans heq.symm) hm
      · rfl
      · rfl
      · rfl

/-- A row updated in place. -/
lemma rolesOf_updateFirst {change : ListedMember → ListedMember}
    (hkey : ∀ m, m.userId = userId → (change m).userId = userId) (f : Finset Text → Finset Text)
    (hroles : ∀ m, (change m).roles = f m.roles) (members : List ListedMember) (userId' : Text) :
    rolesOf (updateFirst userId change members) userId' =
      if userId = userId' then (rolesOf members userId').map f else rolesOf members userId' := by
  induction members with
  | nil => simp [updateFirst]
  | cons m members ih =>
    rw [updateFirst]
    by_cases hm : m.userId = userId
    · rw [if_pos hm, rolesOf_cons, hkey m hm, rolesOf_cons, hm, hroles]
      split_ifs <;> rfl
    · rw [if_neg hm, rolesOf_cons, ih, rolesOf_cons]
      split_ifs with hm' heq
      · exact absurd (hm'.trans heq.symm) hm
      · rfl
      · rfl
      · rfl

/-- What an update in place does to the rows. -/
lemma mem_updateFirst {change : ListedMember → ListedMember} {m : ListedMember}
    (h : m ∈ updateFirst userId change members) :
    m ∈ members ∨ ∃ m' ∈ members, m'.userId = userId ∧ m = change m' := by
  induction members with
  | nil => cases h
  | cons m' members ih =>
    rw [updateFirst] at h
    split_ifs at h with hm
    · rcases List.mem_cons.mp h with rfl | h
      · exact .inr ⟨m', List.mem_cons_self, hm, rfl⟩
      · exact .inl (List.mem_cons_of_mem _ h)
    · rcases List.mem_cons.mp h with rfl | h
      · exact .inl List.mem_cons_self
      · rcases ih h with h | ⟨m'', h, hrest⟩
        · exact .inl (List.mem_cons_of_mem _ h)
        · exact .inr ⟨m'', List.mem_cons_of_mem _ h, hrest⟩

lemma map_updateFirst {change : ListedMember → ListedMember}
    (hkey : ∀ m, m.userId = userId → (change m).userId = userId) (members : List ListedMember) :
    (updateFirst userId change members).map ListedMember.userId =
      members.map ListedMember.userId := by
  induction members with
  | nil => rfl
  | cons m members ih =>
    rw [updateFirst]
    split_ifs with hm
    · rw [List.map_cons, List.map_cons, hkey m hm, hm]
    · rw [List.map_cons, List.map_cons, ih]

lemma rolesOf_upsertJoined (members : List ListedMember) (member : ListedMember) (userId' : Text) :
    rolesOf (upsertJoined members member) userId' =
      if member.userId = userId' then some member.roles else rolesOf members userId' := by
  have hkeep : ∀ previous, (keepName member previous).userId = member.userId ∧
      (keepName member previous).roles = member.roles := by
    intro previous
    rw [keepName]
    split_ifs <;> exact ⟨rfl, rfl⟩
  rw [upsertJoined]
  split_ifs with hany heq heq
  · rw [rolesOf_updateFirst (fun m _ => (hkeep m).1) (fun _ => member.roles)
      (fun m => (hkeep m).2), if_pos heq]
    obtain ⟨m, hm, hmem⟩ := List.any_eq_true.mp hany
    cases hfound : rolesOf members userId' with
    | none =>
      exact absurd ((of_decide_eq_true hmem).trans heq) (rolesOf_eq_none_iff.mp hfound m hm)
    | some roles => rfl
  · rw [rolesOf_updateFirst (fun m _ => (hkeep m).1) (fun _ => member.roles)
      (fun m => (hkeep m).2), if_neg heq]
  · have hnone : rolesOf members userId' = none := by
      rw [rolesOf_eq_none_iff]
      intro m hm hm'
      exact hany (List.any_eq_true.mpr ⟨m, hm, by simp [hm', heq]⟩)
    rw [rolesOf_append, hnone, rolesOf_cons, if_pos heq]
    rfl
  · rw [rolesOf_append, rolesOf_cons, if_neg heq, rolesOf_nil, Option.or_none]

/-- A row that leaves the list of active members. -/
lemma rolesOf_applyStatus {change : ListedMember → ListedMember}
    (hstatus : ∀ m, UseMembersStatus.matching (some .active) (change m) = false)
    (members : List ListedMember) (userId' : Text) :
    rolesOf (applyStatus userId change (UseMembersStatus.matching (some .active)) members) userId' =
      if userId = userId' then none else rolesOf members userId' := by
  rw [applyStatus]
  cases hfind : members.find? fun m => m.userId = userId with
  | none =>
    split_ifs with heq
    · rw [← heq, rolesOf, hfind]
      rfl
    · rfl
  | some m =>
    dsimp only
    rw [hstatus m]
    exact rolesOf_filter members userId userId'

end Lists

section Events

variable {watch : MembersWatch}

/-- An event changes what a list of active members shows of the member that it is about. -/
lemma rolesOf_memberEvent (event : MemberEvent) (members : List ListedMember) (userId : Text) :
    rolesOf (applyMemberEvent (watch.render (.member event))
        (UseMembersStatus.matching (some .active)) members) userId =
      if watch.ids.userId event.key.junjoUserId = userId then
        (MemberEventType.change event.type).apply (rolesOf members userId)
      else rolesOf members userId := by
  obtain ⟨type, key, _, version⟩ := event
  cases type with
  | joined member =>
    have hmatch : UseMembersStatus.matching (some .active) (watch.ids.eventMember key member) =
        decide (member.status = .active) := rfl
    dsimp only [MembersWatch.render, applyMemberEvent]
    rw [hmatch, MemberEventType.change]
    by_cases hactive : member.status = .active
    · rw [decide_eq_true hactive, if_pos rfl, rolesOf_upsertJoined, if_pos hactive]
      rfl
    · rw [decide_eq_false hactive, if_neg hactive, SetChange.apply_keep, ite_self]
      rfl
  | left reason => exact rolesOf_filter members _ userId
  | banned reason bannedUntil => exact rolesOf_applyStatus (fun m => rfl) members userId
  | unbanned => exact rolesOf_applyStatus (fun m => rfl) members userId
  | updated changed =>
    rw [MemberEventType.change, SetChange.apply_keep, ite_self]
    rfl
  | roleChanged added removed actor =>
    have hkept : ∀ m, m.userId = watch.ids.userId key.junjoUserId →
        (withRoleChange m added removed version).userId = watch.ids.userId key.junjoUserId :=
      fun m hm => hm
    have hroles : ∀ m, (withRoleChange m added removed version).roles = m.roles \ removed ∪ added :=
      fun m => Finset.union_sdiff_self_eq_union
    exact rolesOf_updateFirst hkept (fun roles => roles \ removed ∪ added) hroles members userId

/-- An event does to the roles that a list of active members shows of each member what it should. -/
lemma rolesOf_applyMemberEvent {e : GroupEvent} (hgroup : GroupEvent.groupId e = watch.groupId)
    (members : List ListedMember) (junjoUserId : Text) :
    rolesOf (applyMemberEvent (watch.render e) (UseMembersStatus.matching (some .active)) members)
        (watch.ids.userId junjoUserId) =
      (rolesChange ⟨watch.groupId, junjoUserId⟩ e).apply
        (rolesOf members (watch.ids.userId junjoUserId)) := by
  cases e with
  | deleted groupId =>
    rw [rolesChange, SetChange.apply_keep]
    rfl
  | member event =>
    rw [rolesOf_memberEvent, rolesChange]
    by_cases hperson : event.key.junjoUserId = junjoUserId
    · have hkey : event.key = ⟨watch.groupId, junjoUserId⟩ := by
        rw [← hperson, ← hgroup]
        rfl
      rw [if_pos (congrArg _ hperson), if_pos hkey]
    · have hkey : event.key ≠ ⟨watch.groupId, junjoUserId⟩ := fun h => hperson (by rw [h])
      rw [if_neg fun h => hperson (watch.ids.injective h), if_neg hkey, SetChange.apply_keep]

/-- A list of active members: one row a user, and every row is of a person. -/
structure Listed (watch : MembersWatch) (members : List ListedMember) : Prop where
  nodup : (members.map ListedMember.userId).Nodup
  active : ∀ m ∈ members, m.status = .active
  named : ∀ m ∈ members, ∃ junjoUserId, m.userId = watch.ids.userId junjoUserId

lemma listed_nil : Listed watch [] :=
  ⟨List.nodup_nil, fun _ h => absurd h List.not_mem_nil, fun _ h => absurd h List.not_mem_nil⟩

variable {members : List ListedMember}

lemma Listed.filter (h : Listed watch members) (p : ListedMember → Bool) :
    Listed watch (members.filter p) where
  nodup := h.nodup.sublist ((List.filter_sublist (l := members)).map _)
  active m hm := h.active m (List.mem_of_mem_filter hm)
  named m hm := h.named m (List.mem_of_mem_filter hm)

/-- Rows of other users can go last. -/
lemma Listed.append {members' : List ListedMember} (h : Listed watch members)
    (h' : Listed watch members')
    (hnew : ∀ m ∈ members', m.userId ∉ members.map ListedMember.userId) :
    Listed watch (members ++ members') where
  nodup := by
    rw [List.map_append, List.nodup_append]
    refine ⟨h.nodup, h'.nodup, fun userId hmem userId' hmem' heq => ?_⟩
    obtain ⟨m, hm, rfl⟩ := List.mem_map.mp hmem'
    exact hnew m hm (heq ▸ hmem)
  active m hm := (List.mem_append.mp hm).elim (h.active m) (h'.active m)
  named m hm := (List.mem_append.mp hm).elim (h.named m) (h'.named m)

lemma Listed.updateFirst (h : Listed watch members) {userId : Text}
    {change : ListedMember → ListedMember}
    (hkey : ∀ m, m.userId = userId → (change m).userId = userId)
    (hactive : ∀ m, m.status = .active → (change m).status = .active) :
    Listed watch (updateFirst userId change members) where
  nodup := by
    rw [map_updateFirst hkey]
    exact h.nodup
  active m hm := by
    rcases mem_updateFirst hm with hm | ⟨m', hm', -, rfl⟩
    · exact h.active m hm
    · exact hactive m' (h.active m' hm')
  named m hm := by
    rcases mem_updateFirst hm with hm | ⟨m', hm', heq, rfl⟩
    · exact h.named m hm
    · rw [hkey m' heq, ← heq]
      exact h.named m' hm'

lemma Listed.upsertJoined (h : Listed watch members) {member : ListedMember}
    (hactive : member.status = .active)
    (hnamed : ∃ junjoUserId, member.userId = watch.ids.userId junjoUserId) :
    Listed watch (upsertJoined members member) := by
  have hkeep : ∀ previous, (keepName member previous).userId = member.userId ∧
      (keepName member previous).status = member.status := by
    intro previous
    rw [keepName]
    split_ifs <;> exact ⟨rfl, rfl⟩
  rw [React.upsertJoined]
  split_ifs with hany
  · exact h.updateFirst (fun m _ => (hkeep m).1) fun m _ => (hkeep m).2.trans hactive
  · refine h.append ⟨List.nodup_singleton _, ?_, ?_⟩ ?_
    · intro m hm
      rwa [List.mem_singleton.mp hm]
    · intro m hm
      rwa [List.mem_singleton.mp hm]
    · intro m hm hmem
      rw [List.mem_singleton.mp hm] at hmem
      obtain ⟨m', hm', heq⟩ := List.mem_map.mp hmem
      exact hany (List.any_eq_true.mpr ⟨m', hm', decide_eq_true heq⟩)

lemma Listed.applyStatus (h : Listed watch members) {userId : Text}
    {change : ListedMember → ListedMember}
    (hstatus : ∀ m, UseMembersStatus.matching (some .active) (change m) = false) :
    Listed watch
      (applyStatus userId change (UseMembersStatus.matching (some .active)) members) := by
  rw [React.applyStatus]
  cases members.find? fun m => m.userId = userId with
  | none => exact h
  | some m =>
    dsimp only
    rw [hstatus m]
    exact h.filter _

lemma Listed.applyMemberEvent (h : Listed watch members) (e : GroupEvent) :
    Listed watch
      (applyMemberEvent (watch.render e) (UseMembersStatus.matching (some .active)) members) := by
  cases e with
  | deleted groupId => exact h
  | member event =>
    obtain ⟨type, key, userId, version⟩ := event
    cases type with
    | joined member =>
      dsimp only [MembersWatch.render, React.applyMemberEvent]
      split_ifs with hmatch
      · exact h.upsertJoined (of_decide_eq_true hmatch) ⟨key.junjoUserId, rfl⟩
      · exact h
    | left reason => exact h.filter _
    | banned reason bannedUntil => exact h.applyStatus fun m => rfl
    | unbanned => exact h.applyStatus fun m => rfl
    | updated changed => exact h
    | roleChanged added removed actor => exact h.updateFirst (fun m hm => hm) fun m hm => hm

/-- A row in such a list is what the list shows of its user. -/
lemma Listed.rolesOf (h : Listed watch members) {m : ListedMember} (hm : m ∈ members) :
    rolesOf members m.userId = some m.roles := by
  have hnodup := h.nodup
  clear h
  induction members with
  | nil => cases hm
  | cons m' members ih =>
    rw [List.map_cons, List.nodup_cons] at hnodup
    rw [rolesOf_cons]
    rcases List.mem_cons.mp hm with rfl | hm
    · rw [if_pos rfl]
    · have hne : m'.userId ≠ m.userId := fun heq =>
        hnodup.1 (heq ▸ List.mem_map_of_mem hm)
      rw [if_neg hne]
      exact ih hm hnodup.2

end Events

end Junjo.React
