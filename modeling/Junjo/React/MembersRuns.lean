import Junjo.React.MembersCorrect

/-!
# Runs of a member list

The invariant of a mounted list of active members: the events that are still to be applied, held
back or not delivered yet, turn what the list shows of each member into what the server has, or
leave the list without it. So a list that is done shows the server's members.
-/

namespace Junjo.React

namespace MembersView

/-! ### What the steps of a run keep -/

section Defs

variable (watch : MembersWatch) (v : MembersView)

/-- What the events of the group from some position on do to a member's roles. -/
def changes (junjoUserId : Text) (position : ℕ) : List (SetChange Text) :=
  ((v.events watch).drop position).map (rolesChange ⟨watch.groupId, junjoUserId⟩)

/-- The roles that the server has for a member, while it is active. -/
def serverRoles (junjoUserId : Text) : Option (Finset Text) :=
  activeRoles (v.server.committed.findMember ⟨watch.groupId, junjoUserId⟩)

/-- A page read since the hook was mounted shows members that the events since then, and any of
those before, turn into what the server has. -/
structure PageStands (base : ℕ) (read : PageRead) : Prop where
  since : base ≤ read.logged
  past : read.logged ≤ (v.events watch).length
  listed : Listed watch read.page.items
  rows : ∀ row ∈ read.page.items, ∀ junjoUserId, row.userId = watch.ids.userId junjoUserId →
    ∀ position, base ≤ position → position ≤ read.logged →
      SetChange.replay (v.changes watch junjoUserId position) (some row.roles) =
        v.serverRoles watch junjoUserId

/-- A refetch that the hook still waits for. -/
def isCurrent (request : PageRequest) : Bool :=
  !request.more && request.generation = v.hook.generation

/-- The requests under way: one refetch while the stream is held back, from a position that its
page is not read before, and none for more rows. -/
structure Requested (base start : ℕ) : Prop where
  generations : ∀ r ∈ v.requests, r.generation ≤ v.hook.generation
  refetches : v.requests.countP v.isCurrent = if v.hook.pending.events.isSome then 1 else 0
  more : ∀ r ∈ v.requests, r.more = true → r.generation = v.hook.generation →
    v.hook.pending.events = none
  cursor : v.hook.cursor ≠ none → v.hook.pending.events = none
  reads : ∀ r ∈ v.requests, ∀ read, r.read = some read → v.PageStands watch base read
  current : ∀ r ∈ v.requests, ∀ read, r.read = some read → v.isCurrent r = true →
    start ≤ read.logged

/-- The list as it will be: by the events from `start` on, which are held back or to come. -/
structure Follows (base start : ℕ) : Prop where
  good : v.server.Good MemberLock.conflicts memberDiscipline
  game : v.server.committed.InGame watch.groupId watch.gameId
  since : base ≤ start
  begun : start ≤ v.delivered
  past : v.delivered ≤ (v.events watch).length
  history : ∀ junjoUserId, ∃ roles, v.serverRoles watch junjoUserId =
    SetChange.replay (v.changes watch junjoUserId base) roles
  listed : Listed watch v.hook.state.items
  rows : ∀ junjoUserId,
    SetChange.replay (v.changes watch junjoUserId start)
        (rolesOf v.hook.state.items (watch.ids.userId junjoUserId)) = none ∨
      SetChange.replay (v.changes watch junjoUserId start)
        (rolesOf v.hook.state.items (watch.ids.userId junjoUserId)) = v.serverRoles watch junjoUserId
  held : (v.hook.pending.events = none ∧ start = v.delivered) ∨
    v.hook.pending.events =
      some ((((v.events watch).take v.delivered).drop start).map watch.render)
  requested : v.Requested watch base start

/-- A write whose `member.joined` events show the stored roles, and a page of more rows about none
of which the stream has delivered an event since the page was read. -/
def Sound : MembersStep → Prop
  | .server e => ∀ a, v.server.commitOf e = some a → a.JoinsWithoutRoles v.server.committed
  | .arrive i => ∀ request read, v.requests[i]? = some request → request.read = some read →
      request.more = true → request.generation = v.hook.generation →
      ∀ row ∈ useMembers.additions v.hook.state.items read.page.items,
        ∀ e ∈ ((v.events watch).take v.delivered).drop read.logged, ∀ event,
          e = .member event → watch.ids.userId event.key.junjoUserId ≠ row.userId
  | _ => True

end Defs

variable {watch : MembersWatch} {v v' : MembersView} {base start : ℕ}

/-! ### The server -/

/-- What a step of a write does to the group's log and to its members. -/
lemma exists_newEvents {e : TxEvent MemberRequest} {server : MemberServer}
    (hgood : v.server.Good MemberLock.conflicts memberDiscipline)
    (hgame : v.server.committed.InGame watch.groupId watch.gameId)
    (hsound : v.Sound watch (.server e))
    (hnext : MemberServer.next watch.verifySecret v.server e = some server) :
    server.Good MemberLock.conflicts memberDiscipline ∧
    server.committed.InGame watch.groupId watch.gameId ∧
    ∃ added, groupEvents server.committed watch.gameId watch.groupId = v.events watch ++ added ∧
      ∀ junjoUserId, activeRoles (server.committed.findMember ⟨watch.groupId, junjoUserId⟩) =
        SetChange.replay (added.map (rolesChange ⟨watch.groupId, junjoUserId⟩))
          (v.serverRoles watch junjoUserId) := by
  obtain ⟨hgood', hsame | ⟨a, held, hlog, hwritten⟩⟩ :=
    Database.next_good MemberLock.conflicts_comm (keeps_members watch.verifySecret) hgood
      (Database.admitted (fun _ _ _ => trivial) v.server e) hnext
  · refine ⟨hgood', by rwa [hsame.1], [], ?_, fun junjoUserId => ?_⟩
    · rw [hsame.1, List.append_nil]
      rfl
    · rw [hsame.1]
      rfl
  · have hwritten : MemberDb.Written a held v.server.committed server.committed := hwritten
    have hcommit : v.server.commitOf e = some a := by
      rcases Database.next_commitOf hnext with ⟨-, -, hlog'⟩ | ⟨a', ha', hlog'⟩
      · rw [hlog] at hlog'
        exact absurd hlog' (by simp)
      · rw [hlog, List.append_cancel_left_eq, List.singleton_inj] at hlog'
        rw [hlog', ha']
    exact ⟨hgood', hwritten.inGame hgame, newEvents a watch.gameId watch.groupId,
      groupEvents_written hwritten watch.gameId watch.groupId,
      roles_written hwritten (hsound a hcommit) hgame⟩

lemma changes_server {server : MemberServer} {added : List GroupEvent}
    (hadded : groupEvents server.committed watch.gameId watch.groupId = v.events watch ++ added)
    (junjoUserId : Text) {position : ℕ} (hposition : position ≤ (v.events watch).length) :
    MembersView.changes watch { v with server } junjoUserId position =
      v.changes watch junjoUserId position ++
        added.map (rolesChange ⟨watch.groupId, junjoUserId⟩) := by
  rw [changes, changes, events, hadded, List.drop_append_of_le_length hposition, List.map_append]

lemma Follows.server (h : v.Follows watch base start) {e : TxEvent MemberRequest}
    {server : MemberServer} (hsound : v.Sound watch (.server e))
    (hnext : MemberServer.next watch.verifySecret v.server e = some server) :
    MembersView.Follows watch { v with server } base start := by
  obtain ⟨hgood, hgame, added, hadded, hroles⟩ := exists_newEvents h.good h.game hsound hnext
  have hevents : MembersView.events watch { v with server } = v.events watch ++ added := hadded
  have hstart : start ≤ (v.events watch).length := h.begun.trans h.past
  have hreads : ∀ read, v.PageStands watch base read →
      MembersView.PageStands watch { v with server } base read := by
    intro read hread
    refine ⟨hread.since, ?_, hread.listed, fun row hrow junjoUserId huser position hbase hlast => ?_⟩
    · rw [hevents, List.length_append]
      exact Nat.le_add_right_of_le hread.past
    · rw [changes_server hadded junjoUserId (hlast.trans hread.past), SetChange.replay_append,
        hread.rows row hrow junjoUserId huser position hbase hlast]
      exact (hroles junjoUserId).symm
  refine ⟨hgood, hgame, h.since, h.begun, ?_, fun junjoUserId => ?_, h.listed,
    fun junjoUserId => ?_, ?_, ?_⟩
  · rw [hevents, List.length_append]
    exact Nat.le_add_right_of_le h.past
  · obtain ⟨roles, hhistory⟩ := h.history junjoUserId
    refine ⟨roles, ?_⟩
    rw [changes_server hadded junjoUserId (h.since.trans hstart), SetChange.replay_append,
      ← hhistory]
    exact hroles junjoUserId
  · have hmore := changes_server hadded junjoUserId hstart
    have hafter : MembersView.serverRoles watch { v with server } junjoUserId =
        SetChange.replay (added.map (rolesChange ⟨watch.groupId, junjoUserId⟩))
          (v.serverRoles watch junjoUserId) := hroles junjoUserId
    rw [hmore, SetChange.replay_append, hafter]
    rcases h.rows junjoUserId with hnone | hsame
    · rw [hnone]
      rcases SetChange.replay_none (added.map (rolesChange ⟨watch.groupId, junjoUserId⟩)) with
        hnone' | hconst
      · exact .inl hnone'
      · exact .inr (hconst _).symm
    · rw [hsame]
      exact .inr rfl
  · rw [hevents, List.take_append_of_le_length h.past]
    exact h.held
  · exact ⟨h.requested.generations, h.requested.refetches, h.requested.more, h.requested.cursor,
      fun r hr read hread => hreads read (h.requested.reads r hr read hread), h.requested.current⟩

/-! ### Positions -/

/-- The part of a list from one position on, cut at a later one. -/
lemma drop_eq_append {α : Type} (l : List α) {i j : ℕ} (h : i ≤ j) :
    l.drop i = (l.take j).drop i ++ l.drop j := by
  have hj : l.drop j = (l.drop i).drop (j - i) := by rw [List.drop_drop, Nat.add_sub_cancel' h]
  rw [List.drop_take, hj, List.take_append_drop]

lemma changes_split (junjoUserId : Text) {i j : ℕ} (h : i ≤ j) :
    v.changes watch junjoUserId i =
      (((v.events watch).take j).drop i).map (rolesChange ⟨watch.groupId, junjoUserId⟩) ++
        v.changes watch junjoUserId j := by
  rw [changes, drop_eq_append _ h, List.map_append]
  rfl

/-- What the server has can be taken through the latest events once more. -/
lemma Follows.replay_server (h : v.Follows watch base start) (junjoUserId : Text) {position : ℕ}
    (hposition : base ≤ position) :
    SetChange.replay (v.changes watch junjoUserId position) (v.serverRoles watch junjoUserId) =
      v.serverRoles watch junjoUserId := by
  obtain ⟨roles, hroles⟩ := h.history junjoUserId
  rw [hroles, changes_split junjoUserId hposition]
  exact SetChange.replay_shown _ _ roles

/-- A member that is not listed comes back as the server has it, if at all. -/
lemma Follows.replay_none (h : v.Follows watch base start) (junjoUserId : Text) {position : ℕ}
    (hposition : base ≤ position) :
    SetChange.replay (v.changes watch junjoUserId position) none = none ∨
      SetChange.replay (v.changes watch junjoUserId position) none =
        v.serverRoles watch junjoUserId := by
  rcases SetChange.replay_none (v.changes watch junjoUserId position) with hnone | hconst
  · exact .inl hnone
  · exact .inr ((hconst _).symm.trans (h.replay_server junjoUserId hposition))

lemma groupId_of_mem_events {e : GroupEvent} (h : e ∈ v.events watch) :
    GroupEvent.groupId e = watch.groupId :=
  of_decide_eq_true (List.mem_filter.mp h).2

/-! ### Applying events -/

/-- The list after some events of the group. -/
def applyAll (watch : MembersWatch) (events : List GroupEvent) (members : List ListedMember) :
    List ListedMember :=
  events.foldl (fun members e => applyMemberEvent (watch.render e)
    (UseMembersStatus.matching (some .active)) members) members

lemma rolesOf_applyAll {events : List GroupEvent}
    (hgroup : ∀ e ∈ events, GroupEvent.groupId e = watch.groupId) (members : List ListedMember)
    (junjoUserId : Text) :
    rolesOf (applyAll watch events members) (watch.ids.userId junjoUserId) =
      SetChange.replay (events.map (rolesChange ⟨watch.groupId, junjoUserId⟩))
        (rolesOf members (watch.ids.userId junjoUserId)) := by
  induction events generalizing members with
  | nil => rfl
  | cons e events ih =>
    rw [applyAll, List.foldl_cons, ← applyAll, ih fun e' he' => hgroup e' (List.mem_cons_of_mem _ he'),
      rolesOf_applyMemberEvent (hgroup e List.mem_cons_self), List.map_cons, SetChange.replay_cons]

lemma listed_applyAll {members : List ListedMember} (h : Listed watch members)
    (events : List GroupEvent) : Listed watch (applyAll watch events members) := by
  induction events generalizing members with
  | nil => exact h
  | cons e events ih => exact ih (h.applyMemberEvent e)

/-- What the replay of the held events leaves of a hook. -/
lemma replayHeld_spec (hook : MembersHook) {events : List GroupEvent}
    (hheld : hook.pending.events = some (events.map watch.render)) :
    (hook.replayHeld (some .active)).state.items = applyAll watch events hook.state.items ∧
      (hook.replayHeld (some .active)).pending = {} ∧
      (hook.replayHeld (some .active)).generation = hook.generation ∧
      (hook.replayHeld (some .active)).cursor = hook.cursor := by
  have hfold : ∀ (events : List GroupEvent) (hook : MembersHook),
      let replayed := (events.map watch.render).foldl
        (fun hook e => hook.dispatchEvent (some .active) e) hook
      replayed.state.items = applyAll watch events hook.state.items ∧
        replayed.pending = hook.pending ∧ replayed.generation = hook.generation ∧
        replayed.cursor = hook.cursor := by
    intro events
    induction events with
    | nil => exact fun hook => ⟨rfl, rfl, rfl, rfl⟩
    | cons e events ih => exact fun hook => ih (hook.dispatchEvent (some .active) (watch.render e))
  have hdrain : hook.pending.drain = (events.map watch.render, hook.pending.failure) := by
    rw [PendingEvents.drain, hheld]
    rfl
  have hall := hfold events { hook with pending := {} }
  rw [MembersHook.replayHeld, hdrain]
  cases hook.pending.failure with
  | none => exact hall
  | some error => exact hall

/-! ### The requests -/

/-- What stands does so whatever becomes of the hook and its requests. -/
lemma PageStands.congr {read : PageRead} (h : v.PageStands watch base read)
    (hserver : v'.server = v.server) : v'.PageStands watch base read := by
  obtain ⟨server, delivered, hook, requests⟩ := v
  obtain ⟨server', delivered', hook', requests'⟩ := v'
  cases hserver
  exact ⟨h.since, h.past, h.listed, h.rows⟩

/-- The request that arrived, and the others. -/
lemma countP_eraseIdx {requests : List PageRequest} {i : ℕ} {r : PageRequest}
    (hr : requests[i]? = some r) (p : PageRequest → Bool) :
    requests.countP p = (requests.eraseIdx i).countP p + if p r then 1 else 0 := by
  obtain ⟨hi, rfl⟩ := List.getElem?_eq_some_iff.mp hr
  rw [← (List.getElem_cons_eraseIdx_perm hi).countP_eq, List.countP_cons]

/-- Without a request that the hook does not wait for a refetch by. -/
lemma Requested.erase (h : v.Requested watch base start) {i : ℕ} {r : PageRequest}
    (hr : v.requests[i]? = some r) (hcurrent : v.isCurrent r = false) {hook : MembersHook}
    (hgeneration : hook.generation = v.hook.generation)
    (hpending : hook.pending.events = v.hook.pending.events)
    (hcursor : hook.cursor ≠ none → v.hook.pending.events = none) :
    MembersView.Requested watch { v with hook, requests := v.requests.eraseIdx i } base start := by
  have hmem : ∀ {r'}, r' ∈ v.requests.eraseIdx i → r' ∈ v.requests := List.mem_of_mem_eraseIdx
  have hsame : MembersView.isCurrent { v with hook, requests := v.requests.eraseIdx i } =
      v.isCurrent := by
    funext r'
    rw [isCurrent, isCurrent, hgeneration]
  refine ⟨fun r' hr' => ?_, ?_, fun r' hr' hmore hgen => ?_, fun hne => ?_,
    fun r' hr' read hread => (h.reads r' (hmem hr') read hread).congr rfl,
    fun r' hr' read hread hcur => h.current r' (hmem hr') read hread (hsame ▸ hcur)⟩
  · rw [hgeneration]
    exact h.generations r' (hmem hr')
  · have hcount := countP_eraseIdx hr v.isCurrent
    rw [hcurrent, h.refetches] at hcount
    rw [hsame, hpending]
    exact hcount.symm
  · rw [hgeneration] at hgen
    rw [hpending]
    exact h.more r' (hmem hr') hmore hgen
  · rw [hpending]
    exact hcursor hne

/-- Once the refetch that the hook waited for is there, it waits for none. -/
lemma Requested.refetched (h : v.Requested watch base start) {i : ℕ} {r : PageRequest}
    (hr : v.requests[i]? = some r) (hcurrent : v.isCurrent r = true) {hook : MembersHook}
    (hgeneration : hook.generation = v.hook.generation) (hpending : hook.pending.events = none)
    (start' : ℕ) :
    MembersView.Requested watch { v with hook, requests := v.requests.eraseIdx i } base start' := by
  have hmem : ∀ {r'}, r' ∈ v.requests.eraseIdx i → r' ∈ v.requests := List.mem_of_mem_eraseIdx
  have hsame : MembersView.isCurrent { v with hook, requests := v.requests.eraseIdx i } =
      v.isCurrent := by
    funext r'
    rw [isCurrent, isCurrent, hgeneration]
  have hcount : (v.requests.eraseIdx i).countP v.isCurrent = 0 := by
    have hcount := countP_eraseIdx hr v.isCurrent
    rw [hcurrent, h.refetches, if_pos rfl] at hcount
    split_ifs at hcount <;> omega
  refine ⟨fun r' hr' => ?_, ?_, fun r' hr' hmore hgen => hpending, fun hne => hpending,
    fun r' hr' read hread => (h.reads r' (hmem hr') read hread).congr rfl,
    fun r' hr' read hread hcur => ?_⟩
  · rw [hgeneration]
    exact h.generations r' (hmem hr')
  · rw [hsame, hpending]
    exact hcount
  · rw [hsame] at hcur
    exact absurd hcur (List.countP_eq_zero.mp hcount r' hr')

/-! ### The steps of the hook -/

/-- A step that leaves the list and what is held back. -/
lemma Follows.same (h : v.Follows watch base start) {hook : MembersHook}
    {requests : List PageRequest} (hitems : hook.state.items = v.hook.state.items)
    (hpending : hook.pending.events = v.hook.pending.events)
    (hrequested : MembersView.Requested watch { v with hook, requests } base start) :
    MembersView.Follows watch { v with hook, requests } base start where
  good := h.good
  game := h.game
  since := h.since
  begun := h.begun
  past := h.past
  history := h.history
  listed := by
    show Listed watch hook.state.items
    rw [hitems]
    exact h.listed
  rows junjoUserId := by
    show SetChange.replay (v.changes watch junjoUserId start) (rolesOf hook.state.items _) = none ∨
      SetChange.replay (v.changes watch junjoUserId start) (rolesOf hook.state.items _) = _
    rw [hitems]
    exact h.rows junjoUserId
  held := by
    show (hook.pending.events = none ∧ _) ∨ hook.pending.events = _
    rw [hpending]
    exact h.held
  requested := hrequested

lemma Follows.deliver (h : v.Follows watch base start) (hactive : watch.status = some .active)
    {e : GroupEvent} (he : (v.events watch)[v.delivered]? = some e) :
    ∃ start', MembersView.Follows watch { v with
      delivered := v.delivered + 1
      hook := v.hook.onEvent watch.status (watch.render e) } base start' := by
  obtain ⟨hlt, hget⟩ := List.getElem?_eq_some_iff.mp he
  have htake : (v.events watch).take (v.delivered + 1) = (v.events watch).take v.delivered ++ [e] := by
    rw [List.take_add_one, he]
    rfl
  rcases h.held with ⟨hnone, rfl⟩ | hheld
  · -- nothing is held: the event is applied
    have hhook : v.hook.onEvent watch.status (watch.render e) =
        v.hook.dispatchEvent (some .active) (watch.render e) := by
      rw [MembersHook.onEvent, PendingEvents.hold, hnone, hactive]
      rfl
    rw [hhook]
    have hcut : ∀ junjoUserId, v.changes watch junjoUserId v.delivered =
        rolesChange ⟨watch.groupId, junjoUserId⟩ e :: v.changes watch junjoUserId (v.delivered + 1) := by
      intro junjoUserId
      rw [changes, List.drop_eq_getElem_cons hlt, List.map_cons, hget]
      rfl
    refine ⟨v.delivered + 1, h.good, h.game, Nat.le_succ_of_le h.since, le_rfl, hlt, h.history,
      h.listed.applyMemberEvent e, fun junjoUserId => ?_, .inl ⟨hnone, rfl⟩, ?_⟩
    · have hrow := rolesOf_applyMemberEvent
        (groupId_of_mem_events (List.mem_of_getElem? he)) v.hook.state.items junjoUserId
      have hrows := h.rows junjoUserId
      rw [hcut junjoUserId, SetChange.replay_cons, ← hrow] at hrows
      exact hrows
    · have hempty : ∀ r ∈ v.requests, v.isCurrent r = true → False := by
        intro r hr hcur
        have hzero := h.requested.refetches
        rw [hnone] at hzero
        exact List.countP_eq_zero.mp hzero r hr hcur
      exact ⟨h.requested.generations, h.requested.refetches, h.requested.more, h.requested.cursor,
        fun r hr read hread => (h.requested.reads r hr read hread).congr rfl,
        fun r hr read hread hcur => (hempty r hr hcur).elim⟩
  · -- the event is held
    have hhook : v.hook.onEvent watch.status (watch.render e) = { v.hook with
        pending := { v.hook.pending with events := some ((((v.events watch).take v.delivered).drop
          start).map watch.render ++ [watch.render e]) } } := by
      rw [MembersHook.onEvent, PendingEvents.hold, hheld]
      rfl
    rw [hhook]
    refine ⟨start, h.good, h.game, h.since, Nat.le_succ_of_le h.begun, hlt, h.history, h.listed,
      h.rows, .inr ?_, ?_⟩
    · show some _ = some ((((v.events watch).take (v.delivered + 1)).drop start).map watch.render)
      have hstart : start ≤ ((v.events watch).take v.delivered).length := by
        rw [List.length_take, Nat.min_eq_left h.past]
        exact h.begun
      rw [htake, List.drop_append_of_le_length hstart, List.map_append]
      rfl
    · refine ⟨h.requested.generations, ?_, fun r hr hmore hgen => ?_, fun hne => ?_,
        fun r hr read hread => (h.requested.reads r hr read hread).congr rfl, h.requested.current⟩
      · have hone := h.requested.refetches
        rw [hheld] at hone
        exact hone
      · have hnone := h.requested.more r hr hmore hgen
        rw [hheld] at hnone
        cases hnone
      · have hnone := h.requested.cursor hne
        rw [hheld] at hnone
        cases hnone

lemma Follows.onFailure (h : v.Follows watch base start) (error : HookError) :
    MembersView.Follows watch { v with hook := v.hook.onFailure error } base start := by
  have hboth : (v.hook.onFailure error).state.items = v.hook.state.items ∧
      (v.hook.onFailure error).pending.events = v.hook.pending.events ∧
      (v.hook.onFailure error).generation = v.hook.generation ∧
      (v.hook.onFailure error).cursor = v.hook.cursor := by
    rw [MembersHook.onFailure, PendingEvents.holdFailure]
    cases hevents : v.hook.pending.events with
    | none => exact ⟨rfl, hevents, rfl, rfl⟩
    | some events => exact ⟨rfl, rfl, rfl, rfl⟩
  obtain ⟨hitems, hpending, hgeneration, hcursor⟩ := hboth
  refine h.same hitems hpending ⟨?_, ?_, ?_, ?_, ?_, ?_⟩
  · rw [hgeneration]
    exact h.requested.generations
  · rw [hpending, ← h.requested.refetches]
    refine List.countP_congr fun r _ => ?_
    rw [isCurrent, isCurrent, hgeneration]
  · rw [hgeneration, hpending]
    exact h.requested.more
  · rw [hpending, hcursor]
    exact h.requested.cursor
  · exact fun r hr read hread => (h.requested.reads r hr read hread).congr rfl
  · intro r hr read hread hcur
    rw [isCurrent, hgeneration] at hcur
    exact h.requested.current r hr read hread hcur

lemma Follows.refetch (h : v.Follows watch base start) :
    ∃ start', MembersView.Follows watch { v with
      hook := v.hook.refetch
      requests := v.requests ++ [⟨false, v.hook.refetch.generation, none⟩] } base start' := by
  have hrequested : ∀ start', MembersView.Requested watch { v with
      hook := v.hook.refetch
      requests := v.requests ++ [⟨false, v.hook.refetch.generation, none⟩] } base start' := by
    intro start'
    have hold : ∀ r ∈ v.requests, r.generation < v.hook.refetch.generation :=
      fun r hr => Nat.lt_succ_of_le (h.requested.generations r hr)
    refine ⟨fun r hr => ?_, ?_, fun r hr hmore hgen => ?_, fun hne => absurd rfl hne,
      fun r hr read hread => ?_, fun r hr read hread hcur => ?_⟩
    · rcases List.mem_append.mp hr with hr | hr
      · exact (hold r hr).le
      · rw [List.mem_singleton.mp hr]
    · rw [List.countP_append]
      have hzero : v.requests.countP (fun r => !r.more && r.generation = v.hook.refetch.generation) =
          0 :=
        List.countP_eq_zero.mpr fun r hr hcur => by
          rw [Bool.and_eq_true, decide_eq_true_eq] at hcur
          exact absurd hcur.2 (hold r hr).ne
      exact Nat.add_eq_right.mpr hzero |>.trans (by simp [isCurrent, MembersHook.refetch,
        MembersHook.dispatch, PendingEvents.begin])
    · rcases List.mem_append.mp hr with hr | hr
      · exact absurd hgen (hold r hr).ne
      · rw [List.mem_singleton.mp hr] at hmore
        cases hmore
    · rcases List.mem_append.mp hr with hr | hr
      · exact (h.requested.reads r hr read hread).congr rfl
      · rw [List.mem_singleton.mp hr] at hread
        cases hread
    · rcases List.mem_append.mp hr with hr | hr
      · rw [isCurrent, Bool.and_eq_true, decide_eq_true_eq] at hcur
        exact absurd hcur.2 (hold r hr).ne
      · rw [List.mem_singleton.mp hr] at hread
        cases hread
  rcases h.held with ⟨hnone, rfl⟩ | hheld
  · refine ⟨v.delivered, h.good, h.game, h.since, le_rfl, h.past, h.history, listed_nil,
      fun junjoUserId => h.replay_none junjoUserId h.since, .inr ?_, hrequested _⟩
    have hempty : ((v.events watch).take v.delivered).drop v.delivered = [] :=
      List.drop_eq_nil_of_le (List.length_take_le _ _)
    show some (v.hook.pending.events.getD []) =
      some ((((v.events watch).take v.delivered).drop v.delivered).map watch.render)
    rw [hnone, hempty]
    rfl
  · refine ⟨start, h.good, h.game, h.since, h.begun, h.past, h.history, listed_nil,
      fun junjoUserId => h.replay_none junjoUserId h.since, .inr ?_, hrequested _⟩
    show some (v.hook.pending.events.getD []) = _
    rw [hheld]
    rfl

lemma Follows.fetchMore (h : v.Follows watch base start) {hook : MembersHook}
    (hmore : v.hook.fetchMore = some hook) :
    MembersView.Follows watch { v with
      hook, requests := v.requests ++ [⟨true, v.hook.generation, none⟩] } base start := by
  rw [MembersHook.fetchMore] at hmore
  split_ifs at hmore with hidle
  cases hmore
  rw [Bool.or_eq_true, not_or] at hidle
  have hcursor : v.hook.cursor ≠ none := fun hnone => hidle.1 (by rw [hnone]; rfl)
  have hnone := h.requested.cursor hcursor
  refine h.same rfl rfl ⟨fun r hr => ?_, ?_, fun r hr hmore hgen => hnone, fun _ => hnone,
    fun r hr read hread => ?_, fun r hr read hread hcur => ?_⟩
  · rcases List.mem_append.mp hr with hr | hr
    · exact h.requested.generations r hr
    · rw [List.mem_singleton.mp hr]
      exact le_rfl
  · rw [List.countP_append]
    exact h.requested.refetches
  · rcases List.mem_append.mp hr with hr | hr
    · exact (h.requested.reads r hr read hread).congr rfl
    · rw [List.mem_singleton.mp hr] at hread
      cases hread
  · rcases List.mem_append.mp hr with hr | hr
    · exact h.requested.current r hr read hread hcur
    · rw [List.mem_singleton.mp hr] at hread
      cases hread

/-! ### Reading a page -/

/-- What a page shows of the members that the server reads for it. -/
lemma pageRow_spec (hactive : watch.status = some .active) {person : Text × Option Text}
    {row : ListedMember} (h : v.pageRow watch person = some row) :
    row.userId = watch.ids.userId person.1 ∧ row.status = .active ∧
      v.serverRoles watch person.1 = some row.roles := by
  rw [pageRow, hactive, Option.filter_eq_some_iff, Option.map_eq_some_iff] at h
  obtain ⟨⟨m, hm, rfl⟩, hmatch⟩ := h
  have hstatus : m.status = .active := of_decide_eq_true hmatch
  refine ⟨rfl, hstatus, ?_⟩
  rw [serverRoles, hm, activeRoles_some, if_pos hstatus]
  rfl

lemma mapM_pageRow (hactive : watch.status = some .active) {people : List (Text × Option Text)}
    {items : List ListedMember} (h : people.mapM (v.pageRow watch) = some items) :
    items.map ListedMember.userId = people.map (fun person => watch.ids.userId person.1) ∧
      ∀ row ∈ items, row.status = .active ∧ ∃ junjoUserId,
        row.userId = watch.ids.userId junjoUserId ∧
          v.serverRoles watch junjoUserId = some row.roles := by
  induction people generalizing items with
  | nil =>
    cases h
    exact ⟨rfl, fun row hrow => absurd hrow List.not_mem_nil⟩
  | cons person people ih =>
    rw [List.mapM_cons, Option.bind_eq_bind, Option.bind_eq_some_iff] at h
    obtain ⟨row, hrow, h⟩ := h
    rw [Option.bind_eq_bind, Option.bind_eq_some_iff] at h
    obtain ⟨rows, hrows, h⟩ := h
    cases h
    obtain ⟨huser, hstatus, hroles⟩ := pageRow_spec hactive hrow
    obtain ⟨hmap, hall⟩ := ih hrows
    refine ⟨by rw [List.map_cons, List.map_cons, huser, hmap], fun row' hrow' => ?_⟩
    rcases List.mem_cons.mp hrow' with rfl | hrow'
    · exact ⟨hstatus, person.1, huser, hroles⟩
    · exact hall row' hrow'

/-- A page that is read now stands. -/
lemma Follows.pageStands (h : v.Follows watch base start) (hactive : watch.status = some .active)
    {people : List (Text × Option Text)} (hnodup : (people.map Prod.fst).Nodup)
    {items : List ListedMember} (hitems : people.mapM (v.pageRow watch) = some items)
    (nextCursor : Option Text) :
    v.PageStands watch base ⟨⟨items, nextCursor⟩, (v.events watch).length⟩ := by
  obtain ⟨hmap, hall⟩ := mapM_pageRow hactive hitems
  refine ⟨h.since.trans (h.begun.trans h.past), le_rfl,
    ⟨?_, fun row hrow => (hall row hrow).1, fun row hrow => ?_⟩,
    fun row hrow junjoUserId huser position hbase _ => ?_⟩
  · show (items.map ListedMember.userId).Nodup
    rw [hmap, ← Function.comp_def, ← List.map_map]
    exact hnodup.map watch.ids.injective
  · obtain ⟨-, junjoUserId, huser, -⟩ := hall row hrow
    exact ⟨junjoUserId, huser⟩
  · obtain ⟨-, junjoUserId', huser', hroles⟩ := hall row hrow
    have hperson : junjoUserId' = junjoUserId := watch.ids.injective (huser'.symm.trans huser)
    rw [← hroles, hperson]
    exact h.replay_server junjoUserId hbase

lemma Follows.read (h : v.Follows watch base start) (hactive : watch.status = some .active)
    {i : ℕ} {request : PageRequest} (hi : v.requests[i]? = some request)
    {people : List (Text × Option Text)} (hnodup : (people.map Prod.fst).Nodup)
    {items : List ListedMember} (hitems : people.mapM (v.pageRow watch) = some items)
    (nextCursor : Option Text) :
    MembersView.Follows watch { v with
      requests := v.requests.set i { request with
        read := some ⟨⟨items, nextCursor⟩, (v.events watch).length⟩ } } base start := by
  have hstands := h.pageStands hactive hnodup hitems nextCursor
  obtain ⟨hlt, rfl⟩ := List.getElem?_eq_some_iff.mp hi
  have hmem : v.requests[i] ∈ v.requests := List.getElem_mem hlt
  have hcases : ∀ {r}, r ∈ v.requests.set i { v.requests[i] with
      read := some ⟨⟨items, nextCursor⟩, (v.events watch).length⟩ } → r ∈ v.requests ∨
      r = { v.requests[i] with
        read := some ⟨⟨items, nextCursor⟩, (v.events watch).length⟩ } :=
    List.mem_or_eq_of_mem_set
  refine ⟨h.good, h.game, h.since, h.begun, h.past, h.history, h.listed, h.rows, h.held,
    ⟨fun r hr => ?_, ?_, fun r hr hmore hgen => ?_, h.requested.cursor, fun r hr read hread => ?_,
      fun r hr read hread hcur => ?_⟩⟩
  · rcases hcases hr with hr | rfl
    · exact h.requested.generations r hr
    · show v.requests[i].generation ≤ v.hook.generation
      exact h.requested.generations _ hmem
  · have hset : (v.requests.set i { v.requests[i] with
        read := some ⟨⟨items, nextCursor⟩, (v.events watch).length⟩ }).map
          (fun r => (r.more, r.generation)) = v.requests.map fun r => (r.more, r.generation) := by
      rw [List.map_set]
      refine List.ext_getElem (by simp) fun j hj hj' => ?_
      rw [List.getElem_set]
      split_ifs with heq
      · subst heq
        rw [List.getElem_map]
      · rfl
    have hcount : ∀ l : List PageRequest, l.countP v.isCurrent =
        (l.map fun r => (r.more, r.generation)).countP
          fun p => !p.1 && p.2 = v.hook.generation :=
      fun l => by rw [List.countP_map]; rfl
    exact (hcount _).trans ((congrArg _ hset).trans ((hcount _).symm.trans h.requested.refetches))
  · rcases hcases hr with hr | rfl
    · exact h.requested.more r hr hmore hgen
    · exact h.requested.more _ hmem hmore hgen
  · rcases hcases hr with hr | rfl
    · exact (h.requested.reads r hr read hread).congr rfl
    · cases hread
      exact hstands.congr rfl
  · rcases hcases hr with hr | rfl
    · exact h.requested.current r hr read hread hcur
    · cases hread
      exact h.begun.trans h.past

/-! ### Answers -/

/-- The answer that a refetch waited for, once the held events are replayed on it. -/
lemma Follows.replayed (h : v.Follows watch base start) {i : ℕ} {r : PageRequest}
    (hr : v.requests[i]? = some r) (hcurrent : v.isCurrent r = true) {hook : MembersHook}
    (hlisted : Listed watch hook.state.items)
    (hrows : ∀ junjoUserId,
      SetChange.replay (v.changes watch junjoUserId start)
          (rolesOf hook.state.items (watch.ids.userId junjoUserId)) = none ∨
        SetChange.replay (v.changes watch junjoUserId start)
          (rolesOf hook.state.items (watch.ids.userId junjoUserId)) =
            v.serverRoles watch junjoUserId)
    (hpending : hook.pending = v.hook.pending) (hgeneration : hook.generation = v.hook.generation) :
    ∃ start', MembersView.Follows watch { v with
      hook := hook.replayHeld (some .active), requests := v.requests.eraseIdx i } base start' := by
  have hsome : v.hook.pending.events =
      some ((((v.events watch).take v.delivered).drop start).map watch.render) := by
    rcases h.held with ⟨hnone, -⟩ | hheld
    · have hzero := h.requested.refetches
      rw [hnone] at hzero
      exact absurd hcurrent (List.countP_eq_zero.mp hzero r (List.mem_of_getElem? hr))
    · exact hheld
  obtain ⟨hitems, hdrained, hgeneration', -⟩ := replayHeld_spec hook (hpending ▸ hsome)
  have hgroup : ∀ e ∈ ((v.events watch).take v.delivered).drop start,
      GroupEvent.groupId e = watch.groupId :=
    fun e he => groupId_of_mem_events (List.mem_of_mem_take (List.mem_of_mem_drop he))
  have hnone : (hook.replayHeld (some .active)).pending.events = none := by rw [hdrained]
  refine ⟨v.delivered, h.good, h.game, h.since.trans h.begun, le_rfl, h.past, h.history, ?_,
    fun junjoUserId => ?_, .inl ⟨hnone, rfl⟩,
    h.requested.refetched hr hcurrent (hgeneration'.trans hgeneration) hnone _⟩
  · show Listed watch (hook.replayHeld (some .active)).state.items
    rw [hitems]
    exact listed_applyAll hlisted _
  · show SetChange.replay (v.changes watch junjoUserId v.delivered)
        (rolesOf (hook.replayHeld (some .active)).state.items _) = none ∨
      SetChange.replay (v.changes watch junjoUserId v.delivered)
        (rolesOf (hook.replayHeld (some .active)).state.items _) = _
    have hrow := hrows junjoUserId
    rw [changes_split junjoUserId h.begun, SetChange.replay_append] at hrow
    rw [hitems, rolesOf_applyAll hgroup]
    exact hrow

/-- The rows that a page brings. -/
lemma rolesOf_additions (members page : List ListedMember) (userId : Text) :
    rolesOf (members ++ useMembers.additions members page) userId =
      (rolesOf members userId).or (rolesOf page userId) := by
  rw [rolesOf_append]
  cases hfound : rolesOf members userId with
  | some roles => rfl
  | none =>
    rw [Option.none_or, Option.none_or, rolesOf, rolesOf, ListHook.find?_additions]
    intro row _ huser hmem
    obtain ⟨m, hm, heq⟩ := List.mem_map.mp hmem
    exact rolesOf_eq_none_iff.mp hfound m hm (heq.trans (of_decide_eq_true huser))

lemma exists_of_rolesOf {members : List ListedMember} {userId : Text} {roles : Finset Text}
    (h : rolesOf members userId = some roles) :
    ∃ m ∈ members, m.userId = userId ∧ m.roles = roles := by
  rw [rolesOf, Option.map_eq_some_iff] at h
  obtain ⟨m, hfind, hroles⟩ := h
  have huser := List.find?_some hfind
  exact ⟨m, List.mem_of_find?_eq_some hfind, of_decide_eq_true huser, hroles⟩

/-- Events that are not about a member leave its roles. -/
lemma replay_keep {events : List GroupEvent} {junjoUserId : Text}
    (h : ∀ e ∈ events, ∀ event, e = .member event → event.key.junjoUserId ≠ junjoUserId)
    (roles : Option (Finset Text)) :
    SetChange.replay (events.map (rolesChange ⟨watch.groupId, junjoUserId⟩)) roles = roles := by
  induction events with
  | nil => rfl
  | cons e events ih =>
    have hkeep : rolesChange ⟨watch.groupId, junjoUserId⟩ e = .keep := by
      cases e with
      | deleted groupId => rfl
      | member event =>
        refine if_neg fun hkey => h _ List.mem_cons_self event rfl ?_
        rw [hkey]
    rw [List.map_cons, SetChange.replay_cons, hkeep, SetChange.apply_keep]
    exact ih fun e' he' => h e' (List.mem_cons_of_mem _ he')

/-- A page of more rows, read before or after what is delivered, shows its new rows as they should
be. -/
lemma PageStands.additions {read : PageRead} (hread : v.PageStands watch base read)
    (hbase : base ≤ v.delivered) {row : ListedMember} (hrow : row ∈ read.page.items)
    {junjoUserId : Text} (huser : row.userId = watch.ids.userId junjoUserId)
    (hsound : ∀ e ∈ ((v.events watch).take v.delivered).drop read.logged, ∀ event,
      e = .member event → watch.ids.userId event.key.junjoUserId ≠ row.userId) :
    SetChange.replay (v.changes watch junjoUserId v.delivered) (some row.roles) =
      v.serverRoles watch junjoUserId := by
  rcases le_total v.delivered read.logged with hlate | hearly
  · exact hread.rows row hrow junjoUserId huser v.delivered hbase hlate
  · have hall := hread.rows row hrow junjoUserId huser read.logged hread.since le_rfl
    rw [changes_split junjoUserId hearly, SetChange.replay_append, replay_keep] at hall
    · exact hall
    · intro e he event hevent hperson
      exact hsound e he event hevent (by rw [hperson, huser])

lemma releaseMore_spec (hook : MembersHook) (generation : ℕ) :
    (hook.releaseMore generation).state = hook.state ∧
      (hook.releaseMore generation).pending = hook.pending ∧
      (hook.releaseMore generation).generation = hook.generation ∧
      (hook.releaseMore generation).cursor = hook.cursor := by
  rw [MembersHook.releaseMore]
  split_ifs <;> exact ⟨rfl, rfl, rfl, rfl⟩

/-- The answer to a request for more rows. -/
lemma Follows.fetchedMore (h : v.Follows watch base start) {i : ℕ} {r : PageRequest}
    (hr : v.requests[i]? = some r) (hmore : r.more = true)
    (result : Except HookError MembersPage)
    (hpage : ∀ page, result = .ok page → ∃ read, r.read = some read ∧ read.page = page ∧
      (r.generation = v.hook.generation → ∀ row ∈ useMembers.additions v.hook.state.items page.items,
        ∀ e ∈ ((v.events watch).take v.delivered).drop read.logged, ∀ event,
          e = .member event → watch.ids.userId event.key.junjoUserId ≠ row.userId)) :
    MembersView.Follows watch { v with
      hook := v.hook.fetchedMore r.generation result, requests := v.requests.eraseIdx i }
      base start := by
  have hcurrent : v.isCurrent r = false := by rw [isCurrent, hmore]; rfl
  by_cases hgen : r.generation = v.hook.generation
  · have hnone := h.requested.more r (List.mem_of_getElem? hr) hmore hgen
    have hstart : start = v.delivered := by
      rcases h.held with ⟨-, hstart⟩ | hheld
      · exact hstart
      · rw [hnone] at hheld
        cases hheld
    subst hstart
    cases result with
    | error error =>
      have hhook : v.hook.fetchedMore r.generation (.error error) =
          (v.hook.dispatch (.fetchMoreError error)).releaseMore r.generation := by
        rw [MembersHook.fetchedMore, if_neg (not_not.mpr hgen)]
      obtain ⟨hstate, hpending, hgeneration, hcursor⟩ :=
        releaseMore_spec (v.hook.dispatch (.fetchMoreError error)) r.generation
      rw [hhook]
      refine h.same (by rw [hstate]; rfl) (by rw [hpending]; rfl)
        (h.requested.erase hr hcurrent (by rw [hgeneration]; rfl) (by rw [hpending]; rfl)
          fun _ => hnone)
    | ok page =>
      obtain ⟨read, hread, rfl, hsound⟩ := hpage page rfl
      have hhook : v.hook.fetchedMore r.generation (.ok read.page) =
          (MembersHook.dispatch { v.hook with cursor := read.page.nextCursor }
            (.fetchMoreSuccess read.page.items read.page.nextCursor.isSome)).releaseMore
              r.generation := by
        rw [MembersHook.fetchedMore, if_neg (not_not.mpr hgen)]
      obtain ⟨hstate, hpending, hgeneration, hcursor⟩ :=
        releaseMore_spec (MembersHook.dispatch { v.hook with cursor := read.page.nextCursor }
          (.fetchMoreSuccess read.page.items read.page.nextCursor.isSome)) r.generation
      have hitems : (v.hook.fetchedMore r.generation (.ok read.page)).state.items =
          v.hook.state.items ++ useMembers.additions v.hook.state.items read.page.items := by
        rw [hhook, hstate]
        rfl
      have hevents : (v.hook.fetchedMore r.generation (.ok read.page)).pending.events = none := by
        rw [hhook, hpending]
        exact hnone
      have hstands := h.requested.reads r (List.mem_of_getElem? hr) read hread
      refine ⟨h.good, h.game, h.since, le_rfl, h.past, h.history, ?_, fun junjoUserId => ?_,
        .inl ⟨hevents, rfl⟩, h.requested.erase hr hcurrent (by rw [hhook, hgeneration]; rfl)
          (by rw [hevents, hnone]) fun _ => hnone⟩
      · show Listed watch (v.hook.fetchedMore r.generation (.ok read.page)).state.items
        rw [hitems]
        refine h.listed.append (hstands.listed.filter _) fun m hm => ?_
        exact (ListHook.mem_additions.mp hm).2
      · show SetChange.replay (v.changes watch junjoUserId v.delivered)
            (rolesOf (v.hook.fetchedMore r.generation (.ok read.page)).state.items _) = none ∨
          SetChange.replay (v.changes watch junjoUserId v.delivered)
            (rolesOf (v.hook.fetchedMore r.generation (.ok read.page)).state.items _) = _
        rw [hitems, rolesOf_additions]
        cases hlisted : rolesOf v.hook.state.items (watch.ids.userId junjoUserId) with
        | some roles =>
          have hrows := h.rows junjoUserId
          rw [hlisted] at hrows
          exact hrows
        | none =>
          rw [Option.none_or]
          cases hfound : rolesOf read.page.items (watch.ids.userId junjoUserId) with
          | none => exact h.replay_none junjoUserId h.since
          | some roles =>
            obtain ⟨row, hrow, huser, rfl⟩ := exists_of_rolesOf hfound
            refine .inr (hstands.additions h.since hrow huser (hsound hgen row ?_))
            refine ListHook.mem_additions.mpr ⟨hrow, fun hmem => ?_⟩
            obtain ⟨m, hm, heq⟩ := List.mem_map.mp hmem
            exact rolesOf_eq_none_iff.mp hlisted m hm (heq.trans huser)
  · have hhook : v.hook.fetchedMore r.generation result = v.hook.releaseMore r.generation := by
      cases result <;> rw [MembersHook.fetchedMore, if_pos hgen]
    obtain ⟨hstate, hpending, hgeneration, hcursor⟩ := releaseMore_spec v.hook r.generation
    rw [hhook]
    refine h.same (by rw [hstate]) (by rw [hpending])
      (h.requested.erase hr hcurrent hgeneration (by rw [hpending]) fun hne => ?_)
    rw [hcursor] at hne
    exact h.requested.cursor hne

/-- The answer to a refetch. -/
lemma Follows.refetched (h : v.Follows watch base start) {i : ℕ} {r : PageRequest}
    (hr : v.requests[i]? = some r) (hmore : r.more = false)
    (result : Except HookError MembersPage)
    (hpage : ∀ page, result = .ok page → ∃ read, r.read = some read ∧ read.page = page) :
    ∃ start', MembersView.Follows watch { v with
      hook := v.hook.refetched (some .active) r.generation result
      requests := v.requests.eraseIdx i } base start' := by
  by_cases hgen : r.generation = v.hook.generation
  · have hcurrent : v.isCurrent r = true := by
      rw [isCurrent, hmore, decide_eq_true hgen]
      rfl
    cases result with
    | error error =>
      have hhook : v.hook.refetched (some .active) r.generation (.error error) =
          (v.hook.dispatch (.fetchError error)).replayHeld (some .active) := by
        rw [MembersHook.refetched, if_neg (not_not.mpr hgen)]
      rw [hhook]
      refine h.replayed hr hcurrent ?_ ?_ rfl rfl
      · exact h.listed
      · exact h.rows
    | ok page =>
      obtain ⟨read, hread, rfl⟩ := hpage page rfl
      have hhook : v.hook.refetched (some .active) r.generation (.ok read.page) =
          (MembersHook.dispatch { v.hook with cursor := read.page.nextCursor }
            (.fetchSuccess read.page.items read.page.nextCursor.isSome)).replayHeld
              (some .active) := by
        rw [MembersHook.refetched, if_neg (not_not.mpr hgen)]
      have hstands := h.requested.reads r (List.mem_of_getElem? hr) read hread
      rw [hhook]
      refine h.replayed hr hcurrent hstands.listed (fun junjoUserId => ?_) rfl rfl
      show SetChange.replay (v.changes watch junjoUserId start)
            (rolesOf read.page.items (watch.ids.userId junjoUserId)) = none ∨
          SetChange.replay (v.changes watch junjoUserId start)
            (rolesOf read.page.items (watch.ids.userId junjoUserId)) = _
      cases hfound : rolesOf read.page.items (watch.ids.userId junjoUserId) with
      | none => exact h.replay_none junjoUserId h.since
      | some roles =>
        obtain ⟨row, hrow, huser, rfl⟩ := exists_of_rolesOf hfound
        exact .inr (hstands.rows row hrow junjoUserId huser start h.since
          (h.requested.current r (List.mem_of_getElem? hr) read hread hcurrent))
  · have hhook : v.hook.refetched (some .active) r.generation result = v.hook := by
      cases result <;> rw [MembersHook.refetched, if_pos hgen]
    have hcurrent : v.isCurrent r = false := by
      rw [isCurrent, decide_eq_false hgen, Bool.and_false]
    rw [hhook]
    exact ⟨start, h.same rfl rfl (h.requested.erase hr hcurrent rfl rfl h.requested.cursor)⟩

/-! ### Runs -/

/-- What one step keeps. -/
lemma Follows.next (h : v.Follows watch base start) (hactive : watch.status = some .active)
    {step : MembersStep} (hsound : v.Sound watch step) (hnext : v.next watch step = some v') :
    ∃ start', v'.Follows watch base start' := by
  cases step with
  | server e =>
    rw [MembersView.next, Option.map_eq_some_iff] at hnext
    obtain ⟨server, hserver, rfl⟩ := hnext
    exact ⟨start, h.server hsound hserver⟩
  | deliver =>
    rw [MembersView.next, Option.map_eq_some_iff] at hnext
    obtain ⟨e, he, rfl⟩ := hnext
    exact h.deliver hactive he
  | streamFails error =>
    cases hnext
    exact ⟨start, h.onFailure error⟩
  | refetch =>
    cases hnext
    exact h.refetch
  | fetchMore =>
    rw [MembersView.next, Option.map_eq_some_iff] at hnext
    obtain ⟨hook, hmore, rfl⟩ := hnext
    exact ⟨start, h.fetchMore hmore⟩
  | read i people nextCursor =>
    rw [MembersView.next, Option.bind_eq_some_iff] at hnext
    obtain ⟨request, hi, hnext⟩ := hnext
    split_ifs at hnext with hunread
    rw [Option.map_eq_some_iff] at hnext
    obtain ⟨items, hitems, rfl⟩ := hnext
    exact ⟨start, h.read hactive hi hunread.2 hitems nextCursor⟩
  | arrive i =>
    rw [MembersView.next, Option.bind_eq_some_iff] at hnext
    obtain ⟨r, hr, hnext⟩ := hnext
    rw [Option.map_eq_some_iff] at hnext
    obtain ⟨read, hread, rfl⟩ := hnext
    rw [answer, hactive]
    by_cases hmore : r.more = true
    · rw [if_pos hmore]
      refine ⟨start, h.fetchedMore hr hmore _ ?_⟩
      rintro _ ⟨⟩
      exact ⟨read, hread, rfl, hsound r read hr hread hmore⟩
    · rw [if_neg hmore]
      refine h.refetched hr (Bool.eq_false_of_not_eq_true hmore) _ ?_
      rintro _ ⟨⟩
      exact ⟨read, hread, rfl⟩
  | fail i error =>
    rw [MembersView.next, Option.map_eq_some_iff] at hnext
    obtain ⟨r, hr, rfl⟩ := hnext
    rw [answer, hactive]
    by_cases hmore : r.more = true
    · rw [if_pos hmore]
      exact ⟨start, h.fetchedMore hr hmore _ nofun⟩
    · rw [if_neg hmore]
      exact h.refetched hr (Bool.eq_false_of_not_eq_true hmore) _ nofun

lemma changes_mount (server : MemberServer) (junjoUserId : Text) :
    (mount watch server).changes watch junjoUserId
      (groupEvents server.committed watch.gameId watch.groupId).length = [] := by
  show ((groupEvents server.committed watch.gameId watch.groupId).drop
    (groupEvents server.committed watch.gameId watch.groupId).length).map _ = []
  rw [List.drop_length]
  rfl

lemma follows_mount {server : MemberServer}
    (hgood : server.Good MemberLock.conflicts memberDiscipline)
    (hgame : server.committed.InGame watch.groupId watch.gameId) :
    (mount watch server).Follows watch
      (groupEvents server.committed watch.gameId watch.groupId).length
      (groupEvents server.committed watch.gameId watch.groupId).length where
  good := hgood
  game := hgame
  since := le_rfl
  begun := le_rfl
  past := le_rfl
  history junjoUserId := by
    refine ⟨(mount watch server).serverRoles watch junjoUserId, ?_⟩
    rw [changes_mount]
    rfl
  listed := listed_nil
  rows junjoUserId := by
    rw [changes_mount]
    exact .inl rfl
  held := .inl ⟨rfl, rfl⟩
  requested := {
    generations := fun r hr => absurd hr List.not_mem_nil
    refetches := rfl
    more := fun r hr => absurd hr List.not_mem_nil
    cursor := fun h => absurd rfl h
    reads := fun r hr => absurd hr List.not_mem_nil
    current := fun r hr => absurd hr List.not_mem_nil }

/-- A list that is done shows active members with the roles that the server has. -/
lemma Follows.shown (h : v.Follows watch base start) (hquiet : v.Quiet watch) {row : ListedMember}
    (hrow : row ∈ v.hook.state.items) : ∃ junjoUserId m,
      row.userId = watch.ids.userId junjoUserId ∧
      v.server.committed.findMember ⟨watch.groupId, junjoUserId⟩ = some m ∧
      m.status = .active ∧ row.status = m.status ∧ row.roles = m.roles := by
  obtain ⟨hdelivered, hrequests⟩ := hquiet
  have hstart : start = v.delivered := by
    rcases h.held with ⟨-, hstart⟩ | hheld
    · exact hstart
    · have hone := h.requested.refetches
      rw [hheld, hrequests] at hone
      cases hone
  obtain ⟨junjoUserId, huser⟩ := h.listed.named row hrow
  have hrows := h.rows junjoUserId
  rw [changes, hstart, hdelivered, List.drop_eq_nil_of_le (le_refl _), List.map_nil,
    SetChange.replay_nil, ← huser, h.listed.rolesOf hrow, serverRoles] at hrows
  rcases hrows with hrows | hrows
  · cases hrows
  · cases hm : v.server.committed.findMember ⟨watch.groupId, junjoUserId⟩ with
    | none =>
      rw [hm] at hrows
      cases hrows
    | some m =>
      rw [hm, activeRoles_some] at hrows
      split_ifs at hrows with hstatus
      exact ⟨junjoUserId, m, huser, hm, hstatus, (h.listed.active row hrow).trans hstatus.symm,
        Option.some.inj hrows⟩

end MembersView

open MembersView in
/-- In every run whose `member.joined` events show the stored roles, and whose pages of more rows
bring no row about which an event was delivered since the page was read, a list of active members
that is done shows members that are active, with the roles that the server has. -/
theorem members_converge {watch : MembersWatch} (hactive : watch.status = some .active)
    {start : MemberDb} {events : List (TxEvent MemberRequest)} {server : MemberServer}
    (hserver : MemberServer.run watch.verifySecret start events = some server)
    (hgame : server.committed.InGame watch.groupId watch.gameId) {steps : List MembersStep}
    {view : MembersView} (hrun : MembersView.run watch server steps = some view)
    (hsound : ∀ before step after v, steps = before ++ step :: after →
      MembersView.run watch server before = some v → v.Sound watch step)
    (hquiet : view.Quiet watch) :
    ∀ row ∈ view.hook.state.items, ∃ junjoUserId m,
      row.userId = watch.ids.userId junjoUserId ∧
      view.server.committed.findMember ⟨watch.groupId, junjoUserId⟩ = some m ∧
      m.status = .active ∧ row.status = m.status ∧ row.roles = m.roles := by
  obtain ⟨hgood, -⟩ := Database.run_commits MemberLock.conflicts_comm
    (keeps_members watch.verifySecret) (Database.good_start trivial) hserver
    fun _ _ _ db _ _ => Database.admitted (fun _ _ _ => trivial) db _
  have hfollows : ∃ position, view.Follows watch
      (groupEvents server.committed watch.gameId watch.groupId).length position := by
    refine runSteps_invariant_of (P := fun v : MembersView => ∃ position, v.Follows watch
      (groupEvents server.committed watch.gameId watch.groupId).length position)
      (C := fun (v : MembersView) step => v.Sound watch step) ?_
      ⟨_, follows_mount hgood hgame⟩ hrun hsound
    rintro v step v' ⟨position, hv⟩ hstep hnext
    exact hv.next hactive hstep hnext
  obtain ⟨position, hfollows⟩ := hfollows
  exact fun row hrow => hfollows.shown hquiet hrow

/-! ### A row that comes back -/

private def guild : MemberDb where
  __ := MemberDb.empty
  groups := Dict.empty.set (text "guild") ⟨text "game", text "clan", .isPublic, none, none, none⟩
  members := (Dict.empty.set ⟨text "guild", text "ann"⟩ (Member.create 1)).set
    ⟨text "guild", text "bob"⟩ (Member.create 2)

private def guildWatch : MembersWatch where
  verifySecret := fun _ _ => true
  ids := ⟨id, Function.injective_id⟩
  occurredAt := fun _ => 0
  gameId := text "game"
  groupId := text "guild"
  status := some .active

private def bobLeaves : List MembersStep :=
  .server (.start 0 (.leave ⟨⟨text "game", text "guild", text "bob", text "bob"⟩, 3⟩)) ::
    List.replicate 9 (.server (.advance 0))

/-- Two pages, and Bob leaves. -/
private def bobLeavesLast : List MembersStep :=
  [.refetch, .read 0 [(text "ann", none)] (some (text "cursor")), .arrive 0, .fetchMore,
    .read 0 [(text "bob", none)] none, .arrive 0] ++ bobLeaves ++ [.deliver]

/-- Bob leaves after the page with him was read, and the event is there before the page is. -/
private def bobLeavesBetween : List MembersStep :=
  [.refetch, .read 0 [(text "ann", none)] (some (text "cursor")), .arrive 0, .fetchMore,
    .read 0 [(text "bob", none)] none] ++ bobLeaves ++ [.deliver, .arrive 0]

private def isQuiet (watch : MembersWatch) (v : MembersView) : Bool :=
  decide (v.delivered = (v.events watch).length) && v.requests.isEmpty

private lemma quiet_of_isQuiet {watch : MembersWatch} {v : MembersView}
    (h : isQuiet watch v = true) : v.Quiet watch := by
  rw [isQuiet, Bool.and_eq_true] at h
  exact ⟨of_decide_eq_true h.1, List.isEmpty_iff.mp h.2⟩

/-- The writes are no joins, and a page of more rows is past what was delivered. -/
private def isSound (watch : MembersWatch) (v : MembersView) : MembersStep → Bool
  | .server e => (v.server.commitOf e).all fun a => !a.request.showsNoRoles
  | .arrive i => (v.requests[i]?).all fun r => r.read.all fun read =>
      !r.more || (((v.events watch).take v.delivered).drop read.logged).isEmpty
  | _ => true

private lemma sound_of_isSound {watch : MembersWatch} {v : MembersView} {step : MembersStep}
    (h : isSound watch v step = true) : v.Sound watch step := by
  cases step with
  | server e =>
    intro a ha hshows
    rw [isSound, ha, Option.all_some, hshows] at h
    cases h
  | arrive i =>
    intro r read hr hread hmore _ _ _ e he
    rw [isSound, hr, Option.all_some, hread, Option.all_some, hmore, Bool.not_true,
      Bool.false_or, List.isEmpty_iff] at h
    rw [h] at he
    cases he
  | _ => trivial

theorem members_converge_bobLeavesLast : ∃ view,
    MembersView.run guildWatch { committed := guild } bobLeavesLast = some view ∧
      ∀ row ∈ view.hook.state.items, ∃ junjoUserId m,
        row.userId = guildWatch.ids.userId junjoUserId ∧
        view.server.committed.findMember ⟨guildWatch.groupId, junjoUserId⟩ = some m ∧
        m.status = .active ∧ row.status = m.status ∧ row.roles = m.roles := by
  have hdone : (MembersView.run guildWatch { committed := guild } bobLeavesLast).any
      (isQuiet guildWatch) = true := by
    decide
  have hsound : (List.finRange bobLeavesLast.length).all (fun n =>
      (MembersView.run guildWatch { committed := guild } (bobLeavesLast.take n)).all fun v =>
        isSound guildWatch v (bobLeavesLast.get n)) = true := by
    decide
  obtain ⟨view, hrun, hquiet⟩ := (Option.any_eq_true _ _).mp hdone
  have hserver : MemberServer.run guildWatch.verifySecret guild [] = some { committed := guild } := rfl
  refine ⟨view, hrun, members_converge rfl hserver ⟨_, rfl, rfl⟩ hrun
    (forall_step_of_take fun n hn v hv => ?_) (quiet_of_isQuiet hquiet)⟩
  have hn := List.all_eq_true.mp hsound ⟨n, hn⟩ (List.mem_finRange _)
  rw [Option.all_eq_true] at hn
  exact sound_of_isSound (hn v hv)

/-- Bob's row is added after the event of his leaving was ignored, and stays. -/
theorem members_keep_who_left : ¬ ∀ (watch : MembersWatch) (start : MemberDb)
    (events : List (TxEvent MemberRequest)) (server : MemberServer) (steps : List MembersStep)
    (view : MembersView), watch.status = some .active →
    MemberServer.run watch.verifySecret start events = some server →
    server.committed.InGame watch.groupId watch.gameId →
    MembersView.run watch server steps = some view → view.Quiet watch →
    ∀ row ∈ view.hook.state.items, ∃ junjoUserId m,
      row.userId = watch.ids.userId junjoUserId ∧
      view.server.committed.findMember ⟨watch.groupId, junjoUserId⟩ = some m ∧
      m.status = .active ∧ row.status = m.status ∧ row.roles = m.roles := by
  intro h
  have hstale : (MembersView.run guildWatch { committed := guild } bobLeavesBetween).any (fun v =>
      isQuiet guildWatch v && v.hook.state.items.any (fun row => row.userId = text "bob") &&
        (v.server.committed.findMember ⟨text "guild", text "bob"⟩).all fun m =>
          m.status ≠ .active) = true := by
    decide
  obtain ⟨view, hrun, hstale⟩ := (Option.any_eq_true _ _).mp hstale
  rw [Bool.and_eq_true, Bool.and_eq_true, List.any_eq_true] at hstale
  obtain ⟨⟨hquiet, row, hrow, hbob⟩, hleft⟩ := hstale
  obtain ⟨junjoUserId, m, huser, hm, hactive, -⟩ := h guildWatch guild [] { committed := guild }
    bobLeavesBetween view rfl rfl ⟨_, rfl, rfl⟩ hrun (quiet_of_isQuiet hquiet) row hrow
  have hperson : junjoUserId = text "bob" := huser.symm.trans (of_decide_eq_true hbob)
  rw [hperson] at hm
  rw [Option.all_eq_true] at hleft
  exact of_decide_eq_true (hleft m hm) hactive

end Junjo.React
