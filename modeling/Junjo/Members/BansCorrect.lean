import Junjo.Members.Runs

/-!
# Bans last

A ban is given up only by an unban, by its expiry or by an import, where every write whose check of
the ban or of the status comes before its transaction would be answered the same on the row that it
writes. A ban that commits in between is lost.
-/

namespace Junjo

/-- The member whose ban or status a request checks before its transaction only, with the clock of
the request. -/
def MemberRequest.earlyCheck (db : MemberDb) (request : MemberRequest) : Option (MemberKey × ℤ) :=
  match request with
  | .accept r => (db.invitations.get? r.code).map fun i =>
      (⟨i.groupId, r.junjoUserId⟩, r.checkedAt)
  | _ => request.target.bind fun key => request.earlyClock.map (key, ·)

/-- The clock by which a request judges whether a ban has expired. -/
def MemberRequest.clock : MemberRequest → Option ℤ
  | .importMembers r => some r.now
  | request => request.earlyClock

/-- A write whose check came before its transaction, and that changed the member it checked, would
have been answered the same at its commit: no ban of the member committed in between. -/
def MemberResult.BannedAsChecked (a : MemberResult) (db : MemberDb) : Prop :=
  ∀ key t, a.request.earlyCheck db = some (key, t) → a.eventsOf key ≠ [] →
    isGroupBanned (db.findMember key) t = isGroupBanned a.checked t

/-- What gives up a ban: an unban, the expiry of the ban by the clock of the write, or an import
that may change it. -/
def MemberResult.MayRelease (a : MemberResult) (key : MemberKey) (bannedUntil : Option ℤ) : Prop :=
  (∃ r, a.request = .unban r ∧ r.key = key) ∨
    (∃ t, a.request.clock = some t ∧ isActiveUntil bannedUntil t = false) ∨
    ∃ r, a.request = .importMembers r ∧ r.allowBanned = true

/-- In every event of a run a banned member stays so, or the event commits a write that may give
the ban up. -/
def BansLast (verifySecret : Text → Text → Bool) (start : MemberDb)
    (events : List (TxEvent MemberRequest)) : Prop :=
  ∀ before e after server₁ server₂, events = before ++ e :: after →
    MemberServer.run verifySecret start before = some server₁ →
    MemberServer.next verifySecret server₁ e = some server₂ →
    ∀ key m, server₁.committed.findMember key = some m → m.status = .banned →
      ∃ m', server₂.committed.findMember key = some m' ∧ (m'.status = .banned ∨
        ∃ a, server₁.commitOf e = some a ∧ a.MayRelease key m.bannedUntil)

/-! ### One commit -/

section Commits

variable {a : MemberResult} {held : List MemberLock} {db db' : MemberDb} {key : MemberKey}
  {now t : ℤ} {m : Member}

lemma isGroupBanned_of_banned (hstatus : m.status = .banned) :
    isGroupBanned (some m) t = isActiveUntil m.bannedUntil t := by
  simp [isGroupBanned, hstatus]

lemma isGroupBanned_of_active (hstatus : m.status = .active) :
    isGroupBanned (some m) t = false := by
  simp [isGroupBanned, hstatus]

/-- An import keeps a ban that is not over. -/
lemma Plan.apply_banned {input : ImportRow} (hstatus : m.status = .banned)
    (hlasts : isActiveUntil m.bannedUntil now = true) :
    ((Plan.make now input (some m)).apply m).status = .banned := by
  have hne : (Plan.make now input (some m)).status ≠ .reactivated := by
    rw [Plan.make]
    dsimp only
    rw [isGroupBanned_of_banned hstatus, hlasts]
    split_ifs <;> simp_all
  rw [Plan.apply]
  split
  · rename_i hreactivated
    exact absurd hreactivated hne
  · exact hstatus
  · exact hstatus

/-- The clock of an early check is the one that the write judges by. -/
lemma MemberRequest.clock_of_earlyClock {request : MemberRequest}
    (h : request.earlyClock = some t) : request.clock = some t := by
  cases request <;> first | exact h | cases h

lemma MemberRequest.earlyClock_of_checkedAt {request : MemberRequest}
    (h : request.checkedAt = some t) : request.earlyClock = some t := by
  cases request <;> first | exact h | cases h

/-- The early check of a write that makes someone active is of that member. -/
lemma earlyCheck_of_checkedAt (hwritten : MemberDb.Written a held db db')
    (htarget : ∀ k, a.request.target = some k → k = key) (ht : a.request.checkedAt = some t)
    (hchanged : db'.findMember key ≠ db.findMember key) :
    a.request.earlyCheck db = some (key, t) := by
  have hnamed : ∀ {k}, a.request.target = some k →
      (a.request.target.bind fun key => a.request.earlyClock.map (key, ·)) = some (key, t) := by
    intro k hk
    rw [hk, MemberRequest.earlyClock_of_checkedAt ht, Option.bind_some, Option.map_some,
      htarget k hk]
  obtain ⟨db₁, hwritten, rfl⟩ := hwritten
  rw [MemberDb.findMember_logged] at hchanged
  cases hrequest : a.request with
  | accept r =>
    obtain ⟨i, hi⟩ := hwritten.accepted r hrequest
    have hkey : key = ⟨i.groupId, r.junjoUserId⟩ := by
      by_contra hne
      exact hchanged (hi.others key hne)
    rw [hrequest] at ht
    cases ht
    rw [MemberRequest.earlyCheck, hi.found, Option.map_some, hkey]
  | join r =>
    rw [hrequest] at hnamed
    exact hnamed rfl
  | add r =>
    rw [hrequest] at hnamed
    exact hnamed rfl
  | addAgain r limits checked passed =>
    rw [hrequest] at hnamed
    exact hnamed rfl
  | _ =>
    rw [hrequest] at ht
    cases ht

/-- A banned member stays so, or something gave the ban up. -/
lemma MemberDb.Written.ban_lasts (hwritten : MemberDb.Written a held db db')
    (hchecked : a.BannedAsChecked db) (hm : db.findMember key = some m)
    (hbanned : m.status = .banned) : ∃ m', db'.findMember key = some m' ∧
      (m'.status = .banned ∨ a.MayRelease key m.bannedUntil) := by
  obtain ⟨hsame, -⟩ | ⟨new, hnew, hstep⟩ := hwritten.member key
  · exact ⟨m, hsame.trans hm, .inl hbanned⟩
  refine ⟨new, hnew, ?_⟩
  -- An early check that let the write through says that the ban is over.
  have hover : ∀ {t}, a.request.earlyCheck db = some (key, t) → a.eventsOf key ≠ [] →
      isGroupBanned a.checked t = false → a.request.earlyClock = some t →
      a.MayRelease key m.bannedUntil := by
    intro t hearly hevents hpassed hclock
    have hban := hchecked key t hearly hevents
    rw [hm, isGroupBanned_of_banned hbanned, hpassed] at hban
    exact .inr (.inl ⟨t, MemberRequest.clock_of_earlyClock hclock, hban⟩)
  generalize hold : db.findMember key = old at hstep
  generalize hlog : a.eventsOf key = logged at hstep hover
  rw [hm] at hold
  cases hstep with
  | @entered _ now _ _ _ _ _ htarget hcheck hchecks _ _ =>
    right
    rcases hchecks with hnone | ⟨t, ht⟩
    · rw [hnone] at hold
      cases hold
    · have hclock := MemberRequest.earlyClock_of_checkedAt ht
      refine hover (earlyCheck_of_checkedAt hwritten htarget ht ?_) (by simp) (hcheck t hclock) hclock
      rw [hnew, hm, ← hold]
      intro heq
      have hactive := congrArg Member.status (Option.some.inj heq)
      dsimp only at hactive
      rw [activated_status, hbanned] at hactive
      cases hactive
  | departed _ htarget hactive =>
    cases hold
    right
    rcases hactive with ⟨hactive, -⟩ | ⟨⟨r, hr⟩, m', hm', hactive⟩
    · rw [hactive] at hbanned
      cases hbanned
    · have hclock : a.request.earlyClock = some r.now := by rw [hr]; rfl
      refine hover ?_ (by simp) ?_ hclock
      · rw [hr] at htarget ⊢
        cases htarget
        rfl
      · rw [hm', isGroupBanned_of_active hactive]
  | banned _ => exact .inl rfl
  | bannedNew _ => exact .inl rfl
  | unbanned _ hrequest => exact .inr (.inl hrequest)
  | patched _ _ =>
    cases hold
    exact .inl hbanned
  | roleAssigned _ _ =>
    cases hold
    exact .inl hbanned
  | roleUnassigned _ _ =>
    cases hold
    exact .inl hbanned
  | overridden _ _ =>
    cases hold
    exact .inl hbanned
  | @imported _ r plan hrequest hplan _ =>
    subst hold
    cases hlasts : isActiveUntil m.bannedUntil r.now with
    | true =>
      refine .inl ?_
      rw [hplan]
      exact Plan.apply_banned hbanned hlasts
    | false => exact .inr (.inr (.inl ⟨r.now, by rw [hrequest]; rfl, hlasts⟩))

lemma MemberRequest.earlyClock_of_earlyCheck {request : MemberRequest}
    (h : request.earlyCheck db = some (key, t)) : request.earlyClock = some t := by
  unfold MemberRequest.earlyCheck at h
  split at h
  · obtain ⟨i, -, hpair⟩ := Option.map_eq_some_iff.mp h
    cases hpair
    rfl
  · obtain ⟨_, -, hclock⟩ := Option.bind_eq_some_iff.mp h
    obtain ⟨_, hclock, hpair⟩ := Option.map_eq_some_iff.mp hclock
    cases hpair
    exact hclock

/-- Of the requests with an early check only the expiry gives up a ban. -/
lemma MemberResult.MayRelease.expired {bannedUntil : Option ℤ}
    (h : a.MayRelease key bannedUntil) (hclock : a.request.earlyClock = some t) :
    isActiveUntil bannedUntil t = false := by
  obtain ⟨r, hr, -⟩ | ⟨t', ht', hover⟩ | ⟨r, hr, -⟩ := h
  · rw [hr] at hclock
    cases hclock
  · rw [MemberRequest.clock_of_earlyClock hclock, Option.some.injEq] at ht'
    rwa [ht']
  · rw [hr] at hclock
    cases hclock

/-- A write that changed the member it checked and gave up no ban was checked on that row. -/
lemma MemberDb.Written.banned_as_checked (hwritten : MemberDb.Written a held db db')
    (hlasts : ∀ key m, db.findMember key = some m → m.status = .banned →
      ∃ m', db'.findMember key = some m' ∧ (m'.status = .banned ∨ a.MayRelease key m.bannedUntil)) :
    a.BannedAsChecked db := by
  intro key t hearly hevents
  have hclock := MemberRequest.earlyClock_of_earlyCheck hearly
  obtain ⟨-, hnone⟩ | ⟨new, hnew, hstep⟩ := hwritten.member key
  · exact absurd hnone hevents
  have hfree : new.status ≠ .banned → isGroupBanned (db.findMember key) t = false := by
    intro hstatus
    cases hold : db.findMember key with
    | none => rfl
    | some m =>
      by_cases hbanned : m.status = .banned
      · obtain ⟨m', hm', hkept | hreleased⟩ := hlasts key m hold hbanned
        · rw [hnew, Option.some.injEq] at hm'
          exact absurd (hm' ▸ hkept) hstatus
        · rw [isGroupBanned_of_banned hbanned, hreleased.expired hclock]
      · simp [isGroupBanned, hbanned]
  have hlate : ∀ {request}, a.request = request → request.earlyClock = none →
      isGroupBanned (db.findMember key) t = isGroupBanned a.checked t := by
    rintro _ rfl hnone
    rw [hnone] at hclock
    cases hclock
  generalize hold : db.findMember key = old at hstep hfree hlate
  generalize a.eventsOf key = logged at hstep
  cases hstep with
  | @entered _ now _ _ _ _ _ _ hcheck _ _ _ =>
    rw [hcheck t hclock]
    refine hfree fun hstatus => ?_
    dsimp only at hstatus
    rw [activated_status] at hstatus
    cases hstatus
  | departed hstatus _ hactive =>
    rcases hactive with ⟨-, hnone⟩ | ⟨-, m', hm', hactive⟩
    · exact hlate rfl hnone
    · rw [hm', isGroupBanned_of_active hactive]
      refine hfree fun hbanned => ?_
      rcases hstatus with rfl | rfl <;> cases hbanned
  | banned hrequest =>
    obtain ⟨r, hr⟩ := hrequest
    exact hlate hr rfl
  | bannedNew hrequest =>
    obtain ⟨r, hr⟩ := hrequest
    exact hlate hr rfl
  | unbanned _ hrequest =>
    obtain ⟨r, hr, -⟩ := hrequest
    exact hlate hr rfl
  | patched _ hrequest =>
    obtain ⟨r, -, hr, -⟩ := hrequest
    exact hlate hr rfl
  | roleAssigned _ hcheck =>
    obtain ⟨hactive, hpassed⟩ := hcheck t hclock
    rw [isGroupBanned_of_active hactive, hpassed]
  | roleUnassigned _ hrequest => exact hlate rfl hrequest
  | overridden _ hrequest => exact hlate rfl hrequest
  | imported hrequest _ _ => exact hlate hrequest rfl

end Commits

/-! ### Runs -/

/-- Bans last exactly in the runs whose early checks would be answered the same at the commits. -/
theorem bans_last_iff (verifySecret : Text → Text → Bool) (start : MemberDb)
    (events : List (TxEvent MemberRequest)) :
    BansLast verifySecret start events ↔
      ∀ c ∈ MemberServer.commits verifySecret start events, c.result.BannedAsChecked c.before := by
  constructor
  · intro h c hc
    obtain ⟨held, hwritten⟩ := MemberServer.commit_written hc
    obtain ⟨before, e, after, server₁, server₂, hsplit, hrun, hnext, ha, hbefore, hafter⟩ :=
      Database.commits_split hc
    refine hwritten.banned_as_checked fun key m hm hbanned => ?_
    rw [hbefore] at hm
    obtain ⟨m', hm', hlasts⟩ := h before e after server₁ server₂ hsplit hrun hnext key m hm hbanned
    refine ⟨m', hafter ▸ hm', hlasts.imp_right ?_⟩
    rintro ⟨a, ha', hrelease⟩
    rw [ha, Option.some.injEq] at ha'
    exact ha' ▸ hrelease
  · intro h before e after server₁ server₂ hsplit hrun hnext key m hm hbanned
    rcases Database.next_commitOf hnext with ⟨-, hsame, -⟩ | ⟨a, ha, -⟩
    · exact ⟨m, by rw [hsame, hm], .inl hbanned⟩
    · have hc : ⟨a, server₁.committed, server₂.committed⟩ ∈
          MemberServer.commits verifySecret start events :=
        hsplit ▸ Database.mem_commits hrun hnext ha
      obtain ⟨held, hwritten⟩ := MemberServer.commit_written hc
      obtain ⟨m', hm', hlasts⟩ := hwritten.ban_lasts (h _ hc) hm hbanned
      exact ⟨m', hm', hlasts.imp_right fun hrelease => ⟨a, ha, hrelease⟩⟩

/-! ### A join that a ban overtakes -/

/-- A group that anyone may join. -/
private def openGroup : MemberDb where
  __ := MemberDb.empty
  groups := Dict.empty.set (text "guild") ⟨text "game", text "clan", .isPublic, none, none, none⟩

private def banTarget : MemberTarget := ⟨text "game", text "guild", text "ann", text "ann"⟩

/-- Someone finds that she is not banned, is banned, and joins. -/
private def joinAcrossBan : List (TxEvent MemberRequest) :=
  .start 0 (.join ⟨banTarget, none, true, 1, 4⟩) :: List.replicate 3 (.advance 0) ++
    .start 1 (.ban ⟨banTarget, none, none, none, 2⟩) :: List.replicate 8 (.advance 1) ++
    List.replicate 7 (.advance 0)

/-- The ban that has no end is gone after a join. -/
theorem ban_lost_by_join : ¬ ∀ (verifySecret : Text → Text → Bool) (start : MemberDb)
    (events : List (TxEvent MemberRequest)), BansLast verifySecret start events := by
  intro h
  have hlost : (MemberServer.commits (fun _ _ => true) openGroup joinAcrossBan).any (fun c =>
      ((c.before.statusOf banTarget.key).any fun s => s.1 = .banned && s.2 = none) &&
        ((c.after.statusOf banTarget.key).any fun s => s.1 = .active) &&
        match c.result.request with
        | .join r => r.checkedAt = 1
        | _ => false) = true := by
    decide
  obtain ⟨c, hc, hlost⟩ := List.any_eq_true.mp hlost
  rw [Bool.and_eq_true, Bool.and_eq_true, Option.any_eq_true, Option.any_eq_true] at hlost
  obtain ⟨⟨⟨status, hstatus, hbanned⟩, status', hstatus', hactive⟩, hjoin⟩ := hlost
  obtain ⟨m, hm, rfl⟩ := Option.map_eq_some_iff.mp hstatus
  obtain ⟨m', hm', rfl⟩ := Option.map_eq_some_iff.mp hstatus'
  simp only [Bool.and_eq_true, decide_eq_true_eq] at hbanned hactive
  obtain ⟨before, e, after, server₁, server₂, hsplit, hrun, hnext, ha, hbefore, hafter⟩ :=
    Database.commits_split hc
  obtain ⟨m₂, hm₂, hlasts⟩ := h _ _ _ before e after server₁ server₂ hsplit hrun hnext
    banTarget.key m (hbefore ▸ hm) hbanned.1
  rw [← hafter, hm', Option.some.injEq] at hm₂
  subst hm₂
  split at hjoin
  · rename_i r hr
    rw [hactive] at hlasts
    obtain ⟨⟨⟩⟩ | ⟨a, ha', hrelease⟩ := hlasts
    rw [ha, Option.some.injEq] at ha'
    subst ha'
    have hover := hrelease.expired (t := r.checkedAt) (by rw [hr]; rfl)
    rw [hbanned.2] at hover
    cases hover
  · cases hjoin

end Junjo
