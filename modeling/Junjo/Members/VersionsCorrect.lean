import Junjo.Members.Runs

/-!
# Versions count the writes

The version of a member counts the committed writes that changed the member. Their events carry the
version that they left, in the order of the log, and a conditional write commits on the version
that it names.
-/

namespace Junjo

/-- The version of a row; zero where there is none. -/
def versionOf (member : Option Member) : ℕ := (member.map Member.version).getD 0

namespace MemberRequest

/-- Whether a request counts as a change even where it sets what is stored: a PATCH with metadata,
or a ban. -/
def countsAlways : MemberRequest → Bool
  | .patch r => r.metadata.isSome
  | .ban _ => true
  | _ => false

/-- Whether a request decides what it changes on a row that it read before its transaction. -/
def decidesEarly : MemberRequest → Bool
  | .patch _ => true
  | .kickAdmin _ => true
  | _ => false

end MemberRequest

/-- The row on which a PATCH or a dashboard kick decided agrees with a row in status and notes. -/
def MemberResult.ReadCurrent (a : MemberResult) (m : Member) : Prop :=
  a.request.decidesEarly = true → ∃ m', a.checked = some m' ∧ m'.status = m.status ∧
    m'.notesPublic = m.notesPublic ∧ m'.notesPrivate = m.notesPrivate

/-! ### One write -/

section Steps

variable {a : MemberResult} {key : MemberKey} {old : Option Member} {new m : Member}
  {events : List MemberEvent} {plan : Plan} {now : ℤ}

lemma activated_version (old : Option Member) (now : ℤ) :
    (activated old now).version = versionOf old + 1 := by
  cases old <;> rfl

/-- A write leaves the next version, and its events carry it. -/
lemma MemberStep.version (h : MemberStep a key old new events) :
    new.version = versionOf old + 1 ∧ ∀ e ∈ events, e.memberVersion = new.version := by
  have hone : ∀ {e : MemberEvent}, events = [e] → e.memberVersion = new.version →
      ∀ e ∈ events, e.memberVersion = new.version := by
    rintro e rfl he e' he'
    rw [List.mem_singleton.mp he', he]
  cases h with
  | @entered _ now _ _ _ changes _ _ _ _ _ hchanges =>
    refine ⟨activated_version old now, fun e he => ?_⟩
    rcases List.mem_cons.mp he with rfl | he
    · rfl
    · obtain ⟨_, _, -, rfl⟩ := hchanges e he
      rfl
  | imported _ hplan hstatus =>
    refine ⟨Plan.row_version hplan hstatus, fun e he => ?_⟩
    simp only [Plan.events, List.mem_append, List.mem_ite_nil_right, List.mem_singleton] at he
    obtain (⟨-, rfl⟩ | ⟨-, rfl⟩) | ⟨-, rfl⟩ := he <;> rfl
  | _ => exact ⟨rfl, hone rfl rfl⟩

lemma Plan.overridesSet_eq (hplan : plan = Plan.make now plan.input (some m)) :
    plan.overridesSet = match plan.input.overrides with
      | none => []
      | some overrides => overrides.entries.filter fun e =>
          (m.overrides.get? e.1).map MemberOverride.grant ≠ some e.2.grant := by
  rw [hplan]; rfl

lemma Plan.overridesCleared_eq (hplan : plan = Plan.make now plan.input (some m)) :
    plan.overridesCleared = match plan.input.overrides with
      | none => []
      | some overrides => m.overrides.keys.filter fun slot => !overrides.has slot := by
  rw [hplan]; rfl

/-- The overrides of a row after an import that sets or clears some. -/
lemma Plan.overrides_changed (hplan : plan = Plan.make now plan.input (some m))
    (hchanged : plan.overridesSet ≠ [] ∨ plan.overridesCleared ≠ []) :
    (plan.applyRows m).overrides ≠ m.overrides := by
  intro hsame
  have hset := Plan.overridesSet_eq hplan
  have hcleared := Plan.overridesCleared_eq hplan
  cases hinput : plan.input.overrides with
  | none =>
    rw [hinput] at hset hcleared
    rcases hchanged with h | h
    · exact h hset
    · exact h hcleared
  | some overrides =>
    rw [hinput] at hset hcleared
    dsimp only at hset hcleared
    have hdistinct : (plan.overridesSet.map Prod.fst).Nodup := by
      rw [hset]
      exact overrides.nodup_keys.sublist (List.filter_sublist.map _)
    rcases hchanged with h | h
    · obtain ⟨e, he⟩ := List.exists_mem_of_ne_nil _ h
      have hfound : m.overrides.get? e.1 = some e.2 := by
        rw [← hsame]
        exact Dict.get?_foldl_set_of_mem _ hdistinct he
      rw [hset, List.mem_filter, hfound] at he
      simp at he
    · obtain ⟨slot, hslot⟩ := List.exists_mem_of_ne_nil _ h
      have hkept : slot ∉ plan.overridesSet.map Prod.fst := by
        intro hmem
        obtain ⟨e, he, rfl⟩ := List.mem_map.mp hmem
        rw [hset, List.mem_filter] at he
        rw [hcleared, List.mem_filter, Dict.has_iff.mpr (List.mem_map_of_mem he.1)] at hslot
        cases hslot.2
      have hnone : m.overrides.get? slot = none := by
        rw [← hsame]
        refine (Dict.get?_foldl_set_of_not_mem _ hdistinct hkept).trans ?_
        rw [Option.eq_none_iff_forall_ne_some]
        intro v hv
        rw [Dict.get?_eq_some_iff, Dict.entries_filter, List.mem_filter] at hv
        simp [hslot] at hv
      rw [hcleared, List.mem_filter] at hslot
      exact Dict.get?_eq_none_iff.mp hnone hslot.1

lemma Plan.status_of_reactivated (hplan : plan = Plan.make now plan.input (some m))
    (hstatus : plan.status = .reactivated) : m.status ≠ .active := by
  intro hactive
  rw [hplan, Plan.make] at hstatus
  simp only [Option.isNone_some, Option.any_some, hactive, ne_eq, not_true_eq_false,
    decide_false, Bool.false_and, Bool.false_eq_true, if_false] at hstatus
  split_ifs at hstatus

/-- An import that changes a row changes more than its version. -/
lemma Plan.apply_ne (hplan : plan = Plan.make now plan.input (some m))
    (hstatus : plan.status ≠ .unchanged) : { plan.apply m with version := m.version } ≠ m := by
  intro hsame
  have hactive : (plan.apply m).status = m.status := (congrArg Member.status hsame :)
  have hroles : (plan.apply m).roles = m.roles := (congrArg Member.roles hsame :)
  have hmetadata : (plan.apply m).metadata = m.metadata := (congrArg Member.metadata hsame :)
  have hoverrides : (plan.apply m).overrides = m.overrides := (congrArg Member.overrides hsame :)
  cases hplanned : plan.status with
  | created =>
    rw [hplan, Plan.status_created_iff] at hplanned
    cases hplanned
  | unchanged => exact hstatus hplanned
  | reactivated =>
    rw [Plan.apply, hplanned] at hactive
    exact Plan.status_of_reactivated hplan hplanned hactive.symm
  | updated =>
    rw [Plan.apply, hplanned] at hroles hmetadata hoverrides
    have hchanged := Plan.changed_of_updated (hplan ▸ hplanned)
    rw [← hplan] at hchanged
    rcases hchanged with hchanged | hchanged
    · have hfinal := (Plan.row_roles hplan).1
      have hsame : plan.finalRoleIds = m.roles := by
        rw [← hfinal, Plan.row, Plan.apply, hplanned]
        exact hroles
      have hadded : plan.rolesAdded = plan.finalRoleIds \ m.roles := by rw [hplan]; rfl
      have hremoved : plan.rolesRemoved = m.roles \ plan.finalRoleIds := by rw [hplan]; rfl
      rw [Plan.rolesChanged, hadded, hremoved, hsame, Finset.sdiff_self] at hchanged
      cases hchanged
    · simp only [Plan.changed, ne_eq, List.append_eq_nil_iff, ite_eq_right_iff, List.cons_ne_nil,
        imp_false, not_and_or, not_not, Bool.or_eq_true, decide_eq_true_eq] at hchanged
      rcases hchanged with hchanged | hchanged
      · have hany : (plan.input.metadata.any fun metadata =>
            canonicalJson metadata ≠ canonicalJson m.metadata) = true := by
          rw [← hchanged]
          conv_rhs => rw [hplan]
          rfl
        obtain ⟨metadata, hgiven, hne⟩ := (Option.any_eq_true _ _).mp hany
        rw [if_pos hchanged, hgiven, Option.getD_some] at hmetadata
        rw [show metadata = m.metadata from hmetadata] at hne
        simp at hne
      · exact Plan.overrides_changed hplan hchanged hoverrides

/-- A write that changes a member changes more than its version, unless it counts always or
decided on a row that is no more. -/
lemma MemberStep.changes (h : MemberStep a key (some m) new events)
    (hcounts : a.request.countsAlways = false) (hcurrent : a.ReadCurrent m) :
    { new with version := m.version } ≠ m := by
  intro hsame
  have hstatus : new.status = m.status := (congrArg Member.status hsame :)
  have hroles : new.roles = m.roles := (congrArg Member.roles hsame :)
  cases h with
  | @entered _ now _ _ _ _ hold _ _ _ _ _ =>
    refine hold m rfl ?_
    rw [← hstatus]
    exact activated_status _ now
  | departed hleft _ hactive =>
    have hactive : m.status = .active := by
      rcases hactive with ⟨hactive, -⟩ | ⟨⟨r, hr⟩, m', hm', hactive⟩
      · exact hactive
      · obtain ⟨m₂, hm₂, hsame, -⟩ := hcurrent (by rw [hr]; rfl)
        rw [hm', Option.some.injEq] at hm₂
        rw [← hsame, ← hm₂, hactive]
    rw [hactive] at hstatus
    rcases hleft with rfl | rfl <;> cases hstatus
  | banned hrequest =>
    obtain ⟨r, hr⟩ := hrequest
    rw [hr] at hcounts
    cases hcounts
  | unbanned hbanned _ =>
    rw [hbanned] at hstatus
    cases hstatus
  | patched hpatch hrequest =>
    obtain ⟨r, m', hr, hm', rfl⟩ := hrequest
    obtain ⟨m₂, hm₂, -, hpublic, hprivate⟩ := hcurrent (by rw [hr]; rfl)
    rw [hm', Option.some.injEq] at hm₂
    subst hm₂
    rw [hr, MemberRequest.countsAlways, Option.isSome_eq_false_iff, Option.isNone_iff_eq_none]
      at hcounts
    simp only [MemberPatch.changed, MemberPatch.diff, hcounts, Option.isSome_none,
      Bool.false_eq_true, if_false, List.nil_append, ne_eq, ite_eq_right_iff, List.cons_ne_nil,
      imp_false, not_not, Bool.or_eq_true] at hpatch
    rcases hpatch with hpatch | hpatch
    · obtain ⟨notes, hnotes⟩ := Option.isSome_iff_exists.mp hpatch
      have hkept : (MemberPatch.diff r m').notesPublic.getD m.notesPublic = m.notesPublic :=
        (congrArg Member.notesPublic hsame :)
      obtain ⟨-, hne⟩ := Option.filter_eq_some_iff.mp hnotes
      rw [MemberPatch.diff, hnotes, Option.getD_some] at hkept
      rw [hkept, hpublic] at hne
      simp at hne
    · obtain ⟨notes, hnotes⟩ := Option.isSome_iff_exists.mp hpatch
      have hkept : (MemberPatch.diff r m').notesPrivate.getD m.notesPrivate = m.notesPrivate :=
        (congrArg Member.notesPrivate hsame :)
      obtain ⟨-, hne⟩ := Option.filter_eq_some_iff.mp hnotes
      rw [MemberPatch.diff, hnotes, Option.getD_some] at hkept
      rw [hkept, hprivate] at hne
      simp at hne
  | roleAssigned hrole _ =>
    exact hrole (hroles ▸ Finset.mem_insert_self _ _)
  | roleUnassigned hrole _ =>
    rw [← hroles] at hrole
    exact Finset.notMem_erase _ _ hrole
  | overridden hoverrides _ =>
    obtain ⟨slot, hslot⟩ := hoverrides
    exact hslot (congrArg (fun m => (Member.overrides m).get? slot) hsame)
  | imported _ hplan hstatus' => exact Plan.apply_ne hplan hstatus' hsame

end Steps

/-! ### Runs -/

/-- The committed writes that changed a member. -/
def changingWrites (key : MemberKey) (log : List MemberResult) : List MemberResult :=
  log.filter fun a => !(a.eventsOf key).isEmpty

/-- What a commit does to a member's row and version. -/
def Commit.Counts (c : Commit MemberDb MemberResult) (key : MemberKey) : Prop :=
  (c.after.findMember key = c.before.findMember key ∧ c.result.eventsOf key = []) ∨
    ∃ new, c.after.findMember key = some new ∧
      new.version = versionOf (c.before.findMember key) + 1 ∧
      c.result.eventsOf key ≠ [] ∧ (∀ e ∈ c.result.eventsOf key, e.memberVersion = new.version) ∧
      ∀ m, c.before.findMember key = some m → c.result.request.countsAlways = false →
        c.result.ReadCurrent m → { new with version := m.version } ≠ m

/-- How the version of a member goes along with its row and its events in a run. -/
structure VersionLockstep (verifySecret : Text → Text → Bool) (start : MemberDb)
    (events : List (TxEvent MemberRequest)) (server : MemberServer) (key : MemberKey) : Prop where
  counts : ∀ c ∈ MemberServer.commits verifySecret start events, c.Counts key
  /-- Events that commit nothing leave the store. -/
  refused : ∀ before e after server₁ server₂, events = before ++ e :: after →
    MemberServer.run verifySecret start before = some server₁ →
    MemberServer.next verifySecret server₁ e = some server₂ → server₁.commitOf e = none →
    server₂.committed = server₁.committed
  version : versionOf (server.committed.findMember key) =
    versionOf (start.findMember key) + (changingWrites key server.log).length
  /-- A conditional write of a row that is there. -/
  ifMatch : ∀ c ∈ MemberServer.commits verifySecret start events, ∀ v m,
    c.result.request.ifMatch = some (key, v) → c.result.eventsOf key ≠ [] →
    c.before.findMember key = some m → m.version = v
  /-- Equal versions show equal rows. -/
  state : ∀ before after server₁, events = before ++ after →
    MemberServer.run verifySecret start before = some server₁ →
    versionOf (server.committed.findMember key) = versionOf (server₁.committed.findMember key) →
    server.committed.findMember key = server₁.committed.findMember key
  logged : ∀ gameId, server.committed.InGame key.groupId gameId →
    server.committed.memberEvents gameId key =
      start.memberEvents gameId key ++ server.log.flatMap (·.eventsOf key)
  /-- Each event carries the version that its own write left, counted from the start. -/
  carried : ∀ before a after, server.log = before ++ a :: after → ∀ e ∈ a.eventsOf key,
    e.memberVersion = versionOf (start.findMember key) + (changingWrites key before).length + 1
  /-- Events of later writes carry later versions. -/
  ordered : ∀ before a middle b after, server.log = before ++ a :: (middle ++ b :: after) →
    ∀ e ∈ a.eventsOf key, ∀ e' ∈ b.eventsOf key, e.memberVersion < e'.memberVersion

section Runs

variable {a : MemberResult} {held : List MemberLock} {db db' : MemberDb} {key : MemberKey}
  {verifySecret : Text → Text → Bool} {start : MemberDb} {events : List (TxEvent MemberRequest)}
  {server server₁ : MemberServer}

lemma MemberDb.Written.counts (h : MemberDb.Written a held db db') (key : MemberKey) :
    Commit.Counts ⟨a, db, db'⟩ key := by
  obtain hsame | ⟨new, hnew, hstep⟩ := h.member key
  · exact .inl hsame
  · obtain ⟨hversion, hevents⟩ := hstep.version
    refine .inr ⟨new, hnew, hversion, hstep.events_ne, hevents, fun m hm hcounts hcurrent => ?_⟩
    rw [hm] at hstep
    exact hstep.changes hcounts hcurrent

lemma changingWrites_append (key : MemberKey) (log log' : List MemberResult) :
    changingWrites key (log ++ log') = changingWrites key log ++ changingWrites key log' :=
  List.filter_append _ _

lemma changingWrites_of_unchanged {c : Commit MemberDb MemberResult}
    (h : c.result.eventsOf key = []) : changingWrites key [c.result] = [] := by
  simp [changingWrites, h]

lemma changingWrites_of_changed {c : Commit MemberDb MemberResult}
    (h : c.result.eventsOf key ≠ []) : changingWrites key [c.result] = [c.result] := by
  simp [changingWrites, h]

/-- The version counts the writes, and the events of each carry the version that it left. -/
lemma version_of_run (hrun : MemberServer.run verifySecret start events = some server)
    (key : MemberKey) :
    versionOf (server.committed.findMember key) =
      versionOf (start.findMember key) + (changingWrites key server.log).length ∧
    ∀ before a after, server.log = before ++ a :: after → ∀ e ∈ a.eventsOf key,
      e.memberVersion =
        versionOf (start.findMember key) + (changingWrites key before).length + 1 := by
  refine MemberServer.run_induct (J := fun db log => versionOf (db.findMember key) =
      versionOf (start.findMember key) + (changingWrites key log).length ∧
    ∀ before a after, log = before ++ a :: after → ∀ e ∈ a.eventsOf key, e.memberVersion =
      versionOf (start.findMember key) + (changingWrites key before).length + 1) hrun ?_
    ⟨rfl, fun before a after h => by simp at h⟩
  rintro c - log ⟨held, hwritten⟩ ⟨hversion, hevents⟩
  have hold : ∀ before a after, log ++ [c.result] = before ++ a :: after →
      (a = c.result ∧ before = log) ∨ ∃ after', log = before ++ a :: after' := by
    intro before a after hsplit
    rcases List.eq_nil_or_concat after with rfl | ⟨after, last, rfl⟩
    · obtain ⟨hlog, hlast⟩ := List.append_inj' hsplit rfl
      exact .inl ⟨by simpa using hlast.symm, hlog.symm⟩
    · rw [List.concat_eq_append, ← List.cons_append, ← List.append_assoc] at hsplit
      exact .inr ⟨after, (List.append_inj' hsplit rfl).1⟩
  obtain ⟨hsame, hnone⟩ | ⟨new, hnew, hnext, hsome, hcarry, -⟩ := hwritten.counts key
  · rw [changingWrites_append, changingWrites_of_unchanged hnone, List.append_nil, hsame]
    refine ⟨hversion, fun before a after hsplit e he => ?_⟩
    rcases hold before a after hsplit with ⟨rfl, -⟩ | ⟨after', hlog⟩
    · rw [hnone] at he
      cases he
    · exact hevents before a after' hlog e he
  · rw [changingWrites_append, changingWrites_of_changed hsome, List.length_append, hnew]
    dsimp only at hnext
    refine ⟨by rw [versionOf, Option.map_some, Option.getD_some, hnext, hversion]; rfl, ?_⟩
    intro before a after hsplit e he
    rcases hold before a after hsplit with ⟨rfl, rfl⟩ | ⟨after', hlog⟩
    · rw [hcarry e he, hnext, hversion]
    · exact hevents before a after' hlog e he

/-- Equal versions show equal rows. -/
lemma state_of_commits
    (hrun : runSteps (MemberServer.next verifySecret) server₁ events = some server)
    (hcommits : ∀ c ∈ Database.commits MemberLock.conflicts (MemberRequest.program verifySecret)
      server₁ events, c.Counts key) :
    versionOf (server₁.committed.findMember key) ≤ versionOf (server.committed.findMember key) ∧
      (versionOf (server.committed.findMember key) =
        versionOf (server₁.committed.findMember key) →
        server.committed.findMember key = server₁.committed.findMember key) := by
  refine Database.commits_induct (J := fun db _ =>
    versionOf (server₁.committed.findMember key) ≤ versionOf (db.findMember key) ∧
      (versionOf (db.findMember key) = versionOf (server₁.committed.findMember key) →
        db.findMember key = server₁.committed.findMember key)) hrun ?_ ⟨le_rfl, fun _ => rfl⟩
  rintro c hc log ⟨hle, hstate⟩
  obtain ⟨hsame, -⟩ | ⟨new, hnew, hnext, -⟩ := hcommits c hc
  · rw [hsame]
    exact ⟨hle, hstate⟩
  · have hversion : versionOf (c.after.findMember key) = versionOf (c.before.findMember key) + 1 := by
      rw [hnew, versionOf, Option.map_some, Option.getD_some, hnext]
    exact ⟨by omega, fun heq => by omega⟩

/-- The log of a member's game gets the events of each write, in the order of the commits. -/
lemma logged_of_run (hrun : MemberServer.run verifySecret start events = some server)
    {gameId : Text} (hgame : server.committed.InGame key.groupId gameId) :
    server.committed.memberEvents gameId key =
      start.memberEvents gameId key ++ server.log.flatMap (·.eventsOf key) := by
  refine MemberServer.run_induct (J := fun db log =>
    (∀ gameId', db.InGame key.groupId gameId' → gameId' = gameId) →
      db.memberEvents gameId key =
        start.memberEvents gameId key ++ log.flatMap (·.eventsOf key)) hrun ?_ ?_
    fun gameId' hgame' => hgame'.unique hgame
  · rintro c - log ⟨held, hwritten⟩ hbefore honly
    rw [hwritten.memberEvents, hbefore fun gameId' hgame' => honly gameId' (hwritten.inGame hgame'),
      List.flatMap_append, List.append_assoc]
    congr 2
    rw [List.flatMap_singleton]
    split_ifs with heq
    · rfl
    · by_contra hevents
      exact heq (honly _ (hwritten.game fun hnone => hevents hnone.symm))
  · intro _
    rw [List.flatMap_nil, List.append_nil]

/-- In every run of membership writes the versions of each member go along with its row and its
events. -/
theorem member_lockstep (hrun : MemberServer.run verifySecret start events = some server)
    (key : MemberKey) : VersionLockstep verifySecret start events server key := by
  have hcounts : ∀ c ∈ MemberServer.commits verifySecret start events, c.Counts key := by
    intro c hc
    obtain ⟨held, hwritten⟩ := MemberServer.commit_written hc
    exact hwritten.counts key
  obtain ⟨hversion, hcarried⟩ := version_of_run hrun key
  refine ⟨hcounts, ?_, hversion, ?_, ?_, fun gameId hgame => logged_of_run hrun hgame, hcarried, ?_⟩
  · intro before e after server₁ server₂ _ _ hnext hnone
    rcases Database.next_commitOf hnext with ⟨-, hsame, -⟩ | ⟨a, ha, -⟩
    · exact hsame
    · rw [hnone] at ha
      cases ha
  · intro c hc v m hmatch hevents hm
    obtain ⟨held, db₁, hchanged, hafter⟩ := MemberServer.commit_written hc
    exact hchanged.ifMatch key v m hmatch hevents hm
  · rintro before after server₁ rfl hbefore heq
    rw [MemberServer.run, runSteps_append] at hrun
    obtain ⟨server₂, hserver₂, hafter⟩ := Option.bind_eq_some_iff.mp hrun
    rw [MemberServer.run, hserver₂, Option.some.injEq] at hbefore
    subst hbefore
    refine (state_of_commits hafter fun c hc => hcounts c ?_).2 heq
    rw [MemberServer.commits, Database.commits_append hserver₂]
    exact List.mem_append_right _ hc
  · intro before a middle b after hlog e he e' he'
    rw [hcarried before a _ hlog e he, hcarried (before ++ a :: middle) b after (by simp [hlog]) e' he',
      changingWrites_append, List.length_append, changingWrites, changingWrites,
      List.filter_cons_of_pos (by simpa using List.ne_nil_of_mem he), List.length_cons]
    omega

end Runs

/-! ### Metadata that is stored already -/

private def plainTarget : MemberTarget := ⟨text "game", text "guild", text "ann", text "ann"⟩

/-- A group with one member. -/
private def oneMember : MemberDb where
  __ := MemberDb.empty
  groups := Dict.empty.set (text "guild") ⟨text "game", text "clan", .isPublic, none, none, none⟩
  members := Dict.empty.set plainTarget.key (Member.create 0)

/-- Two PATCHes with the metadata that the member has. -/
private def patchTwice : List (TxEvent MemberRequest) :=
  .start 0 (.patch ⟨plainTarget, some (.obj []), none, none, none⟩) ::
    .start 1 (.patch ⟨plainTarget, some (.obj []), none, none, some 2⟩) ::
    (List.replicate 6 (.advance 0) ++ List.replicate 6 (.advance 1))

/-- Whether a row is the one of a new member, up to its version. -/
private def isPlain (m : Member) : Bool :=
  m.status = .active && (match m.metadata with | .obj [] => true | _ => false) &&
    m.notesPublic = none && m.notesPrivate = none && m.joinedAt = 0 && m.leftAt = none &&
    m.bannedUntil = none && m.roles = ∅ && m.overrides.entries.isEmpty

private lemma eq_of_isPlain {m : Member} (h : isPlain m = true) :
    m = { Member.create 0 with version := m.version } := by
  obtain ⟨status, metadata, notesPublic, notesPrivate, joinedAt, leftAt, bannedUntil, version, roles,
    overrides⟩ := m
  simp only [isPlain, Bool.and_eq_true, decide_eq_true_eq, List.isEmpty_iff] at h
  obtain ⟨⟨⟨⟨⟨⟨⟨⟨rfl, hmetadata⟩, rfl⟩, rfl⟩, rfl⟩, rfl⟩, rfl⟩, rfl⟩, hoverrides⟩ := h
  have hempty : overrides = Dict.empty := Dict.ext_entries hoverrides
  split at hmetadata
  · rw [hempty]
    rfl
  · cases hmetadata

theorem member_lockstep_patchTwice : ∃ server,
    MemberServer.run (fun _ _ => true) oneMember patchTwice = some server ∧
      server.log.length = 2 ∧
      VersionLockstep (fun _ _ => true) oneMember patchTwice server plainTarget.key := by
  have hboth : (MemberServer.run (fun _ _ => true) oneMember patchTwice).map (fun server =>
      server.log.length) = some 2 := by
    decide
  obtain ⟨server, hrun, hlog⟩ := Option.map_eq_some_iff.mp hboth
  exact ⟨server, hrun, hlog, member_lockstep hrun plainTarget.key⟩

/-- The version rises though nothing else changes. -/
theorem version_raised_by_same_metadata : ¬ ∀ (verifySecret : Text → Text → Bool)
    (start : MemberDb) (events : List (TxEvent MemberRequest)),
    ∀ c ∈ MemberServer.commits verifySecret start events, ∀ key m m',
      c.before.findMember key = some m → c.after.findMember key = some m' →
      { m' with version := m.version } = m → m'.version = m.version := by
  intro h
  have hraised : (MemberServer.commits (fun _ _ => true) oneMember patchTwice).any (fun c =>
      ((c.before.findMember plainTarget.key).any fun m => isPlain m && m.version = 1) &&
        ((c.after.findMember plainTarget.key).any fun m => isPlain m && m.version = 2)) = true := by
    decide
  obtain ⟨c, hc, hraised⟩ := List.any_eq_true.mp hraised
  rw [Bool.and_eq_true, Option.any_eq_true, Option.any_eq_true] at hraised
  obtain ⟨⟨m, hm, hplain⟩, m', hm', hplain'⟩ := hraised
  rw [Bool.and_eq_true, decide_eq_true_eq] at hplain hplain'
  have hsame : { m' with version := m.version } = m := by
    rw [eq_of_isPlain hplain.1, eq_of_isPlain hplain'.1]
  have hversion := h _ _ _ c hc plainTarget.key m m' hm hm' hsame
  rw [hplain.2, hplain'.2] at hversion
  cases hversion

end Junjo
